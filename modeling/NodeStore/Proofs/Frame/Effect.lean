import NodeStore.Proofs.Frame.Locality
import NodeStore.Proofs.Frame.Restore
import NodeStore.Proofs.InstanceSet

/-!
# What an operation does

An operation fails and leaves the frame as it was, or looks at it, or writes one attribute of one
instance, or seals, or it is one of the three on the frame as a whole. `Frame.LocalEffect` lists
what can become of the former, `Frame.Effect` of all operations. What holds of runs is derived from
these lists.

That a capture or a restoring never stops half-way needs what runs keep: every snapshot in the ring
fits the frame (`Frame.Intact`).

* `Frame.Intact.effect`: every operation has such an effect.
* `Frame.Intact.after`, `Frame.Reachable.intact`: frames in use are intact.
* `Frame.Reachable.failure_changes_nothing`: no call that fails changes anything.
-/

namespace NodeStore

namespace Frame

open NodeStore.Action

variable {f g : Frame} {shape : List (Schema × Nat)} {op : Op} {α β : Type}

/-! ## Operations on instances -/

/-- What becomes of a frame by an operation on one of its schemas. -/
inductive LocalEffect (f : Frame) (result : Except FrameError α) (g : Frame) : Prop
  | failed (e : FrameError) (hresult : result = .error e) (hstate : g = f)
  | looked (x : α) (hresult : result = .ok x) (hstate : g = f)
  | wrote (x : α) (c : Coord) (a : Access) (ts : List Table) (t u : Table)
    (hresult : result = .ok x) (hpermit : f.permitWrite c = .ok ()) (hput : f.Put g c a ts t u)
  | sealed (x : α) (seals : List InstanceSet) (hresult : result = .ok x)
    (hstate : g = { f with seals })
    (hgrow : ∀ id index, f.isSealedAt id index = true → g.isSealedAt id index = true)
    (hnew : ∀ id index, g.isSealedAt id index = true →
      f.isSealedAt id index = true ∨ index < f.count id)

namespace LocalEffect

protected theorem pure (x : α) : LocalEffect f ((pure x : Action Frame α) f).result f :=
  .looked x rfl rfl

protected theorem read (p : Frame → Except FrameError α) :
    LocalEffect f (Action.read p f).result (Action.read p f).state := by
  rw [read_apply]
  cases hp : p f with
  | ok x => exact .looked x rfl rfl
  | error e => exact .failed e rfl rfl

/-- Looking first. -/
theorem read_bind {p : Frame → Except FrameError α} {x : α → Action Frame β}
    (h : ∀ a, p f = .ok a → LocalEffect f (x a f).result (x a f).state) :
    LocalEffect f ((Action.read p >>= x) f).result ((Action.read p >>= x) f).state := by
  rw [bind_apply, read_apply]
  cases hp : p f with
  | ok a => exact h a hp
  | error e => exact .failed e rfl rfl

theorem get_bind {x : Frame → Action Frame α} (h : LocalEffect f (x f f).result (x f f).state) :
    LocalEffect f ((Action.get >>= x) f).result ((Action.get >>= x) f).state := h

/-- Answering something else. -/
theorem bind_pure {x : Action Frame α} (h : LocalEffect f (x f).result (x f).state) (b : β) :
    LocalEffect f ((x >>= fun _ => pure b) f).result ((x >>= fun _ => pure b) f).state := by
  rw [state_bind_pure, bind_apply]
  cases h with
  | failed e hresult hstate =>
    rw [hresult]
    exact .failed e rfl hstate
  | looked x hresult hstate =>
    rw [hresult]
    exact .looked b rfl hstate
  | wrote x c a ts t u hresult hpermit hput =>
    rw [hresult]
    exact .wrote b c a ts t u rfl hpermit hput
  | sealed x seals hresult hstate hgrow hnew =>
    rw [hresult]
    exact .sealed b seals rfl hstate hgrow hnew

end LocalEffect

/-! ### Writing -/

/-- Writing through to the store. -/
theorem Sound.write_effect (h : f.Sound shape) {c : Coord} {a : Access} {x : Action Store Unit}
    {φ : Table → Except FrameError Table} (hw : Store.Write x)
    (hx : Action.Respects Store.Models Eq x (Action.update (Tables.change φ c.schema)))
    (hφ : ∀ t u, t.Sound → φ t = .ok u → t.Written c a u) :
    LocalEffect f (write c x f).result (write c x f).state := by
  refine .read_bind fun _ hpermit => ?_
  rw [inStore, on_apply]
  cases hres : (x f.store).result with
  | error e =>
    refine .failed e rfl ?_
    rw [hw.state_of_error h.shaped hres]
  | ok y =>
    obtain ⟨ts, t, u, hput⟩ := h.change_put hx
      (fun ts t u hts ht _ => hφ t u (hts.sound t (List.mem_of_getElem? ht))) hres
    exact .wrote y c a ts t u rfl hpermit hput

theorem Sound.writeChosen_effect (h : f.Sound shape) (c : Coord) (slots : List Nat)
    (vs : List Value) :
    LocalEffect f (Access.perform c (.setSlotsAt slots vs) f).result
      (Access.perform c (.setSlotsAt slots vs) f).state := by
  refine .bind_pure (.read_bind fun _ hpermit => .read_bind fun merged hmerged => ?_) _
  cases hres : (Store.setSlots c merged f.store).result with
  | error e =>
    refine .failed e hres ?_
    rw [inStore, on_apply, (Store.Write.setSlots c merged).state_of_error h.shaped hres]
  | ok y =>
    obtain ⟨ts, t, u, hput⟩ := h.merged_put hmerged hres
    exact .wrote y c _ ts t u hres hpermit hput

theorem Sound.access_effect (h : f.Sound shape) (c : Coord) (a : Access) :
    LocalEffect f (a.perform c f).result (a.perform c f).state := by
  cases a with
  | get slot => exact .read _
  | getSlots => exact .read _
  | set slot v =>
    exact .bind_pure (h.write_effect (.set c slot v) (Store.set_models c slot v)
      fun _ _ => Table.set_written) _
  | setSlots vs =>
    exact .bind_pure (h.write_effect (.setSlots c vs) (Store.setSlots_models c vs)
      fun _ _ => Table.setSlots_written) _
  | setSlotsAt slots vs => exact h.writeChosen_effect c slots vs
  | getList => exact .read _
  | listLength => exact .read _
  | append v =>
    exact .bind_pure (h.write_effect (.append c v) (Store.append_models c v)
      fun _ _ _ => Table.append_written) _
  | setList vs =>
    exact .bind_pure (h.write_effect (.setList c vs) (Store.setList_models c vs)
      fun _ _ _ => Table.setList_written) _

/-! ### Sealing -/

/-- No index leaves any set, and those that come are of instances there are. -/
theorem isSealedAt_gains {seals : List InstanceSet}
    (h : ∀ id : Nat, Option.Rel (·.Gains · (f.count id)) f.seals[id]? seals[id]?) (id index : Nat) :
    (f.isSealedAt id index = true → isSealedAt { f with seals } id index = true) ∧
      (isSealedAt { f with seals } id index = true →
        f.isSealedAt id index = true ∨ index < f.count id) := by
  have hid := h id
  unfold isSealedAt
  revert hid
  generalize f.seals[id]? = x
  generalize seals[id]? = y
  intro hid
  cases hid with
  | none => exact ⟨fun hi => hi, fun hi => .inl hi⟩
  | some hgains => exact ⟨hgains.kept index, hgains.new index⟩

/-- Other seals, and then nothing but events. -/
theorem seals_effect (seals : Frame → List InstanceSet) {y : Action Frame Unit}
    (hy : ∀ g, (y g).result = .ok () ∧ (y g).state = g)
    (h : ∀ id : Nat, Option.Rel (·.Gains · (f.count id)) f.seals[id]? (seals f)[id]?) :
    LocalEffect f
      ((Action.modify (fun f => { f with seals := seals f }) >>= fun _ => y) f).result
      ((Action.modify (fun f => { f with seals := seals f }) >>= fun _ => y) f).state := by
  obtain ⟨hresult, hstate⟩ := hy { f with seals := seals f }
  have hgains := isSealedAt_gains h
  exact .sealed () (seals f) hresult hstate
    (fun id index hsealed => hstate.symm ▸ (hgains id index).1 hsealed)
    fun id index hsealed => (hgains id index).2 (hstate ▸ hsealed)

theorem gains_refl (x : Option InstanceSet) (n : Nat) : Option.Rel (·.Gains · n) x x := by
  cases x with
  | none => exact .none
  | some set => exact .some (.refl set n)

theorem sealAt_effect (id : SchemaId) (index : Nat) :
    LocalEffect f (sealAt id index f).result (sealAt id index f).state := by
  refine .read_bind fun _ hindex => .get_bind ?_
  have hlt : index < f.count id := by
    by_contra hge
    simp [requireIndex, hge] at hindex
  cases hset : f.seals[id]? with
  | none => exact .pure ()
  | some set =>
    refine seals_effect (fun g => g.seals.set id (set.insert index)) ?_ ?_
    · intro g
      cases set.contains index <;> exact ⟨rfl, rfl⟩
    · intro id'
      by_cases hid : id' = id
      · subst hid
        rw [List.getElem?_set_self (List.getElem?_eq_some_iff.1 hset).1, hset]
        exact .some (set.gains_insert hlt)
      · rw [List.getElem?_set_ne (Ne.symm hid)]
        exact gains_refl _ _

theorem sealInstance_effect (schema : String) (index : Nat) :
    LocalEffect f (sealInstance schema index f).result (sealInstance schema index f).state :=
  .read_bind fun schema _ => sealAt_effect schema.id index

theorem sealSchema_effect (name : String) :
    LocalEffect f (sealSchema name f).result (sealSchema name f).state := by
  refine .read_bind fun schema _ => .get_bind ?_
  refine seals_effect (fun g => g.seals.modify schema.id (·.insertBelow (f.count schema.id)))
    (fun _ => ⟨rfl, rfl⟩) ?_
  intro id
  by_cases hid : schema.id = id
  · subst hid
    rw [List.getElem?_modify_eq]
    cases f.seals[schema.id]? with
    | none => exact .none
    | some set => exact .some set.gains_insertBelow
  · rw [List.getElem?_modify_ne _ _ hid]
    exact gains_refl _ _

theorem sealAll_effect : LocalEffect f (sealAll f).result (sealAll f).state := by
  refine .get_bind ?_
  refine seals_effect (fun g => g.seals.mapIdx fun id set => set.insertBelow (g.count id)) ?_ ?_
  · exact fun _ => ⟨rfl, rfl⟩
  · intro id
    rw [List.getElem?_mapIdx]
    cases f.seals[id]? with
    | none => exact .none
    | some set => exact .some set.gains_insertBelow

/-! ### Opened instances -/

theorem Sound.call_effect (h : f.Sound shape) (n : Node) (call : Node.Call) :
    LocalEffect f (n.perform call f).result (n.perform call f).state := by
  cases call with
  | schema => exact .pure _
  | index => exact .pure _
  | isSealed => exact .read _
  | describe => exact .pure _
  | describeNamed => exact .read _
  | «seal» => exact .bind_pure (sealAt_effect n.schema n.index) _
  | key k => exact .pure _
  | access attr a => exact .read_bind fun c _ => h.access_effect c a
  | read k => exact .read _
  | readSlots k => exact .read _
  | readList k => exact .read _
  | write k x =>
    exact .bind_pure (.read_bind fun _ _ => .read_bind fun c _ =>
      h.write_effect (.set c 0 _) (Store.set_models c 0 _) fun _ _ => Table.set_written) _
  | writeSlots k xs =>
    exact .bind_pure (.read_bind fun _ _ => .read_bind fun c _ =>
      h.write_effect (.setSlots c _) (Store.setSlots_models c _)
        fun _ _ => Table.setSlots_written) _
  | push k x =>
    exact .bind_pure (.read_bind fun _ _ => .read_bind fun c _ =>
      h.write_effect (.append c _) (Store.append_models c _) fun _ _ _ => Table.append_written) _

/-! ## All operations -/

/-- Whether the operation is on the frame as a whole. -/
def Op.isGlobal : Op → Bool
  | .reset | .capture _ | .restore _ => true
  | _ => false

/-- What becomes of a frame by an operation. -/
inductive Effect (shape : List (Schema × Nat)) (f : Frame) (op : Op)
    (result : Except FrameError Answer) (g : Frame) : Prop
  | ofLocal (hop : op.isGlobal = false) (heffect : LocalEffect f result g)
  | disabled (hop : op.isGlobal = true) (hresult : result = .error .snapshotDisabled)
    (hstate : g = f) (hring : f.ring = none)
  | missing (tick : Tick) (r : Ring) (hop : op = .restore tick)
    (hresult : result = .error (.tickNotFound tick)) (hstate : g = f) (hring : f.ring = some r)
    (hget : r.get? tick = none)
  | reset (ts : List Table) (hop : op = .reset) (hresult : result = .ok .done)
    (hbefore : f.store.Models ts) (hafter : g.store.Models (ts.map Table.reset))
    (hstate : g = { f with
      store := g.store, seals := f.seals.map InstanceSet.clear, ring := f.ring.map Ring.clear })
  | captured (tick : Tick) (r : Ring) (pools : List PoolImage) (hop : op = .capture tick)
    (hresult : result = .ok .done) (hring : f.ring = some r) (himages : f.images = .ok pools)
    (hstate : g = { f with ring := some (r.push ⟨tick, pools⟩).2 })
  | restored (tick : Tick) (s : Snapshot) (hop : op = .restore tick)
    (hresult : result = .ok .done) (hheld : f.snapshot tick = .ok s) (hfits : s.Fits shape)
    (hafter : g.store.Models (s.tables shape)) (hstate : g = { f with store := g.store })

/-- The frame is sound and every snapshot it holds fits it. -/
structure Intact (f : Frame) (shape : List (Schema × Nat)) : Prop where
  sound : f.Sound shape
  ring : ∀ r, f.ring = some r → r.Refines r.toList
  held : ∀ r, f.ring = some r → ∀ s ∈ r.toList, s.Fits shape

theorem Intact.snapshot_held (h : f.Intact shape) {tick : Tick} {s : Snapshot}
    (hs : f.snapshot tick = .ok s) :
    ∃ r, f.ring = some r ∧ r.get? tick = some s ∧ s ∈ r.toList ∧ s.tick = tick := by
  obtain ⟨r, hr, hget⟩ := snapshot_ok.1 hs
  have hfind := (h.ring r hr).get?_eq tick
  rw [hget] at hfind
  exact ⟨r, hr, hget, List.mem_of_find?_eq_some hfind.symm,
    by simpa using List.find?_some hfind.symm⟩

theorem Intact.fits (h : f.Intact shape) {tick : Tick} {s : Snapshot}
    (hs : f.snapshot tick = .ok s) : s.Fits shape := by
  obtain ⟨r, hr, -, hmem, -⟩ := h.snapshot_held hs
  exact h.held r hr s hmem

theorem Sound.reset_effect (h : f.Sound shape) :
    Effect shape f .reset (perform .reset f).result (perform .reset f).state := by
  obtain ⟨ts, hts, -⟩ := h.shaped
  obtain ⟨hresult, hstate⟩ := h.reset_apply
  refine .reset ts rfl hresult hts ?_ ?_
  · rw [hstate]
    exact (Store.resetAll_models f.store ts hts).2
  · rw [hstate]

theorem Sound.capture_effect (h : f.Sound shape) (tick : Tick) :
    Effect shape f (.capture tick) (perform (.capture tick) f).result
      (perform (.capture tick) f).state := by
  cases hr : f.ring with
  | none =>
    have hsnapshots : f.snapshots = .error .snapshotDisabled := by rw [snapshots, hr]
    refine .disabled rfl ?_ ?_ hr
    · simp only [perform, capture, bind_apply, read_apply, hsnapshots]
    · simp only [perform, capture, bind_apply, read_apply, hsnapshots]
  | some r =>
    obtain ⟨pools, -, hpools, -⟩ := h.images_ok
    obtain ⟨hresult, hstate⟩ : _ ∧ (perform (.capture tick) f).state = _ := capture_apply hr hpools
    exact .captured tick r pools rfl hresult hr hpools hstate

theorem restore_of_error {tick : Tick} {e : FrameError} (h : f.snapshot tick = .error e) :
    (perform (.restore tick) f).result = .error e ∧ (perform (.restore tick) f).state = f := by
  simp only [perform, restore, bind_apply, read_apply, h, and_self]

theorem Intact.restore_effect (h : f.Intact shape) (tick : Tick) :
    Effect shape f (.restore tick) (perform (.restore tick) f).result
      (perform (.restore tick) f).state := by
  cases hr : f.ring with
  | none =>
    obtain ⟨hresult, hstate⟩ :=
      restore_of_error (show f.snapshot tick = _ by rw [snapshot, snapshots, hr]; rfl)
    exact .disabled rfl hresult hstate hr
  | some r =>
    cases hget : r.get? tick with
    | none =>
      obtain ⟨hresult, hstate⟩ := restore_of_error (snapshot_missing hr hget)
      exact .missing tick r rfl hresult hstate hr hget
    | some s =>
      have hs := snapshot_ok.2 ⟨r, hr, hget⟩
      obtain ⟨store, hafter, hresult, hstate⟩ := h.sound.restore_apply hs (h.fits hs)
      refine .restored tick s rfl hresult hs (h.fits hs) ?_ ?_
      · rw [hstate]
        exact hafter
      · rw [hstate]

/-- Every operation has one of the effects. -/
theorem Intact.effect (h : f.Intact shape) (op : Op) :
    Effect shape f op (perform op f).result (perform op f).state := by
  cases op with
  | kind => exact .ofLocal rfl (.read _)
  | schema? name => exact .ofLocal rfl (.read _)
  | schemaAt? id => exact .ofLocal rfl (.read _)
  | schemas => exact .ofLocal rfl (.read _)
  | instanceCount schema => exact .ofLocal rfl (.read _)
  | hasSnapshots => exact .ofLocal rfl (.read _)
  | summary => exact .ofLocal rfl (.read _)
  | memory => exact .ofLocal rfl (.read _)
  | describe => exact .ofLocal rfl (.read _)
  | handle schema attr => exact .ofLocal rfl (.read _)
  | access schema index attr a =>
    exact .ofLocal rfl (.read_bind fun c _ => h.sound.access_effect c a)
  | accessBy k index a => exact .ofLocal rfl (h.sound.access_effect (k.coord index) a)
  | node schema index call => exact .ofLocal rfl (.read_bind fun n _ => h.sound.call_effect n call)
  | «seal» schema index => exact .ofLocal rfl (.bind_pure (sealInstance_effect schema index) _)
  | sealSchema schema => exact .ofLocal rfl (.bind_pure (sealSchema_effect schema) _)
  | sealAll => exact .ofLocal rfl (.bind_pure sealAll_effect _)
  | isSealed schema index => exact .ofLocal rfl (.read _)
  | reset => exact h.sound.reset_effect
  | capture tick => exact h.sound.capture_effect tick
  | restore tick => exact h.restore_effect tick
  | snapshot tick => exact .ofLocal rfl (.read _)
  | ring => exact .ofLocal rfl (.read _)
  | holdsTick tick => exact .ofLocal rfl (.read _)
  | query q => exact .ofLocal rfl (.read _)

/-! ## What runs keep -/

section
variable {result : Except FrameError α} {answer : Except FrameError Answer}

theorem LocalEffect.ring_eq (h : LocalEffect f result g) : g.ring = f.ring := by
  cases h with
  | failed e _ hstate => rw [hstate]
  | looked x _ hstate => rw [hstate]
  | wrote x c a ts t u _ _ hput => rw [hput.rest]
  | sealed x seals _ hstate _ => rw [hstate]

/-- What becomes of the seals: nothing, or a reset clears them, or they gain instances there are. -/
theorem Effect.seals_cases (he : Effect shape f op answer g) :
    g.seals = f.seals ∨ op = .reset ∧ g.seals = f.seals.map InstanceSet.clear ∨
      g.store = f.store ∧
        (∀ id index, f.isSealedAt id index = true → g.isSealedAt id index = true) ∧
        ∀ id index, g.isSealedAt id index = true →
          f.isSealedAt id index = true ∨ index < f.count id := by
  cases he with
  | ofLocal _ heffect =>
    cases heffect with
    | failed _ _ hstate => exact .inl (by rw [hstate])
    | looked _ _ hstate => exact .inl (by rw [hstate])
    | wrote _ _ _ _ _ _ _ _ hput => exact .inl (by rw [hput.rest])
    | sealed _ _ _ hstate hgrow hnew => exact .inr (.inr ⟨by rw [hstate], hgrow, hnew⟩)
  | disabled _ _ hstate => exact .inl (by rw [hstate])
  | missing _ _ _ _ hstate => exact .inl (by rw [hstate])
  | captured _ _ _ _ _ _ _ hstate => exact .inl (by rw [hstate])
  | restored _ _ _ _ _ _ _ hstate => exact .inl (by rw [hstate])
  | reset _ hop _ _ _ hstate => exact .inr (.inl ⟨hop, by rw [hstate]⟩)

theorem Intact.of_ring_eq (h : f.Intact shape) (hg : g.Sound shape) (hring : g.ring = f.ring) :
    g.Intact shape :=
  ⟨hg, fun r hr => h.ring r (hring ▸ hr), fun r hr => h.held r (hring ▸ hr)⟩

theorem Effect.intact (he : Effect shape f op answer g) (h : f.Intact shape) (hg : g.Sound shape) :
    g.Intact shape := by
  cases he with
  | ofLocal _ heffect => exact h.of_ring_eq hg heffect.ring_eq
  | disabled _ _ hstate => exact h.of_ring_eq hg (by rw [hstate])
  | missing tick r _ _ hstate => exact h.of_ring_eq hg (by rw [hstate])
  | restored tick s _ _ _ _ _ hstate => exact h.of_ring_eq hg (by rw [hstate])
  | reset ts _ _ _ _ hstate =>
    have hcleared (r : Ring) (hr : g.ring = some r) : r.Refines [] := by
      rw [hstate] at hr
      obtain ⟨r', hr', rfl⟩ := Option.map_eq_some_iff.1 hr
      exact (h.ring r' hr').clear
    refine ⟨hg, fun r hr => ?_, fun r hr s hs => ?_⟩
    · rw [(hcleared r hr).toList_eq]
      exact hcleared r hr
    · rw [(hcleared r hr).toList_eq] at hs
      exact absurd hs List.not_mem_nil
  | captured tick r pools _ _ hring himages hstate =>
    have hr := h.ring r hring
    have hpush := (hr.push ⟨tick, pools⟩).2
    have hnew : g.ring = some (r.push ⟨tick, pools⟩).2 := by rw [hstate]
    refine ⟨hg, fun r' hr' => ?_, fun r' hr' s hs => ?_⟩
    · rw [hnew] at hr'
      cases hr'
      rw [hpush.toList_eq]
      exact hpush
    · rw [hnew] at hr'
      cases hr'
      rcases hr.mem_push hs with rfl | ⟨hs, -⟩
      · exact h.sound.images_fit himages tick
      · exact h.held r hring s hs

end

theorem perform_intact (op : Op) : Action.Keeps (Intact · shape) (perform op) :=
  fun f h => (h.effect op).intact h (perform_sound op f h.sound)

theorem Intact.after (h : f.Intact shape) (ops : List Op) : (after perform ops f).Intact shape :=
  Action.Keeps.after (fun op _ => perform_intact op) h

theorem Blank.intact (h : f.Blank shape) : f.Intact shape := by
  refine ⟨h.sound, fun r hr => ?_, fun r hr s hs => ?_⟩
  · rw [(h.ring r hr).1.toList_eq]
    exact (h.ring r hr).1
  · rw [(h.ring r hr).1.toList_eq] at hs
    exact absurd hs List.not_mem_nil

theorem Built.intact (h : f.Built) : ∃ shape, f.Intact shape := by
  obtain ⟨shape, hblank⟩ := h.blank
  exact ⟨shape, hblank.intact⟩

theorem Reachable.intact (h : f.Reachable) : ∃ shape, f.Intact shape := by
  obtain ⟨f₀, ops, hf₀, rfl⟩ := h
  obtain ⟨shape, hintact⟩ := hf₀.intact
  exact ⟨shape, hintact.after ops⟩

/-! ## Failures -/

theorem LocalEffect.of_error {result : Except FrameError α} (h : LocalEffect f result g)
    {e : FrameError} (he : result = .error e) : g = f := by
  cases h with
  | failed _ _ hstate => exact hstate
  | looked x hresult => cases hresult.symm.trans he
  | wrote x c a ts t u hresult => cases hresult.symm.trans he
  | sealed x seals hresult => cases hresult.symm.trans he

theorem Effect.of_error {result : Except FrameError Answer} (h : Effect shape f op result g)
    {e : FrameError} (he : result = .error e) : g = f := by
  cases h with
  | ofLocal _ heffect => exact heffect.of_error he
  | disabled _ _ hstate => exact hstate
  | missing tick r _ _ hstate => exact hstate
  | reset ts _ hresult => cases hresult.symm.trans he
  | captured tick r pools _ hresult => cases hresult.symm.trans he
  | restored tick s _ hresult => cases hresult.symm.trans he

/-- Whatever fails leaves the frame as it was: an operation, a call on an opened instance, which may
have been opened anywhere, and a read into a list of values, which is left as well. -/
theorem Reachable.failure_changes_nothing (h : f.Reachable) :
    (∀ op e, (perform op f).result = .error e → (perform op f).state = f) ∧
    (∀ (n : Node) call e, (n.perform call f).result = .error e → (n.perform call f).state = f) ∧
    ∀ (k : Handle) index output e, (gatherList k index (f, output)).result = .error e →
      (gatherList k index (f, output)).state = (f, output) := by
  obtain ⟨shape, hintact⟩ := h.intact
  refine ⟨fun op e he => ?_, fun n call e he => ?_, fun k index output e he => ?_⟩
  · exact (hintact.effect op).of_error he
  · exact (hintact.sound.call_effect n call).of_error he
  · exact Action.Atomic.read_bind (fun _ => .modify _) (f, output) e he

/-- The second of two values does not fit, a tick is not held, and an attribute is no list. -/
theorem failure_changes_nothing_batch : ∃ f : Frame, f.Reachable ∧
    (Access.perform ⟨0, 1, 0⟩ .getSlots f).result =
      .ok (.values [.int ⟨true, .one⟩ 5, .int ⟨true, .one⟩ 0]) ∧
    (perform (.accessBy ⟨0, 0⟩ 1
      (.setSlots [.int ⟨true, .one⟩ 6, .int ⟨true, .two⟩ 300])) f).result =
        .error (.typeMismatch "cell" "x" .int8 (.int ⟨true, .two⟩ 300)) ∧
    (perform (.accessBy ⟨0, 0⟩ 1
      (.setSlots [.int ⟨true, .one⟩ 6, .int ⟨true, .two⟩ 300])) f).state = f ∧
    (perform (.restore 4) f).result = .error (.tickNotFound 4) ∧
    (perform (.restore 4) f).state = f ∧
    (gatherList ⟨0, 0⟩ 1 (f, [.int ⟨true, .one⟩ 1])).state = (f, [.int ⟨true, .one⟩ 1]) := by
  have hsteps : ∀ step ∈ [Builder.Step.declareWith "cell" [⟨"x", .int8, 2, false, false⟩] 2,
      .setSnapshots 2], step.Standard := by
    simp [Builder.Step.Standard]
  have hf : Reachable _ :=
    ⟨_, [.access "cell" 1 "x" (.set 0 (.int ⟨true, .one⟩ 5)), .capture 3], ⟨_, hsteps, rfl⟩, rfl⟩
  obtain ⟨hops, -, hgather⟩ := hf.failure_changes_nothing
  exact ⟨_, hf, rfl, rfl, hops _ _ rfl, rfl, hops _ _ rfl, hgather _ _ _
    (.shapeMismatch "cell" (.named "x") .list .fixed) rfl⟩

end Frame

end NodeStore
