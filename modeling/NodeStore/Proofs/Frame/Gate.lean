import NodeStore.Proofs.Frame.Rebuild
import NodeStore.Proofs.Frame.Typed
import NodeStore.Proofs.Store.Fault

/-!
# Seals and the write gate

An instance is sealed exactly if it was sealed since the last reset, by itself, with its schema or
with all (`Frame.Op.Seals`), and no write is refused for a const attribute but those of const
attributes of sealed instances, which all are, whatever else is wrong with them.

* `Frame.Intact.isSealedAt_perform`: what becomes of the seal of an instance by one operation.
* `Frame.Blank.isSealedAt_after`: what a run makes of it.
* `Frame.Sound.write_refused`: when a write is refused for a const attribute.
* `Frame.Built.seals_and_gate_exact`: both, for frames in use.
-/

namespace NodeStore

namespace Frame

open NodeStore.Action

variable {f g f₀ : Frame} {shape : List (Schema × Nat)} {op : Op} {schema s : Schema}
  {attr : Attribute} {c : Coord} {index : Nat} {e : FrameError} {α β : Type}

/-! ## Operations that seal -/

/-- The operation is to seal the instance: by itself, as an opened one, with its schema, or with
all. -/
def Op.Seals (schema : String) (index : Nat) : Op → Prop
  | .seal name i => name = schema ∧ i = index
  | .node name i .seal => name = schema ∧ i = index
  | .sealSchema name => name = schema
  | .sealAll => True
  | _ => False

theorem Op.Seals.isSealing {name : String} (h : op.Seals name index) : op.isSealing = true := by
  cases op with
  | «seal» name i => rfl
  | sealSchema name => rfl
  | sealAll => rfl
  | node name i call =>
    cases call with
    | «seal» => rfl
    | _ => exact h.elim
  | _ => exact h.elim

/-- Of the instances there are, `g` has those sealed that `f` has, and those that have the
property. -/
def Marks (f g : Frame) (new : String → Nat → Prop) : Prop :=
  ∀ schema ∈ f.schemas, ∀ index < f.count schema.id,
    g.isSealedAt schema.id index = true ↔
      f.isSealedAt schema.id index = true ∨ new schema.name index

/-- Schemas are told apart by their names as by their numbers. -/
theorem Sound.name_eq_iff (h : f.Sound shape) (hs : s ∈ f.schemas) (hschema : schema ∈ f.schemas) :
    s.name = schema.name ↔ s.id = schema.id := by
  constructor
  · intro hname
    have hok := h.schema_ok hs
    rw [hname, h.schema_ok hschema] at hok
    rw [Except.ok.inj hok]
  · intro hid
    have hat := h.schemaAt_ok hs
    rw [hid, h.schemaAt_ok hschema] at hat
    rw [Option.some.inj hat]

/-- There is a seal set for each schema. -/
def SealsCovered (f : Frame) : Prop := f.seals.length = f.schemas.length

theorem Sound.seals_at (h : f.Sound shape) (hlen : f.SealsCovered) (hs : s ∈ f.schemas) :
    ∃ set, f.seals[s.id]? = some set := by
  have hlt := (List.getElem?_eq_some_iff.1 (h.schemaAt_ok hs)).1
  rw [← hlen] at hlt
  exact ⟨_, List.getElem?_eq_getElem hlt⟩

/-- What becomes of a frame by an operation that seals. -/
def Sealed (f : Frame) (new : String → Nat → Prop) (o : Outcome Frame Answer) : Prop :=
  o.result = .ok .done ∧ f.Marks o.state new ∨ (∃ e, o.result = .error e) ∧ o.state = f

theorem Sound.sealAt_sealed (h : f.Sound shape) (hlen : f.SealsCovered) (hs : s ∈ f.schemas)
    (i : Nat) : f.Sealed (fun name j => s.name = name ∧ i = j)
      ((sealAt s.id i >>= fun _ => pure Answer.done) f) := by
  obtain ⟨set, hset⟩ := h.seals_at hlen hs
  by_cases hi : i < f.count s.id
  · left
    have hstate : ((sealAt s.id i >>= fun _ => pure Answer.done) f).result = .ok .done ∧
        ((sealAt s.id i >>= fun _ => pure Answer.done) f).state =
          { f with seals := f.seals.set s.id (set.insert i) } := by
      cases hnew : set.contains i <;>
        simp [sealAt, bind_apply, requireIndex, hi, hset, InstanceSet.add, hnew]
    refine ⟨hstate.1, fun schema hschema j _ => ?_⟩
    rw [hstate.2]
    beta_reduce
    rw [h.name_eq_iff hs hschema]
    by_cases hid : s.id = schema.id
    · have hlt := (List.getElem?_eq_some_iff.1 hset).1
      have hafter : isSealedAt { f with seals := f.seals.set s.id (set.insert i) } schema.id j =
          (decide (j = i) || set.contains j) := by
        simp [isSealedAt, ← hid, hlt, InstanceSet.contains_insert]
      have hbefore : f.isSealedAt schema.id j = set.contains j := by
        simp [isSealedAt, ← hid, hset]
      rw [hafter, hbefore, Bool.or_eq_true, decide_eq_true_iff, and_iff_right hid, or_comm,
        eq_comm (a := j)]
    · simp [isSealedAt, List.getElem?_set_ne hid, hid]
  · right
    simp [sealAt, bind_apply, requireIndex, hi]

theorem Sound.sealSchema_sealed (h : f.Sound shape) (hlen : f.SealsCovered) (name : String) :
    f.Sealed (fun name' _ => name = name') (perform (.sealSchema name) f) := by
  cases hname : f.schema name with
  | error e => exact .inr (by simp [perform, sealSchema, bind_apply, hname])
  | ok s =>
    left
    obtain ⟨hs, rfl, -⟩ := h.schema_mem hname
    obtain ⟨set, hset⟩ := h.seals_at hlen hs
    refine ⟨by simp [perform, sealSchema, bind_apply, hname], fun schema hschema j hj => ?_⟩
    have hstate : (perform (.sealSchema s.name) f).state =
        { f with seals := f.seals.modify s.id (·.insertBelow (f.count s.id)) } := by
      simp [perform, sealSchema, bind_apply, hname]
    rw [hstate]
    beta_reduce
    rw [h.name_eq_iff hs hschema]
    by_cases hid : s.id = schema.id
    · rw [← hid] at hj
      simp [isSealedAt, ← hid, hset, InstanceSet.contains_insertBelow, hj]
    · simp [isSealedAt, List.getElem?_modify_ne _ _ hid, hid]

theorem Sound.sealAll_sealed (h : f.Sound shape) (hlen : f.SealsCovered) :
    f.Sealed (fun _ _ => True) (perform .sealAll f) := by
  refine .inl ⟨rfl, fun schema hschema j hj => ?_⟩
  obtain ⟨set, hset⟩ := h.seals_at hlen hschema
  change ((f.seals.mapIdx fun id set => set.insertBelow (f.count id))[schema.id]?).any
    (·.contains j) = true ↔ _
  simp [List.getElem?_mapIdx, hset, InstanceSet.contains_insertBelow, hj]

/-- An operation that seals does so or fails. -/
theorem Sound.perform_sealed (h : f.Sound shape) (hlen : f.SealsCovered)
    (hop : op.isSealing = true) :
    f.Sealed (fun name index => op.Seals name index) (perform op f) := by
  cases op with
  | «seal» name i =>
    cases hname : f.schema name with
    | error e => exact .inr (by simp [perform, sealInstance, bind_apply, hname])
    | ok s =>
      obtain ⟨hs, rfl, -⟩ := h.schema_mem hname
      have hsealAt : perform (.seal s.name i) f =
          (sealAt s.id i >>= fun _ => pure Answer.done) f := by
        simp [perform, sealInstance, bind_apply, hname]
      rw [hsealAt]
      exact h.sealAt_sealed hlen hs i
  | sealSchema name => exact h.sealSchema_sealed hlen name
  | sealAll => exact h.sealAll_sealed hlen
  | node name i call =>
    cases call with
    | «seal» =>
      cases hnode : f.node name i with
      | error e => exact .inr (by simp [perform, bind_apply, hnode])
      | ok n =>
        obtain ⟨s, hname, hn⟩ := Except.bind_ok.1 hnode
        obtain ⟨_, -, ⟨⟩⟩ := Except.bind_ok.1 hn
        obtain ⟨hs, rfl, -⟩ := h.schema_mem hname
        have hsealAt : perform (.node s.name i .seal) f =
            (sealAt s.id i >>= fun _ => pure Answer.done) f := by
          simp [perform, bind_apply, hnode, Node.perform, Node.sealNode]
        rw [hsealAt]
        exact h.sealAt_sealed hlen hs i
    | _ => cases hop
  | _ => cases hop

/-- Other operations leave the seals alone, unless they reset. -/
theorem Intact.seals_quiet (h : f.Intact shape) (hop : op.isSealing = false)
    (hreset : op ≠ .reset) : (perform op f).state.seals = f.seals := by
  by_cases hcapture : ∃ tick, op = .capture tick
  · obtain ⟨tick, rfl⟩ := hcapture
    cases h.effect (.capture tick) with
    | ofLocal hlocal => cases hlocal
    | disabled _ _ hstate => rw [hstate]
    | missing _ _ hmissing => cases hmissing
    | reset _ hreset => cases hreset
    | captured _ _ _ _ _ _ _ hstate => rw [hstate]
    | restored _ _ hrestored => cases hrestored
  · have hkeeps : Keeps (fun g => g.seals = f.seals) (perform op) :=
      perform_keeps (fun _ _ _ hg => hg) (fun hsealing => by rw [hop] at hsealing; cases hsealing)
        hreset fun tick htick => hcapture ⟨tick, htick⟩
    exact hkeeps f rfl

/-- After an operation an instance is sealed if it was before, or if the operation sealed it, and
it was no reset. -/
theorem Intact.isSealedAt_perform (h : f.Intact shape) (hlen : f.SealsCovered)
    (hs : schema ∈ f.schemas) (hindex : index < f.count schema.id) (op : Op) :
    (perform op f).state.isSealedAt schema.id index = true ↔ op ≠ .reset ∧
      (f.isSealedAt schema.id index = true ∨
        op.Seals schema.name index ∧ (perform op f).result = .ok .done) := by
  by_cases hop : op.isSealing = true
  · have hreset : op ≠ .reset := by
      rintro rfl
      cases hop
    rcases h.sound.perform_sealed hlen hop with ⟨hok, hmarks⟩ | ⟨⟨e, herror⟩, hstate⟩
    · simp [hmarks schema hs index hindex, hok, hreset]
    · simp [hstate, herror, hreset]
  · have hseals : ¬ op.Seals schema.name index := fun hseals => hop hseals.isSealing
    by_cases hreset : op = .reset
    · subst hreset
      have hcleared := isSealedAt_cleared
        (show (perform .reset f).state.seals = _ by rw [h.sound.reset_apply.2]) schema.id index
      simp [hcleared]
    · have hquiet := h.seals_quiet (Bool.eq_false_iff.2 hop) hreset
      simp [isSealedAt_congr hquiet, hseals, hreset]

/-! ## Seals after a run -/

/-- In the run from `f₀` an operation sealed the instance, and nothing was reset since. -/
def SealedIn (f₀ : Frame) (ops : List Op) (schema : String) (index : Nat) : Prop :=
  ∃ pre op post, ops = pre ++ op :: post ∧ op.Seals schema index ∧
    (perform op (after perform pre f₀)).result = .ok .done ∧ .reset ∉ post

theorem sealedIn_snoc {ops : List Op} {name : String} : SealedIn f₀ (ops ++ [op]) name index ↔
    op ≠ .reset ∧ (SealedIn f₀ ops name index ∨
      op.Seals name index ∧ (perform op (after perform ops f₀)).result = .ok .done) := by
  constructor
  · rintro ⟨pre, o, post, hops, hseals, hok, hreset⟩
    rcases List.eq_nil_or_concat post with rfl | ⟨post, last, rfl⟩
    · obtain ⟨rfl, hlast⟩ := List.append_inj' hops rfl
      obtain rfl := List.singleton_injective hlast
      refine ⟨?_, .inr ⟨hseals, hok⟩⟩
      rintro rfl
      exact hseals
    · rw [List.concat_eq_append] at hops hreset
      rw [← List.cons_append, ← List.append_assoc] at hops
      obtain ⟨rfl, hlast⟩ := List.append_inj' hops rfl
      obtain rfl := List.singleton_injective hlast
      rw [List.mem_append, List.mem_singleton, not_or] at hreset
      exact ⟨Ne.symm hreset.2, .inl ⟨pre, o, post, rfl, hseals, hok, hreset.1⟩⟩
  · rintro ⟨hne, ⟨pre, o, post, rfl, hseals, hok, hreset⟩ | ⟨hseals, hok⟩⟩
    · refine ⟨pre, o, post ++ [op], by simp, hseals, hok, ?_⟩
      rw [List.mem_append, List.mem_singleton, not_or]
      exact ⟨hreset, Ne.symm hne⟩
    · exact ⟨ops, op, [], rfl, hseals, hok, List.not_mem_nil⟩

theorem Blank.sealsCovered (h : f₀.Blank shape) (ops : List Op) :
    (after perform ops f₀).SealsCovered := by
  rw [SealsCovered, ((SameBuild.refl f₀).after ops).seals, (h.sound.after ops).schemas, h.seals,
    List.length_map, List.length_map]

theorem Blank.isSealedAt_after (h : f₀.Blank shape) (hs : schema ∈ f₀.schemas)
    (hindex : index < f₀.count schema.id) (ops : List Op) :
    (after perform ops f₀).isSealedAt schema.id index = true ↔
      SealedIn f₀ ops schema.name index := by
  induction ops using List.reverseRecOn with
  | nil =>
    rw [after_nil, h.isSealedAt_eq]
    refine ⟨nofun, ?_⟩
    rintro ⟨pre, op, post, hops, -⟩
    simp at hops
  | append_singleton ops op ih =>
    have hf := h.intact.after ops
    rw [← h.sound.schemas_same hf.sound] at hs
    rw [← h.sound.count_same hf.sound] at hindex
    rw [after_append, after_cons, after_nil, hf.isSealedAt_perform (h.sealsCovered ops) hs hindex,
      ih, sealedIn_snoc]

end Frame

/-! ## Refused writes -/

/-- The outcome is not that a const attribute may not be written. -/
def Ungated {α : Type} (x : Except FrameError α) : Prop :=
  ∀ schema attr index, x ≠ .error (.constAttributeWrite schema attr index)

namespace Ungated

variable {α β : Type} {x : Except FrameError α}

protected theorem ok (a : α) : Ungated (.ok a : Except FrameError α) := fun _ _ _ => nofun

theorem map_iff (φ : α → β) : Ungated (x.map φ) ↔ Ungated x := by
  cases x <;> simp [Ungated]

protected theorem bind {φ : α → Except FrameError β} (hx : Ungated x) (hφ : ∀ a, Ungated (φ a)) :
    Ungated (x >>= φ) := by
  cases x with
  | ok a => exact hφ a
  | error e => simpa [Ungated] using hx

end Ungated

/-- A store knows nothing of seals. -/
theorem Store.Models.ungated {s : Store} {ts : List Table} {d : Demand} (h : s.Models ts)
    (call : Call) (hd : call.demand? = some d) : Ungated (Store.perform call s).result := by
  intro schema attr index herror
  have hfault := Store.check_error.1 ((h.access_checks hd).error_iff.1 herror)
  cases hfault with
  | access _ _ _ _ hfault => cases hfault

namespace Frame

open NodeStore.Action

variable {f f₀ : Frame} {shape : List (Schema × Nat)} {op : Op} {schema : Schema}
  {attr : Attribute} {c : Coord} {index : Nat} {e : FrameError} {ts : List Table}

theorem overlay_ungated (schema : Schema) (attr : Attribute) (pairs : List (Nat × Value))
    (current : List Value) : Ungated (overlay schema attr pairs current) := by
  induction pairs generalizing current with
  | nil => exact .ok _
  | cons p pairs ih =>
    refine .bind (fun _ _ _ herror => ?_) fun _ => ih _
    obtain ⟨-, herror⟩ := Schema.requireSlot_error.1 herror
    cases herror

theorem mergedSlots_ungated (hts : f.store.Models ts) (c : Coord) (slots : List Nat)
    (vs : List Value) : Ungated (f.mergedSlots c slots vs) := by
  have hcurrent : Ungated (f.store.getSlots c) :=
    (Ungated.map_iff _).1 (hts.ungated (.getSlots c []) rfl)
  refine .bind hcurrent fun current => .bind ?_ fun schema => .bind ?_ fun attr => ?_
  · unfold schemaAt
    split <;> exact fun _ _ _ => nofun
  · unfold Schema.attributeAt
    split <;> exact fun _ _ _ => nofun
  · split
    · exact fun _ _ _ => nofun
    · exact overlay_ungated schema attr (slots.zip vs) current

/-- What is permitted is not refused later. -/
theorem write_ungated (hts : f.store.Models ts) (hpermit : f.permitWrite c = .ok ())
    {x : Action Store Unit} {d : Demand} (call : Store.Call) (hd : call.demand? = some d)
    (hcall : Store.perform call = (x >>= fun _ => pure .done)) :
    Ungated ((write c x >>= fun _ => pure Answer.done) f).result := by
  have hstore := hts.ungated call hd
  rw [hcall, result_bind_pure, Ungated.map_iff] at hstore
  rw [result_bind_pure, Ungated.map_iff]
  simpa [write, bind_apply, hpermit, inStore] using hstore

theorem writeChosen_ungated (hts : f.store.Models ts) (hpermit : f.permitWrite c = .ok ())
    (slots : List Nat) (vs : List Value) :
    Ungated ((writeChosen c slots vs >>= fun _ => pure Answer.done) f).result := by
  have hmerged := mergedSlots_ungated hts c slots vs
  rw [result_bind_pure, Ungated.map_iff]
  cases hmerge : f.mergedSlots c slots vs with
  | error e =>
    rw [hmerge] at hmerged
    simpa [writeChosen, bind_apply, hpermit, hmerge, Ungated] using hmerged
  | ok merged =>
    have hstore := hts.ungated (.setSlots c merged) rfl
    rw [Store.perform, result_bind_pure, Ungated.map_iff] at hstore
    simpa [writeChosen, bind_apply, hpermit, hmerge, inStore] using hstore

theorem access_ungated (hts : f.store.Models ts) (hpermit : f.permitWrite c = .ok ()) {a : Access}
    (hw : a.isRead = false) : Ungated (a.perform c f).result := by
  cases a with
  | set slot v => exact write_ungated hts hpermit (.set c slot v) rfl rfl
  | setSlots vs => exact write_ungated hts hpermit (.setSlots c vs) rfl rfl
  | append v => exact write_ungated hts hpermit (.append c v) rfl rfl
  | setList vs => exact write_ungated hts hpermit (.setList c vs) rfl rfl
  | setSlotsAt slots vs => exact writeChosen_ungated hts hpermit slots vs
  | get slot => cases hw
  | getSlots => cases hw
  | getList => cases hw
  | listLength => cases hw

/-- What is not permitted is refused before anything else is looked at. -/
theorem access_gated (hpermit : f.permitWrite c = .error e) {a : Access} (hw : a.isRead = false) :
    (a.perform c f).result = .error e := by
  cases a with
  | set slot v => simp [Access.perform, write, bind_apply, hpermit]
  | setSlots vs => simp [Access.perform, write, bind_apply, hpermit]
  | setSlotsAt slots vs => simp [Access.perform, writeChosen, bind_apply, hpermit]
  | append v => simp [Access.perform, write, bind_apply, hpermit]
  | setList vs => simp [Access.perform, write, bind_apply, hpermit]
  | get slot => cases hw
  | getSlots => cases hw
  | getList => cases hw
  | listLength => cases hw

/-- A write is refused for a const attribute exactly if the attribute is one and the instance is
sealed. -/
theorem Sound.write_refused (h : f.Sound shape) (hs : schema ∈ f.schemas)
    (ha : attr ∈ schema.attributes) (index : Nat) {a : Access} (hw : a.isRead = false)
    (name name' : String) (i : Nat) :
    (a.perform ⟨schema.id, index, attr.id⟩ f).result =
        .error (.constAttributeWrite name name' i) ↔
      (f.isSealedAt schema.id index = true ∧ attr.isConst = true) ∧
        name = schema.name ∧ name' = attr.name ∧ i = index := by
  obtain ⟨ts, hts, -⟩ := h.shaped
  have hpermit := h.permitWrite_eq hs ha index
  by_cases hgate : f.isSealedAt schema.id index = true ∧ attr.isConst = true
  · rw [if_pos hgate] at hpermit
    rw [access_gated hpermit hw]
    simp [hgate, eq_comm]
  · rw [if_neg hgate] at hpermit
    simp [access_ungated hts hpermit hw name name' i, hgate]

/-! ## Ways to write -/

/-- The operations that write an attribute of an instance: by name, by handle, through the opened
instance, and there by a key of its schema. -/
inductive Op.Writes (schema : Schema) (index : Nat) (attr : Attribute) : Op → Prop
  | route (a : Access) (op : Op) (hwrite : a.isRead = false)
    (hop : op ∈ Op.routes schema index attr a) : Writes schema index attr op
  | keyed (ty : AttrType) (x : Scalar ty) : Writes schema index attr
    (.node schema.name index (.write ⟨schema.name, attr.name, ty⟩ x))
  | keyedSlots (ty : AttrType) (xs : List (Scalar ty)) : Writes schema index attr
    (.node schema.name index (.writeSlots ⟨schema.name, attr.name, ty⟩ xs))
  | keyedPush (ty : AttrType) (x : Scalar ty) : Writes schema index attr
    (.node schema.name index (.push ⟨schema.name, attr.name, ty⟩ x))

/-- A write by a key of the schema is the write of the key's attribute. -/
theorem Sound.perform_keyed (h : f.Sound shape) (hs : schema ∈ f.schemas) (index : Nat)
    (call : Node.Call) (k : Key) (hk : k.schema = schema.name) (a : Access)
    (w : Coord → Action Store Unit)
    (hcall : ∀ n : Node, n.perform call = ((do
        let _ ← Action.read (n.requireKey k)
        let c ← Action.read (n.coord k.attr)
        write c (w c)) >>= fun _ => pure .done))
    (ha : ∀ c, a.perform c = (write c (w c) >>= fun _ => pure .done)) :
    perform (.node schema.name index call) f =
      perform (.node schema.name index (.access k.attr a)) f := by
  have hnode := h.node_eq hs index
  by_cases hindex : index < f.count schema.id
  · rw [if_pos hindex] at hnode
    have hkey : Node.requireKey ⟨schema.id, index⟩ k f = .ok schema := by
      simp [Node.requireKey, schemaAt, h.schemaAt_ok hs, hk]
    simp only [perform, bind_apply, read_apply, hnode, keyed_eq hkey w (hcall _) ha]
  · rw [if_neg hindex] at hnode
    simp [perform, bind_apply, hnode]

/-- Every write does what an access does. -/
theorem Sound.writes_route (h : f.Sound shape) (hs : schema ∈ f.schemas)
    (hop : op.Writes schema index attr) : ∃ a, a.isRead = false ∧
      ∃ route ∈ Op.routes schema index attr a, perform op f = perform route f := by
  have hnode (a : Access) : Op.node schema.name index (.access attr.name a) ∈
      Op.routes schema index attr a := by simp [Op.routes]
  cases hop with
  | route a op hwrite hop => exact ⟨a, hwrite, op, hop, rfl⟩
  | keyed ty x =>
    let k : Key := ⟨schema.name, attr.name, ty⟩
    exact ⟨_, rfl, _, hnode _, h.perform_keyed hs index (.write k x) k rfl (.set 0 ⟨ty, x⟩)
      (Store.set · 0 ⟨ty, x⟩) (fun _ => rfl) fun _ => rfl⟩
  | keyedSlots ty xs =>
    let k : Key := ⟨schema.name, attr.name, ty⟩
    exact ⟨_, rfl, _, hnode _, h.perform_keyed hs index (.writeSlots k xs) k rfl
      (.setSlots (xs.map (⟨ty, ·⟩))) (Store.setSlots · (xs.map (⟨ty, ·⟩))) (fun _ => rfl)
      fun _ => rfl⟩
  | keyedPush ty x =>
    let k : Key := ⟨schema.name, attr.name, ty⟩
    exact ⟨_, rfl, _, hnode _, h.perform_keyed hs index (.push k x) k rfl (.append ⟨ty, x⟩)
      (Store.append · ⟨ty, x⟩) (fun _ => rfl) fun _ => rfl⟩

/-- An instance of a frame in use is sealed exactly if since the last reset, or since the frame was
built, it was sealed by itself, with its schema or with all. And a write of an attribute there is,
on any way to it, is refused for a const attribute exactly if the attribute is const and the
instance is sealed, whatever else is wrong with it; beyond the count it never is. -/
theorem Built.seals_and_gate_exact (h : f₀.Built) {ops : List Op} (hf : f = after perform ops f₀)
    (hs : schema ∈ f₀.schemas) :
    (∀ index < f.count schema.id, ∃ b, f.isSealed schema.name index = .ok b ∧
      (b = true ↔ SealedIn f₀ ops schema.name index)) ∧
    ∀ attr ∈ schema.attributes, ∀ index op, op.Writes schema index attr →
      (∀ name name' i, (perform op f).result = .error (.constAttributeWrite name name' i) ↔
        (attr.isConst = true ∧ f.isSealed schema.name index = .ok true) ∧
          name = schema.name ∧ name' = attr.name ∧ i = index) ∧
      (f.count schema.id ≤ index → (perform op f).result =
        .error (.indexOutOfRange schema.name index (f.count schema.id))) := by
  obtain ⟨shape, hblank⟩ := h.blank
  have hintact := hblank.intact.after ops
  have hseals : f.SealsInRange := by
    rw [hf]
    exact (Keeps.after (fun op _ => perform_sealsInRange op) ⟨hblank.intact, hblank.sealsInRange⟩).2
  rw [← hf] at hintact
  have hs' : schema ∈ f.schemas := by rwa [hblank.sound.schemas_same hintact.sound]
  refine ⟨fun index hindex => ?_, fun attr ha index op hop => ?_⟩
  · refine ⟨_, (isSealed_ok hintact.sound hs').2 ⟨hindex, rfl⟩, ?_⟩
    rw [hblank.sound.count_same hintact.sound] at hindex
    rw [hf]
    exact hblank.isSealedAt_after hs hindex ops
  · obtain ⟨a, hw, route, hroute, hperform⟩ := hintact.sound.writes_route hs' hop
    rw [hperform]
    by_cases hindex : index < f.count schema.id
    · refine ⟨fun name name' i => ?_, fun hge => absurd hindex (Nat.not_lt.2 hge)⟩
      rw [hintact.sound.perform_route hs' ha hindex hroute,
        hintact.sound.write_refused hs' ha index hw, isSealed_ok hintact.sound hs',
        and_iff_right hindex, and_comm (a := attr.isConst = true)]
    · have hbeyond := hintact.sound.beyond hseals hs' ha (Nat.le_of_not_lt hindex)
      rw [hbeyond.access a route hroute]
      refine ⟨fun name name' i => ?_, fun _ => rfl⟩
      rw [isSealed_ok hintact.sound hs']
      simp [hindex]

/-- Of a schema that was sealed and reset the first instance of the second word is sealed again. It
alone is sealed, and refuses a value that does not fit in a slot there is not for being sealed. -/
theorem seals_and_gate_exact_words : ∃ (f₀ f : Frame) (ops : List Op), f₀.Built ∧
    ops = [.sealSchema "cell", .reset, .node "cell" 64 .seal] ∧ f = after perform ops f₀ ∧
    SealedIn f₀ ops "cell" 64 ∧ ¬ SealedIn f₀ ops "cell" 63 ∧
    (perform (.access "cell" 64 "size" (.set 9 (.int ⟨true, .two⟩ 300))) f).result =
      .error (.constAttributeWrite "cell" "size" 64) ∧
    (perform (.node "cell" 63 (.write ⟨"cell", "size", .int8⟩ (Scalar.zero .int8))) f).result ≠
      .error (.constAttributeWrite "cell" "size" 63) ∧
    (perform (.accessBy ⟨0, 0⟩ 66 (.append (.int ⟨true, .two⟩ 300))) f).result =
      .error (.indexOutOfRange "cell" 66 66) := by
  let size : Attribute := ⟨0, "size", .int8, 1, false, true⟩
  let schema : Schema := ⟨0, "cell", [size]⟩
  have hsteps : ∀ step ∈ [Builder.Step.declareWith "cell" [⟨"size", .int8, 1, false, true⟩] 66],
      step.Standard := by
    simp [Builder.Step.Standard]
  have hf₀ : Built _ := ⟨_, hsteps, rfl⟩
  have hschema : schema ∈ _ := List.mem_singleton_self _
  obtain ⟨hseals, hgate⟩ := hf₀.seals_and_gate_exact
    (show _ = after perform [.sealSchema "cell", .reset, .node "cell" 64 .seal] _ from rfl) hschema
  obtain ⟨_, hb, hsealed⟩ := hseals 64 (by decide)
  obtain ⟨_, hb', hopen⟩ := hseals 63 (by decide)
  cases hb
  cases hb'
  have hwrites := hgate size (List.mem_singleton_self _)
  refine ⟨_, _, _, hf₀, rfl, rfl, hsealed.1 rfl, fun h => ?_, ?_, fun h => ?_, ?_⟩
  · cases hopen.2 h
  · refine ((hwrites 64 _ (.route (.set 9 _) _ rfl List.mem_cons_self)).1 _ _ _).2 ?_
    exact ⟨⟨rfl, rfl⟩, rfl, rfl, rfl⟩
  · have hboth := ((hwrites 63 _ (.keyed .int8 (Scalar.zero .int8))).1 _ _ _).1 h
    cases hboth.1.2
  · exact (hwrites 66 _ (.route (.append _) _ rfl (.tail _ List.mem_cons_self))).2 (by decide)

end Frame

end NodeStore
