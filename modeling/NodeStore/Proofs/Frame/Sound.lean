import NodeStore.Proofs.Builder
import NodeStore.Proofs.Ring

/-!
# Sound frames

`Frame.Sound f shape`: the frame has a schema and a pool for each entry of `shape`, with the entry's
count; schemas are numbered by their positions and have distinct names. A frame that was built is
blank (`Frame.Built.blank`) and so sound (`Frame.Built.sound`), and every operation keeps it sound,
however it ends (`Frame.perform_sound`), so every frame in use is (`Frame.Reachable.sound`), with
the schemas and counts it was built with.

Operations other than a capture and a reset leave the ring alone as well. Both facts come from one
rule (`Frame.perform_keeps`): such an operation changes the frame by writes to the store and by
seals only.
-/

namespace NodeStore

/-! ## Stores of a shape -/

namespace Store

/-- The pools have the given schemas and counts. -/
def Shaped (shape : List (Schema × Nat)) (s : Store) : Prop :=
  ∃ ts, s.Models ts ∧ ts.map Table.shape = shape

variable {shape : List (Schema × Nat)} {s : Store} {α β : Type} {S : α → β → Prop}

theorem shaped_keeps {x : Action Store α} {y : Action (List Table) β}
    (h : Action.Respects Models S x y)
    (hy : Action.Keeps (fun ts => ts.map Table.shape = shape) y) :
    Action.Keeps (Shaped shape) x := by
  rintro s ⟨ts, hs, hts⟩
  exact ⟨_, (h s ts hs).2, hy ts hts⟩

theorem change_keeps {g : Table → Except FrameError Table}
    (hg : ∀ t u, g t = .ok u → u.shape = t.shape) (id : SchemaId) :
    Action.Keeps (fun ts => ts.map Table.shape = shape) (Action.update (Tables.change g id)) := by
  refine .update ?_
  intro ts us hts h
  obtain ⟨t, u, ht, hu, rfl⟩ := Tables.change_ok.1 h
  exact (List.map_set_of_eq ht (hg t u hu)).trans hts

/-- The writes of one cell and the restoring of one pool. -/
inductive Write : Action Store Unit → Prop
  | set (c : Coord) (slot : Nat) (v : Value) : Write (set c slot v)
  | setSlots (c : Coord) (vs : List Value) : Write (setSlots c vs)
  | append (c : Coord) (v : Value) : Write (append c v)
  | setList (c : Coord) (vs : List Value) : Write (setList c vs)
  | restore (id : SchemaId) (image : PoolImage) : Write (restore id image)

theorem Write.keeps {x : Action Store Unit} (h : Write x) : Action.Keeps (Shaped shape) x := by
  cases h with
  | set c slot v =>
    refine shaped_keeps (set_models c slot v) (change_keeps (fun t u hu => ?_) c.schema)
    obtain ⟨attr, w, -, -, -, rfl⟩ := Table.set_ok.1 hu
    rfl
  | setSlots c vs =>
    refine shaped_keeps (setSlots_models c vs) (change_keeps (fun t u hu => ?_) c.schema)
    obtain ⟨attr, ws, -, -, -, rfl⟩ := Table.setSlots_ok.1 hu
    rfl
  | append c v =>
    refine shaped_keeps (append_models c v) (change_keeps (fun t u hu => ?_) c.schema)
    obtain ⟨attr, w, -, -, rfl⟩ := Table.append_ok.1 hu
    rfl
  | setList c vs =>
    refine shaped_keeps (setList_models c vs) (change_keeps (fun t u hu => ?_) c.schema)
    obtain ⟨attr, ws, -, -, rfl⟩ := Table.setList_ok.1 hu
    rfl
  | restore id image =>
    refine shaped_keeps (restore_models id image) (change_keeps (fun t u hu => ?_) id)
    obtain ⟨_, -, hu⟩ := Except.bind_ok.1 hu
    cases hu
    rfl

/-- A write that fails leaves the store as it was. -/
theorem Write.state_of_error {x : Action Store Unit} (h : Write x) (hs : Shaped shape s)
    {e : FrameError} (he : (x s).result = .error e) : (x s).state = s := by
  obtain ⟨ts, hts, -⟩ := hs
  cases h with
  | set c slot v => exact (hts.set c slot v).state_of_error he
  | setSlots c vs => exact (hts.setSlots c vs).state_of_error he
  | append c v => exact (hts.append c v).state_of_error he
  | setList c vs => exact (hts.setList c vs).state_of_error he
  | restore id image => exact (hts.restore id image).state_of_error he

theorem Write.kind_eq {x : Action Store Unit} (h : Write x) (s : Store) :
    (x s).state.kind = s.kind := by
  cases h with
  | set c slot v => exact kind_act _ s
  | setSlots c vs => exact kind_act _ s
  | append c v => exact kind_act _ s
  | setList c vs => exact kind_act _ s
  | restore id image => exact kind_act _ s

theorem resetAll_keeps : Action.Keeps (Shaped shape) resetAll := by
  refine shaped_keeps resetAll_models (.modify fun ts hts => ?_)
  rw [List.map_map, ← hts]
  exact List.map_congr_left fun t _ => rfl

end Store

/-- Whether the call seals the instance. -/
def Node.Call.isSealing : Node.Call → Bool
  | .seal => true
  | _ => false

/-- The attribute a call is about and the access it makes. -/
def Node.Call.access? : Node.Call → Option (String × Access)
  | .access attr a => some (attr, a)
  | .read k => some (k.attr, .get 0)
  | .readSlots k => some (k.attr, .getSlots)
  | .readList k => some (k.attr, .getList)
  | .write k x => some (k.attr, .set 0 ⟨k.type, x⟩)
  | .writeSlots k xs => some (k.attr, .setSlots (xs.map (⟨k.type, ·⟩)))
  | .push k x => some (k.attr, .append ⟨k.type, x⟩)
  | .schema | .index | .isSealed | .describe | .describeNamed | .«seal» | .key _ => none

namespace Frame

/-- Whether the operation seals instances. -/
def Op.isSealing : Op → Bool
  | .seal .. | .sealSchema _ | .sealAll => true
  | .node _ _ call => call.isSealing
  | _ => false

/-- The access an operation makes, if it is about one attribute. -/
def Op.access? : Op → Option Access
  | .access _ _ _ a => some a
  | .accessBy _ _ a => some a
  | .node _ _ call => call.access?.map Prod.snd
  | _ => none

/-! ## What operations keep -/

section
variable {Inv : Frame → Prop}
  (hwrite : ∀ x, Store.Write x → Action.Keeps Inv (inStore x))
include hwrite

theorem write_keeps (c : Coord) {x : Action Store Unit} (hx : Store.Write x) :
    Action.Keeps Inv (write c x) := .bind (.read _) fun _ => hwrite x hx

theorem writeChosen_keeps (c : Coord) (slots : List Nat) (vs : List Value) :
    Action.Keeps Inv (writeChosen c slots vs) :=
  .bind (.read _) fun _ => .bind (.read _) fun merged => hwrite _ (.setSlots c merged)

theorem access_keeps (c : Coord) (a : Access) : Action.Keeps Inv (a.perform c) := by
  cases a with
  | get slot => exact .read _
  | getSlots => exact .read _
  | set slot v => exact .bind (write_keeps hwrite c (.set c slot v)) fun _ => .pure _
  | setSlots vs => exact .bind (write_keeps hwrite c (.setSlots c vs)) fun _ => .pure _
  | setSlotsAt slots vs => exact .bind (writeChosen_keeps hwrite c slots vs) fun _ => .pure _
  | getList => exact .read _
  | listLength => exact .read _
  | append v => exact .bind (write_keeps hwrite c (.append c v)) fun _ => .pure _
  | setList vs => exact .bind (write_keeps hwrite c (.setList c vs)) fun _ => .pure _

theorem restore_keeps (tick : Tick) : Action.Keeps Inv (restore tick) :=
  .bind (.read _) fun _ => .bind (.forM fun _ _ => hwrite _ (.restore _ _)) fun _ => .emit _

omit hwrite in
theorem sealAt_keeps
    (hseals : ∀ f seals, seals.length = f.seals.length → Inv f → Inv { f with seals })
    (id : SchemaId) (index : Nat) : Action.Keeps Inv (sealAt id index) := by
  refine .bind (.read _) fun _ => .bind .get fun f => ?_
  cases f.seals[id]? with
  | none => exact .pure _
  | some set =>
    exact .bind (.modify fun f hf => hseals f _ List.length_set hf) fun _ =>
      .ite (fun _ => .emit _) fun _ => .pure _

omit hwrite in
/-- What its access keeps and, if it seals, seals for as many schemas as before, a call keeps. -/
theorem call_keeps (n : Node) {call : Node.Call}
    (haccess : ∀ attr a, call.access? = some (attr, a) → ∀ c, Action.Keeps Inv (a.perform c))
    (hseals : call.isSealing = true → ∀ f seals, seals.length = f.seals.length → Inv f →
      Inv { f with seals }) : Action.Keeps Inv (n.perform call) := by
  have hwrite {attr : String} {a : Access} {c : Coord} {x : Action Store Unit}
      (ha : call.access? = some (attr, a)) (hx : a.perform c = write c x >>= fun _ => pure .done) :
      Action.Keeps Inv (write c x) := by
    have hkeeps := haccess attr a ha c
    rw [hx] at hkeeps
    exact fun f hf => Action.state_bind_pure (write c x) Answer.done f ▸ hkeeps f hf
  cases call with
  | schema => exact .pure _
  | index => exact .pure _
  | isSealed => exact .read _
  | describe => exact .pure _
  | describeNamed => exact .read _
  | «seal» => exact .bind (sealAt_keeps (hseals rfl) n.schema n.index) fun _ => .pure _
  | key k => exact .pure _
  | access attr a => exact .bind (.read _) fun c => haccess attr a rfl c
  | read k => exact .read _
  | readSlots k => exact .read _
  | readList k => exact .read _
  | write k x =>
    exact .bind (.bind (.read _) fun _ => .bind (.read _) fun c => hwrite rfl rfl) fun _ => .pure _
  | writeSlots k xs =>
    exact .bind (.bind (.read _) fun _ => .bind (.read _) fun c => hwrite rfl rfl) fun _ => .pure _
  | push k x =>
    exact .bind (.bind (.read _) fun _ => .bind (.read _) fun c => hwrite rfl rfl) fun _ => .pure _

omit hwrite in
/-- So does an operation other than a capture and a reset, if restoring does where it restores. -/
theorem perform_keeps_access {op : Op}
    (haccess : ∀ a, op.access? = some a → ∀ c, Action.Keeps Inv (a.perform c))
    (hseals : op.isSealing = true → ∀ f seals, seals.length = f.seals.length → Inv f →
      Inv { f with seals })
    (hreset : op ≠ .reset) (hcapture : ∀ tick, op ≠ .capture tick)
    (hrestore : ∀ tick, op = .restore tick → Action.Keeps Inv (restore tick)) :
    Action.Keeps Inv (perform op) := by
  cases op with
  | kind => exact .read _
  | schema? name => exact .read _
  | schemaAt? id => exact .read _
  | schemas => exact .read _
  | instanceCount schema => exact .read _
  | hasSnapshots => exact .read _
  | summary => exact .read _
  | memory => exact .read _
  | describe => exact .read _
  | handle schema attr => exact .read _
  | access schema index attr a => exact .bind (.read _) fun c => haccess a rfl c
  | accessBy h index a => exact haccess a rfl (h.coord index)
  | node schema index call =>
    refine .bind (.read _) fun n => call_keeps n (fun attr a ha => haccess a ?_) hseals
    rw [Op.access?, ha]
    rfl
  | «seal» schema index =>
    exact .bind (.bind (.read _) fun s => sealAt_keeps (hseals rfl) s.id index) fun _ => .pure _
  | sealSchema schema =>
    exact .bind (.bind (.read _) fun s => .bind .get fun _ =>
      .bind (.modify fun f hf => hseals rfl f _ (List.length_modify ..) hf) fun _ => .emit _)
      fun _ => .pure _
  | sealAll =>
    exact .bind (.bind .get fun _ =>
      .bind (.modify fun f hf => hseals rfl f _ List.length_mapIdx hf) fun _ => .emit _)
      fun _ => .pure _
  | isSealed schema index => exact .read _
  | reset => exact absurd rfl hreset
  | capture tick => exact absurd rfl (hcapture tick)
  | restore tick => exact .bind (hrestore tick rfl) fun _ => .pure _
  | snapshot tick => exact .read _
  | ring => exact .read _
  | holdsTick tick => exact .read _
  | query q => exact .read _

/-- What is kept by writes to the store and, if the operation seals, by seals for as many schemas as
before, is kept by every operation but a capture and a reset. -/
theorem perform_keeps {op : Op}
    (hseals : op.isSealing = true → ∀ f seals, seals.length = f.seals.length → Inv f →
      Inv { f with seals })
    (hreset : op ≠ .reset) (hcapture : ∀ tick, op ≠ .capture tick) :
    Action.Keeps Inv (perform op) :=
  perform_keeps_access (fun a _ c => access_keeps hwrite c a) hseals hreset hcapture
    fun tick _ => restore_keeps hwrite tick

end

/-! ## Soundness -/

/-- The frame has the schemas and counts of `shape`, numbered by position and under distinct
names. -/
structure Sound (f : Frame) (shape : List (Schema × Nat)) : Prop where
  shaped : f.store.Shaped shape
  schemas : f.schemas = shape.map Prod.fst
  numbered : ∀ (i : Nat) s, f.schemas[i]? = some s → s.id = i
  distinct : (f.schemas.map Schema.name).Nodup

variable {f g : Frame} {shape : List (Schema × Nat)} {α : Type}

theorem inStore_sound {x : Action Store α} (hx : Action.Keeps (Store.Shaped shape) x) :
    Action.Keeps (Sound · shape) (inStore x) :=
  .on hx (fun _ hf => hf.shaped) fun _ _ hs hf => ⟨hs, hf.schemas, hf.numbered, hf.distinct⟩

/-- An operation other than a capture and a reset keeps the frame sound and the ring as it is. -/
theorem perform_quiet {op : Op} (hreset : op ≠ .reset) (hcapture : ∀ tick, op ≠ .capture tick)
    (ring : Option Ring) :
    Action.Keeps (fun f => f.Sound shape ∧ f.ring = ring) (perform op) := by
  refine perform_keeps (fun x hx f hf => ?_) (fun _ f seals _ hf => ?_) hreset hcapture
  · exact ⟨inStore_sound hx.keeps f hf.1, hf.2⟩
  · exact ⟨⟨hf.1.shaped, hf.1.schemas, hf.1.numbered, hf.1.distinct⟩, hf.2⟩

theorem access_sound (c : Coord) (a : Access) : Action.Keeps (Sound · shape) (a.perform c) :=
  access_keeps (fun _ hx => inStore_sound hx.keeps) c a

theorem reset_sound : Action.Keeps (Sound · shape) reset := by
  refine .bind (inStore_sound Store.resetAll_keeps) fun _ => .bind (.modify fun f hf => ?_) fun _ =>
    .bind .get fun _ => .emit _
  exact ⟨hf.shaped, hf.schemas, hf.numbered, hf.distinct⟩

theorem capture_sound (tick : Tick) : Action.Keeps (Sound · shape) (capture tick) := by
  refine .bind (.read _) fun ring => .bind (.read _) fun pools => ?_
  generalize ring.push ⟨tick, pools⟩ = out
  obtain ⟨displaced, ring'⟩ := out
  refine .bind (.modify fun f hf => ?_) fun _ => .bind (.emit _) fun _ => ?_
  · exact ⟨hf.shaped, hf.schemas, hf.numbered, hf.distinct⟩
  · cases displaced with
    | none => exact .pure _
    | some old => exact .ite (fun _ => .emit _) fun _ => .pure _

theorem perform_sound (op : Op) : Action.Keeps (Sound · shape) (perform op) := by
  by_cases hreset : op = .reset
  · subst hreset
    exact .bind reset_sound fun _ => .pure _
  by_cases hcapture : ∃ tick, op = .capture tick
  · obtain ⟨tick, rfl⟩ := hcapture
    exact .bind (capture_sound tick) fun _ => .pure _
  · exact fun f hf => (perform_quiet hreset (fun tick h => hcapture ⟨tick, h⟩) f.ring f ⟨hf, rfl⟩).1

theorem Sound.after (h : f.Sound shape) (ops : List Op) :
    (Action.after perform ops f).Sound shape := Action.Keeps.after (fun op _ => perform_sound op) h

/-! ## Looking up -/

variable {schema : Schema} {attr : Attribute} {ts : List Table}

theorem Sound.count_eq (h : f.Sound shape) (id : Nat) :
    f.count id = (shape[id]?.map Prod.snd).getD 0 := by
  obtain ⟨ts, hts, rfl⟩ := h.shaped
  rw [count, hts.count?_eq, List.getElem?_map, Option.map_map]
  rfl

theorem Sound.schemas_same (hf : f.Sound shape) (hg : g.Sound shape) : g.schemas = f.schemas :=
  hg.schemas.trans hf.schemas.symm

theorem Sound.count_same (hf : f.Sound shape) (hg : g.Sound shape) (id : Nat) :
    g.count id = f.count id :=
  (hg.count_eq id).trans (hf.count_eq id).symm

theorem Sound.schema_ok (h : f.Sound shape) (hs : schema ∈ f.schemas) :
    f.schema schema.name = .ok schema := by
  rw [Frame.schema, schema?, List.find?_of_nodup h.distinct hs]

theorem Sound.getElem?_schemas (h : f.Sound shape) (hshape : ts.map Table.shape = shape)
    (id : Nat) : f.schemas[id]? = ts[id]?.map Table.schema := by
  rw [h.schemas, ← hshape, List.map_map, List.getElem?_map]
  rfl

/-- The table of a schema. -/
theorem Sound.table (h : f.Sound shape) (hts : f.store.Models ts)
    (hshape : ts.map Table.shape = shape) (hs : schema ∈ f.schemas) :
    ∃ t, ts[schema.id]? = some t ∧ t.Sound ∧ t.schema = schema ∧ t.count = f.count schema.id := by
  obtain ⟨i, hi⟩ := List.mem_iff_getElem?.1 hs
  rw [h.numbered i schema hi]
  rw [h.getElem?_schemas hshape] at hi
  obtain ⟨t, ht, hschema⟩ := Option.map_eq_some_iff.1 hi
  have hcount : f.count i = t.count := by rw [count, hts.count?_eq, ht]; rfl
  exact ⟨t, ht, hts.sound t (List.mem_of_getElem? ht), hschema, hcount.symm⟩

theorem Sound.coord_ok (h : f.Sound shape) (hs : schema ∈ f.schemas) (ha : attr ∈ schema.attributes)
    (index : Nat) : f.coord schema.name index attr.name = .ok ⟨schema.id, index, attr.id⟩ := by
  obtain ⟨ts, hts, hshape⟩ := h.shaped
  obtain ⟨t, -, ht, rfl, -⟩ := h.table hts hshape hs
  simp only [coord, handle, h.schema_ok hs, ht.schema.attributeNamed_of_mem ha, Except.ok_bind]
  rfl

end Frame

/-! ## What building makes -/

/-- Tables allocated one after another. -/
theorem Tables.forM_allocate {schemas : List (Schema × Nat)} {ts : List Table}
    (h : ((schemas.forM fun p => Action.update (allocate p.1 p.2)) ts).result = .ok ()) :
    ((schemas.forM fun p => Action.update (allocate p.1 p.2)) ts).state =
      ts ++ schemas.map fun p => .blank p.1 p.2 := by
  induction schemas generalizing ts with
  | nil => exact (List.append_nil ts).symm
  | cons p schemas ih =>
    change ((Action.update (allocate p.1 p.2) >>= fun _ => schemas.forM _) ts).result = _ at h
    change ((Action.update (allocate p.1 p.2) >>= fun _ => schemas.forM _) ts).state = _
    obtain ⟨_, hp, h⟩ := Action.bind_ok.1 h
    rw [Action.update_apply] at hp h
    rw [Action.bind_apply, Action.update_apply]
    cases hall : allocate p.1 p.2 ts with
    | error e =>
      rw [hall] at hp
      cases hp
    | ok us =>
      rw [hall] at h
      have hus : us = ts ++ [.blank p.1 p.2] := by
        unfold allocate at hall
        split at hall
        · cases hall
        · obtain ⟨_, -, hus⟩ := Except.bind_ok.1 hall
          cases hus
          rfl
      exact (ih h).trans (by simp [hus])

/-- The frame is as building leaves it: every pool blank, nothing sealed, and the ring, if there is
one, clear. -/
structure Frame.Blank (f : Frame) (shape : List (Schema × Nat)) : Prop where
  sound : f.Sound shape
  store : f.store.Models (shape.map fun p => .blank p.1 p.2)
  seals : f.seals = shape.map fun _ => .empty
  ring : ∀ r, f.ring = some r → r.Refines [] ∧ r.clear = r

theorem Frame.ofSchemas_blank {schemas : List (Schema × Nat)} {ring : Option Ring} {store : Store}
    {f : Frame} (hwf : ∀ p ∈ schemas, p.1.WellFormed)
    (hnum : ∀ (i : Nat) s, (schemas.map Prod.fst)[i]? = some s → s.id = i)
    (hdistinct : ((schemas.map Prod.fst).map Schema.name).Nodup)
    (hring : ∀ r, ring = some r → r.Refines [] ∧ r.clear = r) (hst : store.Models [])
    (hf : (ofSchemas schemas ring store).result = .ok f) : f.Blank schemas := by
  have hmodels : Action.Respects Store.Models Eq
      (schemas.forM fun p => Store.allocate p.1 p.2)
      (schemas.forM fun p => Action.update (Tables.allocate p.1 p.2)) :=
    .forM (List.forall₂_same.2 fun p hp => Store.allocate_models (hwf p hp) p.2)
  obtain ⟨_, hall, hf⟩ := Action.bind_ok.1 hf
  obtain ⟨hres, hstate⟩ := hmodels store [] hst
  rw [Tables.forM_allocate (hres.eq.symm.trans hall)] at hstate
  cases hf
  refine ⟨⟨⟨_, hstate, ?_⟩, rfl, hnum, hdistinct⟩, hstate, rfl, hring⟩
  simp [Function.comp_def, Table.shape, Table.blank]

namespace Builder

/-- The ring a frame starts with. -/
theorem startRing_clear {b : Builder} {ring : Option Ring} (h : b.startRing = .ok ring) (r : Ring)
    (hr : ring = some r) : r.Refines [] ∧ r.clear = r := by
  subst hr
  unfold startRing at h
  split at h
  · cases h
  · split at h
    · rename_i hnew
      cases h
      exact ⟨Ring.refines_of_new hnew, Ring.clear_of_new hnew⟩
    · cases h

/-- The configuration is checked, the ring is made, and the pools are allocated. -/
theorem build_result (b : Builder) : (build b).result = (do
    checkConfig b
    let ring ← startRing b
    (Frame.ofSchemas (b.registry.schemas.zip b.syncedCounts) ring b.startStore).result) := by
  simp only [build, Action.bind_apply, Action.read_apply, Action.get_apply]
  cases b.checkConfig with
  | error e => rfl
  | ok u =>
    simp only [Except.ok_bind]
    cases b.startRing with
    | error e => rfl
    | ok ring =>
      simp only [Action.within_apply, Except.ok_bind]
      cases (Frame.ofSchemas (b.registry.schemas.zip b.syncedCounts) ring b.startStore).result <;>
        rfl

/-- The schemas and counts of the frame to be built. -/
theorem map_fst_zip_counts (b : Builder) :
    (b.registry.schemas.zip b.syncedCounts).map Prod.fst = b.registry.schemas := by
  refine List.map_fst_zip ?_
  simp only [syncedCounts, Registry.size, List.length_append, List.length_replicate]
  omega

theorem build_blank {b : Builder} (hr : b.registry.Sound) (hst : b.startStore.Models []) {f : Frame}
    (hf : (build b).result = .ok f) : f.Blank (b.registry.schemas.zip b.syncedCounts) := by
  rw [build_result] at hf
  obtain ⟨_, -, hf⟩ := Except.bind_ok.1 hf
  obtain ⟨ring, hring, hf⟩ := Except.bind_ok.1 hf
  have hschemas := b.map_fst_zip_counts
  exact Frame.ofSchemas_blank
    (fun p hp => (hr.declared p.1 (List.of_mem_zip hp).1).wellFormed)
    (by rw [hschemas]; exact hr.numbered) (by rw [hschemas]; exact hr.distinct)
    (startRing_clear hring) hst hf

/-- A step of building on the built-in storage: the schemas it brings were made by declarations, and
a store of the caller's own is empty. -/
def Step.Standard : Step → Prop
  | .add schema _ => schema.Declared
  | .usePreloaded _ schemas => schemas = []
  | _ => True

end Builder

/-- The frame was built on the built-in storage. -/
def Frame.Built (f : Frame) : Prop :=
  ∃ steps : List Builder.Step, (∀ step ∈ steps, step.Standard) ∧
    (Session.buildBy steps {}).result = .ok f

theorem Builder.Step.Standard.declared {step : Step} (h : step.Standard) : step.Declared := by
  cases step with
  | add schema count => exact h
  | usePreloaded k schemas =>
    obtain rfl : schemas = [] := h
    exact fun s hs => absurd hs List.not_mem_nil
  | _ => trivial

/-- What steps on the built-in storage leave of a builder. -/
theorem Session.steps_sound {steps : List Builder.Step} (hsteps : ∀ step ∈ steps, step.Standard) :
    ((steps.forM takeStep) {}).state.registry.Sound ∧
      ((steps.forM takeStep) {}).state.startStore.Models [] := by
  have hblank := Store.new_models
  have halike : Action.Respects (Builder.Alike fun s t => s.Models [] ∧ t.Models []) Eq
      (steps.forM takeStep) (steps.forM takeStep) := by
    refine .forM (List.forall₂_same.2 fun step hstep => takeStep_alike rfl ?_)
    refine Builder.perform_alike (.same (hsteps step hstep).declared) ?_
    intro k k' schemas heq _
    have hempty := hsteps step hstep
    rw [heq] at hempty
    obtain rfl : schemas = [] := hempty
    exact Builder.usePreloaded_alike ⟨hblank k, hblank k'⟩ fun s hs => absurd hs List.not_mem_nil
  obtain ⟨-, h⟩ := halike {} {} (.empty _)
  revert h
  generalize ((steps.forM takeStep) {}).state = b
  intro h
  cases h with
  | mk hr counts capacity k k' hst =>
    refine ⟨hr, ?_⟩
    cases hst with
    | some hst => exact hst.1
    | none => exact hblank k

theorem Frame.Built.blank {f : Frame} (h : f.Built) : ∃ shape, f.Blank shape := by
  obtain ⟨steps, hsteps, hf⟩ := h
  rw [Session.buildBy_eq] at hf
  obtain ⟨_, -, hf⟩ := Action.bind_ok.1 hf
  obtain ⟨hr, hst⟩ := Session.steps_sound hsteps
  exact ⟨_, Builder.build_blank hr hst hf⟩

theorem Frame.Built.sound {f : Frame} (h : f.Built) :
    ∃ shape, f.Sound shape ∧ ∀ r, f.ring = some r → r.Refines [] := by
  obtain ⟨shape, hblank⟩ := h.blank
  exact ⟨shape, hblank.sound, fun r hr => (hblank.ring r hr).1⟩

namespace Frame

/-- The frame was built on the built-in storage and operated on since. -/
def Reachable (f : Frame) : Prop :=
  ∃ (f₀ : Frame) (ops : List Op), f₀.Built ∧ f = Action.after perform ops f₀

theorem Reachable.sound {f : Frame} (h : f.Reachable) : ∃ shape, f.Sound shape := by
  obtain ⟨f₀, ops, hf₀, rfl⟩ := h
  obtain ⟨shape, hshape, -⟩ := hf₀.sound
  exact ⟨shape, hshape.after ops⟩

end Frame

end NodeStore
