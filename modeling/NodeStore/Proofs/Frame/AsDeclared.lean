import NodeStore.Proofs.Builder.Declarations
import NodeStore.Proofs.Frame.Frozen

/-!
# Frames are built as declared

Whatever steps a builder took, building is refused only for a snapshot capacity of zero and for
pools too large to be counted (`Builder.Refused`). Otherwise the frame is what the steps that ended
well declared, and nothing was written to it yet (`Frame.AsDeclared`).

* `Tables.forM_allocate_ends`: pools are allocated, unless one is too large.
* `Builder.build_ends`: what becomes of a builder's schemas and counts.
* `Session.built_as_declared`: and so of the steps.
-/

namespace NodeStore

/-! ## Allocating pools -/

theorem Tables.allocate_of_id {schema : Schema} {ts : List Table} (hid : schema.id = ts.length)
    (n : Nat) :
    (schema.Allocable n ∧ allocate schema n ts = .ok (ts ++ [.blank schema n])) ∨
      ¬ schema.Allocable n ∧ ∃ fault, allocate schema n ts = .error (.invalidConfig fault) := by
  unfold allocate
  rw [if_neg (not_not_intro hid)]
  cases hlayout : PoolLayout.ofSchema schema n with
  | ok layout => exact .inl ⟨PoolLayout.allocable_of_ok hlayout, rfl⟩
  | error e =>
    obtain ⟨hlarge, fault, rfl⟩ := PoolLayout.ofSchema_error hlayout
    exact .inr ⟨hlarge, fault, rfl⟩

/-- Pools that are allocated in the order of their numbers are refused only for their size. -/
theorem Tables.forM_allocate_ends {schemas : List (Schema × Nat)} {ts : List Table}
    (hnum : ∀ (i : Nat) p, schemas[i]? = some p → p.1.id = ts.length + i) :
    ((∀ p ∈ schemas, p.1.Allocable p.2) ∧
        ((schemas.forM fun p => Action.update (allocate p.1 p.2)) ts).result = .ok ()) ∨
      ¬ (∀ p ∈ schemas, p.1.Allocable p.2) ∧ ∃ fault,
        ((schemas.forM fun p => Action.update (allocate p.1 p.2)) ts).result =
          .error (.invalidConfig fault) := by
  induction schemas generalizing ts with
  | nil => exact .inl ⟨by simp, rfl⟩
  | cons p schemas ih =>
    rw [List.forall_mem_cons]
    have hforM : (((p :: schemas).forM fun p => Action.update (allocate p.1 p.2)) ts).result =
        ((Action.update (allocate p.1 p.2) >>= fun _ =>
          schemas.forM fun p => Action.update (allocate p.1 p.2)) ts).result := rfl
    rw [hforM, Action.bind_apply, Action.update_apply]
    rcases allocate_of_id (hnum 0 p rfl) p.2 with ⟨hfits, hok⟩ | ⟨hlarge, fault, herror⟩
    · rw [hok]
      have hnum' (i : Nat) (q : Schema × Nat) (hq : schemas[i]? = some q) :
          q.1.id = (ts ++ [Table.blank p.1 p.2]).length + i := by
        rw [hnum (i + 1) q hq, List.length_append, List.length_singleton, Nat.add_assoc,
          Nat.add_comm i 1]
      simpa only [hfits, true_and] using ih hnum'
    · rw [herror]
      exact .inr ⟨fun h => hlarge h.1, fault, rfl⟩

/-- The frame is put together, unless a pool is too large. -/
theorem Frame.ofSchemas_ends {schemas : List (Schema × Nat)} {store : Store} (ring : Option Ring)
    (hwf : ∀ p ∈ schemas, p.1.WellFormed)
    (hnum : ∀ (i : Nat) p, schemas[i]? = some p → p.1.id = i) (hst : store.Models []) :
    ((∀ p ∈ schemas, p.1.Allocable p.2) ∧ ∃ f : Frame,
        (ofSchemas schemas ring store).result = .ok f ∧ f.ring = ring ∧
          f.store.kind = store.kind) ∨
      ¬ (∀ p ∈ schemas, p.1.Allocable p.2) ∧ ∃ fault,
        (ofSchemas schemas ring store).result = .error (.invalidConfig fault) := by
  have hmodels : Action.Respects Store.Models Eq
      (schemas.forM fun p => Store.allocate p.1 p.2)
      (schemas.forM fun p => Action.update (Tables.allocate p.1 p.2)) :=
    .forM (List.forall₂_same.2 fun p hp => Store.allocate_models (hwf p hp) p.2)
  have hkind : Action.Keeps (fun s : Store => s.kind = store.kind)
      (schemas.forM fun p => Store.allocate p.1 p.2) :=
    .forM fun p _ s hs => (Store.kind_act _ s).trans hs
  have hresult := (hmodels store [] hst).1.eq
  have hnum' (i : Nat) (p : Schema × Nat) (hp : schemas[i]? = some p) :
      p.1.id = ([] : List Table).length + i := by
    rw [hnum i p hp, List.length_nil, Nat.zero_add]
  rcases Tables.forM_allocate_ends hnum' with ⟨hfits, hok⟩ | ⟨hlarge, fault, herror⟩
  · rw [hok] at hresult
    exact .inl ⟨hfits, _, (Action.bind_of_ok hresult).1, rfl, hkind store rfl⟩
  · rw [herror] at hresult
    exact .inr ⟨hlarge, fault, (Action.bind_of_error hresult).1⟩

namespace Builder

variable {made : List Step} {b : Builder}

/-! ## Building -/

theorem startRing_ok (h : b.config.capacity ≠ some 0) :
    ∃ ring, b.startRing = .ok ring ∧ ring.map Ring.capacity = b.config.capacity := by
  unfold startRing
  cases hc : b.config.capacity with
  | none => exact ⟨none, rfl, rfl⟩
  | some n =>
    have hpos : 0 < n := Nat.pos_of_ne_zero (by rintro rfl; exact h hc)
    obtain ⟨r, hr, hcapacity⟩ := Ring.new_ok hpos
    exact ⟨some r, by simp only [hr], congrArg some hcapacity⟩

/-- Building is refused for the capacity or for the size of a pool. Otherwise it gives a blank frame
of the schemas and counts. -/
theorem build_ends (hr : b.registry.Sound) (hst : b.startStore.Models [])
    {refused : Prop} (hrefused : refused ↔ b.config.capacity = some 0 ∨
      ¬ ∀ p ∈ b.registry.schemas.zip b.syncedCounts, p.1.Allocable p.2) :
    (refused ∧ ∃ fault, (build b).result = .error (.invalidConfig fault)) ∨
      ¬ refused ∧ ∃ f, (build b).result = .ok f ∧
        f.Blank (b.registry.schemas.zip b.syncedCounts) ∧
        f.ring.map Ring.capacity = b.config.capacity ∧ f.store.kind = b.startStore.kind := by
  rw [hrefused]
  by_cases hzero : b.config.capacity = some 0
  · refine .inl ⟨.inl hzero, .zeroCapacity, ?_⟩
    simp [build_result, checkConfig, Config.validate, hzero]
  · obtain ⟨ring, hring, hcapacity⟩ := startRing_ok hzero
    have hbuild : (build b).result =
        (Frame.ofSchemas (b.registry.schemas.zip b.syncedCounts) ring b.startStore).result := by
      simp [build_result, checkConfig, Config.validate, hzero, hring]
    have hnum (i : Nat) (p : Schema × Nat)
        (hp : (b.registry.schemas.zip b.syncedCounts)[i]? = some p) : p.1.id = i :=
      hr.numbered i p.1 (List.getElem?_zip_eq_some.1 hp).1
    have hwf (p : Schema × Nat) (hp : p ∈ b.registry.schemas.zip b.syncedCounts) :
        p.1.WellFormed := (hr.declared p.1 (List.of_mem_zip hp).1).wellFormed
    rcases Frame.ofSchemas_ends ring hwf hnum hst with ⟨hfits, f, hf, rfl, hkind⟩ | ⟨hlarge, h⟩
    · have hok := hbuild.trans hf
      refine .inr ⟨?_, f, hok, build_blank hr hst hok, hcapacity, hkind⟩
      exact not_or_intro hzero (not_not_intro hfits)
    · rw [hbuild]
      exact .inl ⟨.inr hlarge, h⟩

/-! ## What was declared -/

/-- The schemas declared, with their counts. -/
def shape (made : List Step) : List (Schema × Nat) :=
  (declarations made).mapIdx fun k d => (d.schema k, d.count)

/-- What was declared cannot be built: there is no slot for a snapshot, or a fixed attribute has
more values than can be counted. -/
def Refused (made : List Step) : Prop :=
  capacity made = some 0 ∨
    ∃ d ∈ declarations made, ∃ a ∈ d.attrs, a.isList = false ∧ sizeLimit ≤ d.count * a.slots

theorem getElem?_shape (made : List Step) (k : Nat) :
    (shape made)[k]? = (declarations made)[k]?.map fun d => (d.schema k, d.count) := by
  rw [shape, List.getElem?_mapIdx]

theorem map_shape {α : Type} (g : Schema × Nat → α) (made : List Step) :
    (shape made).map g = (declarations made).mapIdx fun k d => g (d.schema k, d.count) := by
  refine List.ext_getElem? fun k => ?_
  rw [List.getElem?_map, getElem?_shape, List.getElem?_mapIdx, Option.map_map]
  rfl

theorem Tracks.zip_eq (h : b.Tracks made) :
    b.registry.schemas.zip b.syncedCounts = shape made := by
  refine List.ext_getElem? fun k => ?_
  rw [getElem?_shape, List.zip, List.getElem?_zipWith, h.getElem?_schemas, h.getElem?_counts]
  cases (declarations made)[k]? <;> rfl

theorem Tracks.kind_startStore (h : b.Tracks made) : b.startStore.kind = Builder.kind made := by
  rw [startStore, h.own, h.kind, Builder.kind]
  cases last? Step.ownKind? made with
  | some k => cases k <;> rfl
  | none => cases (last? Step.kind? made).getD .standard <;> rfl

theorem allocable_declared {d : Declaration} (k : Nat) : (d.schema k).Allocable d.count ↔
    ∀ a ∈ d.attrs, a.isList = false → d.count * a.slots < sizeLimit := by
  unfold Schema.Allocable Declaration.schema
  constructor
  · intro h a ha
    obtain ⟨i, hi⟩ := List.mem_iff_getElem?.1 ha
    exact h (.ofSpec i a) (List.mem_of_getElem? (by rw [List.getElem?_mapIdx, hi]; rfl))
  · intro h attr hattr
    obtain ⟨i, hi, rfl⟩ := List.mem_mapIdx.1 hattr
    exact h _ (List.getElem_mem hi)

theorem refused_iff : Refused made ↔
    capacity made = some 0 ∨ ¬ ∀ p ∈ shape made, p.1.Allocable p.2 := by
  have hshape : (∀ p ∈ shape made, p.1.Allocable p.2) ↔
      ∀ d ∈ declarations made, ∀ a ∈ d.attrs, a.isList = false →
        d.count * a.slots < sizeLimit := by
    constructor
    · intro h d hd
      obtain ⟨k, hk⟩ := List.mem_iff_getElem?.1 hd
      exact (allocable_declared k).1 (h (d.schema k, d.count)
        (List.mem_of_getElem? (by rw [getElem?_shape, hk]; rfl)))
    · intro h p hp
      obtain ⟨k, hk, rfl⟩ := List.mem_mapIdx.1 hp
      exact (allocable_declared k).2 (h _ (List.getElem_mem hk))
  rw [Refused, hshape]
  push Not
  rfl

end Builder

namespace Frame

open Builder

/-- The frame has the `k`-th schema as declared, and nothing was written to its instances. -/
structure Declares (f : Frame) (k : Nat) (d : Declaration) : Prop where
  named : f.schema d.name = .ok (d.schema k)
  numbered : f.schemaAt k = .ok (d.schema k)
  count : f.instanceCount d.name = .ok d.count
  pool : f.store.count? k = some d.count
  initial : ∀ index < d.count, ∀ attr ∈ (d.schema k).attributes,
    f.Reads ⟨k, index, attr.id⟩ (d.schema k) attr (Table.initial attr)
  unsealed : ∀ index < d.count, f.isSealed d.name index = .ok false

/-- The frame has the schemas and the storage declared, and nothing has happened to it. -/
structure AsDeclared (f : Frame) (made : List Step) : Prop where
  schemas : f.schemas = (declarations made).mapIdx Declaration.schema
  each : ∀ (k : Nat) d, (declarations made)[k]? = some d → f.Declares k d
  /-- The pools are those of the schemas, in the same order, and blank. -/
  pools : f.store.Models ((declarations made).mapIdx fun k d => .blank (d.schema k) d.count)
  kind : f.store.kind = kind made
  ring : f.ring.map Ring.capacity = capacity made
  empty : ∀ r, f.ring = some r → r.toList = []

theorem Blank.isSealedAt_eq {f : Frame} {shape : List (Schema × Nat)} (h : f.Blank shape)
    (id : SchemaId) (index : Nat) : f.isSealedAt id index = false := by
  rw [isSealedAt, h.seals, List.getElem?_map]
  cases shape[id]? with
  | none => rfl
  | some p => exact InstanceSet.contains_clear .empty index

/-- A frame of the shape declared has the schemas and counts declared. -/
theorem Sound.declared {f : Frame} {made : List Step} (h : f.Sound (shape made)) {k : Nat}
    {d : Declaration} (hd : (declarations made)[k]? = some d) :
    f.schemas[k]? = some (d.schema k) ∧ f.schema d.name = .ok (d.schema k) ∧
      f.count k = d.count ∧ f.instanceCount d.name = .ok d.count := by
  have hshape : (shape made)[k]? = some (d.schema k, d.count) := by rw [getElem?_shape, hd]; rfl
  have hschema : f.schemas[k]? = some (d.schema k) := by
    rw [h.schemas, List.getElem?_map, hshape]
    rfl
  have hnamed : f.schema d.name = .ok (d.schema k) := h.schema_ok (List.mem_of_getElem? hschema)
  have hcount : f.count k = d.count := by rw [h.count_eq, hshape]; rfl
  refine ⟨hschema, hnamed, hcount, ?_⟩
  rw [instanceCount, hnamed]
  exact congrArg _ hcount

theorem Blank.declares {f : Frame} {made : List Step} (h : f.Blank (shape made)) {k : Nat}
    {d : Declaration} (hd : (declarations made)[k]? = some d) : f.Declares k d := by
  obtain ⟨hschema, hnamed, hcount, hcounts⟩ := h.sound.declared hd
  have htable : ((shape made).map fun p => Table.blank p.1 p.2)[k]? =
      some (.blank (d.schema k) d.count) := by
    rw [List.getElem?_map, getElem?_shape, hd]
    rfl
  refine ⟨hnamed, ?_, hcounts, ?_, ?_, ?_⟩
  · rw [schemaAt, schemaAt?, hschema]
  · rw [h.store.count?_eq, htable]
    rfl
  · intro index hindex attr ha
    have hattr := (h.store.sound _ (List.mem_of_getElem? htable)).schema.mem ha
    have hcell : (Table.blank (d.schema k) d.count).cells index attr.id = Table.initial attr :=
      Table.cells_blank hindex hattr
    rw [← hcell]
    exact reads_of_models (c := ⟨k, index, attr.id⟩) h.store htable hattr hindex
  · intro index hindex
    refine (isSealed_ok h.sound (List.mem_of_getElem? hschema)).2 ⟨?_, h.isSealedAt_eq k index⟩
    exact hcount ▸ hindex

theorem Blank.asDeclared {f : Frame} {made : List Step} (h : f.Blank (shape made))
    (hkind : f.store.kind = kind made) (hring : f.ring.map Ring.capacity = capacity made) :
    f.AsDeclared made where
  schemas := h.sound.schemas.trans (map_shape Prod.fst made)
  each _ _ hd := h.declares hd
  pools := map_shape (fun p => Table.blank p.1 p.2) made ▸ h.store
  kind := hkind
  ring := hring
  empty r hr := (h.ring r hr).1.toList_eq

end Frame

/-- A frame that was built is blank, with the schemas and counts declared. -/
theorem Session.built_blank {steps : List Builder.Step} (hsteps : ∀ step ∈ steps, step.Standard)
    {f : Frame} (hf : (buildBy steps {}).result = .ok f) :
    f.Blank (Builder.shape (Builder.accepted steps {})) := by
  obtain ⟨_, hrun, hf⟩ := Action.bind_ok.1 hf
  obtain ⟨hr, hst⟩ := steps_sound hsteps
  have htracks := Builder.Tracks.empty.steps hsteps hrun
  rw [List.nil_append] at htracks
  rw [← htracks.zip_eq]
  exact Builder.build_blank hr hst hf

/-- A builder that took any steps, those that are refused without ending the building apart, gives
the frame that the others declared. It refuses to only for the snapshot capacity or the size of a
pool. -/
theorem Session.built_as_declared {steps : List Builder.Step}
    (hsteps : ∀ step ∈ steps, step.Standard) (hrun : ((steps.forM takeStep) {}).result = .ok ()) :
    ((∃ fault, (buildBy steps {}).result = .error (.invalidConfig fault)) ↔
        Builder.Refused (Builder.accepted steps {})) ∧
      (¬ Builder.Refused (Builder.accepted steps {}) →
        ∃ f, (buildBy steps {}).result = .ok f ∧ f.AsDeclared (Builder.accepted steps {})) := by
  have htracks := Builder.Tracks.empty.steps hsteps hrun
  rw [List.nil_append] at htracks
  obtain ⟨hr, hst⟩ := steps_sound hsteps
  have hbuild : (buildBy steps {}).result =
      (Builder.build ((steps.forM takeStep) {}).state).result := (Action.bind_of_ok hrun).1
  generalize ((steps.forM takeStep) {}).state = b at htracks hr hst hbuild
  generalize Builder.accepted steps {} = made at htracks
  rw [hbuild]
  have hrefused : Builder.Refused made ↔ _ := Builder.refused_iff
  rw [← htracks.zip_eq, ← htracks.capacity] at hrefused
  rcases Builder.build_ends hr hst hrefused with ⟨h, hfault⟩ | ⟨h, f, hf, hblank, hring, hkind⟩
  · exact ⟨⟨fun _ => h, fun _ => hfault⟩, fun hn => absurd h hn⟩
  · rw [hf]
    refine ⟨⟨?_, fun h' => absurd h' h⟩, fun _ => ⟨f, rfl, ?_⟩⟩
    · rintro ⟨fault, ⟨⟩⟩
    · rw [htracks.zip_eq] at hblank
      exact hblank.asDeclared (hkind.trans htracks.kind_startStore) (hring.trans htracks.capacity)

/-- Schemas are declared in different ways and revised in another order, and two steps are refused
on the way: a name that is taken and a count for a schema there is not. -/
theorem Session.built_as_declared_interleaved : ∃ (steps made : List Builder.Step) (f : Frame),
    steps = [.declareUncounted "late", .declare "cell" 2, .declare "cell" 9,
      .addAttribute 0 ⟨"x", .int8, 2, false, false⟩, .setCount 7 1,
      .add ⟨5, "made", [⟨0, "tags", .uint8, 1, true, false⟩]⟩ 1, .setSnapshots 3,
      .addAttribute 1 ⟨"y", .uint8, 1, false, true⟩, .setCount 0 4, .setKind .lite,
      .setCount 0 3] ∧
    Builder.accepted steps {} = made ∧
    Builder.declarations made = [⟨"late", [⟨"x", .int8, 2, false, false⟩], 3⟩,
      ⟨"cell", [⟨"y", .uint8, 1, false, true⟩], 2⟩,
      ⟨"made", [⟨"tags", .uint8, 1, true, false⟩], 1⟩] ∧
    Builder.capacity made = some 3 ∧ Builder.kind made = .lite ∧
    (buildBy steps {}).result = .ok f ∧ f.AsDeclared made := by
  have hmade : Schema.Declared ⟨5, "made", [⟨0, "tags", .uint8, 1, true, false⟩]⟩ :=
    .register 5 (.ofSpecs (show Schema.ofSpecs "made" [⟨"tags", .uint8, 1, true, false⟩] =
      .ok ⟨0, "made", [⟨0, "tags", .uint8, 1, true, false⟩]⟩ from rfl))
  have hsteps : ∀ step ∈ [Builder.Step.declareUncounted "late", .declare "cell" 2,
      .declare "cell" 9, .addAttribute 0 ⟨"x", .int8, 2, false, false⟩, .setCount 7 1,
      .add ⟨5, "made", [⟨0, "tags", .uint8, 1, true, false⟩]⟩ 1, .setSnapshots 3,
      .addAttribute 1 ⟨"y", .uint8, 1, false, true⟩, .setCount 0 4, .setKind .lite,
      .setCount 0 3], step.Standard := by
    simp [Builder.Step.Standard, hmade]
  obtain ⟨-, hok⟩ := built_as_declared hsteps rfl
  obtain ⟨f, hf, hdeclared⟩ := hok (by unfold Builder.Refused; decide)
  exact ⟨_, _, f, rfl, rfl, rfl, rfl, rfl, hf, hdeclared⟩

end NodeStore
