import NodeStore.Frame.Summary
import NodeStore.Proofs.Frame.Sound

/-!
# What a builder was told

Of the steps taken on a builder those count that end well (`Builder.accepted`). What they declare is
read off their list: the schemas in order, each with the attributes it came with and those added to
it later, and with the count given for it last (`Builder.declarations`); and likewise the snapshot
capacity and the storage.

A builder holds its schemas and their counts in two lists, of which the second may be the shorter
one. After any steps both are what was declared (`Builder.Tracks`).

* `Builder.Tracks.perform`: a step is refused and changes nothing, or counts.
* `Builder.Tracks.steps`: what steps leave of a builder.
-/

namespace NodeStore

/-! ## Declarations -/

/-- The attribute asked for, at a position. -/
def Attribute.ofSpec (id : AttrId) (spec : AttrSpec) : Attribute :=
  ⟨id, spec.name, spec.type, spec.slots, spec.isList, spec.isConst⟩

/-- What is declared of a schema. -/
structure Declaration where
  name : String
  attrs : List AttrSpec
  count : Nat

/-- The schema declared, under a number. -/
def Declaration.schema (id : SchemaId) (d : Declaration) : Schema :=
  ⟨id, d.name, d.attrs.mapIdx .ofSpec⟩

namespace Builder

namespace Step

/-- The schema a step declares. -/
def declares? : Step → Option Declaration
  | .declare name count => some ⟨name, [], count⟩
  | .declareUncounted name => some ⟨name, [], 0⟩
  | .declareWith name specs count => some ⟨name, specs, count⟩
  | .add schema count => some ⟨schema.name, schema.attributes.map Attribute.spec, count⟩
  | .addNode n count => some ⟨n.name, n.attributes, count⟩
  | _ => none

/-- The attribute a step adds to a schema declared before. -/
def adds? (id : SchemaId) : Step → Option AttrSpec
  | .addAttribute i spec => if i = id then some spec else none
  | _ => none

/-- The count a step sets for a schema declared before. -/
def sets? (id : SchemaId) : Step → Option Nat
  | .setCount i count => if i = id then some count else none
  | _ => none

/-- The snapshot capacity a step chooses, or no snapshots. -/
def capacity? : Step → Option (Option Nat)
  | .setConfig c => some c.capacity
  | .setSnapshots capacity => some (some capacity)
  | _ => none

/-- The built-in storage a step chooses. -/
def kind? : Step → Option Kind
  | .setConfig c => some c.kind
  | .setKind k => some k
  | _ => none

/-- The storage of a store of the caller's own. -/
def ownKind? : Step → Option Kind
  | .usePreloaded k _ => some k
  | _ => none

end Step

variable {α : Type} {made : List Step} {step : Step} {b b' : Builder} {d : Declaration} {k : Nat}

/-- What the steps chose last. -/
def last? (g : Step → Option α) (made : List Step) : Option α := (made.filterMap g).getLast?

/-- The schemas declared by steps that ended well. -/
def declarations (made : List Step) : List Declaration :=
  (made.filterMap Step.declares?).mapIdx fun id d =>
    ⟨d.name, d.attrs ++ made.filterMap (Step.adds? id), (last? (Step.sets? id) made).getD d.count⟩

/-- The snapshot capacity chosen, if any. -/
def capacity (made : List Step) : Option Nat := (last? Step.capacity? made).join

/-- The storage chosen. A store of the caller's own goes before a built-in one. -/
def kind (made : List Step) : Kind :=
  (last? Step.ownKind? made).getD ((last? Step.kind? made).getD .standard)

/-- The steps that end well, each taken after those before it. -/
def accepted : List Step → Builder → List Step
  | [], _ => []
  | step :: steps, b =>
    match (perform step b).result with
    | .ok _ => step :: accepted steps (perform step b).state
    | .error _ => accepted steps (perform step b).state

/-! ## One more step -/

theorem filterMap_concat (g : Step → Option α) (made : List Step) (step : Step) :
    (made ++ [step]).filterMap g = made.filterMap g ++ (g step).toList := by
  rw [List.filterMap_append]
  cases hg : g step with
  | none => rw [List.filterMap_cons_none hg]; rfl
  | some a => rw [List.filterMap_cons_some hg]; rfl

theorem last?_concat (g : Step → Option α) (made : List Step) (step : Step) :
    last? g (made ++ [step]) = (g step).or (last? g made) := by
  rw [last?, filterMap_concat, List.getLast?_append, last?]
  cases g step <;> rfl

theorem getElem?_declarations (made : List Step) (k : Nat) :
    (declarations made)[k]? = (made.filterMap Step.declares?)[k]?.map fun d =>
      ⟨d.name, d.attrs ++ made.filterMap (Step.adds? k),
        (last? (Step.sets? k) made).getD d.count⟩ := by
  rw [declarations, List.getElem?_mapIdx]

/-- A step that declares no schema revises those there are. -/
theorem declarations_revised (hd : step.declares? = none) :
    declarations (made ++ [step]) = (declarations made).mapIdx fun id d =>
      ⟨d.name, d.attrs ++ (step.adds? id).toList, (step.sets? id).getD d.count⟩ := by
  refine List.ext_getElem? fun k => ?_
  rw [List.getElem?_mapIdx, getElem?_declarations, getElem?_declarations, last?_concat,
    filterMap_concat, filterMap_concat, hd, Option.toList_none, List.append_nil, Option.map_map]
  congr 1
  funext d
  cases step.sets? k <;> simp

/-- A step that declares a schema does nothing else. -/
theorem Step.declares_only (hd : step.declares? = some d) :
    (∀ id, step.adds? id = none) ∧ (∀ id, step.sets? id = none) ∧ step.capacity? = none ∧
      step.kind? = none ∧ step.ownKind? = none := by
  cases step <;> cases hd <;> exact ⟨fun _ => rfl, fun _ => rfl, rfl, rfl, rfl⟩

/-- A step that declares a schema, which no step before was about. -/
theorem declarations_concat (hd : step.declares? = some d)
    (hadds : made.filterMap (Step.adds? (declarations made).length) = [])
    (hsets : made.filterMap (Step.sets? (declarations made).length) = []) :
    declarations (made ++ [step]) = declarations made ++ [d] := by
  obtain ⟨hadd, hset, -⟩ := Step.declares_only hd
  have hlen : (declarations made).length = (made.filterMap Step.declares?).length :=
    List.length_mapIdx
  rw [hlen] at hadds hsets
  simp only [declarations, last?_concat, filterMap_concat, hadd, hset, hd, Option.toList_none,
    List.append_nil, Option.none_or]
  rw [Option.toList_some, List.mapIdx_concat, hadds, last?, hsets]
  simp

end Builder

/-! ## Schemas as declared -/

namespace Schema

variable {s s' : Schema} {spec : AttrSpec} {d : Declaration} {id : SchemaId}

theorem WellFormed.attributes_eq (h : s.WellFormed) :
    s.attributes = (s.attributes.map Attribute.spec).mapIdx .ofSpec := by
  refine List.ext_getElem? fun i => ?_
  rw [List.getElem?_mapIdx, List.getElem?_map, Option.map_map]
  cases hi : s.attributes[i]? with
  | none => rfl
  | some a =>
    rw [Option.map_some, ← h.numbered i a hi]
    rfl

theorem extend_declared (h : (d.schema id).extend spec = .ok s') :
    s' = Declaration.schema id { d with attrs := d.attrs ++ [spec] } := by
  obtain ⟨-, -, -, rfl⟩ := extend_ok h
  simp only [Declaration.schema, List.mapIdx_concat, size, List.length_mapIdx, Attribute.ofSpec]

theorem foldlM_declared {specs : List AttrSpec} (h : specs.foldlM extend (d.schema id) = .ok s) :
    s = Declaration.schema id { d with attrs := d.attrs ++ specs } := by
  induction specs generalizing d with
  | nil =>
    cases h
    rw [List.append_nil]
  | cons spec specs ih =>
    obtain ⟨s₁, hs₁, h⟩ := Except.bind_ok.1 h
    rw [extend_declared hs₁] at h
    rw [ih h, List.append_assoc]
    rfl

theorem ofSpecs_declared {name : String} {specs : List AttrSpec} (h : ofSpecs name specs = .ok s)
    (count : Nat) : s = Declaration.schema 0 ⟨name, specs, count⟩ := by
  obtain ⟨s₀, hs₀, h⟩ := Except.bind_ok.1 h
  unfold new at hs₀
  split at hs₀
  · cases hs₀
  · cases hs₀
    exact foldlM_declared (d := ⟨name, [], count⟩) h

end Schema

/-! ## Steps that are refused or count -/

/-- The action fails and changes nothing, or ends well with an answer and a state of `P`. -/
inductive Action.Ends {σ α : Type} (x : Action σ α) (s : σ) (P : α → σ → Prop) : Prop
  | refused (e : FrameError) (hresult : (x s).result = .error e) (hstate : (x s).state = s)
  | done (a : α) (hresult : (x s).result = .ok a) (hstate : P a (x s).state)

namespace Action.Ends

variable {σ τ α β : Type} {x : Action σ α} {f : α → Action σ β} {s : σ} {P : α → σ → Prop}
  {Q : β → σ → Prop}

/-- What comes after the first part does not fail. -/
protected theorem bind (h : x.Ends s P)
    (hf : ∀ a t, P a t → ∃ c, (f a t).result = .ok c ∧ Q c (f a t).state) :
    (x >>= f).Ends s Q := by
  cases h with
  | refused e hresult hstate =>
    obtain ⟨hresult', hstate'⟩ := bind_of_error (f := f) hresult
    exact .refused e hresult' (hstate'.trans hstate)
  | done a hresult hstate =>
    obtain ⟨hresult', hstate'⟩ := bind_of_ok (f := f) hresult
    obtain ⟨c, hc, hQ⟩ := hf a _ hstate
    exact .done c (hresult'.trans hc) (hstate' ▸ hQ)

/-- Answering something else. -/
theorem bind_pure {R : σ → Prop} (h : x.Ends s fun _ => R) (g : α → β) :
    (x >>= fun a => pure (g a)).Ends s fun _ => R :=
  h.bind fun a _ hR => ⟨g a, rfl, hR⟩

theorem imp {Q : α → σ → Prop} (h : x.Ends s P) (hPQ : ∀ a t, P a t → Q a t) : x.Ends s Q := by
  cases h with
  | refused e hresult hstate => exact .refused e hresult hstate
  | done a hresult hstate => exact .done a hresult (hPQ a _ hstate)

theorem congr {y : Action σ α} (h : x.Ends s P) (hxy : y s = x s) : y.Ends s P := by
  cases h with
  | refused e hresult hstate => exact .refused e (hxy ▸ hresult) (hxy ▸ hstate)
  | done a hresult hstate => exact .done a (hxy ▸ hresult) (hxy ▸ hstate)

/-- On a part of the state. -/
protected theorem on {x : Action τ α} {P : α → τ → Prop} (part : σ → τ) (put : τ → σ → σ)
    (h : x.Ends (part s) P) (hput : put (part s) s = s) :
    (on part put x).Ends s fun a s' => ∃ t, P a t ∧ s' = put t s := by
  cases h with
  | refused e hresult hstate => exact .refused e hresult (by rw [on_apply, hstate, hput])
  | done a hresult hstate => exact .done a hresult ⟨_, hstate, rfl⟩

end Action.Ends

namespace Registry

variable {x : Action Registry SchemaId} {schema : Schema} {d : Declaration} {r : Registry}

/-- The action is refused, or registers what is declared and answers its number. -/
def Registers (x : Action Registry SchemaId) (d : Declaration) : Prop :=
  ∀ r : Registry, x.Ends r fun id r' => id = r.size ∧ r' = ⟨r.schemas ++ [d.schema r.size]⟩

theorem register_registers (hname : schema.name = d.name)
    (hattrs : schema.attributes = d.attrs.mapIdx .ofSpec) : Registers (register schema) d := by
  intro r
  have hschema : d.schema r.size = { schema with id := r.size } := by
    rw [Declaration.schema, ← hname, ← hattrs]
  unfold register
  rw [hschema]
  by_cases hnew : (r.named? schema.name).isSome
  · refine .refused (.duplicateSchema schema.name) ?_ ?_ <;> simp [Action.bind_apply, hnew]
  · refine .done r.size ?_ ⟨rfl, ?_⟩ <;> simp [Action.bind_apply, hnew]

theorem declareWith_registers (name : String) (specs : List AttrSpec) (count : Nat) :
    Registers (declareWith name specs) ⟨name, specs, count⟩ := by
  intro r
  unfold declareWith
  cases hs : Schema.ofSpecs name specs with
  | error e => exact .refused e rfl rfl
  | ok schema =>
    obtain rfl := Schema.ofSpecs_declared hs count
    exact register_registers (d := ⟨name, specs, count⟩) rfl rfl r

theorem declare_registers (name : String) (count : Nat) :
    Registers (declare name) ⟨name, [], count⟩ := by
  have hnew : Schema.ofSpecs name [] = Schema.new name := by
    unfold Schema.ofSpecs
    cases Schema.new name <;> rfl
  have hdeclare : declare name = declareWith name [] := by rw [declare, declareWith, hnew]
  rw [hdeclare]
  exact declareWith_registers name [] count

theorem declare_ends (spec : AttrSpec) (s : Schema) :
    (Schema.declare spec).Ends s fun j s' => j = s.size ∧ s.extend spec = .ok s' := by
  have hdeclare := Schema.declare_eq spec s
  cases hext : s.extend spec with
  | error e =>
    rw [hext] at hdeclare
    exact .refused e (by rw [hdeclare]) (by rw [hdeclare])
  | ok s' =>
    rw [hext] at hdeclare
    exact .done s.size (by rw [hdeclare]) (by rw [hdeclare]; exact ⟨rfl, rfl⟩)

theorem addAttribute_ends (id : SchemaId) (spec : AttrSpec) (r : Registry) :
    (addAttribute id spec).Ends r fun j r' => ∃ s s', r.schemas[id]? = some s ∧
      s.extend spec = .ok s' ∧ j = s.size ∧ r' = ⟨r.schemas.set id s'⟩ := by
  cases hs : r.schemas[id]? with
  | none =>
    refine .refused (.unknownSchema (.numbered id)) ?_ ?_ <;>
      simp [addAttribute, Action.bind_apply, get?, hs]
  | some s =>
    obtain ⟨hlt, rfl⟩ := List.getElem?_eq_some_iff.1 hs
    have hon := Action.Ends.on (s := r) (fun _ => r.schemas[id]) (fun s r => ⟨r.schemas.set id s⟩)
      (declare_ends spec r.schemas[id]) (by simp)
    refine (hon.congr ?_).imp ?_
    · simp [addAttribute, Action.bind_apply, get?, hs]
    · rintro _ _ ⟨s', ⟨rfl, hext⟩, rfl⟩
      exact ⟨_, s', rfl, hext, rfl, rfl⟩

end Registry

namespace Builder

variable {α : Type} {made : List Step} {step : Step} {b b' : Builder} {d : Declaration} {k : Nat}

/-! ### Counts -/

/-- No more counts were given than there are schemas. -/
theorem length_syncedCounts :
    b.syncedCounts.length = b.registry.size ↔ b.counts.length ≤ b.registry.size := by
  rw [syncedCounts, List.length_append, List.length_replicate]
  omega

/-- A schema that was registered without a count has none. -/
theorem syncedCounts_registered (h : b.syncedCounts.length = b.registry.size) (s : Schema) :
    syncedCounts { b with registry := ⟨b.registry.schemas ++ [s]⟩ } = b.syncedCounts ++ [0] := by
  rw [length_syncedCounts, Registry.size] at h
  have hmissing : (b.registry.schemas ++ [s]).length - b.counts.length =
      (b.registry.schemas.length - b.counts.length) + 1 := by
    rw [List.length_append, List.length_singleton]
    omega
  rw [syncedCounts, Registry.size, hmissing, List.replicate_succ', ← List.append_assoc]
  rfl

theorem syncedCounts_counted (h : b.syncedCounts.length = b.registry.size) (id : SchemaId)
    (count : Nat) : syncedCounts { b with counts := b.syncedCounts.set id count } =
      b.syncedCounts.set id count := by
  rw [syncedCounts, List.length_set, h, Nat.sub_self, List.replicate_zero, List.append_nil]

theorem setCount_ok {id : SchemaId} (h : id < b.registry.size) (count : Nat) :
    (setCount id count b).result = .ok () ∧
      (setCount id count b).state = { b with counts := b.syncedCounts.set id count } := by
  have hs : b.registry.get? id = some b.registry.schemas[id] := List.getElem?_eq_getElem h
  simp [setCount, Action.bind_apply, hs]

theorem setCount_ends (id : SchemaId) (count : Nat) (b : Builder) :
    (setCount id count).Ends b fun _ b' =>
      id < b.registry.size ∧ b' = { b with counts := b.syncedCounts.set id count } := by
  by_cases h : id < b.registry.size
  · obtain ⟨hresult, hstate⟩ := setCount_ok h count
    exact .done () hresult ⟨h, hstate⟩
  · have hs : b.registry.get? id = none := List.getElem?_eq_none (Nat.not_lt.1 h)
    refine .refused (noPool id) ?_ ?_ <;> simp [setCount, Action.bind_apply, hs]

/-- The builder has one more schema, and a count for it. -/
structure Gains (b : Builder) (d : Declaration) (b' : Builder) : Prop where
  schemas : b'.registry.schemas = b.registry.schemas ++ [d.schema b.registry.size]
  counts : b'.syncedCounts = b.syncedCounts ++ [d.count]
  config : b'.config = b.config
  store : b'.store = b.store

theorem inRegistry_ends {x : Action Registry SchemaId} (hx : Registry.Registers x d)
    (h : b.syncedCounts.length = b.registry.size) :
    (inRegistry x).Ends b fun id b' =>
      id = b.registry.size ∧ b.Gains { d with count := 0 } b' := by
  refine (Action.Ends.on _ _ (hx b.registry) rfl).imp ?_
  rintro id _ ⟨_, ⟨rfl, rfl⟩, rfl⟩
  exact ⟨rfl, rfl, syncedCounts_registered h _, rfl, rfl⟩

theorem withCount_ends {x : Action Registry SchemaId} (hx : Registry.Registers x d)
    (h : b.syncedCounts.length = b.registry.size) :
    (withCount x d.count).Ends b fun _ => b.Gains d := by
  refine (inRegistry_ends hx h).bind ?_
  rintro id b₁ ⟨rfl, hgains⟩
  have hsize : b₁.registry.size = b.registry.size + 1 := by
    rw [Registry.size, hgains.schemas, List.length_append]
    rfl
  have hlt : b.registry.size < b₁.registry.size := by omega
  obtain ⟨hresult, hstate⟩ := setCount_ok hlt d.count
  obtain ⟨hresult', hstate'⟩ := Action.bind_of_ok (f := fun _ => pure b.registry.size) hresult
  refine ⟨_, hresult', ?_⟩
  rw [hstate', hstate]
  refine ⟨hgains.schemas, ?_, hgains.config, hgains.store⟩
  refine (syncedCounts_counted ?_ b.registry.size d.count).trans ?_
  · rw [hgains.counts, List.length_append, h, hsize]
    rfl
  · rw [hgains.counts, ← h]
    simp

/-! ### Steps -/

/-- The builder holds what was declared. -/
structure Tracks (b : Builder) (made : List Step) : Prop where
  schemas : b.registry.schemas = (declarations made).mapIdx Declaration.schema
  counts : b.syncedCounts = (declarations made).map Declaration.count
  /-- Only schemas declared before are added to or counted. -/
  adds : ∀ id, (declarations made).length ≤ id → made.filterMap (Step.adds? id) = []
  sets : ∀ id, (declarations made).length ≤ id → made.filterMap (Step.sets? id) = []
  capacity : b.config.capacity = capacity made
  kind : b.config.kind = (last? Step.kind? made).getD .standard
  own : b.store = (last? Step.ownKind? made).map .new

namespace Tracks

theorem empty : Tracks {} [] := ⟨rfl, rfl, fun _ _ => rfl, fun _ _ => rfl, rfl, rfl, rfl⟩

theorem size_eq (h : b.Tracks made) : b.registry.size = (declarations made).length := by
  rw [Registry.size, h.schemas, List.length_mapIdx]

theorem length_eq (h : b.Tracks made) : b.syncedCounts.length = b.registry.size := by
  rw [h.counts, List.length_map, h.size_eq]

/-- A step that declares a schema. -/
theorem gains (h : b.Tracks made) (hd : step.declares? = some d) (hgains : b.Gains d b') :
    b'.Tracks (made ++ [step]) := by
  obtain ⟨hadd, hset, hcapacity, hkind, hown⟩ := Step.declares_only hd
  have hdecls := declarations_concat hd (h.adds _ (Nat.le_refl _)) (h.sets _ (Nat.le_refl _))
  refine ⟨?_, ?_, ?_, ?_, ?_, ?_, ?_⟩
  · rw [hgains.schemas, hdecls, List.mapIdx_concat, h.schemas, h.size_eq]
  · rw [hgains.counts, hdecls, List.map_append, h.counts]
    rfl
  · intro id hid
    rw [hdecls, List.length_append] at hid
    rw [filterMap_concat, hadd, h.adds id (by omega)]
    rfl
  · intro id hid
    rw [hdecls, List.length_append] at hid
    rw [filterMap_concat, hset, h.sets id (by omega)]
    rfl
  · rw [hgains.config, h.capacity, Builder.capacity, Builder.capacity, last?_concat, hcapacity,
      Option.none_or]
  · rw [hgains.config, h.kind, last?_concat, hkind, Option.none_or]
  · rw [hgains.store, h.own, last?_concat, hown, Option.none_or]

/-- A step that declares no schema. -/
theorem revises (h : b.Tracks made) (hd : step.declares? = none)
    (hschemas : ∀ k : Nat, b'.registry.schemas[k]? = (declarations made)[k]?.map fun d =>
      Declaration.schema k { d with attrs := d.attrs ++ (step.adds? k).toList })
    (hcounts : ∀ k : Nat, b'.syncedCounts[k]? = (declarations made)[k]?.map fun d =>
      (step.sets? k).getD d.count)
    (hadds : ∀ id, (declarations made).length ≤ id → step.adds? id = none)
    (hsets : ∀ id, (declarations made).length ≤ id → step.sets? id = none)
    (hcapacity : b'.config.capacity = step.capacity?.getD b.config.capacity)
    (hkind : b'.config.kind = step.kind?.getD b.config.kind)
    (hown : b'.store = (step.ownKind?.map .new).or b.store) : b'.Tracks (made ++ [step]) := by
  have hdecls : declarations (made ++ [step]) = _ := declarations_revised hd
  have hlen : (declarations (made ++ [step])).length = (declarations made).length := by
    rw [hdecls, List.length_mapIdx]
  refine ⟨?_, ?_, ?_, ?_, ?_, ?_, ?_⟩
  · refine List.ext_getElem? fun k => ?_
    rw [hschemas, hdecls, List.mapIdx_mapIdx, List.getElem?_mapIdx]
    rfl
  · refine List.ext_getElem? fun k => ?_
    rw [hcounts, hdecls, List.getElem?_map, List.getElem?_mapIdx, Option.map_map]
    rfl
  · intro id hid
    rw [hlen] at hid
    rw [filterMap_concat, hadds id hid, h.adds id hid]
    rfl
  · intro id hid
    rw [hlen] at hid
    rw [filterMap_concat, hsets id hid, h.sets id hid]
    rfl
  · rw [hcapacity, h.capacity, Builder.capacity, Builder.capacity, last?_concat]
    cases step.capacity? <;> rfl
  · rw [hkind, h.kind, last?_concat]
    cases step.kind? <;> rfl
  · rw [hown, h.own, last?_concat]
    cases step.ownKind? <;> rfl

theorem getElem?_schemas (h : b.Tracks made) (k : Nat) :
    b.registry.schemas[k]? = (declarations made)[k]?.map (·.schema k) := by
  rw [h.schemas, List.getElem?_mapIdx]

theorem getElem?_counts (h : b.Tracks made) (k : Nat) :
    b.syncedCounts[k]? = (declarations made)[k]?.map Declaration.count := by
  rw [h.counts, List.getElem?_map]

/-- A step that chooses the capacity or the storage. -/
theorem configures (h : b.Tracks made) (hd : step.declares? = none)
    (hadds : ∀ id, step.adds? id = none) (hsets : ∀ id, step.sets? id = none)
    (hregistry : b'.registry = b.registry) (hcounts : b'.counts = b.counts)
    (hcapacity : b'.config.capacity = step.capacity?.getD b.config.capacity)
    (hkind : b'.config.kind = step.kind?.getD b.config.kind)
    (hown : b'.store = (step.ownKind?.map .new).or b.store) : b'.Tracks (made ++ [step]) := by
  refine h.revises hd ?_ ?_ (fun id _ => hadds id) (fun id _ => hsets id) hcapacity hkind hown
  · intro k
    simp only [hregistry, h.getElem?_schemas, hadds, Option.toList_none, List.append_nil]
  · intro k
    have hsynced : b'.syncedCounts = b.syncedCounts := by
      rw [syncedCounts, syncedCounts, hregistry, hcounts]
    simp only [hsynced, h.getElem?_counts, hsets, Option.getD_none]

theorem addsAttribute (h : b.Tracks made) {id : SchemaId} {spec : AttrSpec} {s s' : Schema}
    (hs : b.registry.schemas[id]? = some s) (hext : s.extend spec = .ok s') :
    Tracks { b with registry := ⟨b.registry.schemas.set id s'⟩ }
      (made ++ [.addAttribute id spec]) := by
  have hlt := (List.getElem?_eq_some_iff.1 hs).1
  refine h.revises rfl ?_ ?_ ?_ (fun _ _ => rfl) rfl rfl rfl
  · intro k
    by_cases hk : id = k
    · subst hk
      rw [h.getElem?_schemas] at hs
      obtain ⟨d, hd, rfl⟩ := Option.map_eq_some_iff.1 hs
      rw [List.getElem?_set_self hlt, hd, Schema.extend_declared hext, Step.adds?, if_pos rfl]
      rfl
    · rw [List.getElem?_set_ne hk, h.getElem?_schemas, Step.adds?, if_neg hk]
      simp only [Option.toList_none, List.append_nil]
  · intro k
    refine Eq.trans ?_ (h.getElem?_counts k)
    simp only [syncedCounts, Registry.size, List.length_set]
  · intro k hk
    rw [← h.size_eq] at hk
    exact if_neg (Nat.ne_of_lt (Nat.lt_of_lt_of_le hlt hk))

theorem setsCount (h : b.Tracks made) {id : SchemaId} (hid : id < b.registry.size) (count : Nat) :
    Tracks { b with counts := b.syncedCounts.set id count } (made ++ [.setCount id count]) := by
  refine h.revises rfl ?_ ?_ (fun _ _ => rfl) ?_ rfl rfl rfl
  · intro k
    simp only [h.getElem?_schemas, Step.adds?, Option.toList_none, List.append_nil]
  · intro k
    rw [syncedCounts_counted h.length_eq, Step.sets?]
    by_cases hk : id = k
    · subst hk
      rw [List.getElem?_set_self (h.length_eq ▸ hid), if_pos rfl]
      rw [h.size_eq] at hid
      rw [List.getElem?_eq_getElem hid]
      rfl
    · rw [List.getElem?_set_ne hk, h.getElem?_counts, if_neg hk]
      rfl
  · intro k hk
    rw [← h.size_eq] at hk
    exact if_neg (Nat.ne_of_lt (Nat.lt_of_lt_of_le hid hk))

/-- A step is refused and leaves the builder as it is, or the builder holds what it declared too. -/
theorem perform (h : b.Tracks made) (hstep : step.Standard) :
    (perform step).Ends b fun _ b' => b'.Tracks (made ++ [step]) := by
  cases step with
  | declare name count =>
    exact ((withCount_ends (Registry.declare_registers name count) h.length_eq).imp
      fun _ _ => h.gains rfl).bind_pure some
  | declareUncounted name =>
    exact ((inRegistry_ends (Registry.declare_registers name 0) h.length_eq).imp
      fun _ _ hb => h.gains rfl hb.2).bind_pure some
  | declareWith name specs count =>
    exact (((withCount_ends (Registry.declareWith_registers name specs count) h.length_eq).imp
      fun _ _ => h.gains rfl).bind_pure fun _ => ()).bind_pure fun _ => none
  | add schema count =>
    have hwf : schema.WellFormed := Schema.Declared.wellFormed hstep
    exact (((withCount_ends (d := ⟨schema.name, _, count⟩)
      (Registry.register_registers rfl hwf.attributes_eq) h.length_eq).imp
      fun _ _ => h.gains rfl).bind_pure fun _ => ()).bind_pure fun _ => none
  | addNode n count =>
    exact (((withCount_ends (Registry.declareWith_registers n.name n.attributes count)
      h.length_eq).imp fun _ _ => h.gains rfl).bind_pure fun _ => ()).bind_pure fun _ => none
  | addAttribute id spec =>
    have hadd : (inRegistry (Registry.addAttribute id spec)).Ends b _ :=
      .on _ _ (Registry.addAttribute_ends id spec b.registry) rfl
    refine ((hadd.imp ?_).bind_pure fun _ => ()).bind_pure fun _ => none
    rintro _ _ ⟨_, ⟨s, s', hs, hext, -, rfl⟩, rfl⟩
    exact h.addsAttribute hs hext
  | setCount id count =>
    refine ((setCount_ends id count b).imp ?_).bind_pure fun _ => none
    rintro _ _ ⟨hid, rfl⟩
    exact h.setsCount hid count
  | setConfig c =>
    exact .done none rfl (h.configures rfl (fun _ => rfl) (fun _ => rfl) rfl rfl rfl rfl rfl)
  | setKind k =>
    exact .done none rfl (h.configures rfl (fun _ => rfl) (fun _ => rfl) rfl rfl rfl rfl rfl)
  | usePreloaded k schemas =>
    obtain rfl : schemas = [] := hstep
    exact .done none rfl (h.configures rfl (fun _ => rfl) (fun _ => rfl) rfl rfl rfl rfl rfl)
  | setSnapshots capacity =>
    exact .done none rfl (h.configures rfl (fun _ => rfl) (fun _ => rfl) rfl rfl rfl rfl rfl)

end Tracks

end Builder

theorem Session.state_takeStep (step : Builder.Step) (b : Builder) :
    (takeStep step b).state = (Builder.perform step b).state := by
  unfold takeStep
  split
  · exact Action.state_bind_pure _ () b
  · exact Action.state_bind_pure (Builder.perform step).attempt () b

/-- What steps that are taken to the end leave of a builder. -/
theorem Builder.Tracks.steps {steps made : List Builder.Step} {b : Builder} (h : b.Tracks made)
    (hsteps : ∀ step ∈ steps, step.Standard)
    (hrun : ((steps.forM Session.takeStep) b).result = .ok ()) :
    ((steps.forM Session.takeStep) b).state.Tracks (made ++ Builder.accepted steps b) := by
  induction steps generalizing b made with
  | nil =>
    rw [Builder.accepted, List.append_nil]
    exact h
  | cons step steps ih =>
    obtain ⟨_, htaken, hrun⟩ := Action.bind_ok.1 hrun
    obtain ⟨hstep, hsteps⟩ := List.forall_mem_cons.1 hsteps
    have hstate : ((step :: steps).forM Session.takeStep b).state =
        (steps.forM Session.takeStep (Builder.perform step b).state).state := by
      rw [← Session.state_takeStep]
      exact (Action.bind_of_ok htaken).2
    rw [Session.state_takeStep] at hrun
    rw [hstate, Builder.accepted]
    cases h.perform hstep with
    | refused e hresult hsame =>
      rw [hsame] at hrun ⊢
      rw [hresult]
      exact ih h hsteps hrun
    | done x hresult htracks =>
      rw [hresult, List.append_cons]
      exact ih htracks hsteps hrun

end NodeStore
