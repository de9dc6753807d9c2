import NodeStore.Proofs.Frame.Typed

/-!
# Faults of queries

A query goes through its checks in one order, whatever else is wrong with it: whether there is a
ring, then the schema, the names of the attributes, the instances, and last the ticks; of several
names, instances or ticks that are wrong the first is told. `Query.Fault` lists the faults in this
order, each with what came before it in order. There is no other: what a snapshot of a frame in use
holds it holds for every instance and attribute (`Frame.Intact`), so no value is found missing.

* `Query.compile_error`, `QueryPlan.execute_error`: faults of the parts.
* `Frame.Reachable.query_fails_first`: a query fails with its fault, or succeeds if it has none.
-/

namespace NodeStore

/-! ## The parts of a query -/

namespace Query

variable {q : Query} {schema : Schema} {n : Nat}

/-- The instances a query selects, of a schema of `n`. -/
def selectedIndices (q : Query) (n : Nat) : List Nat := q.indices.choose fun _ => List.range n

/-- The ticks a query selects. -/
def selectedTicks (q : Query) (ring : Ring) : List Tick := q.ticks.choose fun _ => ring.ticks

/-- The attribute of a name, as plans have it. -/
def settle (schema : Schema) (name : String) : Except FrameError (AttrId × String) := do
  let attr ← schema.attributeNamed name
  return (attr.id, attr.name)

theorem settle_cases (schema : Schema) (name : String) :
    schema.attribute? name = none ∧
        settle schema name = .error (.unknownAttribute schema.name (.named name)) ∨
      ¬ schema.attribute? name = none ∧ ∃ a, settle schema name = .ok a := by
  unfold settle Schema.attributeNamed
  cases schema.attribute? name <;> simp

theorem compile_eq : q.compile schema n = (do
    let attrs ← q.attrs.mapM (settle schema)
    match (q.selectedIndices n).find? (n ≤ ·) with
    | some i => .error (.indexOutOfRange schema.name i n)
    | none => .ok ⟨schema.id, q.ticks, q.selectedIndices n, attrs⟩) := rfl

/-- A query settles if it names attributes there are and selects instances there are. -/
theorem exists_compile : (∃ plan, q.compile schema n = .ok plan) ↔
    (∀ name ∈ q.attrs, ¬ schema.attribute? name = none) ∧ ∀ i ∈ q.selectedIndices n, i < n := by
  have hnone : (q.selectedIndices n).find? (n ≤ ·) = none ↔ ∀ i ∈ q.selectedIndices n, i < n := by
    simp
  rw [← Except.exists_mapM_first (settle_cases schema), ← hnone, compile_eq]
  simp only [Except.bind_ok]
  cases (q.selectedIndices n).find? (n ≤ ·) <;> simp

/-- Names are looked at before instances. -/
theorem compile_error {e : FrameError} : q.compile schema n = .error e ↔
    (∃ name, q.attrs.First (schema.attribute? · = none) name ∧
      e = .unknownAttribute schema.name (.named name)) ∨
    (∀ name ∈ q.attrs, ¬ schema.attribute? name = none) ∧
      ∃ i, (q.selectedIndices n).First (n ≤ ·) i ∧ e = .indexOutOfRange schema.name i n := by
  have hfirst (i : Nat) : (q.selectedIndices n).First (n ≤ ·) i ↔
      (q.selectedIndices n).find? (n ≤ ·) = some i := by
    simp [List.find?_eq_some_iff_first]
  simp only [hfirst]
  rw [compile_eq, Except.bind_error, Except.mapM_eq_error_first (settle_cases schema),
    ← Except.exists_mapM_first (settle_cases schema), ← exists_and_right]
  refine or_congr_right (exists_congr fun attrs => and_congr_right fun _ => ?_)
  cases (q.selectedIndices n).find? (n ≤ ·) <;> simp [eq_comm]

end Query

namespace QueryPlan

variable {p : QueryPlan} {ring : Ring} {e : FrameError}

theorem held_cases (ring : Ring) (tick : Tick) :
    ring.get? tick = none ∧ held ring tick = .error (.tickNotFound tick) ∨
      ¬ ring.get? tick = none ∧ ∃ s, held ring tick = .ok s := by
  unfold held
  cases ring.get? tick <;> simp

/-- The cells of a plan are of its instances and attributes, in the snapshots given. -/
theorem mem_cells {snapshots : List Snapshot} {c : Snapshot × Nat × AttrId × String} :
    c ∈ p.cells snapshots ↔ c.1 ∈ snapshots ∧ c.2.1 ∈ p.indices ∧ c.2.2 ∈ p.attrs := by
  obtain ⟨s, i, a⟩ := c
  simp only [cells, List.mem_flatMap, List.mem_map, Prod.mk.injEq]
  constructor
  · rintro ⟨s', hs, i', hi, a', ha, rfl, rfl, rfl⟩
    exact ⟨hs, hi, ha⟩
  · rintro ⟨hs, hi, ha⟩
    exact ⟨s, hs, i, hi, a, ha, rfl, rfl, rfl⟩

/-- Where every snapshot held has the values a plan is about, it fails only for a tick that is not
held. -/
theorem execute_error (hvalues : ∀ t s, ring.get? t = some s → ∀ i ∈ p.indices, ∀ a ∈ p.attrs,
      ∃ vs, s.values? p.schema i a.1 = some vs) :
    p.execute ring = .error e ↔ ∃ tick,
      (p.ticks.choose fun _ => ring.ticks).First (ring.get? · = none) tick ∧
        e = .tickNotFound tick := by
  rw [← Except.mapM_eq_error_first (held_cases ring)]
  constructor
  · intro h
    rcases Except.bind_error.1 h with h | ⟨snapshots, hsnapshots, h⟩
    · exact h
    · -- the snapshots are there, so all cells can be read
      obtain ⟨L, hL, -⟩ := Except.exists_mapM (R := fun _ _ => True) (l := p.cells snapshots)
        (f := fun c => p.readCell c.1 c.2.1 c.2.2) fun c hc => by
          obtain ⟨hs, hi, ha⟩ := mem_cells.1 hc
          obtain ⟨j, hj⟩ := List.mem_iff_getElem?.1 hs
          obtain ⟨t, -, ht⟩ := (Except.mapM_ok.1 hsnapshots).exists_left hj
          obtain ⟨vs, hvs⟩ := hvalues t c.1 (held_ok.1 ht) _ hi _ ha
          exact ⟨vs, readCell_ok.2 hvs, trivial⟩
      rcases Except.bind_error.1 h with h | ⟨_, -, h⟩
      · cases hL.symm.trans h
      · cases h
  · intro h
    exact Except.bind_error.2 (.inl h)

end QueryPlan

/-! ## The first fault -/

/-- What is wrong with a query of a frame: the first of the faults it has. -/
inductive Query.Fault (f : Frame) (q : Query) : FrameError → Prop
  | disabled (hring : f.ring = none) : Fault f q .snapshotDisabled
  | schema (ring : Ring) (hring : f.ring = some ring) (hschema : f.schema? q.schema = none) :
    Fault f q (.unknownSchema (.named q.schema))
  | attr (ring : Ring) (schema : Schema) (name : String) (hring : f.ring = some ring)
    (hschema : f.schema? q.schema = some schema)
    (hname : q.attrs.First (schema.attribute? · = none) name) :
    Fault f q (.unknownAttribute q.schema (.named name))
  | index (ring : Ring) (schema : Schema) (i : Nat) (hring : f.ring = some ring)
    (hschema : f.schema? q.schema = some schema)
    (hnames : ∀ name ∈ q.attrs, ¬ schema.attribute? name = none)
    (hindex : (q.selectedIndices (f.count schema.id)).First (f.count schema.id ≤ ·) i) :
    Fault f q (.indexOutOfRange q.schema i (f.count schema.id))
  | tick (ring : Ring) (schema : Schema) (tick : Tick) (hring : f.ring = some ring)
    (hschema : f.schema? q.schema = some schema)
    (hnames : ∀ name ∈ q.attrs, ¬ schema.attribute? name = none)
    (hindices : ∀ i ∈ q.selectedIndices (f.count schema.id), i < f.count schema.id)
    (htick : (q.selectedTicks ring).First (ring.contains · = false) tick) :
    Fault f q (.tickNotFound tick)

namespace Frame

variable {f : Frame} {shape : List (Schema × Nat)} {q : Query} {e : FrameError} {ring : Ring}
  {schema : Schema}

theorem schema_ok_iff {name : String} :
    f.schema name = .ok schema ↔ f.schema? name = some schema := by
  unfold Frame.schema
  cases f.schema? name <;> simp

theorem schema_error {name : String} :
    f.schema name = .error e ↔ f.schema? name = none ∧ e = .unknownSchema (.named name) := by
  unfold Frame.schema
  cases f.schema? name <;> simp [eq_comm]

theorem snapshots_error : f.snapshots = .error e ↔ f.ring = none ∧ e = .snapshotDisabled := by
  unfold snapshots
  cases f.ring <;> simp [eq_comm]

/-- Every snapshot held has the values a plan is about. -/
theorem Intact.planned_values (h : f.Intact shape) (hring : f.ring = some ring)
    (hschema : f.schema q.schema = .ok schema) {plan : QueryPlan}
    (hplan : q.compile schema (f.count schema.id) = .ok plan) (t : Tick) (s : Snapshot)
    (hget : ring.get? t = some s) (i : Nat) (hi : i ∈ plan.indices) (a : AttrId × String)
    (ha : a ∈ plan.attrs) : ∃ vs, s.values? plan.schema i a.1 = some vs := by
  obtain ⟨hs, -, hwf⟩ := h.sound.schema_mem hschema
  obtain ⟨hid, -, -, hbelow, -, hnamed⟩ := Query.compile_ok hwf hplan
  obtain ⟨attr, hattr, hattrId⟩ := hnamed a ha
  have hfits := h.fits (snapshot_ok.2 ⟨ring, hring, hget⟩)
  obtain ⟨vs, hvs, -⟩ := hfits.admits (h.sound.shape_at hs) (hbelow i hi)
    (hwf.mem (List.mem_of_find?_eq_some hattr))
  exact ⟨vs, by rw [hid, ← hattrId, hvs]⟩

/-- Carrying out a plan fails for the first tick that is not held. -/
theorem Intact.execute_error (h : f.Intact shape) (hring : f.ring = some ring)
    (hschema : f.schema q.schema = .ok schema) {plan : QueryPlan}
    (hplan : q.compile schema (f.count schema.id) = .ok plan) :
    plan.execute ring = .error e ↔
      ∃ tick, (q.selectedTicks ring).First (ring.contains · = false) tick ∧
        e = .tickNotFound tick := by
  have hrefines := h.ring ring hring
  have hheld (t : Tick) : ring.contains t = false ↔ ring.get? t = none := by
    rw [hrefines.contains_eq, hrefines.get?_eq]
    simp
  have hticks := (Query.compile_ok (h.sound.schema_mem hschema).2.2 hplan).2.1
  simp only [hheld]
  rw [QueryPlan.execute_error (h.planned_values hring hschema hplan), hticks]
  rfl

/-- A query fails with its fault. -/
theorem Intact.query_error (h : f.Intact shape) : f.query q = .error e ↔ q.Fault f e := by
  constructor
  · intro hq
    rcases Except.bind_error.1 hq with hring | ⟨ring, hring, hq⟩
    · obtain ⟨hnone, rfl⟩ := snapshots_error.1 hring
      exact .disabled hnone
    rw [snapshots_ok] at hring
    rcases Except.bind_error.1 hq with hschema | ⟨schema, hschema, hq⟩
    · obtain ⟨hnone, rfl⟩ := schema_error.1 hschema
      exact .schema ring hring hnone
    have hname := (h.sound.schema_mem hschema).2.1
    have hfound := schema_ok_iff.1 hschema
    rcases Except.bind_error.1 hq with hplan | ⟨plan, hplan, hq⟩
    · rcases Query.compile_error.1 hplan with ⟨name, hfirst, rfl⟩ | ⟨hnames, i, hfirst, rfl⟩
      · rw [hname]
        exact .attr ring schema name hring hfound hfirst
      · rw [hname]
        exact .index ring schema i hring hfound hnames hfirst
    · obtain ⟨hnames, hindices⟩ := Query.exists_compile.1 ⟨plan, hplan⟩
      obtain ⟨tick, hfirst, rfl⟩ := (h.execute_error hring hschema hplan).1 hq
      exact .tick ring schema tick hring hfound hnames hindices hfirst
  · intro hfault
    -- each fault comes after the checks before it have ended well
    cases hfault with
    | disabled hring => exact Except.bind_error.2 (.inl (snapshots_error.2 ⟨hring, rfl⟩))
    | schema ring hring hschema =>
      exact Except.bind_error.2 (.inr ⟨ring, snapshots_ok.2 hring,
        Except.bind_error.2 (.inl (schema_error.2 ⟨hschema, rfl⟩))⟩)
    | attr ring schema name hring hschema hname =>
      have hok := schema_ok_iff.2 hschema
      have hplan : q.compile schema (f.count schema.id) = .error _ :=
        Query.compile_error.2 (.inl ⟨name, hname, rfl⟩)
      rw [(h.sound.schema_mem hok).2.1] at hplan
      simp [query, snapshots_ok.2 hring, hok, hplan]
    | index ring schema i hring hschema hnames hindex =>
      have hok := schema_ok_iff.2 hschema
      have hplan : q.compile schema (f.count schema.id) = .error _ :=
        Query.compile_error.2 (.inr ⟨hnames, i, hindex, rfl⟩)
      rw [(h.sound.schema_mem hok).2.1] at hplan
      simp [query, snapshots_ok.2 hring, hok, hplan]
    | tick ring schema tick hring hschema hnames hindices htick =>
      have hok := schema_ok_iff.2 hschema
      obtain ⟨plan, hplan⟩ := Query.exists_compile.2 ⟨hnames, hindices⟩
      have hexecute := (h.execute_error hring hok hplan).2 ⟨tick, htick, rfl⟩
      simp [query, snapshots_ok.2 hring, hok, hplan, hexecute]

/-- A query fails exactly if it has a fault, with the first there is: without a ring it fails for
that, else for a schema there is not, else for the first attribute there is not, else for the first
instance out of range, else for the first tick that is not held. No value is ever found missing. -/
theorem Reachable.query_fails_first (h : f.Reachable) (q : Query) :
    (∀ e, (perform (.query q) f).result = .error e ↔ q.Fault f e) ∧
    ((∃ r, (perform (.query q) f).result = .ok (.result r)) ↔ ∀ e, ¬ q.Fault f e) ∧
    ∀ schema fault, (perform (.query q) f).result ≠ .error (.imageMismatch schema fault) := by
  obtain ⟨shape, hintact⟩ := h.intact
  have hresult : (perform (.query q) f).result = (f.query q).map .result := rfl
  have hfault (e : FrameError) : (perform (.query q) f).result = .error e ↔ q.Fault f e := by
    rw [← hintact.query_error, hresult]
    cases f.query q <;> simp
  refine ⟨hfault, ?_, fun schema fault he => ?_⟩
  · simp only [← hfault, hresult]
    cases f.query q <;> simp
  · cases (hfault _).1 he

/-- Of a query with a wrong name, an instance out of range and ticks that were dropped the name is
told; without the name the instance, without that the tick, also if nothing is asked of it. -/
theorem query_fails_first_of_three : ∃ f : Frame, f.Reachable ∧
    (perform (.query ⟨"cell", .these [6, 4, 9], .these [1, 5, 2], ["x", "gone", "lost"]⟩) f).result =
      .error (.unknownAttribute "cell" (.named "gone")) ∧
    Query.Fault f ⟨"cell", .these [6, 4, 9], .these [1, 5, 2], ["x", "gone", "lost"]⟩
      (.unknownAttribute "cell" (.named "gone")) ∧
    Query.Fault f ⟨"cell", .these [6, 4, 9], .these [1, 5, 2], ["x"]⟩
      (.indexOutOfRange "cell" 5 2) ∧
    Query.Fault f ⟨"cell", .these [6, 4, 9], .these [], []⟩ (.tickNotFound 4) ∧
    (∀ e, ¬ Query.Fault f ⟨"cell", .all, .all, ["x", "x"]⟩ e) := by
  have hsteps : ∀ step ∈ [Builder.Step.declareWith "cell" [⟨"x", .int8, 1, false, false⟩] 2,
      .setSnapshots 1], step.Standard := by
    simp [Builder.Step.Standard]
  have hf : Reachable _ := ⟨_, [.capture 4, .capture 6], ⟨_, hsteps, rfl⟩, rfl⟩
  exact ⟨_, hf, rfl, ((hf.query_fails_first _).1 _).1 rfl, ((hf.query_fails_first _).1 _).1 rfl,
    ((hf.query_fails_first _).1 _).1 rfl, (hf.query_fails_first _).2.1.1 ⟨_, rfl⟩⟩

end Frame

end NodeStore
