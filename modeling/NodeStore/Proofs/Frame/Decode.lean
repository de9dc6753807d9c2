import NodeStore.Proofs.Frame.Rebuild
import NodeStore.Proofs.Frame.Restore
import NodeStore.Proofs.Query

/-!
# Decoding queries

A query that succeeds on a frame in use settles on a list of ticks, one of instances and one of
attributes, and what it found is laid out by them (`QueryResult.Decodes`). What stands in a cell is
what the held snapshot of its tick has there, which is what reading the live frame gave when the
tick was captured last (`Frame.Recorded`).

* `Query.compile_ok`: the lists a query settles on.
* `Frame.Built.query_decodes`: its result decodes by them.
-/

namespace NodeStore

theorem Schema.attributeNamed_eq {s : Schema} {name : String} {attr : Attribute} :
    s.attributeNamed name = .ok attr ↔ s.attribute? name = some attr := by
  unfold attributeNamed
  cases s.attribute? name <;> simp

/-- A query settles on attributes of the names it has, and on indices below the count. -/
theorem Query.compile_ok {q : Query} {schema : Schema} {n : Nat} {plan : QueryPlan}
    (hwf : schema.WellFormed) (h : q.compile schema n = .ok plan) :
    plan.schema = schema.id ∧ plan.ticks = q.ticks ∧
      plan.indices = q.indices.choose (fun _ => List.range n) ∧ (∀ i ∈ plan.indices, i < n) ∧
      plan.attrs.map Prod.snd = q.attrs ∧
      ∀ a ∈ plan.attrs, ∃ attr, schema.attribute? a.2 = some attr ∧ attr.id = a.1 := by
  unfold compile at h
  obtain ⟨attrs, hattrs, h⟩ := Except.bind_ok.1 h
  have hall : List.Forall₂ (fun name a => name = a.2 ∧
      ∃ attr, schema.attribute? a.2 = some attr ∧ attr.id = a.1) q.attrs attrs := by
    refine (Except.mapM_ok.1 hattrs).imp fun name a ha => ?_
    obtain ⟨attr, hattr, ha⟩ := Except.bind_ok.1 ha
    cases ha
    obtain ⟨-, rfl⟩ := hwf.attributeNamed_ok.1 hattr
    exact ⟨rfl, attr, Schema.attributeNamed_eq.1 hattr, rfl⟩
  cases hfind : (q.indices.choose fun _ => List.range n).find? (n ≤ ·) with
  | some i =>
    simp only [hfind] at h
    cases h
  | none =>
    simp only [hfind] at h
    cases h
    refine ⟨rfl, rfl, rfl, fun i hi => ?_, ?_, fun a ha => ?_⟩
    · simpa using List.find?_eq_none.1 hfind i hi
    · have hnames := List.forall₂_map_right_iff.2 (hall.imp fun name a ha => ha.1)
      rw [List.forall₂_eq_eq_eq] at hnames
      exact hnames.symm
    · obtain ⟨i, hi⟩ := List.mem_iff_getElem?.1 ha
      obtain ⟨name, -, -, hattr⟩ := hall.exists_left hi
      exact hattr

namespace Frame

open NodeStore.Action

variable {f₀ f : Frame} {shape : List (Schema × Nat)} {ops : List Op} {schema : Schema}
  {attr : Attribute} {tick : Tick} {index : Nat} {vs : List Value}

theorem Sound.schema_mem (h : f.Sound shape) {name : String} (hs : f.schema name = .ok schema) :
    schema ∈ f.schemas ∧ schema.name = name ∧ schema.WellFormed := by
  have hmem : schema ∈ f.schemas ∧ schema.name = name := by
    unfold Frame.schema schema? at hs
    split at hs
    · rename_i found hfind
      cases hs
      exact ⟨List.mem_of_find?_eq_some hfind, by simpa using List.find?_some hfind⟩
    · cases hs
  obtain ⟨ts, hts, hshape⟩ := h.shaped
  obtain ⟨t, -, ht, rfl, -⟩ := h.table hts hshape hmem.1
  exact ⟨hmem.1, hmem.2, ht.schema⟩

/-- A snapshot holds a fixed attribute's value for every slot. -/
theorem Sound.length_captured (h : f.Sound shape) {pools : List PoolImage}
    (hpools : f.images = .ok pools) (hs : schema ∈ f.schemas) (ha : attr ∈ schema.attributes)
    (hindex : index < f.count schema.id) {slots : Nat} (hslots : attr.slotCount? = some slots)
    (hvs : Snapshot.values? ⟨tick, pools⟩ schema.id index attr.id = some vs) :
    vs.length = slots := by
  obtain ⟨ts, hts, hshape, hshows⟩ := h.images_show hpools
  obtain ⟨t, ht, hsound, rfl, hcount⟩ := h.table hts hshape hs
  rw [← hcount] at hindex
  have hattr := hsound.schema.mem ha
  have hcells := Snapshot.values?_of_shows (s := ⟨tick, pools⟩) hshows ht hindex
    (List.getElem?_eq_some_iff.1 hattr).1
  rw [hvs] at hcells
  rw [Option.some.inj hcells]
  exact hsound.slots index attr.id attr slots hindex hattr hslots

/-- After the run the frame holds `vs` as captured of an attribute of an instance at a tick: its
snapshot of the tick has them, they are what the live frame gave when the tick was captured last,
and there is one for every slot of a fixed attribute. -/
structure Recorded (f₀ : Frame) (ops : List Op) (schema : Schema) (attr : Attribute) (tick : Tick)
    (index : Nat) (vs : List Value) : Prop where
  held : ∃ s, (after perform ops f₀).snapshot tick = .ok s ∧
    s.values? schema.id index attr.id = some vs
  read : ∃ pre, LastCaptured ops pre tick ∧
    (perform (.access schema.name index attr.name (.whole attr)) (after perform pre f₀)).result =
      .ok (.values vs)
  slots : ∀ n, attr.slotCount? = some n → vs.length = n

/-- What is asked of a held tick was recorded. -/
theorem Recorded.of_captured (h₀ : f₀.Sound shape) {r : Ring} {s : Snapshot}
    (hr : (after perform ops f₀).ring = some r) (hget : r.get? tick = some s)
    (htick : s.tick = tick) (hcaptured : Captured f₀ ops s)
    (hs : schema ∈ (after perform ops f₀).schemas) (ha : attr ∈ schema.attributes)
    (hindex : index < (after perform ops f₀).count schema.id) :
    ∃ vs, s.values? schema.id index attr.id = some vs ∧
      Recorded f₀ ops schema attr tick index vs := by
  obtain ⟨pre, hlast, himages⟩ := hcaptured
  have hnow := h₀.after ops
  have hpast := h₀.after pre
  have hs' : schema ∈ (after perform pre f₀).schemas := by
    rwa [hnow.schemas_same hpast]
  have hindex' : index < (after perform pre f₀).count schema.id := by
    rwa [hnow.count_same hpast]
  obtain ⟨vs, hvs, hread⟩ := hpast.captures himages hs' ha hindex' s.tick
  refine ⟨vs, hvs, ⟨s, snapshot_ok.2 ⟨r, hr, hget⟩, hvs⟩, ⟨pre, htick ▸ hlast, hread⟩, ?_⟩
  intro n hn
  exact hpast.length_captured himages hs' ha hindex' hn hvs

/-- Frames with a ring were built with one. -/
theorem hasSnapshots_of_ring {r : Ring} (hr : (after perform ops f₀).ring = some r) :
    f₀.hasSnapshots = true := by
  have hcapacity := ((SameBuild.refl f₀).after ops).capacity
  rw [hr] at hcapacity
  obtain ⟨r₀, hr₀, -⟩ := Option.map_eq_some_iff.1 hcapacity.symm
  rw [hasSnapshots, hr₀]
  rfl

/-- In any run on a frame that was built, a query that succeeds settles on ticks, instances and
attributes, as they were listed or all there are, and its result decodes by their positions into
what was captured of them: the values run tick by tick, in each tick instance by instance, in each
instance attribute by attribute, with the counts in the same order, and every cell is found by its
three positions and by no others. -/
theorem Built.query_decodes (h : f₀.Built) (hf : f = after perform ops f₀) {q : Query}
    {r : QueryResult} (hq : (perform (.query q) f).result = .ok (.result r)) :
    ∃ ring schema, f.ring = some ring ∧ f.schema q.schema = .ok schema ∧
      r.ticks = q.ticks.choose (fun _ => ring.ticks) ∧
      r.indices = q.indices.choose (fun _ => List.range (f.count schema.id)) ∧
      r.attrs = q.attrs ∧ r.Decodes (ring.captured schema) ∧
      ∀ t ∈ r.ticks, ∀ i ∈ r.indices, ∀ a ∈ r.attrs, ∃ attr, schema.attribute? a = some attr ∧
        Recorded f₀ ops schema attr t i (ring.captured schema t i a) := by
  subst hf
  have hquery : (after perform ops f₀).query q = .ok r :=
    Except.map_injective (fun _ _ => Answer.result.inj) hq
  obtain ⟨ring, hring, hquery⟩ := Except.bind_ok.1 hquery
  obtain ⟨schema, hschema, hquery⟩ := Except.bind_ok.1 hquery
  obtain ⟨plan, hplan, hexecute⟩ := Except.bind_ok.1 hquery
  have hr := snapshots_ok.1 hring
  obtain ⟨shape, h₀, hremembers⟩ := h.remembers (hasSnapshots_of_ring hr)
  obtain ⟨r', L, hr', hrefines, hL⟩ := hremembers ops
  obtain rfl : ring = r' := Option.some.inj (hr.symm.trans hr')
  obtain ⟨hs, -, hwf⟩ := (h₀.after ops).schema_mem hschema
  obtain ⟨hid, hticks, hindices, hbelow, hattrs, hnamed⟩ := Query.compile_ok hwf hplan
  have hpiece : ∀ t s, ring.get? t = some s → ∀ i, ∀ a ∈ plan.attrs,
      ring.captured schema t i a.2 = (s.values? plan.schema i a.1).getD [] := by
    intro t s hget i a ha
    obtain ⟨attr, hattr, hattrId⟩ := hnamed a ha
    rw [Ring.captured_eq hget hattr, hid, hattrId]
  obtain ⟨hrt, hri, hra, hheld, hdecodes⟩ := QueryPlan.execute_decodes hexecute hpiece
  refine ⟨ring, schema, hr, hschema, by rw [hrt, hticks], hri.trans hindices, hra.trans hattrs,
    hdecodes, ?_⟩
  intro t ht i hi a ha
  obtain ⟨s, hget⟩ := hheld t ht
  rw [hra] at ha
  obtain ⟨p, hp, rfl⟩ := List.mem_map.1 ha
  obtain ⟨attr, hattr, -⟩ := hnamed p hp
  have hfind : L.find? (·.tick == t) = some s := (hrefines.get?_eq t).symm.trans hget
  have htick : s.tick = t := by simpa using List.find?_some hfind
  obtain ⟨vs, hvs, hrecorded⟩ := Recorded.of_captured h₀ hr hget htick
    (hL s (List.mem_of_find?_eq_some hfind)) hs (List.mem_of_find?_eq_some hattr)
    (hbelow i (hri ▸ hi))
  have hcaptured : ring.captured schema t i p.2 = vs := by
    rw [Ring.captured_eq hget hattr, hvs, Option.getD_some]
  exact ⟨attr, hattr, hcaptured ▸ hrecorded⟩

/-- One tick is asked for twice, one instance has an empty list, and what was written after the
captures does not show. -/
theorem query_decodes_ragged : ∃ (f₀ : Frame) (ops : List Op) (r : QueryResult) (schema : Schema)
    (attr : Attribute), f₀.Built ∧
    ops = [.access "cell" 1 "tags" (.append (.int ⟨false, .one⟩ 3)), .capture 1,
      .access "cell" 1 "tags" (.append (.int ⟨false, .one⟩ 4)),
      .access "cell" 0 "x" (.set 1 (.int ⟨true, .one⟩ 7)), .capture 2,
      .access "cell" 1 "tags" (.setList [])] ∧
    (perform (.query ⟨"cell", .these [2, 1, 2], .these [1, 0], ["tags", "x"]⟩)
      (after perform ops f₀)).result = .ok (.result r) ∧
    r.ticks = [2, 1, 2] ∧ r.counts = [2, 2, 0, 2, 1, 2, 0, 2, 2, 2, 0, 2] ∧
    r.cell? 2 0 0 = some [.int ⟨false, .one⟩ 3, .int ⟨false, .one⟩ 4] ∧
    r.cell? 2 1 0 = some [] ∧ r.cell? 0 2 0 = none ∧
    Recorded f₀ ops schema attr 2 1 [.int ⟨false, .one⟩ 3, .int ⟨false, .one⟩ 4] := by
  have hsteps : ∀ step ∈ [Builder.Step.declareWith "cell"
      [⟨"x", .int8, 2, false, false⟩, ⟨"tags", .uint8, 1, true, false⟩] 2, .setSnapshots 2],
      step.Standard := by
    simp [Builder.Step.Standard]
  have hcell : Built _ := ⟨_, hsteps, rfl⟩
  obtain ⟨ring, schema, -, -, -, -, -, hdecodes, hrecorded⟩ :=
    hcell.query_decodes (show _ = after perform
      [.access "cell" 1 "tags" (.append (.int ⟨false, .one⟩ 3)), .capture 1,
        .access "cell" 1 "tags" (.append (.int ⟨false, .one⟩ 4)),
        .access "cell" 0 "x" (.set 1 (.int ⟨true, .one⟩ 7)), .capture 2,
        .access "cell" 1 "tags" (.setList [])] _ from rfl)
      (q := ⟨"cell", .these [2, 1, 2], .these [1, 0], ["tags", "x"]⟩) rfl
  obtain ⟨attr, -, hpiece⟩ := hrecorded 2 (by decide) 1 (by decide) "tags" (by decide)
  have hcell₀ := hdecodes.cell 2 0 0
  have hvalues : ring.captured schema 2 1 "tags" =
      [.int ⟨false, .one⟩ 3, .int ⟨false, .one⟩ 4] := (Option.some.inj hcell₀).symm
  rw [hvalues] at hpiece
  exact ⟨_, _, _, schema, attr, hcell, rfl, rfl, rfl, rfl, rfl, rfl, rfl, hpiece⟩

end Frame

end NodeStore
