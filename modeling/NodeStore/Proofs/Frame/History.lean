import NodeStore.Proofs.Frame.Access

/-!
# What a frame remembers

In a run on a built frame every snapshot in the ring is of the moment at which its tick was captured
last (`Frame.Remembers`): writes, seals, restores and captures of other ticks do not touch it, and a
reset drops it.

* `Frame.Remembers.snoc`, `Frame.Remembers.after`: one operation keeps it so, and so does a run.
* `Frame.Sound.captures`: a snapshot reads as the live frame does at its moment.
* `Frame.Sound.query_cell`: a query for one cell of a held tick gives what its snapshot reads.
* `Frame.Built.query_is_past_read`: together, a query for a held tick gives what reading the live
  frame would have given when the tick was captured.
-/

namespace NodeStore

/-- The access that reads an attribute as a whole. -/
def Access.whole (attr : Attribute) : Access := if attr.isList then .getList else .getSlots

/-- The query for one attribute of one instance at one tick. -/
def Query.cell (tick : Tick) (schema : Schema) (index : Nat) (attr : Attribute) : Query :=
  ⟨schema.name, .one tick, .one index, [attr.name]⟩

/-- The result of such a query. -/
def QueryResult.ofCell (tick : Tick) (index : Nat) (attr : Attribute) (vs : List Value) :
    QueryResult := ⟨[tick], [index], [attr.name], [0, vs.length], vs⟩

/-- A snapshot reads as the tables its images show. -/
theorem Snapshot.values?_of_shows {s : Snapshot} {ts : List Table} {t : Table}
    (h : List.Forall₂ PoolImage.Shows s.pools ts) {id index attr : Nat} (ht : ts[id]? = some t)
    (hindex : index < t.count) (hattr : attr < t.schema.size) :
    s.values? id index attr = some (t.cells index attr) := by
  obtain ⟨p, hp, hpt⟩ := h.exists_left ht
  rw [values?, pool?, hp]
  exact hpt.values index hindex attr hattr

namespace Frame

open NodeStore.Action

variable {f f₀ : Frame} {shape : List (Schema × Nat)} {ops : List Op} {r : Ring} {tick : Tick}

/-! ## Capturing and resetting -/

/-- Capturing a sound frame gives an image of each of its tables. -/
theorem Sound.images_ok (h : f.Sound shape) :
    ∃ pools ts, f.images = .ok pools ∧ f.store.Models ts ∧ ts.map Table.shape = shape ∧
      List.Forall₂ PoolImage.Shows pools ts := by
  obtain ⟨ts, hts, hshape⟩ := h.shaped
  have hlen : f.schemas.length = ts.length := by
    rw [h.schemas, List.length_map, ← hshape, List.length_map]
  have hone : ∀ id ∈ List.range f.schemas.length,
      ∃ p, f.store.capture id = .ok p ∧ ∃ t, ts[id]? = some t ∧ p.Shows t := by
    intro id hid
    have hlt : id < ts.length := hlen ▸ List.mem_range.1 hid
    have hcapture := hts.capture id
    rw [Tables.pool_ok.2 (List.getElem?_eq_getElem hlt)] at hcapture
    revert hcapture
    generalize f.store.capture id = out
    intro hcapture
    cases hcapture with
    | ok hp => exact ⟨_, rfl, _, List.getElem?_eq_getElem hlt, hp⟩
  obtain ⟨pools, hpools, hall⟩ := Except.exists_mapM hone
  refine ⟨pools, ts, hpools, hts, hshape, List.forall₂_iff_get.2 ⟨?_, ?_⟩⟩
  · rw [← hall.length_eq, List.length_range, hlen]
  · intro i hi hi'
    have hir : i < (List.range f.schemas.length).length := by rw [hall.length_eq]; exact hi
    obtain ⟨t, ht, hp⟩ := (List.forall₂_iff_get.1 hall).2 i hir hi
    rw [List.get_eq_getElem, List.getElem_range, List.getElem?_eq_getElem hi'] at ht
    cases ht
    exact hp

theorem Sound.images_show (h : f.Sound shape) {pools : List PoolImage}
    (hpools : f.images = .ok pools) :
    ∃ ts, f.store.Models ts ∧ ts.map Table.shape = shape ∧
      List.Forall₂ PoolImage.Shows pools ts := by
  obtain ⟨pools', ts, hpools', hts, hshape, hshows⟩ := h.images_ok
  rw [hpools] at hpools'
  cases hpools'
  exact ⟨ts, hts, hshape, hshows⟩

theorem snapshots_ok : f.snapshots = .ok r ↔ f.ring = some r := by
  unfold snapshots
  cases f.ring <;> simp

theorem capture_apply {pools : List PoolImage} (hr : f.ring = some r)
    (hpools : f.images = .ok pools) :
    (perform (.capture tick) f).result = .ok .done ∧
      (perform (.capture tick) f).state = { f with ring := some (r.push ⟨tick, pools⟩).2 } := by
  have hsnapshots := snapshots_ok.2 hr
  simp only [perform, capture, bind_apply, read_apply, hsnapshots, hpools]
  cases (r.push ⟨tick, pools⟩).1 with
  | none => exact ⟨rfl, rfl⟩
  | some old =>
    by_cases hold : old.tick = tick <;> simp [hold]

/-- A sound frame is reset, part by part. -/
theorem Sound.reset_apply (h : f.Sound shape) :
    (perform .reset f).result = .ok .done ∧
      (perform .reset f).state = { f with
        store := (Store.resetAll f.store).state
        seals := f.seals.map InstanceSet.clear
        ring := f.ring.map Ring.clear } := by
  obtain ⟨ts, hts, -⟩ := h.shaped
  obtain ⟨hres, -⟩ := Store.resetAll_models f.store ts hts
  simp only [perform, reset, bind_apply, inStore, on_apply, hres.eq, modify_apply, get_apply,
    emit_apply, pure_apply, and_self]

/-! ## What the ring holds -/

/-- In the run `ops` the tick was captured right after `pre`, and since then neither captured again
nor dropped by a reset. -/
def LastCaptured (ops pre : List Op) (tick : Tick) : Prop :=
  ∃ post, ops = pre ++ .capture tick :: post ∧ .capture tick ∉ post ∧ .reset ∉ post

theorem LastCaptured.last (ops : List Op) (tick : Tick) :
    LastCaptured (ops ++ [.capture tick]) ops tick :=
  ⟨[], rfl, List.not_mem_nil, List.not_mem_nil⟩

theorem LastCaptured.snoc {pre : List Op} {op : Op} (h : LastCaptured ops pre tick)
    (hcapture : op ≠ .capture tick) (hreset : op ≠ .reset) :
    LastCaptured (ops ++ [op]) pre tick := by
  obtain ⟨post, rfl, hcaptures, hresets⟩ := h
  refine ⟨post ++ [op], by simp, ?_, ?_⟩
  · intro hmem
    rcases List.mem_append.1 hmem with hmem | hmem
    · exact hcaptures hmem
    · exact hcapture (List.mem_singleton.1 hmem).symm
  · intro hmem
    rcases List.mem_append.1 hmem with hmem | hmem
    · exact hresets hmem
    · exact hreset (List.mem_singleton.1 hmem).symm

/-- The snapshot is of the moment at which its tick was captured last. -/
def Captured (f₀ : Frame) (ops : List Op) (s : Snapshot) : Prop :=
  ∃ pre, LastCaptured ops pre s.tick ∧ (after perform pre f₀).images = .ok s.pools

theorem Captured.snoc {s : Snapshot} {op : Op} (h : Captured f₀ ops s)
    (hcapture : op ≠ .capture s.tick) (hreset : op ≠ .reset) : Captured f₀ (ops ++ [op]) s := by
  obtain ⟨pre, hlast, himages⟩ := h
  exact ⟨pre, hlast.snoc hcapture hreset, himages⟩

/-- The ring is a history of snapshots that were captured in the run. -/
def Remembers (f₀ : Frame) (ops : List Op) : Prop :=
  ∃ r L, (after perform ops f₀).ring = some r ∧ r.Refines L ∧ ∀ s ∈ L, Captured f₀ ops s

theorem Remembers.snoc (h : Remembers f₀ ops) (hs : (after perform ops f₀).Sound shape) (op : Op) :
    Remembers f₀ (ops ++ [op]) := by
  obtain ⟨r, L, hr, hrefines, hL⟩ := h
  have hafter : after perform (ops ++ [op]) f₀ = (perform op (after perform ops f₀)).state :=
    after_append perform ops [op] f₀
  rw [Remembers, hafter]
  by_cases hreset : op = .reset
  · subst hreset
    refine ⟨r.clear, [], ?_, hrefines.clear, fun s hs => absurd hs List.not_mem_nil⟩
    rw [hs.reset_apply.2, hr, Option.map_some]
  by_cases hcapture : ∃ tick, op = .capture tick
  · obtain ⟨tick, rfl⟩ := hcapture
    obtain ⟨pools, -, hpools, -⟩ := hs.images_ok
    refine ⟨(r.push ⟨tick, pools⟩).2, _, ?_, (hrefines.push ⟨tick, pools⟩).2, ?_⟩
    · rw [(capture_apply hr hpools).2]
    · intro s hs
      rcases History.mem_push hs with rfl | ⟨hs, htick⟩
      · exact ⟨ops, .last ops tick, hpools⟩
      · refine (hL s hs).snoc ?_ hreset
        intro heq
        injection heq with heq
        exact htick heq.symm
  · have hcapture (tick : Tick) : op ≠ .capture tick := fun h => hcapture ⟨tick, h⟩
    have hquiet := perform_quiet hreset hcapture (some r) _ ⟨hs, hr⟩
    exact ⟨r, L, hquiet.2, hrefines, fun s hs => (hL s hs).snoc (hcapture s.tick) hreset⟩

theorem Remembers.after (hs : f₀.Sound shape) (h : Remembers f₀ []) (ops : List Op) :
    Remembers f₀ ops := by
  induction ops using List.reverseRecOn with
  | nil => exact h
  | append_singleton ops op ih => exact ih.snoc (hs.after ops) op

/-! ## Asking for a held tick -/

variable {schema : Schema} {attr : Attribute} {index : Nat} {ts : List Table} {t : Table}

theorem Sound.read_whole (h : f.Sound shape) (hts : f.store.Models ts) (hs : schema ∈ f.schemas)
    (ha : attr ∈ schema.attributes) (ht : ts[schema.id]? = some t) (hschema : t.schema = schema)
    (hindex : index < t.count) :
    (perform (.access schema.name index attr.name (.whole attr)) f).result =
      .ok (.values (t.cells index attr.id)) := by
  subst hschema
  have hattr := (hts.sound t (List.mem_of_getElem? ht)).schema.mem ha
  have hreads : f.Reads ⟨t.schema.id, index, attr.id⟩ t.schema attr (t.cells index attr.id) :=
    reads_of_models hts ht hattr hindex
  simp only [perform, bind_apply, read_apply, h.coord_ok hs ha]
  cases hlist : attr.isList with
  | true =>
    rw [Access.whole, if_pos hlist]
    exact hreads.getList hlist
  | false =>
    rw [Access.whole, hlist]
    exact hreads.getSlots hlist

/-- A snapshot reads as the frame does at the moment it is captured. -/
theorem Sound.captures (h : f.Sound shape) {pools : List PoolImage} (hpools : f.images = .ok pools)
    (hs : schema ∈ f.schemas) (ha : attr ∈ schema.attributes) (hindex : index < f.count schema.id)
    (tick : Tick) :
    ∃ vs, Snapshot.values? ⟨tick, pools⟩ schema.id index attr.id = some vs ∧
      (perform (.access schema.name index attr.name (.whole attr)) f).result =
        .ok (.values vs) := by
  obtain ⟨ts, hts, hshape, hshows⟩ := h.images_show hpools
  obtain ⟨t, ht, hsound, hschema, hcount⟩ := h.table hts hshape hs
  rw [← hcount] at hindex
  have hlt : attr.id < t.schema.size := by
    subst hschema
    exact (List.getElem?_eq_some_iff.1 (hsound.schema.mem ha)).1
  exact ⟨t.cells index attr.id, Snapshot.values?_of_shows hshows ht hindex hlt,
    h.read_whole hts hs ha ht hschema hindex⟩

/-- Asking for one cell of a held snapshot gives its captured values. -/
theorem Sound.query_cell (h : f.Sound shape) (hr : f.ring = some r) {s : Snapshot}
    (hget : r.get? tick = some s) (hs : schema ∈ f.schemas) (ha : attr ∈ schema.attributes)
    (hindex : index < f.count schema.id) {vs : List Value}
    (hvs : s.values? schema.id index attr.id = some vs) :
    (perform (.query (.cell tick schema index attr)) f).result =
      .ok (.result (.ofCell tick index attr vs)) := by
  obtain ⟨ts, hts, hshape⟩ := h.shaped
  obtain ⟨t, -, hsound, hschema, -⟩ := h.table hts hshape hs
  have hattr : schema.attributeNamed attr.name = .ok attr := by
    subst hschema
    exact hsound.schema.attributeNamed_of_mem ha
  have hsnapshots := snapshots_ok.2 hr
  have hcompile : (Query.cell tick schema index attr).compile schema (f.count schema.id) =
      .ok ⟨schema.id, .one tick, [index], [(attr.id, attr.name)]⟩ := by
    simp [Query.compile, Query.cell, hattr, Selector.choose, hindex]
  have hexecute : QueryPlan.execute ⟨schema.id, .one tick, [index], [(attr.id, attr.name)]⟩ r =
      .ok (.ofCell tick index attr vs) := by
    simp [QueryPlan.execute, Selector.choose, hget, QueryPlan.cells, QueryPlan.readCell, hvs,
      QueryResult.ofCell, offsetsFrom]
  have hname : (Query.cell tick schema index attr).schema = schema.name := rfl
  simp only [perform, read_apply, query, hsnapshots, hname, h.schema_ok hs, hcompile, hexecute,
    Except.ok_bind]
  rfl

theorem holdsTick_eq (hr : f.ring = some r) (tick : Tick) :
    (perform (.holdsTick tick) f).result = .ok (.flag (r.contains tick)) := by
  simp [perform, snapshots, hr]

theorem Built.remembers (h : f₀.Built) (hsnapshots : f₀.hasSnapshots = true) :
    ∃ shape, f₀.Sound shape ∧ ∀ ops, Remembers f₀ ops := by
  obtain ⟨shape, hsound, hring⟩ := h.sound
  obtain ⟨r, hr⟩ := Option.isSome_iff_exists.1 hsnapshots
  exact ⟨shape, hsound,
    .after hsound ⟨r, [], hr, hring r hr, fun s hs => absurd hs List.not_mem_nil⟩⟩

/-- In any run on a frame built with snapshots, asking for a held tick gives, for every attribute of
every instance, what reading the live frame gave when the tick was captured last. After a reset no
tick is held. -/
theorem Built.query_is_past_read (h : f₀.Built) (hsnapshots : f₀.hasSnapshots = true)
    (ops : List Op) :
    (∀ tick, (perform (.holdsTick tick) (after perform ops f₀)).result = .ok (.flag true) →
      ∃ pre, LastCaptured ops pre tick ∧
        (perform (.capture tick) (after perform pre f₀)).result = .ok .done ∧
        ∀ schema ∈ (after perform ops f₀).schemas,
          ∀ index < (after perform ops f₀).count schema.id, ∀ attr ∈ schema.attributes, ∃ vs,
            (perform (.access schema.name index attr.name (.whole attr))
              (after perform pre f₀)).result = .ok (.values vs) ∧
            (perform (.query (.cell tick schema index attr)) (after perform ops f₀)).result =
              .ok (.result (.ofCell tick index attr vs))) ∧
    ∀ tick, (perform (.holdsTick tick) (after perform (ops ++ [.reset]) f₀)).result =
      .ok (.flag false) := by
  obtain ⟨shape, hsound, hremembers⟩ := h.remembers hsnapshots
  have hnow := hsound.after ops
  obtain ⟨r, L, hr, hrefines, hL⟩ := hremembers ops
  refine ⟨?_, ?_⟩
  · intro tick hheld
    rw [holdsTick_eq hr, hrefines.contains_eq] at hheld
    obtain ⟨s, hfind⟩ := Option.isSome_iff_exists.1 (by simpa using hheld)
    obtain rfl : s.tick = tick := by simpa using List.find?_some hfind
    obtain ⟨pre, hlast, himages⟩ := hL s (List.mem_of_find?_eq_some hfind)
    have hpast := hsound.after pre
    obtain ⟨r', -, hr', -⟩ := hremembers pre
    refine ⟨pre, hlast, (capture_apply hr' himages).1, ?_⟩
    intro schema hs index hindex attr ha
    have hs' : schema ∈ (after perform pre f₀).schemas := by
      rw [hpast.schemas, ← hnow.schemas]
      exact hs
    have hindex' : index < (after perform pre f₀).count schema.id := by
      rw [hpast.count_eq, ← hnow.count_eq]
      exact hindex
    obtain ⟨vs, hvs, hread⟩ := hpast.captures himages hs' ha hindex' s.tick
    exact ⟨vs, hread, hnow.query_cell hr ((hrefines.get?_eq _).trans hfind) hs ha hindex hvs⟩
  · intro tick
    have hcleared : (after perform (ops ++ [.reset]) f₀).ring = some r.clear := by
      rw [after_append, after_cons, after_nil, hnow.reset_apply.2, hr, Option.map_some]
    rw [holdsTick_eq hcleared]
    rfl

/-- In a ring of two, the cell is written between captures, and one tick captured again and another
dropped; what is asked for is still what was there at the capture. -/
theorem query_is_past_read_recaptured : ∃ (f₀ : Frame) (ops pre : List Op), f₀.Built ∧
    ops = [.capture 1, .access "cell" 1 "x" (.set 0 (.int ⟨true, .two⟩ 7)), .capture 2, .capture 1,
      .access "cell" 1 "x" (.set 0 (.int ⟨true, .two⟩ 8)), .capture 3] ∧
    LastCaptured ops pre 2 ∧
    (perform (.access "cell" 1 "x" .getSlots) (after perform pre f₀)).result =
      .ok (.values [.int ⟨true, .one⟩ 7, .int ⟨true, .one⟩ 0]) ∧
    (perform (.query ⟨"cell", .one 2, .one 1, ["x"]⟩) (after perform ops f₀)).result =
      .ok (.result ⟨[2], [1], ["x"], [0, 2], [.int ⟨true, .one⟩ 7, .int ⟨true, .one⟩ 0]⟩) := by
  have hsteps : ∀ step ∈ [Builder.Step.declareWith "cell" [⟨"x", .int8, 2, false, false⟩] 2,
      .setSnapshots 2], step.Standard := by
    simp [Builder.Step.Standard]
  have hcell : Built _ := ⟨_, hsteps, rfl⟩
  obtain ⟨pre, hlast, -, hcells⟩ := (hcell.query_is_past_read rfl [.capture 1,
    .access "cell" 1 "x" (.set 0 (.int ⟨true, .two⟩ 7)), .capture 2, .capture 1,
    .access "cell" 1 "x" (.set 0 (.int ⟨true, .two⟩ 8)), .capture 3]).1 2 rfl
  obtain ⟨vs, hread, hquery⟩ := hcells ⟨0, "cell", [⟨0, "x", .int8, 2, false, false⟩]⟩
    (List.mem_singleton_self _) 1 (by decide) _ (List.mem_singleton_self _)
  have hvs : (.ok (.result (.ofCell 2 1 ⟨0, "x", .int8, 2, false, false⟩ vs)) :
      Except FrameError Answer) = .ok (.result ⟨[2], [1], ["x"], [0, 2],
        [.int ⟨true, .one⟩ 7, .int ⟨true, .one⟩ 0]⟩) := hquery.symm.trans (by rfl)
  obtain ⟨-, -, -, -, rfl⟩ := QueryResult.mk.inj (Answer.result.inj (Except.ok.inj hvs))
  exact ⟨_, _, pre, hcell, rfl, hlast, hread, hquery⟩

end Frame

end NodeStore
