import NodeStore.Proofs.Frame.Effect

/-!
# Sealed const attributes are frozen

From the moment an instance is sealed the values of its const attributes stay. Writes are refused
(`Frame.permitWrite_ne`), but restoring asks for no permission: what it brings back is right only if
it was captured after the sealing. So the invariant of a run, `Frame.Frozen`, is about the live
values and the snapshots captured in the run together.

* `Frame.Effect.frozen`: one operation keeps it.
* `Frame.Frozen.after`: and so does a run.
* `Frame.Reachable.sealed_const_frozen`: what it comes to, from the operation that seals on.
-/

namespace NodeStore

namespace Frame

open NodeStore.Action

variable {f g : Frame} {shape : List (Schema × Nat)} {op : Op} {c c' : Coord} {vs : List Value}
  {schema : Schema} {attr : Attribute} {run : List Op} {s : Snapshot}
  {result : Except FrameError Answer}

/-! ## The values at a coordinate -/

/-- The pool has these values at the coordinate. -/
def Holds (f : Frame) (c : Coord) (vs : List Value) : Prop :=
  ∃ ts t, f.store.Models ts ∧ ts[c.schema]? = some t ∧ t.cell c = vs

theorem Holds.of_store_eq (h : f.Holds c vs) (hstore : g.store = f.store) : g.Holds c vs := by
  rwa [Holds, hstore]

theorem Holds.cell_eq {ts : List Table} {t : Table} (h : f.Holds c vs) (hts : f.store.Models ts)
    (ht : ts[c.schema]? = some t) : t.cell c = vs := by
  obtain ⟨ts', t', hts', ht', hcell⟩ := h
  obtain rfl := hts.unique hts'
  rw [ht] at ht'
  cases ht'
  exact hcell

/-- A write elsewhere. -/
theorem Holds.put_ne {a : Access} {ts : List Table} {t u : Table} (h : f.Holds c vs)
    (hput : f.Put g c' a ts t u) (hne : c ≠ c') : g.Holds c vs := by
  obtain ⟨attr, new, -, -, -, rfl⟩ := hput.written
  by_cases hschema : c'.schema = c.schema
  · have ht := hput.table
    have hlt := (List.getElem?_eq_some_iff.1 ht).1
    have hcell : ¬ (c.index = c'.index ∧ c.attr = c'.attr) := by
      rintro ⟨hindex, hattr⟩
      exact hne (by cases c; cases c'; simp_all)
    refine ⟨_, t.put c' new, hput.after, by rw [← hschema, List.getElem?_set_self hlt], ?_⟩
    rw [Table.cell_put_ne new hcell, h.cell_eq hput.before (hschema ▸ ht)]
  · obtain ⟨ts', t', hts, ht, hcell⟩ := h
    obtain rfl := hts.unique hput.before
    exact ⟨_, t', hput.after, by rw [List.getElem?_set_ne hschema, ht], hcell⟩

/-! ## Const attributes -/

/-- There is a const attribute at the coordinate. -/
structure ConstAt (shape : List (Schema × Nat)) (c : Coord) (schema : Schema) (attr : Attribute) :
    Prop where
  pool : ∃ n, shape[c.schema]? = some (schema, n) ∧ c.index < n
  declared : schema.attributes[c.attr]? = some attr
  const : attr.isConst = true

namespace ConstAt

variable {ts : List Table}

theorem table (h : ConstAt shape c schema attr) (hshape : ts.map Table.shape = shape) :
    ∃ t, ts[c.schema]? = some t ∧ t.schema = schema ∧ c.index < t.count := by
  obtain ⟨n, hpool, hindex⟩ := h.pool
  rw [← hshape, List.getElem?_map] at hpool
  obtain ⟨t, ht, hpair⟩ := Option.map_eq_some_iff.1 hpool
  obtain ⟨hschema, rfl⟩ := Prod.mk.inj hpair
  exact ⟨t, ht, hschema, hindex⟩

/-- The frame has values there, and every read gives them. -/
theorem reads (h : ConstAt shape c schema attr) (hf : f.Sound shape) (hvs : f.Holds c vs) :
    f.Reads c schema attr vs := by
  obtain ⟨ts, hts, hshape⟩ := hf.shaped
  obtain ⟨t, ht, rfl, hindex⟩ := h.table hshape
  rw [← hvs.cell_eq hts ht]
  exact reads_of_models hts ht h.declared hindex

/-- An image of the frame's pools has the values the pools have. -/
theorem values?_of_shows (h : ConstAt shape c schema attr)
    (hshows : List.Forall₂ PoolImage.Shows s.pools ts) (hshape : ts.map Table.shape = shape) :
    ∃ t, ts[c.schema]? = some t ∧ s.values? c.schema c.index c.attr = some (t.cell c) := by
  obtain ⟨t, ht, rfl, hindex⟩ := h.table hshape
  exact ⟨t, ht,
    Snapshot.values?_of_shows hshows ht hindex (List.getElem?_eq_some_iff.1 h.declared).1⟩

theorem captured (h : ConstAt shape c schema attr) (hf : f.Sound shape) (hvs : f.Holds c vs)
    {pools : List PoolImage} (himages : f.images = .ok pools) (tick : Tick) :
    Snapshot.values? ⟨tick, pools⟩ c.schema c.index c.attr = some vs := by
  obtain ⟨ts, hts, hshape, hshows⟩ := hf.images_show himages
  obtain ⟨t, ht, hvalues⟩ := h.values?_of_shows (s := ⟨tick, pools⟩) hshows hshape
  rw [hvalues, hvs.cell_eq hts ht]

theorem restored (h : ConstAt shape c schema attr) (hfits : s.Fits shape)
    (hafter : g.store.Models (s.tables shape))
    (hvs : s.values? c.schema c.index c.attr = some vs) : g.Holds c vs := by
  obtain ⟨t, ht, hvalues⟩ := h.values?_of_shows hfits.shows hfits.shape_tables
  exact ⟨_, t, hafter, ht, Option.some.inj (hvalues.symm.trans hvs)⟩

end ConstAt

/-! ## Sealed instances -/

theorem isSealedAt_congr (h : g.seals = f.seals) (id : SchemaId) (index : Nat) :
    g.isSealedAt id index = f.isSealedAt id index := by
  rw [isSealedAt, isSealedAt, h]

theorem isSealed_ok {b : Bool} {index : Nat} (h : f.Sound shape) (hs : schema ∈ f.schemas) :
    f.isSealed schema.name index = .ok b ↔
      index < f.count schema.id ∧ f.isSealedAt schema.id index = b := by
  rw [isSealed, h.schema_ok hs, Except.ok_bind, requireIndex]
  by_cases hindex : index < f.count schema.id
  · simp [hindex]
  · simp [hindex]

/-- What may be written is no const attribute of a sealed instance. -/
theorem permitWrite_ne (hconst : ConstAt shape c schema attr) (hf : f.Sound shape)
    (hsealed : f.isSealedAt c.schema c.index = true) (hpermit : f.permitWrite c' = .ok ()) :
    c ≠ c' := by
  rintro rfl
  obtain ⟨n, hpool, -⟩ := hconst.pool
  have hschema : f.schemaAt? c.schema = some schema := by
    rw [schemaAt?, hf.schemas, List.getElem?_map, hpool]
    rfl
  simp [permitWrite, hsealed, hschema, Schema.attributeAt?, hconst.declared,
    hconst.const] at hpermit

/-- After a reset nothing is sealed. -/
theorem isSealedAt_cleared (h : g.seals = f.seals.map InstanceSet.clear) (id : SchemaId)
    (index : Nat) : g.isSealedAt id index = false := by
  rw [isSealedAt, h, List.getElem?_map]
  cases f.seals[id]? with
  | none => rfl
  | some set => exact InstanceSet.contains_clear set index

/-- The operation that seals changes no values. -/
theorem Effect.store_of_sealing (he : Effect shape f op result g) {id index : Nat}
    (hbefore : f.isSealedAt id index = false) (hafter : g.isSealedAt id index = true) :
    g.store = f.store := by
  rcases he.seals_cases with hsame | ⟨-, hcleared⟩ | ⟨hstore, -⟩
  · rw [isSealedAt_congr hsame, hbefore] at hafter
    cases hafter
  · rw [isSealedAt_cleared hcleared] at hafter
    cases hafter
  · exact hstore

/-! ## Frozen values -/

/-- After the run the instance is sealed and the values at the coordinate are `vs`, live and in
every snapshot of a tick that was captured in the run. -/
structure Frozen (f : Frame) (shape : List (Schema × Nat)) (c : Coord) (vs : List Value)
    (run : List Op) : Prop where
  intact : f.Intact shape
  sealed : f.isSealedAt c.schema c.index = true
  live : f.Holds c vs
  held : ∀ r, f.ring = some r → ∀ s ∈ r.toList, .capture s.tick ∈ run →
    s.values? c.schema c.index c.attr = some vs

/-- The ring and the operations that captured for it are the same. -/
theorem Frozen.quiet (h : f.Frozen shape c vs run) (hg : g.Intact shape)
    (hcapture : ∀ tick, op ≠ .capture tick) (hring : g.ring = f.ring)
    (hsealed : g.isSealedAt c.schema c.index = true) (hlive : g.Holds c vs) :
    g.Frozen shape c vs (run ++ [op]) := by
  refine ⟨hg, hsealed, hlive, fun r hr s hs hmem => ?_⟩
  rcases List.mem_append.1 hmem with hmem | hmem
  · exact h.held r (hring ▸ hr) s hs hmem
  · exact absurd (List.mem_singleton.1 hmem).symm (hcapture s.tick)

theorem LocalEffect.frozen (he : LocalEffect f result g) (h : f.Frozen shape c vs run)
    (hconst : ConstAt shape c schema attr) (hg : g.Intact shape)
    (hcapture : ∀ tick, op ≠ .capture tick) : g.Frozen shape c vs (run ++ [op]) := by
  have hring := he.ring_eq
  cases he with
  | failed _ _ hstate => exact h.quiet hg hcapture hring (hstate ▸ h.sealed) (hstate ▸ h.live)
  | looked _ _ hstate => exact h.quiet hg hcapture hring (hstate ▸ h.sealed) (hstate ▸ h.live)
  | wrote _ c' a ts t u _ hpermit hput =>
    have hne := permitWrite_ne hconst h.intact.sound h.sealed hpermit
    refine h.quiet hg hcapture hring ?_ (h.live.put_ne hput hne)
    rw [isSealedAt_congr (by rw [hput.rest])]
    exact h.sealed
  | sealed _ _ _ hstate hgrow =>
    exact h.quiet hg hcapture hring (hgrow _ _ h.sealed) (h.live.of_store_eq (by rw [hstate]))

/-- No operation but a reset touches frozen values, as long as the ticks restored are of the run. -/
theorem Effect.frozen (he : Effect shape f op result g) (h : f.Frozen shape c vs run)
    (hconst : ConstAt shape c schema attr) (hg : g.Intact shape) (hreset : op ≠ .reset)
    (hrestore : ∀ tick s, op = .restore tick → f.snapshot tick = .ok s → .capture tick ∈ run) :
    g.Frozen shape c vs (run ++ [op]) := by
  cases he with
  | ofLocal hop heffect =>
    refine heffect.frozen h hconst hg ?_
    rintro tick rfl
    cases hop
  | disabled _ _ hstate hring =>
    subst hstate
    exact ⟨hg, h.sealed, h.live, fun r hr => by rw [hring] at hr; cases hr⟩
  | missing tick r hop _ hstate =>
    subst hstate hop
    exact h.quiet hg (fun _ => nofun) rfl h.sealed h.live
  | reset _ hop => exact absurd hop hreset
  | captured tick r pools hop _ hring himages hstate =>
    subst hstate
    have hnew := hconst.captured h.intact.sound h.live himages tick
    refine ⟨hg, h.sealed, h.live, fun r' hr' s hs hmem => ?_⟩
    cases hr'
    rcases (h.intact.ring r hring).mem_push hs with rfl | ⟨hs, htick⟩
    · exact hnew
    · -- a snapshot from before, of another tick than the one captured now
      rcases List.mem_append.1 hmem with hmem | hmem
      · exact h.held r hring s hs hmem
      · rw [hop, List.mem_singleton] at hmem
        injection hmem with hmem
        exact absurd hmem htick
  | restored tick s hop _ hheld hfits hafter hstate =>
    obtain ⟨r, hr, -, hmem, rfl⟩ := h.intact.snapshot_held hheld
    have hvs := h.held r hr s hmem (hrestore _ s hop hheld)
    refine h.quiet hg (by rintro _ rfl; cases hop) (by rw [hstate]) ?_
      (hconst.restored hfits hafter hvs)
    rw [isSealedAt_congr (by rw [hstate])]
    exact h.sealed

/-- Every tick the run restores was captured in the run before. Ticks that are not held are not
restored. -/
def RestoresOwn (f : Frame) (run : List Op) : Prop :=
  ∀ mid tick post, run = mid ++ .restore tick :: post →
    (perform (.holdsTick tick) (after perform mid f)).result = .ok (.flag true) →
    .capture tick ∈ mid

theorem holdsTick_of_snapshot {tick : Tick} (h : f.Intact shape) (hs : f.snapshot tick = .ok s) :
    (perform (.holdsTick tick) f).result = .ok (.flag true) := by
  obtain ⟨r, hr, hget⟩ := snapshot_ok.1 hs
  have hrefines := h.ring r hr
  rw [holdsTick_eq hr, hrefines.contains_eq, ← hrefines.get?_eq, hget]
  rfl

/-- All along a run the values are frozen. -/
theorem Frozen.after (h : f.Frozen shape c vs []) (hconst : ConstAt shape c schema attr)
    (hreset : .reset ∉ run) (hrestore : f.RestoresOwn run) {mid post : List Op}
    (hrun : run = mid ++ post) : (after perform mid f).Frozen shape c vs mid := by
  induction mid using List.reverseRecOn generalizing post with
  | nil => exact h
  | append_singleton mid op ih =>
    rw [List.append_assoc, List.singleton_append] at hrun
    have hmid := ih hrun
    have hop : op ≠ .reset := by
      rintro rfl
      exact hreset (hrun ▸ List.mem_append_right mid List.mem_cons_self)
    rw [after_append, after_cons, after_nil]
    refine (hmid.intact.effect op).frozen hmid hconst (perform_intact op _ hmid.intact) hop ?_
    rintro tick s rfl hs
    exact hrestore mid tick post hrun (holdsTick_of_snapshot hmid.intact hs)

/-- From the operation that seals an instance on, the const attributes of the instance are read as
they were, and the instance stays sealed, throughout any run that resets nothing and restores only
what was captured in it. -/
theorem Reachable.sealed_const_frozen (h : f.Reachable) {step : Op} {index : Nat}
    (hs : schema ∈ f.schemas) (ha : attr ∈ schema.attributes) (hconst : attr.isConst = true)
    (hbefore : f.isSealed schema.name index = .ok false)
    (hafter : (perform step f).state.isSealed schema.name index = .ok true)
    (hreset : .reset ∉ run) (hrestore : (perform step f).state.RestoresOwn run) :
    ∃ vs, f.Reads ⟨schema.id, index, attr.id⟩ schema attr vs ∧ ∀ mid post, run = mid ++ post →
      (after perform mid (perform step f).state).isSealed schema.name index = .ok true ∧
      (after perform mid (perform step f).state).Reads ⟨schema.id, index, attr.id⟩ schema attr
        vs := by
  obtain ⟨shape, hf⟩ := h.intact
  have heffect := hf.effect step
  have hg := perform_intact step f hf
  generalize (perform step f).state = g at hafter hrestore heffect hg ⊢
  obtain ⟨ts, hts, hshape⟩ := hf.sound.shaped
  obtain ⟨t, ht, hsound, rfl, hcount⟩ := hf.sound.table hts hshape hs
  have hschemas : g.schemas = f.schemas := hg.sound.schemas.trans hf.sound.schemas.symm
  obtain ⟨hindex, hopen⟩ := (isSealed_ok hf.sound hs).1 hbefore
  obtain ⟨hindex', hsealed⟩ := (isSealed_ok hg.sound (hschemas ▸ hs)).1 hafter
  have hat : ConstAt shape ⟨t.schema.id, index, attr.id⟩ t.schema attr := by
    refine ⟨⟨t.count, ?_, hcount ▸ hindex⟩, hsound.schema.mem ha, hconst⟩
    rw [← hshape, List.getElem?_map, ht]
    rfl
  have hlive : f.Holds ⟨t.schema.id, index, attr.id⟩ (t.cells index attr.id) :=
    ⟨ts, t, hts, ht, rfl⟩
  have hstart : g.Frozen shape ⟨t.schema.id, index, attr.id⟩ (t.cells index attr.id) [] :=
    ⟨hg, hsealed, hlive.of_store_eq (heffect.store_of_sealing hopen hsealed),
      fun _ _ _ _ hmem => absurd hmem List.not_mem_nil⟩
  refine ⟨t.cells index attr.id, hat.reads hf.sound hlive, fun mid post hrun => ?_⟩
  have hmid := hstart.after hat hreset hrestore hrun
  have hsame := hmid.intact.sound
  refine ⟨(isSealed_ok hsame ?_).2 ⟨?_, hmid.sealed⟩, hat.reads hsame hmid.live⟩
  · rw [hsame.schemas, ← hf.sound.schemas]
    exact hs
  · rw [hsame.count_eq, ← hf.sound.count_eq]
    exact hindex

/-- A sealed instance is captured, written in vain, and restored. -/
theorem sealed_const_frozen_restored : ∃ (f : Frame) (run : List Op), f.Reachable ∧
    run = [.capture 1, .access "cell" 1 "size" (.set 0 (.int ⟨true, .one⟩ 9)), .restore 1] ∧
    (Access.perform ⟨0, 1, 0⟩ .getSlots f).result = .ok (.values [.int ⟨true, .one⟩ 4]) ∧
    (after perform run (perform (.seal "cell" 1) f).state).isSealed "cell" 1 = .ok true ∧
    (Access.perform ⟨0, 1, 0⟩ .getSlots
      (after perform run (perform (.seal "cell" 1) f).state)).result =
        .ok (.values [.int ⟨true, .one⟩ 4]) := by
  let schema : Schema := ⟨0, "cell", [⟨0, "size", .int8, 1, false, true⟩]⟩
  have hsteps : ∀ step ∈ [Builder.Step.declareWith "cell" [⟨"size", .int8, 1, false, true⟩] 2,
      .setSnapshots 2], step.Standard := by
    simp [Builder.Step.Standard]
  have hf : Reachable _ :=
    ⟨_, [.access "cell" 1 "size" (.set 0 (.int ⟨true, .one⟩ 4))], ⟨_, hsteps, rfl⟩, rfl⟩
  have hrestore (g : Frame) : g.RestoresOwn
      [.capture 1, .access "cell" 1 "size" (.set 0 (.int ⟨true, .one⟩ 9)), .restore 1] := by
    intro mid tick post hrun _
    rcases mid with _ | ⟨_, _ | ⟨_, _ | ⟨_, mid⟩⟩⟩
    · cases hrun
    · cases hrun
    · cases hrun
      exact List.mem_cons_self
    · simp at hrun
  obtain ⟨vs, hreads, hall⟩ := hf.sealed_const_frozen
    (show schema ∈ _ from List.mem_singleton_self _) (List.mem_singleton_self _) rfl
    (show _ = _ from rfl)
    (show (perform (.seal "cell" 1) _).state.isSealed "cell" 1 = _ from rfl)
    (by simp) (hrestore _)
  obtain ⟨hsealed, hstill⟩ := hall _ [] (List.append_nil _).symm
  obtain rfl : [.int ⟨true, .one⟩ 4] = vs :=
    Answer.values.inj (Except.ok.inj (hreads.getSlots rfl))
  exact ⟨_, _, hf, rfl, hreads.getSlots rfl, hsealed, hstill.getSlots rfl⟩

end Frame

end NodeStore
