import NodeStore.Proofs.Frame.Effect

/-!
# Going back to a tick

Restoring a tick makes of the frame what it was when the tick was captured, as far as values go, and
leaves everything else (`Frame.RestoredTo`). It works for the ticks that are held and for no others.

* `Frame.Sound.images_restored`: the pools of the snapshot are captured again.
* `Frame.Intact.restored_to`: a held tick is restored as a whole.
* `Frame.Built.restore_returns_to_tick`: what it comes to for frames in use.
-/

namespace NodeStore

/-- Images of the same tables are the same. -/
theorem PoolImage.Shows.all_unique {ps qs : List PoolImage} {ts : List Table}
    (hp : List.Forall₂ PoolImage.Shows ps ts) (hq : List.Forall₂ PoolImage.Shows qs ts) :
    ps = qs := by
  induction hp generalizing qs with
  | nil =>
    cases hq
    rfl
  | cons hp _ ih =>
    cases hq with
    | cons hq htail => rw [hp.unique hq, ih htail]

namespace Frame

open NodeStore.Action

variable {f f₀ g : Frame} {shape : List (Schema × Nat)} {tick : Tick} {s : Snapshot}

/-- The frame `g` is `f` with the values of a tick: they are read live as a query for the tick gives
them, and a capture stores the images of the tick once more. -/
structure RestoredTo (f : Frame) (tick : Tick) (g : Frame) : Prop where
  schemas : g.schemas = f.schemas
  counts : ∀ id, g.count id = f.count id
  seals : g.seals = f.seals
  ring : g.ring = f.ring
  queries : ∀ q, (perform (.query q) g).result = (perform (.query q) f).result
  reads : ∀ schema ∈ f.schemas, ∀ index < f.count schema.id, ∀ attr ∈ schema.attributes, ∃ vs,
    (perform (.query (.cell tick schema index attr)) f).result =
      .ok (.result (.ofCell tick index attr vs)) ∧
    g.Reads ⟨schema.id, index, attr.id⟩ schema attr vs
  recaptured : ∃ pools, (perform (.snapshot tick) f).result = .ok (.snapshot ⟨tick, pools⟩) ∧
    ∀ u, (perform (.capture u) g).result = .ok .done ∧
      (perform (.snapshot u) (perform (.capture u) g).state).result = .ok (.snapshot ⟨u, pools⟩)

theorem query_congr (hschemas : g.schemas = f.schemas) (hcounts : ∀ id, g.count id = f.count id)
    (hring : g.ring = f.ring) (q : Query) : g.query q = f.query q := by
  simp only [query, snapshots, Frame.schema, schema?, hschemas, hcounts, hring]

theorem Sound.images_restored (h : g.Sound shape) (hfits : s.Fits shape)
    (hafter : g.store.Models (s.tables shape)) : g.images = .ok s.pools := by
  obtain ⟨pools, ts, himages, hts, -, hshows⟩ := h.images_ok
  obtain rfl := hts.unique hafter
  rw [himages, PoolImage.Shows.all_unique hshows hfits.shows]

theorem snapshot_capture {r : Ring} {L : List Snapshot} {pools : List PoolImage}
    (hr : g.ring = some r) (hrefines : r.Refines L) (himages : g.images = .ok pools) (u : Tick) :
    (perform (.capture u) g).result = .ok .done ∧
      (perform (.snapshot u) (perform (.capture u) g).state).result =
        .ok (.snapshot ⟨u, pools⟩) := by
  obtain ⟨hresult, hstate⟩ : _ ∧ (perform (.capture u) g).state = _ := capture_apply hr himages
  have hsnapshot : (perform (.capture u) g).state.snapshot u = .ok ⟨u, pools⟩ :=
    snapshot_ok.2 ⟨_, by rw [hstate], hrefines.get?_push ⟨u, pools⟩⟩
  refine ⟨hresult, ?_⟩
  change ((perform (.capture u) g).state.snapshot u).map Answer.snapshot = _
  rw [hsnapshot]
  rfl

/-- A held tick is restored, in all pools. -/
theorem Intact.restored_to (h : f.Intact shape) (hs : f.snapshot tick = .ok s) :
    (perform (.restore tick) f).result = .ok .done ∧
      f.RestoredTo tick (perform (.restore tick) f).state := by
  have hfits := h.fits hs
  obtain ⟨store, hafter, hresult, hstate⟩ := h.sound.restore_apply hs hfits
  have hg := perform_sound (.restore tick) f h.sound
  generalize (perform (.restore tick) f).state = g at hstate hg ⊢
  have hschemas : g.schemas = f.schemas := by rw [hstate]
  have hring : g.ring = f.ring := by rw [hstate]
  have hmodels : g.store.Models (s.tables shape) := by rwa [hstate]
  have hcounts := h.sound.count_same hg
  obtain ⟨r, hr, hget, -, htick⟩ := h.snapshot_held hs
  have hrefines := h.ring r hr
  refine ⟨hresult, hschemas, hcounts, by rw [hstate], hring, fun q => ?_, ?_, s.pools, ?_,
    fun u => ?_⟩
  · rw [perform, read_apply, read_apply, query_congr hschemas hcounts hring]
  · intro schema hschema index hindex attr ha
    obtain ⟨t, ht, hsound, rfl, hcount⟩ := hg.table hmodels hfits.shape_tables (hschemas ▸ hschema)
    have hattr := hsound.schema.mem ha
    have hindex' : index < t.count := by rwa [hcount, hcounts]
    have hvs := Snapshot.values?_of_shows hfits.shows ht hindex'
      (List.getElem?_eq_some_iff.1 hattr).1
    exact ⟨_, h.sound.query_cell hr hget hschema ha hindex hvs,
      reads_of_models hmodels ht hattr hindex'⟩
  · rw [perform, read_apply, hs, ← htick]
    rfl
  · exact snapshot_capture (hring.trans hr) hrefines (hg.images_restored hfits hmodels) u

/-- In any run on a frame built with snapshots, restoring a tick ends well if and only if the tick
is held, and then the values are back as they were captured and nothing else has changed. A tick
that is not held is not found, and then nothing has changed at all. -/
theorem Built.restore_returns_to_tick (h : f₀.Built) (hsnapshots : f₀.hasSnapshots = true)
    {ops : List Op} (hf : f = after perform ops f₀) (tick : Tick) :
    ((perform (.restore tick) f).result = .ok .done ↔
      (perform (.holdsTick tick) f).result = .ok (.flag true)) ∧
    ((perform (.holdsTick tick) f).result ≠ .ok (.flag true) →
      (perform (.restore tick) f).result = .error (.tickNotFound tick) ∧
        (perform (.restore tick) f).state = f) ∧
    ((perform (.restore tick) f).result = .ok .done →
      f.RestoredTo tick (perform (.restore tick) f).state) := by
  obtain ⟨shape, hbuilt⟩ := h.intact
  obtain ⟨-, -, hremembers⟩ := h.remembers hsnapshots
  obtain ⟨r, L, hr, hrefines, -⟩ := hremembers ops
  have hintact := hbuilt.after ops
  rw [← hf] at hr hintact
  rw [holdsTick_eq hr, hrefines.contains_eq, ← hrefines.get?_eq]
  cases hget : r.get? tick with
  | none =>
    obtain ⟨hresult, hstate⟩ := restore_of_error (snapshot_missing hr hget)
    refine ⟨by simp [hresult], fun _ => ⟨hresult, hstate⟩, ?_⟩
    intro hok
    cases hresult.symm.trans hok
  | some s =>
    obtain ⟨hresult, hrestored⟩ := hintact.restored_to (snapshot_ok.2 ⟨r, hr, hget⟩)
    exact ⟨by simp [hresult], fun hnot => absurd rfl hnot, fun _ => hrestored⟩

/-- A cell that was written again after the capture is back; a tick that has been dropped since is
not found. -/
theorem restore_returns_to_tick_rewritten : ∃ f : Frame,
    (Access.perform ⟨0, 1, 0⟩ .getSlots f).result =
      .ok (.values [.int ⟨true, .one⟩ 8, .int ⟨true, .one⟩ 0]) ∧
    (perform (.restore 3) f).result = .ok .done ∧
    f.RestoredTo 3 (perform (.restore 3) f).state ∧
    (Access.perform ⟨0, 1, 0⟩ .getSlots (perform (.restore 3) f).state).result =
      .ok (.values [.int ⟨true, .one⟩ 5, .int ⟨true, .one⟩ 0]) ∧
    (perform (.restore 2) f).result = .error (.tickNotFound 2) ∧
    (perform (.restore 2) f).state = f := by
  have hsteps : ∀ step ∈ [Builder.Step.declareWith "cell" [⟨"x", .int8, 2, false, false⟩] 2,
      .setSnapshots 1], step.Standard := by
    simp [Builder.Step.Standard]
  have hcell : Built _ := ⟨_, hsteps, rfl⟩
  have hback (tick : Tick) := hcell.restore_returns_to_tick rfl (show _ = after perform
    [.capture 2, .access "cell" 1 "x" (.set 0 (.int ⟨true, .one⟩ 5)),
      .capture 3, .access "cell" 1 "x" (.set 0 (.int ⟨true, .one⟩ 8))] _ from rfl) tick
  obtain ⟨hheld, -, hrestored⟩ := hback 3
  obtain ⟨-, hmissing, -⟩ := hback 2
  have hok := hheld.2 rfl
  obtain ⟨hnotFound, hsame⟩ := hmissing (by rintro ⟨⟩)
  exact ⟨_, rfl, hok, hrestored hok, rfl, hnotFound, hsame⟩

end Frame

end NodeStore
