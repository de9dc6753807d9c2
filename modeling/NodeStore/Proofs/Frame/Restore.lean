import NodeStore.Proofs.Frame.History

/-!
# Restoring a snapshot

Restoring goes through the pools one after another and would stop at the first image that is
refused. None is if the snapshot fits the frame (`Snapshot.Fits`), and then the pools have the
tables of its images (`Snapshot.tables`), all of them.

* `Frame.Sound.images_fit`: what is captured fits.
* `Frame.Sound.restore_apply`: what fits is restored as a whole.
-/

namespace NodeStore

/-! ## Snapshots that fit -/

namespace Snapshot

variable {s : Snapshot} {shape : List (Schema × Nat)} {ts : List Table}

/-- Every image passes the check for its pool. -/
def Fits (s : Snapshot) (shape : List (Schema × Nat)) : Prop :=
  List.Forall₂ (fun image pool => image.check pool.1 pool.2 = .ok ()) s.pools shape

/-- The tables of the images. -/
def tables (s : Snapshot) (shape : List (Schema × Nat)) : List Table :=
  List.zipWith (fun image pool => .ofImage pool.1 pool.2 image) s.pools shape

theorem fits_of_shows (h : List.Forall₂ PoolImage.Shows s.pools ts) :
    s.Fits (ts.map Table.shape) := by
  rw [Fits, List.forall₂_map_right_iff]
  exact h.imp fun _ _ hp => hp.check

theorem Fits.shape_tables (h : s.Fits shape) : (s.tables shape).map Table.shape = shape := by
  unfold Fits at h
  unfold tables
  generalize s.pools = pools at h ⊢
  induction h with
  | nil => rfl
  | cons _ _ ih =>
    rw [List.zipWith_cons_cons, List.map_cons, ih]
    rfl

theorem Fits.shows (h : s.Fits shape) : List.Forall₂ PoolImage.Shows s.pools (s.tables shape) := by
  unfold Fits at h
  unfold tables
  generalize s.pools = pools at h ⊢
  induction h with
  | nil => exact .nil
  | cons hp _ ih => exact .cons (PoolImage.shows_ofImage hp) ih

end Snapshot

/-! ## All pools -/

/-- Tables restored one after another, from images that pass the checks. -/
theorem Tables.forM_restore {pools : List PoolImage} {rest : List Table}
    (h : List.Forall₂ (fun image t => image.check t.schema t.count = .ok ()) pools rest)
    (done : List Table) :
    ((pools.zipIdx done.length).forM fun p => Action.update (change (·.restore p.1) p.2))
        (done ++ rest) =
      ⟨.ok (), done ++ List.zipWith (fun image t => .ofImage t.schema t.count image) pools rest,
        []⟩ := by
  induction h generalizing done with
  | nil => rfl
  | @cons image t pools rest hcheck _ ih =>
    have hchange : change (·.restore image) done.length (done ++ t :: rest) =
        .ok (done ++ .ofImage t.schema t.count image :: rest) := by
      refine change_ok.2 ⟨t, _, by simp, Table.restore_of_check hcheck, ?_⟩
      rw [List.set_append_right _ _ (Nat.le_refl _), Nat.sub_self, List.set_cons_zero]
    change (Action.update (change (·.restore image) done.length) >>= fun _ =>
      (pools.zipIdx (done.length + 1)).forM _) _ = _
    have ih := ih (done ++ [.ofImage t.schema t.count image])
    simp only [List.length_append, List.length_singleton, List.append_assoc,
      List.singleton_append] at ih
    rw [Action.bind_apply, Action.update_apply, hchange]
    simp only [ih, List.zipWith_cons_cons, List.nil_append]

namespace Frame

open NodeStore.Action

variable {f : Frame} {shape : List (Schema × Nat)} {r : Ring} {tick : Tick} {s : Snapshot}

/-- Acting on the store over and over is acting on it once with everything. -/
theorem forM_inStore {ι : Type} (x : ι → Action Store Unit) (l : List ι) (f : Frame) :
    (l.forM fun i => inStore (x i)) f = inStore (l.forM x) f := by
  induction l generalizing f with
  | nil => rfl
  | cons i l ih =>
    change (inStore (x i) >>= fun _ => l.forM _) f = inStore (x i >>= fun _ => l.forM x) f
    rw [bind_apply, inStore, on_apply, inStore, on_apply, bind_apply]
    cases (x i f.store).result with
    | error e => rfl
    | ok _ =>
      simp only [ih]
      rfl

theorem Sound.images_fit (h : f.Sound shape) {pools : List PoolImage}
    (hpools : f.images = .ok pools) (tick : Tick) : Snapshot.Fits ⟨tick, pools⟩ shape := by
  obtain ⟨ts, -, rfl, hshows⟩ := h.images_show hpools
  exact Snapshot.fits_of_shows hshows

theorem snapshot_ok : f.snapshot tick = .ok s ↔ ∃ r, f.ring = some r ∧ r.get? tick = some s := by
  unfold snapshot snapshots
  cases f.ring with
  | none => simp
  | some r => cases hget : r.get? tick <;> simp [hget]

theorem snapshot_missing (hr : f.ring = some r) (hget : r.get? tick = none) :
    f.snapshot tick = .error (.tickNotFound tick) := by
  simp [snapshot, snapshots, hr, hget]

/-- A held snapshot that fits is restored, in all pools. -/
theorem Sound.restore_apply (h : f.Sound shape) (hs : f.snapshot tick = .ok s)
    (hfits : s.Fits shape) :
    ∃ store : Store, store.Models (s.tables shape) ∧
      (perform (.restore tick) f).result = .ok .done ∧
      (perform (.restore tick) f).state = { f with store } := by
  obtain ⟨ts, hts, rfl⟩ := h.shaped
  have hchecks : List.Forall₂ (fun image t => image.check t.schema t.count = .ok ()) s.pools ts :=
    List.forall₂_map_right_iff.1 hfits
  have htables := Tables.forM_restore hchecks []
  have hmodels : Action.Respects Store.Models Eq
      (s.pools.zipIdx.forM fun p => Store.restore p.2 p.1)
      (s.pools.zipIdx.forM fun p => Action.update (Tables.change (·.restore p.1) p.2)) :=
    .forM (List.forall₂_same.2 fun p _ => Store.restore_models p.2 p.1)
  obtain ⟨hres, hst⟩ := hmodels f.store ts hts
  rw [List.length_nil, List.nil_append, List.nil_append] at htables
  rw [htables] at hres hst
  have hall := forM_inStore (fun p => Store.restore p.2 p.1) s.pools.zipIdx f
  have hsame : s.tables (ts.map Table.shape) =
      List.zipWith (fun image t => .ofImage t.schema t.count image) s.pools ts := by
    rw [Snapshot.tables, List.zipWith_map_right]
    rfl
  refine ⟨_, hsame ▸ hst, ?_⟩
  simp only [perform, restore, bind_apply, read_apply, hs, hall]
  simp only [inStore, on_apply, hres.eq, emit_apply, pure_apply, and_self]

end Frame

end NodeStore
