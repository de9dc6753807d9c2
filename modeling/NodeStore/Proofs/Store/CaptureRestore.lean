import NodeStore.Proofs.Store.Alike

/-!
# Capturing and restoring a pool

A capture of a pool and the restoring of an image undo one another, under either strategy and from
one to the other. Whether an image is accepted is what its check says, and nothing else.

* `Store.Models.restored`: restoring checks the image and then makes its table.
* `Store.Models.readsAlike`: pools whose tables have the same cells are read alike.
* `Store.Reachable.capture_restore_inverse`: what both come to for the pools of stores in use.
-/

namespace NodeStore

/-- Schemas that differ in their numbers at most. -/
def Schema.Same (s t : Schema) : Prop := s.name = t.name ∧ s.attributes = t.attributes

theorem Schema.Same.check_eq {schema schema' : Schema} (h : schema.Same schema') (image : PoolImage)
    (n : Nat) : image.check schema n = image.check schema' n := by
  obtain ⟨id, name, attributes⟩ := schema
  obtain ⟨id', name', attributes'⟩ := schema'
  obtain ⟨rfl, rfl⟩ := h
  rfl

namespace Store

/-! ## Stores in use -/

/-- Schema and instance count of a pool. -/
def shape? : Store → SchemaId → Option (Schema × Nat)
  | dense ps, id => ps[id]?.map fun p => (p.schema, p.layout.count)
  | lite ps, id => ps[id]?.map fun p => (p.schema, p.records.length)

/-- The store was made from an empty one by calls, whatever became of each. -/
def Reachable (s : Store) : Prop :=
  ∃ k calls, (∀ call ∈ calls, call.Declared) ∧ s = Action.after perform calls (.new k)

variable {s s' : Store} {ts us : List Table} {t u : Table} {id id' : SchemaId} {image : PoolImage}

theorem perform_keeps {call : Call} (h : call.Declared) :
    Action.Keeps (fun s => ∃ ts, s.Models ts) (perform call) := by
  rintro s ⟨ts, hts⟩
  obtain ⟨-, us, hus, -⟩ := perform_alike h s s ⟨ts, hts, hts⟩
  exact ⟨us, hus⟩

theorem Reachable.models (h : s.Reachable) : ∃ ts, s.Models ts := by
  obtain ⟨k, calls, hcalls, rfl⟩ := h
  exact Action.Keeps.after (fun call hcall => perform_keeps (hcalls call hcall)) ⟨[], new_models k⟩

theorem Models.shape?_eq (h : s.Models ts) (id : SchemaId) :
    s.shape? id = ts[id]?.map Table.shape := by
  cases s with
  | dense ps =>
    exact Pools.Models.map_getElem? h (f := fun p => (p.schema, p.layout.count)) (g := Table.shape)
      (fun _ _ => rfl) id
  | lite ps =>
    exact Pools.Models.map_getElem? h (f := fun p => (p.schema, p.records.length))
      (g := Table.shape) (fun p hp => congrArg (p.schema, ·) hp.count) id

/-! ## Restoring an image -/

/-- Restoring answers what the check says, and leaves the image's table if that is well and the
store as it was if not. -/
theorem Models.restored (h : s.Models ts) (ht : ts[id]? = some t) (image : PoolImage) :
    (restore id image s).result = image.check t.schema t.count ∧
      (image.check t.schema t.count = .ok () →
        (restore id image s).state.Models (ts.set id (.ofImage t.schema t.count image))) ∧
      ∀ e, image.check t.schema t.count = .error e → (restore id image s).state = s := by
  have hyields := h.restore id image
  have hchange : Tables.change (·.restore image) id ts = (do
      image.check t.schema t.count
      return ts.set id (.ofImage t.schema t.count image)) := by
    rw [Tables.change, Tables.pool_ok.2 ht, Except.ok_bind, Table.restore]
    cases image.check t.schema t.count <;> rfl
  rw [hchange] at hyields
  cases hcheck : image.check t.schema t.count with
  | error e =>
    rw [hcheck] at hyields
    cases hyields with
    | refused _ hresult hstate => exact ⟨hresult, fun h => (by cases h), fun _ _ => hstate⟩
  | ok _ =>
    rw [hcheck] at hyields
    cases hyields with
    | done _ hresult hstate => exact ⟨hresult, fun _ => hstate, fun _ h => (by cases h)⟩

/-! ## Reading a pool -/

/-- Every read of the one pool answers what the read of the other does. -/
structure ReadsAlike (s : Store) (id : SchemaId) (s' : Store) (id' : SchemaId) : Prop where
  get : ∀ index attr slot, s.get ⟨id, index, attr⟩ slot = s'.get ⟨id', index, attr⟩ slot
  getSlots : ∀ index attr, s.getSlots ⟨id, index, attr⟩ = s'.getSlots ⟨id', index, attr⟩
  listLength : ∀ index attr, s.listLength ⟨id, index, attr⟩ = s'.listLength ⟨id', index, attr⟩
  getList : ∀ index attr, s.getList ⟨id, index, attr⟩ = s'.getList ⟨id', index, attr⟩

theorem Models.readsAlike (h : s.Models ts) (h' : s'.Models us) (ht : ts[id]? = some t)
    (hu : us[id']? = some u) (hschema : t.schema.Same u.schema) (hcount : t.count = u.count)
    (hcells : t.cells = u.cells) : s.ReadsAlike id s' id' := by
  obtain ⟨⟨sid, name, attributes⟩, n, cells⟩ := t
  obtain ⟨⟨sid', name', attributes'⟩, n', cells'⟩ := u
  obtain rfl : n = n' := hcount
  obtain rfl : cells = cells' := hcells
  obtain ⟨rfl, rfl⟩ : name = name' ∧ attributes = attributes' := hschema
  have hpool := Tables.pool_ok.2 ht
  have hpool' := Tables.pool_ok.2 hu
  constructor <;> intros
  · rw [h.get, h'.get, Tables.look, Tables.look, hpool, hpool']
    rfl
  · rw [h.getSlots, h'.getSlots, Tables.look, Tables.look, hpool, hpool']
    rfl
  · rw [h.listLength, h'.listLength, Tables.look, Tables.look, hpool, hpool']
    rfl
  · rw [h.getList, h'.getList, Tables.look, Tables.look, hpool, hpool']
    rfl

/-! ## One undoes the other -/

theorem Models.captured (h : s.Models ts) (ht : ts[id]? = some t) :
    ∃ image, s.capture id = .ok image ∧ image.Shows t := by
  have hcapture := h.capture id
  rw [Tables.pool_ok.2 ht] at hcapture
  revert hcapture
  generalize s.capture id = out
  intro hcapture
  cases hcapture with
  | ok hp => exact ⟨_, rfl, hp⟩

/-- What was restored is captured again. -/
theorem Models.capture_eq (h : s.Models ts) (ht : ts[id]? = some t) (hp : image.Shows t) :
    s.capture id = .ok image := by
  obtain ⟨image', hcapture, hp'⟩ := h.captured ht
  rw [hcapture, hp.unique hp']

/-- A pool is captured as an image that passes the check for it, and that image makes every pool of
the same schema and count read as the captured one does. Any image is accepted if and only if it
passes the check, is captured again as it was given, and leaves everything as it was if it is
refused. -/
theorem Reachable.capture_restore_inverse {schema : Schema} {n : Nat} (h : s.Reachable)
    (hpool : s.shape? id = some (schema, n)) :
    (∃ image, s.capture id = .ok image ∧ image.check schema n = .ok () ∧
      ∀ s' id' schema', s'.Reachable → s'.shape? id' = some (schema', n) → schema'.Same schema →
        (restore id' image s').result = .ok () ∧
          (restore id' image s').state.ReadsAlike id' s id) ∧
    ∀ image, (restore id image s).result = image.check schema n ∧
      (image.check schema n = .ok () → (restore id image s).state.capture id = .ok image) ∧
      ∀ e, image.check schema n = .error e → (restore id image s).state = s := by
  obtain ⟨ts, hts⟩ := h.models
  rw [hts.shape?_eq] at hpool
  obtain ⟨t, ht, hshape⟩ := Option.map_eq_some_iff.1 hpool
  obtain ⟨rfl, rfl⟩ := Prod.mk.inj hshape
  refine ⟨?_, ?_⟩
  · obtain ⟨image, hcapture, hshows⟩ := hts.captured ht
    refine ⟨image, hcapture, hshows.check, ?_⟩
    intro s' id' schema' h' hpool' hsame
    obtain ⟨us, hus⟩ := h'.models
    rw [hus.shape?_eq] at hpool'
    obtain ⟨u, hu, hshape'⟩ := Option.map_eq_some_iff.1 hpool'
    obtain ⟨rfl, hcount⟩ := Prod.mk.inj hshape'
    obtain ⟨hres, hst, -⟩ := hus.restored hu image
    have hcheck : image.check u.schema u.count = .ok () := by
      rw [hsame.check_eq, hcount]
      exact hshows.check
    refine ⟨hres.trans hcheck, ?_⟩
    have hlt := (List.getElem?_eq_some_iff.1 hu).1
    have hbounded := (hts.sound t (List.mem_of_getElem? ht)).outside
    have hcells : (Table.ofImage t.schema t.count image).cells = t.cells :=
      congrArg Table.cells (hshows.ofImage_eq hbounded)
    exact (hst hcheck).readsAlike hts (List.getElem?_set_self hlt) ht hsame hcount hcells
  · intro image
    obtain ⟨hres, hst, hleft⟩ := hts.restored ht image
    have hlt := (List.getElem?_eq_some_iff.1 ht).1
    refine ⟨hres, fun hcheck => ?_, hleft⟩
    exact (hst hcheck).capture_eq (List.getElem?_set_self hlt) (PoolImage.shows_ofImage hcheck)

/-- A written pool of two instances is captured under one strategy and restored under the other over
another list; its image is refused where it is said to be of three. -/
theorem capture_restore_inverse_moved : ∃ (s s' : Store) (image : PoolImage), s.kind = .dense ∧
    s'.kind = .lite ∧ s'.getList ⟨0, 1, 1⟩ = .ok [.int ⟨true, .two⟩ 9] ∧
    s.capture 0 = .ok image ∧ (restore 0 image s').result = .ok () ∧
    (restore 0 image s').state.getSlots ⟨0, 1, 0⟩ =
      .ok [.int ⟨true, .one⟩ 0, .int ⟨true, .one⟩ 7] ∧
    (restore 0 image s').state.getList ⟨0, 1, 1⟩ = .ok [] ∧
    (restore 0 { image with count := 3 } s').result =
      .error (.imageMismatch (.named "cell") (.instances 3 2)) ∧
    (restore 0 { image with count := 3 } s').state = s' := by
  let schema : Schema :=
    ⟨0, "cell", [⟨0, "x", .int8, 2, false, false⟩, ⟨1, "log", .int16, 1, true, true⟩]⟩
  have hschema : schema.Declared :=
    .ofSpecs (show Schema.ofSpecs "cell"
      [⟨"x", .int8, 2, false, false⟩, ⟨"log", .int16, 1, true, true⟩] = .ok schema by rfl)
  -- whichever of the two shapes the attribute has, one of the writes fails
  have hcalls (c : Coord) (v : Value) (call : Call)
      (hcall : call ∈ [.allocate schema 2, .set c 1 v, .append c v]) : call.Declared := by
    simp only [List.mem_cons, List.not_mem_nil, or_false] at hcall
    rcases hcall with rfl | rfl | rfl
    · exact hschema
    · trivial
    · trivial
  have hs : Reachable _ := ⟨.dense, _, hcalls ⟨0, 1, 0⟩ (.int ⟨true, .one⟩ 7), rfl⟩
  have hs' : Reachable _ := ⟨.lite, _, hcalls ⟨0, 1, 1⟩ (.int ⟨true, .two⟩ 9), rfl⟩
  obtain ⟨⟨image, hcapture, -, hrestore⟩, -⟩ :=
    hs.capture_restore_inverse (show shape? _ 0 = some (schema, 2) from rfl)
  obtain ⟨hok, hreads⟩ := hrestore _ 0 schema hs' rfl ⟨rfl, rfl⟩
  obtain ⟨-, hrefused⟩ := hs'.capture_restore_inverse (show shape? _ 0 = some (schema, 2) from rfl)
  obtain ⟨hresult, -, hleft⟩ := hrefused { image with count := 3 }
  have hcheck : ({ image with count := 3 } : PoolImage).check schema 2 =
      .error (.imageMismatch (.named "cell") (.instances 3 2)) := rfl
  exact ⟨_, _, image, rfl, rfl, rfl, hcapture, hok, (hreads.getSlots 1 0).trans rfl,
    (hreads.getList 1 1).trans rfl, hresult.trans hcheck, hleft _ hcheck⟩

end Store

end NodeStore
