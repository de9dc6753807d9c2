import Mathlib.Logic.Function.Basic
import NodeStore.Proofs.Frame.Typed

/-!
# Programs that change the contents of a frame

`Frame.Has`: the frame has a shape, seals and contents, that is, the values of each attribute of
each instance. `Frame.Turns x φ`: from any such frame the action `x` ends well, and it makes `φ s`
of the contents `s`; `Frame.TurnsRow id i x ψ` says so of an action that stays with one instance.
There is one rule for each way to make an action, and none of them asks what the contents are:
whether a write fits is a matter of the attribute and the values to be written (`Access.Fits`).

* `Frame.TurnsRow.apply`: a write that fits.
* `Frame.Turns.forM`: a loop over instances.
* `Frame.Has.get`, `Frame.Has.getList`: what is read of the contents.
-/

namespace NodeStore

namespace Access

/-- A slot, a list or one more element is written with values of the attribute's type, and the
attribute has a place for them. -/
def Fits (attr : Attribute) : Access → Prop
  | .set slot v => attr.isList = false ∧ slot < attr.slots ∧ v.type = attr.type
  | .append v => attr.isList = true ∧ v.type = attr.type
  | .setList vs => attr.isList = true ∧ ∀ v ∈ vs, v.type = attr.type
  | .get _ | .getSlots | .setSlots _ | .setSlotsAt .. | .getList | .listLength => False

/-- What a write that fits makes of the values. -/
def make (old : List Value) : Access → List Value
  | .set slot v => old.set slot v
  | .append v => old ++ [v]
  | .setList vs => vs
  | .get _ | .getSlots | .setSlots _ | .setSlotsAt .. | .getList | .listLength => old

end Access

namespace Frame

open NodeStore.Action

/-! ## Contents -/

/-- The values of an instance, by attribute. -/
abbrev Row := AttrId → List Value

/-- The values of a frame, by schema and instance. -/
abbrev Contents := SchemaId → Nat → Row

/-- The row with what a write makes of the values of one attribute. -/
def Row.write (a : AttrId) (w : Access) (row : Row) : Row :=
  Function.update row a (w.make (row a))

@[simp] theorem Row.write_self (a : AttrId) (w : Access) (row : Row) :
    Row.write a w row a = w.make (row a) := Function.update_self ..

@[simp] theorem Row.write_ne {a b : AttrId} (h : b ≠ a) (w : Access) (row : Row) :
    Row.write a w row b = row b := Function.update_of_ne h ..

namespace Contents

/-- The contents with one row changed. -/
def onRow (id : SchemaId) (i : Nat) (ψ : Row → Row) (s : Contents) : Contents :=
  Function.update s id (Function.update (s id) i (ψ (s id i)))

/-- The contents with rows of one schema changed, each in a way of its own. -/
def onRows (id : SchemaId) (l : List Nat) (ψ : Nat → Row → Row) (s : Contents) : Contents :=
  Function.update s id fun i => if i ∈ l then ψ i (s id i) else s id i

variable {id id' : SchemaId} {i j : Nat} {s : Contents}

section
variable {ψ ψ' : Row → Row}

@[simp] theorem onRow_self : onRow id i ψ s id i = ψ (s id i) := by
  simp [onRow]

theorem onRow_of_ne (h : j ≠ i) : onRow id i ψ s id j = s id j := by
  simp [onRow, h]

theorem onRow_of_schema_ne (h : id' ≠ id) : onRow id i ψ s id' = s id' :=
  Function.update_of_ne h ..

@[simp] theorem onRow_id : onRow id i (fun row => row) s = s := by
  simp [onRow]

theorem onRow_onRow : onRow id i ψ' (onRow id i ψ s) = onRow id i (ψ' ∘ ψ) s := by
  simp [onRow]

end

variable {l : List Nat} {ψ : Nat → Row → Row}

theorem onRows_mem (h : i ∈ l) : onRows id l ψ s id i = ψ i (s id i) := by
  simp [onRows, h]

theorem onRows_not_mem (h : i ∉ l) : onRows id l ψ s id i = s id i := by
  simp [onRows, h]

theorem onRows_of_schema_ne (h : id' ≠ id) : onRows id l ψ s id' = s id' :=
  Function.update_of_ne h ..

@[simp] theorem onRows_nil : onRows id [] ψ s = s := by
  simp [onRows]

/-- Rows are changed one after another. -/
theorem onRows_cons (h : i ∉ l) :
    onRows id l ψ (onRow id i (ψ i) s) = onRows id (i :: l) ψ s := by
  funext id' j
  by_cases hid : id' = id
  · subst hid
    by_cases hji : j = i
    · subst hji
      rw [onRows_not_mem h, onRow_self, onRows_mem List.mem_cons_self]
    · by_cases hj : j ∈ l
      · rw [onRows_mem hj, onRow_of_ne hji, onRows_mem (List.mem_cons_of_mem _ hj)]
      · rw [onRows_not_mem hj, onRow_of_ne hji, onRows_not_mem (by simp [hji, hj])]
  · rw [onRows_of_schema_ne hid, onRow_of_schema_ne hid, onRows_of_schema_ne hid]

end Contents

variable {f : Frame} {shape : List (Schema × Nat)} {seals : List InstanceSet} {s : Contents}
  {schema : Schema} {attr : Attribute} {id : SchemaId} {a : AttrId} {n i : Nat} {w : Access}
  {schemaName attrName : String} {c : Coord} {ts : List Table} {t : Table}

/-- The frame is sound, takes snapshots, and has these seals and contents. -/
structure Has (f : Frame) (shape : List (Schema × Nat)) (seals : List InstanceSet)
    (s : Contents) : Prop where
  sound : f.Sound shape
  sealed : f.seals = seals
  ring : f.ring.isSome = true
  rows : ∀ ts, f.store.Models ts → ∀ (id : Nat) t, ts[id]? = some t → ∀ i < t.count,
    t.cells i = s id i

/-- The schema at a position has it for a number. -/
theorem Sound.schema_at (h : f.Sound shape) (hp : shape[id]? = some (schema, n)) :
    f.schemas[id]? = some schema ∧ schema.id = id := by
  have hs : f.schemas[id]? = some schema := by rw [h.schemas, List.getElem?_map, hp]; rfl
  exact ⟨hs, h.numbered id schema hs⟩

/-- Every sound frame has some contents. -/
theorem Sound.has (h : f.Sound shape) (hring : f.ring.isSome = true) :
    ∃ s, f.Has shape f.seals s := by
  obtain ⟨ts, hts, -⟩ := h.shaped
  refine ⟨fun id i => (ts[id]?.map (·.cells i)).getD fun _ => [], h, rfl, hring, ?_⟩
  intro ts' hts' id t ht i hi
  obtain rfl := hts'.unique hts
  simp [ht]

/-- Two names lead to an attribute of a schema, of which there are `n` instances. -/
def Names (shape : List (Schema × Nat)) (schemaName attrName : String) (id : SchemaId)
    (a : AttrId) (attr : Attribute) (n : Nat) : Prop :=
  ∃ schema, shape[id]? = some (schema, n) ∧ schema.name = schemaName ∧
    schema.attributes[a]? = some attr ∧ attr.name = attrName

namespace Has

theorem instanceCount (h : f.Has shape seals s) (hp : shape[id]? = some (schema, n)) :
    f.instanceCount schema.name = .ok n := by
  obtain ⟨hs, hid⟩ := h.sound.schema_at hp
  rw [Frame.instanceCount, h.sound.schema_ok (List.mem_of_getElem? hs), Except.ok_bind, hid,
    h.sound.count_eq, hp]
  rfl

/-- Names lead to a cell of a table. -/
theorem cell (h : f.Has shape seals s) (ha : Names shape schemaName attrName id a attr n)
    (hi : i < n) : ∃ ts t, f.coord schemaName i attrName = .ok ⟨id, i, a⟩ ∧
      f.schemaAt? id = some t.schema ∧ f.store.Models ts ∧ ts[id]? = some t ∧
      t.schema.attributes[a]? = some attr ∧ i < t.count := by
  obtain ⟨schema, hp, rfl, hattr, rfl⟩ := ha
  obtain ⟨ts, hts, hshape⟩ := h.sound.shaped
  obtain ⟨hs, hid⟩ := h.sound.schema_at hp
  obtain ⟨t, ht, htable, rfl, hcount⟩ := h.sound.table hts hshape (List.mem_of_getElem? hs)
  rw [hid] at ht hcount
  have hmem := List.mem_of_getElem? hattr
  have hcoord := h.sound.coord_ok (List.mem_of_getElem? hs) hmem i
  rw [hid, htable.schema.numbered a attr hattr] at hcoord
  refine ⟨ts, t, hcoord, hs, hts, ht, hattr, ?_⟩
  rw [hcount, h.sound.count_eq, hp]
  exact hi

/-- A fixed attribute has a value for each slot. -/
theorem length_slots (h : f.Has shape seals s) (ha : Names shape schemaName attrName id a attr n)
    (hfixed : attr.isList = false) (hi : i < n) : (s id i a).length = attr.slots := by
  obtain ⟨ts, t, -, -, hts, ht, hattr, hindex⟩ := h.cell ha hi
  have hsound := hts.sound t (List.mem_of_getElem? ht)
  rw [← h.rows ts hts _ t ht i hindex]
  exact hsound.slots i a attr _ hindex hattr (Attribute.slotCount?_eq_some.2 ⟨hfixed, rfl⟩)

/-- What is read of a slot. -/
theorem get (h : f.Has shape seals s) (ha : Names shape schemaName attrName id a attr n)
    (hfixed : attr.isList = false) (hi : i < n) {slot : Nat} {v : Value}
    (hv : (s id i a)[slot]? = some v) :
    (perform (.access schemaName i attrName (.get slot)) f).result = .ok (.value v) := by
  obtain ⟨ts, t, hcoord, -, hts, ht, hattr, hindex⟩ := h.cell ha hi
  have hreads := reads_of_models (c := ⟨id, i, a⟩) hts ht hattr hindex
  rw [perform_access hcoord, hreads.get hfixed, Table.cell, h.rows ts hts _ t ht i hindex, hv]

/-- What is read of a list. -/
theorem getList (h : f.Has shape seals s) (ha : Names shape schemaName attrName id a attr n)
    (hlist : attr.isList = true) (hi : i < n) :
    (perform (.access schemaName i attrName .getList) f).result = .ok (.values (s id i a)) := by
  obtain ⟨ts, t, hcoord, -, hts, ht, hattr, hindex⟩ := h.cell ha hi
  have hreads := reads_of_models (c := ⟨id, i, a⟩) hts ht hattr hindex
  rw [perform_access hcoord, hreads.getList hlist, Table.cell, h.rows ts hts _ t ht i hindex]

end Has

/-! ## Writes that fit -/

/-- A write that the table of its schema takes. -/
theorem write_taken {y : Action Store Unit} {φ : Table → Except FrameError Table} {u : Table}
    (hy : Action.Respects Store.Models Eq y (Action.update (Tables.change φ c.schema)))
    (hts : f.store.Models ts) (ht : ts[c.schema]? = some t) (hpermit : f.permitWrite c = .ok ())
    (hu : φ t = .ok u) :
    ((write c y >>= fun _ => pure Answer.done) f).result = .ok .done ∧ ∃ store,
      ((write c y >>= fun _ => pure Answer.done) f).state = { f with store } ∧
      store.Models (ts.set c.schema u) := by
  obtain ⟨hresult, hstate, hmodels⟩ := write_apply hy hts ht hpermit
  rw [hu] at hresult hmodels
  exact ⟨hresult, _, hstate, hmodels⟩

/-- A write that fits is made where it is permitted. -/
theorem perform_of_fits (h : w.Fits attr) (hts : f.store.Models ts)
    (ht : ts[c.schema]? = some t) (hattr : t.schema.attributes[c.attr]? = some attr)
    (hindex : c.index < t.count) (hpermit : f.permitWrite c = .ok ()) :
    (w.perform c f).result = .ok .done ∧ ∃ store, (w.perform c f).state = { f with store } ∧
      store.Models (ts.set c.schema (t.put c (w.make (t.cell c)))) := by
  have hlocate : t.locate c attr.shape = .ok attr := Schema.locate_ok.2 ⟨hattr, hindex, rfl⟩
  have hself {v : Value} (hv : v.type = attr.type) : v.convert? attr.type = some v :=
    hv ▸ v.convert?_self
  cases w with
  | set slot v =>
    obtain ⟨hfixed, hslot, hv⟩ := h
    have hshape := Attribute.shape_eq_fixed.2 hfixed
    rw [hshape] at hlocate
    rw [← Attribute.slotCount?_getD hshape] at hslot
    exact write_taken (Store.set_models c slot v) hts ht hpermit
      (Table.set_ok.2 ⟨attr, v, hlocate, hslot, hself hv, rfl⟩)
  | append v =>
    obtain ⟨hlist, hv⟩ := h
    rw [Attribute.shape_eq_list.2 hlist] at hlocate
    exact write_taken (Store.append_models c v) hts ht hpermit
      (Table.append_ok.2 ⟨attr, v, hlocate, hself hv, rfl⟩)
  | setList vs =>
    obtain ⟨hlist, hvs⟩ := h
    rw [Attribute.shape_eq_list.2 hlist] at hlocate
    have hall : List.Forall₂ (fun v w : Value => v.convert? attr.type = some w) vs vs :=
      List.forall₂_same.2 fun v hv => hself (hvs v hv)
    exact write_taken (Store.setList_models c vs) hts ht hpermit
      (Table.setList_ok.2 ⟨attr, vs, hlocate, Schema.convertAll_ok.2 hall, rfl⟩)
  | _ => exact h.elim

/-- The rows of a table of which one attribute of one row was written. -/
theorem cells_put_write (t : Table) (c : Coord) (w : Access) (i : Nat) :
    (t.put c (w.make (t.cell c))).cells i =
      if i = c.index then Row.write c.attr w (t.cells i) else t.cells i := by
  funext a
  by_cases hi : i = c.index
  · subst hi
    by_cases ha : a = c.attr
    · simp [Table.put, Table.cell, ha]
    · simp [Table.put, ha]
  · simp [Table.put, hi]

/-- A write that fits changes the row it is for. -/
theorem Has.apply (h : f.Has shape seals s) (ha : Names shape schemaName attrName id a attr n)
    (hi : i < n) (hw : w.Fits attr)
    (hopen : attr.isConst = false ∨ f.isSealedAt id i = false) :
    (apply schemaName i attrName w f).result = .ok () ∧
      (apply schemaName i attrName w f).state.Has shape seals
        (Contents.onRow id i (Row.write a w) s) := by
  obtain ⟨ts, t, hcoord, hschema, hts, ht, hattr, hindex⟩ := h.cell ha hi
  have hpermit : f.permitWrite ⟨id, i, a⟩ = .ok () := by
    rcases hopen with hconst | hunsealed
    · simp [permitWrite, hschema, Schema.attributeAt?, hattr, hconst]
    · simp [permitWrite, hunsealed]
  obtain ⟨hresult, store, hstate, hmodels⟩ := perform_of_fits hw hts (c := ⟨id, i, a⟩) ht hattr
    hindex hpermit
  have hsound := access_sound ⟨id, i, a⟩ w f h.sound
  rw [Frame.apply, result_bind_pure, state_bind_pure, perform_access hcoord, hresult]
  rw [hstate] at hsound ⊢
  refine ⟨rfl, hsound, h.sealed, h.ring, fun ts' hts' id' u hu j hj => ?_⟩
  obtain rfl := hts'.unique hmodels
  by_cases hid : id' = id
  · subst hid
    rw [List.getElem?_set_self (List.getElem?_eq_some_iff.1 ht).1] at hu
    cases hu
    rw [cells_put_write, h.rows ts hts _ t ht j hj]
    by_cases hji : j = i
    · subst hji
      exact (if_pos rfl).trans Contents.onRow_self.symm
    · exact (if_neg hji).trans (Contents.onRow_of_ne hji).symm
  · rw [List.getElem?_set_ne (Ne.symm hid)] at hu
    rw [h.rows ts hts id' u hu j hj]
    exact (congrFun (Contents.onRow_of_schema_ne hid) j).symm

/-- Captures leave the contents. -/
theorem Has.capture (h : f.Has shape seals s) (tick : Tick) :
    (capture tick f).result = .ok () ∧ (capture tick f).state.Has shape seals s := by
  obtain ⟨r, hr⟩ := Option.isSome_iff_exists.1 h.ring
  obtain ⟨pools, -, himages, -⟩ := h.sound.images_ok
  obtain ⟨hresult, hstate⟩ : _ ∧ (perform (.capture tick) f).state = _ :=
    capture_apply hr himages
  rw [perform, state_bind_pure] at hstate
  obtain ⟨⟨⟩, hok, -⟩ := bind_ok.1 hresult
  have hsound := capture_sound tick f h.sound
  rw [hstate] at hsound ⊢
  exact ⟨hok, hsound, h.sealed, rfl, h.rows⟩

/-- Sealing leaves the contents. -/
theorem Has.sealAll (h : f.Has shape seals s) :
    (sealAll f).result = .ok () ∧ ∃ seals', (sealAll f).state.Has shape seals' s := by
  have hsound := perform_sound .sealAll f h.sound
  rw [perform, state_bind_pure] at hsound
  exact ⟨rfl, _, hsound, rfl, h.ring, h.rows⟩

/-! ## Programs -/

/-- From frames of the shape and seals the action ends well, and it makes `φ s` of contents `s`. -/
def Turns (shape : List (Schema × Nat)) (seals : List InstanceSet) (x : Action Frame Unit)
    (φ : Contents → Contents) : Prop :=
  ∀ f s, f.Has shape seals s → (x f).result = .ok () ∧ (x f).state.Has shape seals (φ s)

/-- The action stays with one instance, of which it makes `ψ row` of a row. -/
def TurnsRow (shape : List (Schema × Nat)) (seals : List InstanceSet) (id : SchemaId) (i : Nat)
    (x : Action Frame Unit) (ψ : Row → Row) : Prop :=
  Turns shape seals x (Contents.onRow id i ψ)

variable {x y : Action Frame Unit} {φ φ' : Contents → Contents} {ψ ψ' : Row → Row}

namespace Turns

theorem pure : Turns shape seals (pure ()) fun s => s := fun _ _ h => ⟨rfl, h⟩

theorem bind (hx : Turns shape seals x φ) (hy : Turns shape seals y φ') :
    Turns shape seals (x >>= fun _ => y) (φ' ∘ φ) := by
  intro f s h
  obtain ⟨hok, hafter⟩ := hx f s h
  obtain ⟨hresult, hstate⟩ := bind_of_ok (f := fun _ => y) hok
  rw [hresult, hstate]
  exact hy _ _ hafter

/-- Counting the instances of a schema first. -/
theorem count {g : Nat → Action Frame Unit} (hp : shape[id]? = some (schema, n))
    (hname : schema.name = schemaName) (hg : Turns shape seals (g n) φ) :
    Turns shape seals (Action.read (·.instanceCount schemaName) >>= g) φ := by
  intro f s h
  have hcount : (Action.read (·.instanceCount schemaName) f).result = .ok n :=
    hname ▸ h.instanceCount hp
  obtain ⟨hresult, hstate⟩ := bind_of_ok (f := g) hcount
  rw [hresult, hstate]
  exact hg f s h

theorem capture (tick : Tick) : Turns shape seals (capture tick) fun s => s :=
  fun _ _ h => h.capture tick

/-- A loop over instances, each of which is changed in a way of its own. -/
theorem forM {x : Nat → Action Frame Unit} {ψ : Nat → Row → Row} {l : List Nat} (hl : l.Nodup)
    (h : ∀ i ∈ l, TurnsRow shape seals id i (x i) (ψ i)) :
    Turns shape seals (l.forM x) (Contents.onRows id l ψ) := by
  induction l with
  | nil => exact fun f s hs => ⟨rfl, Contents.onRows_nil.symm ▸ hs⟩
  | cons i l ih =>
    obtain ⟨hi, hl⟩ := List.nodup_cons.1 hl
    have hrest := ih hl fun j hj => h j (List.mem_cons_of_mem _ hj)
    intro f s hs
    have hboth := bind (h i List.mem_cons_self) hrest f s hs
    rwa [Function.comp_apply, Contents.onRows_cons hi] at hboth

end Turns

namespace TurnsRow

theorem bind (hx : TurnsRow shape seals id i x ψ)
    (hy : TurnsRow shape seals id i y ψ') :
    TurnsRow shape seals id i (x >>= fun _ => y) (ψ' ∘ ψ) := by
  intro f s h
  have hboth := Turns.bind hx hy f s h
  rwa [Function.comp_apply, Contents.onRow_onRow] at hboth

protected theorem pure : TurnsRow shape seals id i (Pure.pure ()) fun row => row := by
  intro f s h
  rw [Contents.onRow_id]
  exact ⟨rfl, h⟩

theorem ite {p : Prop} [Decidable p] (hx : p → TurnsRow shape seals id i x ψ)
    (hy : ¬ p → TurnsRow shape seals id i y ψ') :
    TurnsRow shape seals id i (if p then x else y) (if p then ψ else ψ') := by
  by_cases hp : p
  · rw [if_pos hp, if_pos hp]
    exact hx hp
  · rw [if_neg hp, if_neg hp]
    exact hy hp

/-- A write that fits. -/
theorem apply (ha : Names shape schemaName attrName id a attr n) (hi : i < n) (hw : w.Fits attr)
    (hopen : attr.isConst = false ∨ (seals[id]?).any (·.contains i) = false) :
    TurnsRow shape seals id i (apply schemaName i attrName w) (Row.write a w) := by
  intro f s h
  refine h.apply ha hi hw ?_
  rwa [isSealedAt, h.sealed]

end TurnsRow

end Frame

end NodeStore
