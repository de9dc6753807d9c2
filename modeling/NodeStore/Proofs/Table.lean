import NodeStore.Proofs.Image
import NodeStore.Proofs.Schema

/-!
# Tables

A `Table` is what a pool means: for each instance and each attribute a list of values. Reading and
writing a table are the checks of an access followed by a look at one cell or a change of it, so
that a write is seen at its own cell (`Table.cell_put_self`) and nowhere else
(`Table.cell_put_ne`).

`Table.Sound` says what every table of a pool keeps: a fixed attribute has its slots, every value is
of the declared type, and there is nothing beyond the instances and attributes. An image shows a
table (`PoolImage.Shows`) if it passes the check and reads as the table does; there is no more than
one such image (`PoolImage.Shows.unique`), and no more than one such table
(`PoolImage.Shows.ofImage_eq`).
-/

namespace NodeStore

/-- The values of a pool, by instance and attribute. -/
structure Table where
  schema : Schema
  count : Nat
  cells : Nat → AttrId → List Value

namespace Table

/-- The values at a coordinate. -/
def cell (t : Table) (c : Coord) : List Value := t.cells c.index c.attr

/-- The table with other values at a coordinate. -/
def put (t : Table) (c : Coord) (vs : List Value) : Table :=
  { t with cells := fun i a => if i = c.index ∧ a = c.attr then vs else t.cells i a }

/-- The first values of an attribute: zero in every slot, or no elements. -/
def initial (attr : Attribute) : List Value :=
  match attr.slotCount? with
  | some slots => List.replicate slots (.zero attr.type)
  | none => []

/-- The table of a pool that nothing was written to. -/
def blank (schema : Schema) (count : Nat) : Table where
  schema
  count
  cells i a := if i < count then (schema.attributes[a]?.map initial).getD [] else []

/-- The table with the first values again. -/
def reset (t : Table) : Table := blank t.schema t.count

/-- The table of the values of an image. -/
def ofImage (schema : Schema) (count : Nat) (image : PoolImage) : Table where
  schema
  count
  cells i a := (image.values? i a).getD []

/-- What writes leave alone. -/
def shape (t : Table) : Schema × Nat := (t.schema, t.count)

/-! ## Accesses -/

/-- The attribute at a coordinate, which must be in range and of the given shape. -/
def locate (t : Table) (c : Coord) (shape : Shape) : Except FrameError Attribute :=
  t.schema.locate t.count c shape

def get (t : Table) (c : Coord) (slot : Nat) : Except FrameError Value := do
  let attr ← t.locate c .fixed
  t.schema.requireSlot attr slot
  return (t.cell c)[slot]?.getD (.zero attr.type)

def set (t : Table) (c : Coord) (slot : Nat) (v : Value) : Except FrameError Table := do
  let attr ← t.locate c .fixed
  t.schema.requireSlot attr slot
  let v ← t.schema.convert attr v
  return t.put c ((t.cell c).set slot v)

def getSlots (t : Table) (c : Coord) : Except FrameError (List Value) := do
  let _ ← t.locate c .fixed
  return t.cell c

def setSlots (t : Table) (c : Coord) (vs : List Value) : Except FrameError Table := do
  let attr ← t.locate c .fixed
  t.schema.requireSlotCount attr vs.length
  return t.put c (← t.schema.convertAll attr vs)

def listLength (t : Table) (c : Coord) : Except FrameError Nat := do
  let _ ← t.locate c .list
  return (t.cell c).length

def getList (t : Table) (c : Coord) : Except FrameError (List Value) := do
  let _ ← t.locate c .list
  return t.cell c

def append (t : Table) (c : Coord) (v : Value) : Except FrameError Table := do
  let attr ← t.locate c .list
  return t.put c (t.cell c ++ [← t.schema.convert attr v])

def setList (t : Table) (c : Coord) (vs : List Value) : Except FrameError Table := do
  let attr ← t.locate c .list
  return t.put c (← t.schema.convertAll attr vs)

/-- The table with the values of an image. -/
def restore (t : Table) (image : PoolImage) : Except FrameError Table := do
  image.check t.schema t.count
  return ofImage t.schema t.count image

/-- Bytes of the values of one attribute. -/
def columnMemory (t : Table) (attr : Attribute) (a : AttrId) : Nat :=
  ((List.range t.count).map fun i => (t.cells i a).length * attr.type.width).sum

/-- Bytes of the values at their declared widths. -/
def memory (t : Table) : Nat :=
  (t.schema.attributes.zipIdx.map fun (attr, a) => t.columnMemory attr a).sum

/-! ## Cells -/

variable {t : Table} {c c' : Coord} {vs : List Value}

@[simp] theorem schema_put (t : Table) (c : Coord) (vs : List Value) :
    (t.put c vs).schema = t.schema := rfl

@[simp] theorem locate_put (t : Table) (c c' : Coord) (vs : List Value) (shape : Shape) :
    (t.put c vs).locate c' shape = t.locate c' shape := rfl

@[simp] theorem cell_put_self (t : Table) (c : Coord) (vs : List Value) :
    (t.put c vs).cell c = vs := by simp [put, cell]

theorem cell_put_ne (vs : List Value) (h : ¬ (c'.index = c.index ∧ c'.attr = c.attr)) :
    (t.put c vs).cell c' = t.cell c' := by simp [put, cell, h]

/-! ## Writes that succeed -/

theorem set_ok {slot : Nat} {v : Value} {u : Table} : t.set c slot v = .ok u ↔
    ∃ attr w, t.locate c .fixed = .ok attr ∧ slot < attr.slotCount?.getD 0 ∧
      v.convert? attr.type = some w ∧ u = t.put c ((t.cell c).set slot w) := by
  unfold set
  simp only [Except.bind_ok, Schema.convert_ok]
  constructor
  · rintro ⟨attr, ha, _, hslot, w, hw, hu⟩
    cases hu
    exact ⟨attr, w, ha, Schema.requireSlot_ok.1 hslot, hw, rfl⟩
  · rintro ⟨attr, w, ha, hslot, hw, rfl⟩
    exact ⟨attr, ha, (), Schema.requireSlot_ok.2 hslot, w, hw, rfl⟩

theorem setSlots_ok {u : Table} : t.setSlots c vs = .ok u ↔
    ∃ attr ws, t.locate c .fixed = .ok attr ∧ vs.length = attr.slotCount?.getD 0 ∧
      t.schema.convertAll attr vs = .ok ws ∧ u = t.put c ws := by
  unfold setSlots
  simp only [Except.bind_ok]
  constructor
  · rintro ⟨attr, ha, _, hn, ws, hws, hu⟩
    cases hu
    exact ⟨attr, ws, ha, Schema.requireSlotCount_ok.1 hn, hws, rfl⟩
  · rintro ⟨attr, ws, ha, hn, hws, rfl⟩
    exact ⟨attr, ha, (), Schema.requireSlotCount_ok.2 hn, ws, hws, rfl⟩

theorem append_ok {v : Value} {u : Table} : t.append c v = .ok u ↔
    ∃ attr w, t.locate c .list = .ok attr ∧ v.convert? attr.type = some w ∧
      u = t.put c (t.cell c ++ [w]) := by
  unfold append
  simp only [Except.bind_ok, Schema.convert_ok]
  constructor
  · rintro ⟨attr, ha, w, hw, hu⟩
    cases hu
    exact ⟨attr, w, ha, hw, rfl⟩
  · rintro ⟨attr, w, ha, hw, rfl⟩
    exact ⟨attr, ha, w, hw, rfl⟩

theorem setList_ok {u : Table} : t.setList c vs = .ok u ↔
    ∃ attr ws, t.locate c .list = .ok attr ∧ t.schema.convertAll attr vs = .ok ws ∧
      u = t.put c ws := by
  unfold setList
  simp only [Except.bind_ok]
  constructor
  · rintro ⟨attr, ha, ws, hws, hu⟩
    cases hu
    exact ⟨attr, ws, ha, hws, rfl⟩
  · rintro ⟨attr, ws, ha, hws, rfl⟩
    exact ⟨attr, ha, ws, hws, rfl⟩

/-! ## Soundness -/

/-- There is nothing beyond the instances and attributes. -/
def Bounded (t : Table) : Prop := ∀ i a, ¬ (i < t.count ∧ a < t.schema.size) → t.cells i a = []

theorem Bounded.ext {u : Table} (ht : t.Bounded) (hu : u.Bounded) (hs : t.schema = u.schema)
    (hn : t.count = u.count)
    (h : ∀ i < u.count, ∀ a < u.schema.size, t.cells i a = u.cells i a) : t = u := by
  obtain ⟨schema, n, cells⟩ := t
  obtain ⟨schema', n', cells'⟩ := u
  obtain rfl : schema = schema' := hs
  obtain rfl : n = n' := hn
  have hcells : cells = cells' := by
    funext i a
    by_cases hia : i < n ∧ a < schema.size
    · exact h i hia.1 a hia.2
    · rw [show cells i a = [] from ht i a hia, show cells' i a = [] from hu i a hia]
  rw [hcells]

theorem blank_bounded (schema : Schema) (n : Nat) : (blank schema n).Bounded := by
  intro i a hia
  by_cases hi : i < n
  · have ha : schema.attributes.length ≤ a := Nat.le_of_not_lt fun ha => hia ⟨hi, ha⟩
    simp [blank, List.getElem?_eq_none ha]
  · simp [blank, hi]

theorem cells_blank {schema : Schema} {n i a : Nat} {attr : Attribute} (hi : i < n)
    (ha : schema.attributes[a]? = some attr) : (blank schema n).cells i a = initial attr := by
  simp [blank, hi, ha]

theorem cells_ofImage {schema : Schema} {n i a : Nat} {image : PoolImage}
    (h : image.values? i a = some vs) : (ofImage schema n image).cells i a = vs := by
  simp [ofImage, h]

/-- What the table of a pool keeps. -/
structure Sound (t : Table) : Prop where
  schema : t.schema.WellFormed
  slots : ∀ i a attr n, i < t.count → t.schema.attributes[a]? = some attr →
    attr.slotCount? = some n → (t.cells i a).length = n
  typed : ∀ i a attr, t.schema.attributes[a]? = some attr → ∀ v ∈ t.cells i a, v.type = attr.type
  outside : t.Bounded

/-- A fixed attribute has as many values as it has slots. -/
theorem Sound.length_cell {attr : Attribute} (h : t.Sound)
    (hlocate : t.locate c .fixed = .ok attr) : (t.cell c).length = attr.slotCount?.getD 0 := by
  obtain ⟨hattr, hindex, hfixed⟩ := Schema.locate_ok.1 hlocate
  have hslots : attr.slotCount? = some attr.slots :=
    Attribute.slotCount?_eq_some.2 ⟨Attribute.shape_eq_fixed.1 hfixed, rfl⟩
  rw [hslots]
  exact h.slots _ _ _ _ hindex hattr hslots

end Table

/-! ## Images of tables -/

/-- The image passes the check and reads as the table does. -/
structure PoolImage.Shows (p : PoolImage) (t : Table) : Prop where
  check : p.check t.schema t.count = .ok ()
  values : ∀ i < t.count, ∀ a < t.schema.size, p.values? i a = some (t.cells i a)

namespace PoolImage

variable {p q : PoolImage} {t : Table}

theorem Shows.unique (hp : p.Shows t) (hq : q.Shows t) : p = q :=
  ext_of_check hp.check hq.check fun i hi a ha => by rw [hp.values i hi a ha, hq.values i hi a ha]

theorem bounded_of_check {schema : Schema} {n : Nat} (h : p.check schema n = .ok ()) :
    (Table.ofImage schema n p).Bounded := by
  intro i a hia
  simp [Table.ofImage, values?_eq_none h hia]

/-- An image that passes the check shows the table of its values. -/
theorem shows_ofImage {schema : Schema} {n : Nat} (h : p.check schema n = .ok ()) :
    p.Shows (.ofImage schema n p) where
  check := h
  values i hi a ha := by
    obtain ⟨c, -, -, hvalues⟩ := values?_of_check h hi (List.getElem?_eq_getElem ha)
    rw [hvalues, Table.cells_ofImage hvalues]

theorem Shows.ofImage_eq (hp : p.Shows t) (ht : t.Bounded) :
    Table.ofImage t.schema t.count p = t :=
  (bounded_of_check hp.check).ext ht rfl rfl fun i hi a ha =>
    Table.cells_ofImage (hp.values i hi a ha)

end PoolImage

theorem Table.restore_of_check {t : Table} {p : PoolImage} (h : p.check t.schema t.count = .ok ()) :
    t.restore p = .ok (.ofImage t.schema t.count p) := by
  rw [Table.restore, h]
  rfl

end NodeStore
