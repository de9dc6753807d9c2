import Mathlib.Algebra.BigOperators.Ring.List
import NodeStore.Proofs.Ring
import NodeStore.Proofs.Table

/-!
# What values weigh

The bytes of a pool follow from its schema, its count and the lengths of its lists. Every instance
has the footprint of the schema and a list has its elements; an image has both once more, and the
offsets of its lists.

* `Table.Sound.memory_eq`: the bytes of a table.
* `PoolImage.Shows.memory_eq`, `Snapshot.memory_of_shows`: those of its image, and of all images.
* `Table.memory_put`: other values weigh the same if there are as many.
-/

namespace NodeStore

/-! ## Sums -/

/-- What only some elements add is a sum over those. -/
theorem sum_map_add_ite {α : Type} (l : List α) (p : α → Bool) (v w : α → Nat) :
    (l.map fun a => v a + if p a then w a else 0).sum =
      (l.map v).sum + ((l.filter p).map w).sum := by
  induction l with
  | nil => rfl
  | cons a l ih =>
    rw [List.map_cons, List.map_cons, List.sum_cons, List.sum_cons, ih, List.filter_cons]
    cases p a with
    | true =>
      rw [if_pos rfl, if_pos rfl, List.map_cons, List.sum_cons]
      omega
    | false =>
      simp only [Bool.false_eq_true, if_false]
      omega

/-- Replacing a snapshot adds its successor's part of a sum and takes its own. -/
theorem History.sum_replace {L : List Snapshot} {s x : Snapshot}
    (hL : (L.map Snapshot.tick).Nodup) (hx : find? L s.tick = some x) (w : Snapshot → Nat) :
    ((replace L s).map w).sum + w x = (L.map w).sum + w s := by
  induction L with
  | nil => cases hx
  | cons y L ih =>
    rw [List.map_cons, List.nodup_cons] at hL
    rw [replace, List.map_cons, List.map_cons, List.sum_cons, List.map_cons, List.sum_cons,
      ← replace]
    by_cases hy : y.tick = s.tick
    · obtain rfl : y = x := by simpa [find?, hy] using hx
      -- no other snapshot is of this tick
      have hrest : replace L s = L := by
        refine (List.map_congr_left fun z hz => if_neg fun htick => hL.1 ?_).trans (List.map_id' L)
        exact hy.trans htick.symm ▸ List.mem_map_of_mem hz
      rw [if_pos hy, hrest]
      omega
    · have hrest := ih hL.2 (by simpa [find?, hy] using hx)
      rw [if_neg hy]
      omega

/-! ## What declarations weigh -/

namespace Schema

/-- The list attributes. -/
def lists (s : Schema) : List Attribute := s.attributes.filter (·.isList)

/-- Bytes of the elements of the lists of `count` instances, given their lengths. -/
def listBytes (s : Schema) (count : Nat) (length : Nat → AttrId → Nat) : Nat :=
  (s.lists.map fun attr =>
    ((List.range count).map fun i => length i attr.id * attr.type.width).sum).sum

/-- Bytes of the offsets a copy has for the lists of `count` instances. -/
def offsetBytes (s : Schema) (count : Nat) : Nat := (s.lists.map fun _ => 8 * (count + 1)).sum

theorem mem_lists {s : Schema} {attr : Attribute} :
    attr ∈ s.lists ↔ attr ∈ s.attributes ∧ attr.isList = true := List.mem_filter

theorem listBytes_congr {s : Schema} {count : Nat} {length length' : Nat → AttrId → Nat}
    (h : ∀ i < count, ∀ attr ∈ s.lists, length i attr.id = length' i attr.id) :
    s.listBytes count length = s.listBytes count length' := by
  unfold listBytes
  congr 1
  refine List.map_congr_left fun attr hattr => congrArg List.sum ?_
  exact List.map_congr_left fun i hi => by rw [h i (List.mem_range.1 hi) attr hattr]

/-- Where attributes are numbered by position, the position can be had from the attribute. -/
theorem WellFormed.map_zipIdx {s : Schema} (h : s.WellFormed) {β : Type}
    (v : Attribute → AttrId → β) :
    (s.attributes.zipIdx.map fun p => v p.1 p.2) = s.attributes.map fun attr => v attr attr.id := by
  apply List.ext_getElem?
  intro a
  rw [List.getElem?_map, List.getElem?_zipIdx, List.getElem?_map]
  cases ha : s.attributes[a]? with
  | none => rfl
  | some attr => simp [h.numbered a attr ha]

end Schema

/-! ## What values weigh -/

namespace Table

variable {t : Table}

/-- Bytes of one attribute: fixed storage, and elements if it is a list. -/
theorem Sound.columnMemory_eq (h : t.Sound) {attr : Attribute} (ha : attr ∈ t.schema.attributes) :
    t.columnMemory attr attr.id = attr.footprint * t.count +
      if attr.isList then
        ((List.range t.count).map fun i => (t.cells i attr.id).length * attr.type.width).sum
      else 0 := by
  cases hlist : attr.isList with
  | true =>
    rw [Attribute.footprint, Attribute.slotCount?_eq_none.2 hlist, if_pos rfl, Nat.zero_mul,
      Nat.zero_add]
    rfl
  | false =>
    have hslots := Attribute.slotCount?_eq_some.2 ⟨hlist, rfl⟩
    have hlen : ∀ i ∈ List.range t.count,
        (t.cells i attr.id).length * attr.type.width = attr.slots * attr.type.width := by
      intro i hi
      rw [h.slots i attr.id attr attr.slots (List.mem_range.1 hi) (h.schema.mem ha) hslots]
    rw [Attribute.footprint, hslots, columnMemory, List.map_congr_left hlen]
    simp [Nat.mul_comm]

/-- The bytes of a table are those of its instances' footprints and of its lists. -/
theorem Sound.memory_eq (h : t.Sound) :
    t.memory = t.schema.footprint * t.count +
      t.schema.listBytes t.count fun i a => (t.cells i a).length := by
  rw [memory, h.schema.map_zipIdx t.columnMemory,
    List.map_congr_left fun attr ha => h.columnMemory_eq ha, sum_map_add_ite,
    List.sum_map_mul_right]
  rfl

/-- Other values, as many as before, weigh the same. -/
theorem memory_put {c : Coord} {vs : List Value} (hlen : vs.length = (t.cell c).length) :
    (t.put c vs).memory = t.memory := by
  have hcells (i : Nat) (a : AttrId) : ((t.put c vs).cells i a).length = (t.cells i a).length := by
    by_cases hia : i = c.index ∧ a = c.attr
    · obtain ⟨rfl, rfl⟩ := hia
      exact (congrArg List.length (cell_put_self t c vs)).trans hlen
    · simp [put, hia]
  simp only [memory, columnMemory, hcells]
  rfl

end Table

/-- A column weighs what its pieces weigh, and its offsets if it has any. -/
theorem ImageColumn.Holds.memory_eq {c : ImageColumn} {attr : Attribute} {n : Nat}
    (h : c.Holds attr n) :
    c.memory = ((List.range n).map fun i => (c.piece i).length * attr.type.width).sum +
      if attr.isList then 8 * (n + 1) else 0 := by
  have hdata : c.data.memory =
      ((List.range n).map fun i => (c.piece i).length * attr.type.width).sum := by
    rw [Column.memory, h.type, ← Column.length_values, h.cuts.values_eq, List.length_flatMap,
      List.sum_map_mul_right]
  rw [← hdata]
  cases c with
  | fixed slots data =>
    have hfixed := (Attribute.slotCount?_eq_some.1 (fits_fixed.1 h.fits).1).1
    rw [hfixed]
    rfl
  | list offsets data =>
    obtain ⟨hlist, hlen, -⟩ := fits_list.1 h.fits
    rw [Attribute.slotCount?_eq_none.1 hlist, if_pos rfl, memory, hlen, Nat.mul_comm]
    rfl

/-- An image weighs what its table does, and the offsets of its lists. -/
theorem PoolImage.Shows.memory_eq {p : PoolImage} {t : Table} (h : p.Shows t) (ht : t.Sound) :
    p.memory = t.memory + t.schema.offsetBytes t.count := by
  have hcolumns : p.columns.map ImageColumn.memory = t.schema.attributes.zipIdx.map fun q =>
      t.columnMemory q.1 q.2 + if q.1.isList then 8 * (t.count + 1) else 0 := by
    obtain ⟨-, hholds⟩ := check_ok.1 h.check
    apply List.ext_getElem?
    intro a
    rw [List.getElem?_map, List.getElem?_map, List.getElem?_zipIdx]
    cases ha : t.schema.attributes[a]? with
    | none =>
      have hcolumn : p.columns[a]? = none := by
        rw [List.getElem?_eq_none_iff, ← hholds.length_eq, ← List.getElem?_eq_none_iff]
        exact ha
      rw [hcolumn]
      rfl
    | some attr =>
      obtain ⟨c, hc, hholds⟩ := hholds.exists_right ha
      have hpieces : ∀ i ∈ List.range t.count,
          (c.piece i).length * attr.type.width = (t.cells i a).length * attr.type.width := by
        intro i hi
        have hi := List.mem_range.1 hi
        obtain ⟨c', hc', -, hvalues⟩ := values?_of_check h.check hi ha
        obtain rfl : c = c' := Option.some.inj (hc.symm.trans hc')
        rw [h.values i hi a (List.getElem?_eq_some_iff.1 ha).1] at hvalues
        rw [Option.some.inj hvalues]
      rw [hc, Option.map_some, hholds.memory_eq, List.map_congr_left hpieces]
      simp [Table.columnMemory]
  rw [PoolImage.memory, hcolumns, Table.memory,
    ht.schema.map_zipIdx fun attr a => t.columnMemory attr a + if attr.isList then _ else 0,
    ht.schema.map_zipIdx t.columnMemory, sum_map_add_ite]
  rfl

/-- A snapshot weighs what the tables of its images do, and the offsets. -/
theorem Snapshot.memory_of_shows {s : Snapshot} {ts : List Table}
    (h : List.Forall₂ PoolImage.Shows s.pools ts) (hsound : ∀ t ∈ ts, t.Sound) :
    s.memory =
      (ts.map Table.memory).sum + (ts.map fun t => t.schema.offsetBytes t.count).sum := by
  rw [memory, ← List.sum_map_add]
  congr 1
  generalize s.pools = pools at h
  induction h with
  | nil => rfl
  | cons hp _ ih =>
    obtain ⟨ht, htail⟩ := List.forall_mem_cons.1 hsound
    rw [List.map_cons, List.map_cons, hp.memory_eq ht, ih htail]

end NodeStore
