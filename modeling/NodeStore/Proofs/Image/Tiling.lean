import NodeStore.Proofs.Image

/-!
# Reading checked images

The check looks at a column as a whole, a reader works out the range of one instance. If the check
accepts, the ranges of the instances are a tiling of the data (`ImageColumn.Tiling`): the first
starts at zero, each starts where the one before it ends, and the last ends with the data.

* `ImageColumn.Cuts.tiling`: a column that is cut into pieces is tiled by them.
* `PoolImage.check_tiles`: so an accepted image is read in full, each value for one instance, and
  nothing is read beyond its instances and attributes.
-/

namespace NodeStore

namespace ImageColumn

variable {c : ImageColumn} {n i : Nat}

/-- The ranges of `n` instances lie between consecutive bounds, from the first value to the last;
`slices` are the values in them. -/
structure Tiling (c : ImageColumn) (n : Nat) (bounds : Nat → Nat) (slices : Nat → List Value) :
    Prop where
  first : bounds 0 = 0
  last : bounds n = c.data.size
  range : ∀ i < n, c.range? i = some (bounds i, bounds (i + 1))
  ordered : ∀ i < n, bounds i ≤ bounds (i + 1)
  inside : ∀ i < n, bounds (i + 1) ≤ c.data.size
  slice : ∀ i < n, c.data.range? (bounds i) (bounds (i + 1)) = some (slices i)
  whole : (List.range n).flatMap slices = c.data.values

/-- A column that is cut into pieces is tiled by them. -/
theorem Cuts.tiling (h : c.Cuts n) : c.Tiling n c.start c.piece where
  first := h.start_zero
  last := h.start_count
  range := h.range?
  ordered := h.start_succ
  inside _ hi := h.start_le_size hi
  slice _ hi := h.read hi
  whole := h.values_eq.symm

end ImageColumn

namespace PoolImage

variable {p : PoolImage} {schema : Schema} {n i a : Nat} {column : ImageColumn} {out : List Value}

theorem appendValues_of_some {vs : List Value} (h : p.values? i a = some vs) :
    p.appendValues i a out = (some vs.length, out ++ vs) := by
  simp [appendValues, h]

theorem appendValues_of_none (h : p.values? i a = none) : p.appendValues i a out = (none, out) := by
  simp [appendValues, h]

/-- The length is that of the piece, though no value is looked at. -/
theorem lengthOf?_of_cuts (hi : i < p.count) (hc : p.column? a = some column)
    (hcuts : column.Cuts p.count) : p.lengthOf? i a = some (column.piece i).length := by
  simp [lengthOf?, hi, hc, hcuts.range? i hi, hcuts.length_piece hi]

theorem lengthOf?_eq_none (h : p.check schema n = .ok ()) (hia : n ≤ i ∨ schema.size ≤ a) :
    p.lengthOf? i a = none := by
  obtain ⟨rfl, hcols⟩ := check_ok.1 h
  unfold lengthOf? column?
  rcases hia with hi | ha
  · rw [if_neg (Nat.not_lt.2 hi)]
  · have hlen : p.columns.length ≤ a := by
      rw [← hcols.length_eq]
      exact ha
    simp [List.getElem?_eq_none hlen]

/-- An image that passes the check is read in full and without overlap. The ranges of the instances
tile the data of every attribute. Reading appends the slice of the instance and tells its length,
which is that of the slots if the attribute is fixed. Beyond the instances and attributes nothing is
read. -/
theorem check_tiles (h : p.check schema n = .ok ()) :
    (∀ a attr, schema.attributes[a]? = some attr → ∃ column bounds slices,
      p.column? a = some column ∧ column.Tiling n bounds slices ∧
      ∀ i < n,
        (∀ out, p.appendValues i a out = (some (slices i).length, out ++ slices i)) ∧
        p.lengthOf? i a = some (slices i).length ∧
        ∀ slots, attr.slotCount? = some slots → (slices i).length = slots) ∧
    ∀ i a, n ≤ i ∨ schema.size ≤ a →
      (∀ out, p.appendValues i a out = (none, out)) ∧ p.lengthOf? i a = none := by
  obtain ⟨hcount, hcols⟩ := check_ok.1 h
  refine ⟨fun a attr ha => ?_, fun i a hia => ⟨fun out => ?_, lengthOf?_eq_none h hia⟩⟩
  · obtain ⟨column, hcolumn, hholds⟩ := hcols.exists_right ha
    refine ⟨column, column.start, column.piece, hcolumn, hholds.cuts.tiling, fun i hi => ?_⟩
    refine ⟨fun out => ?_, ?_, fun slots hslots => hholds.length_piece hi hslots⟩
    · obtain ⟨column', hcolumn', -, hvalues⟩ := values?_of_check h hi ha
      obtain rfl : column = column' := Option.some.inj (hcolumn.symm.trans hcolumn')
      exact appendValues_of_some hvalues
    · subst hcount
      exact lengthOf?_of_cuts hi hcolumn hholds.cuts
  · refine appendValues_of_none (values?_eq_none h ?_)
    rintro ⟨hi, ha⟩
    rcases hia with hin | han
    · exact Nat.not_lt.2 hin hi
    · exact Nat.not_lt.2 han ha

/-- Three instances with two slots each, and lists of which the first and the last are empty. -/
theorem check_tiles_ragged : ∃ (p : PoolImage) (schema : Schema),
    schema = ⟨0, "cell", [⟨0, "x", .int8, 2, false, false⟩, ⟨1, "log", .int16, 1, true, false⟩]⟩ ∧
    p.check schema 3 = .ok () ∧
    (∃ column bounds slices, p.column? 1 = some column ∧ column.Tiling 3 bounds slices ∧
      column.data.size = 2 ∧ slices 1 = [.int ⟨true, .two⟩ 7, .int ⟨true, .two⟩ (-7)]) ∧
    p.appendValues 2 0 [.int ⟨true, .one⟩ 1] =
      (some 2, [.int ⟨true, .one⟩ 1, .int ⟨true, .one⟩ 5, .int ⟨true, .one⟩ 6]) ∧
    p.lengthOf? 2 1 = some 0 ∧ p.appendValues 3 0 [] = (none, []) ∧ p.lengthOf? 0 2 = none := by
  have h0 : (⟨true, .one⟩ : IntKind).Holds 0 := by decide
  have h5 : (⟨true, .one⟩ : IntKind).Holds 5 := by decide
  have h6 : (⟨true, .one⟩ : IntKind).Holds 6 := by decide
  have h7 : (⟨true, .two⟩ : IntKind).Holds 7 := by decide
  have hn7 : (⟨true, .two⟩ : IntKind).Holds (-7) := by decide
  let p : PoolImage := ⟨3, [
    .fixed 2 ⟨.int8, [⟨0, h0⟩, ⟨0, h0⟩, ⟨0, h0⟩, ⟨0, h0⟩, ⟨5, h5⟩, ⟨6, h6⟩]⟩,
    .list [0, 0, 2, 2] ⟨.int16, [⟨7, h7⟩, ⟨-7, hn7⟩]⟩]⟩
  have hcheck : p.check ⟨0, "cell", [⟨0, "x", .int8, 2, false, false⟩,
      ⟨1, "log", .int16, 1, true, false⟩]⟩ 3 = .ok () := rfl
  obtain ⟨hread, hbeyond⟩ := check_tiles hcheck
  obtain ⟨column, bounds, slices, hcolumn, htiling, hslices⟩ := hread 1 _ rfl
  obtain rfl : _ = column := Option.some.inj hcolumn
  have hlog : p.appendValues 1 1 [] = (some (slices 1).length, slices 1) :=
    (hslices 1 (by decide)).1 []
  exact ⟨p, _, rfl, hcheck, ⟨_, bounds, slices, hcolumn, htiling, rfl,
    (congrArg Prod.snd hlog).symm⟩, rfl, rfl,
    (hbeyond 3 0 (by decide)).1 [], (hbeyond 0 2 (by decide)).2⟩

end PoolImage

end NodeStore
