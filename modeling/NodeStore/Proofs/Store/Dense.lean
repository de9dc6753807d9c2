import NodeStore.Proofs.LawfulPool
import NodeStore.Proofs.Layout
import NodeStore.Proofs.ListColumn
import NodeStore.Store.Dense

/-!
# Dense pools are tables

The cell of instance `i` in a flat column is the `i`-th run of slots (`DenseColumn.cell`). Runs of
different instances do not overlap, so a write within one run leaves the others alone
(`slice_overwrite_ne`). `DenseColumn.Matches` is what every column of a pool keeps: the slot count,
the type and the number of values its attribute asks for.

The pool finds a column exactly when the table finds the attribute
(`DensePool.Valid.fixedColumn_rel`, `DensePool.Valid.listColumn_rel`). What the writes leave follows
from there, check by check.
-/

namespace NodeStore

/-! ## Runs of a flat list -/

/-- The `i`-th run of `slots` values. -/
def slice (slots i : Nat) (l : List Value) : List Value := (l.drop (i * slots)).take slots

section
variable {slots i j k : Nat} {l d vs : List Value} {v : Value}

theorem getElem?_slice (slots i : Nat) (l : List Value) (m : Nat) :
    (slice slots i l)[m]? = if m < slots then l[i * slots + m]? else none := by
  unfold slice
  rw [List.getElem?_take]
  split
  · rw [List.getElem?_drop]
  · rfl

theorem length_slice (h : i * slots + slots ≤ l.length) : (slice slots i l).length = slots := by
  simp [slice]
  omega

/-- Runs of different instances do not overlap. -/
theorem run_disjoint (hij : j ≠ i) {m : Nat} (hm : m < slots) (hk : k + vs.length ≤ slots) :
    ¬ (i * slots + k ≤ j * slots + m ∧ j * slots + m < i * slots + k + vs.length) := by
  rcases Nat.lt_or_gt_of_ne hij with h | h
  · have := Nat.mul_le_mul_right slots (show j + 1 ≤ i from h)
    rw [Nat.succ_mul] at this
    omega
  · have := Nat.mul_le_mul_right slots (show i + 1 ≤ j from h)
    rw [Nat.succ_mul] at this
    omega

/-- `d` is `l` with `vs` written from slot `k` of run `i` on. -/
def Overwrites (d l : List Value) (slots i k : Nat) (vs : List Value) : Prop :=
  ∀ m, d[m]? = if i * slots + k ≤ m ∧ m < i * slots + k + vs.length
    then vs[m - (i * slots + k)]? else l[m]?

theorem slice_overwrite_ne (h : Overwrites d l slots i k vs) (hij : j ≠ i)
    (hk : k + vs.length ≤ slots) : slice slots j d = slice slots j l := by
  apply List.ext_getElem?
  intro m
  rw [getElem?_slice, getElem?_slice]
  split
  · rename_i hm
    rw [h, if_neg (run_disjoint hij hm hk)]
  · rfl

theorem slice_overwrite_one (h : Overwrites d l slots i k [v]) (hk : k < slots)
    (hl : i * slots + slots ≤ l.length) : slice slots i d = (slice slots i l).set k v := by
  apply List.ext_getElem?
  intro m
  rw [List.getElem?_set, getElem?_slice, getElem?_slice, length_slice hl, h]
  by_cases hm : m < slots
  · by_cases hkm : k = m
    · subst hkm
      simp [hm]
    · rw [if_pos hm, if_neg (by simp; omega), if_neg hkm, if_pos hm]
  · rw [if_neg hm, if_neg (by omega), if_neg hm]

theorem slice_overwrite_all (h : Overwrites d l slots i 0 vs) (hvs : vs.length = slots) :
    slice slots i d = vs := by
  apply List.ext_getElem?
  intro m
  rw [getElem?_slice, h]
  by_cases hm : m < slots
  · rw [if_pos hm, if_pos (by omega)]
    congr 1
    omega
  · rw [if_neg hm, List.getElem?_eq_none (by omega)]

end

theorem Column.overwrites {data : Column} {slots i k : Nat} {vs : List Value}
    (hi : i * slots + k + vs.length ≤ data.size) (hv : ∀ v ∈ vs, v.type = data.type) :
    Overwrites (data.setFrom (i * slots + k) vs).values data.values slots i k vs :=
  fun m => values_setFrom hi hv m

/-! ## Columns -/

namespace DenseColumn

/-- The values of an instance. -/
def cell : DenseColumn → Nat → List Value
  | fixed slots data, i => slice slots i data.values
  | lists ls, i => (ls[i]?.map Column.values).getD []

/-- The column stores an attribute for `n` instances. -/
def Matches (attr : Attribute) (n : Nat) : DenseColumn → Prop
  | fixed slots data => attr.slotCount? = some slots ∧ data.type = attr.type ∧ data.size = n * slots
  | lists ls => attr.isList = true ∧ ls.length = n ∧ ∀ l ∈ ls, l.type = attr.type

variable {c : DenseColumn} {attr : Attribute} {n i slots : Nat}

theorem run_le {data : Column} (h : (fixed slots data).Matches attr n) (hi : i < n) :
    i * slots + slots ≤ data.size := by
  rw [h.2.2, ← Nat.succ_mul]
  exact Nat.mul_le_mul_right _ hi

theorem Matches.length_cell (h : c.Matches attr n) (hi : i < n)
    (hs : attr.slotCount? = some slots) : (c.cell i).length = slots := by
  cases c with
  | fixed slots' data =>
    have hle := run_le h hi
    obtain ⟨hs', -, -⟩ := h
    rw [hs] at hs'
    cases hs'
    exact length_slice (by simpa using hle)
  | lists ls =>
    rw [Attribute.slotCount?_eq_none.2 h.1] at hs
    cases hs

theorem Matches.type_of_mem_cell (h : c.Matches attr n) {v : Value} (hv : v ∈ c.cell i) :
    v.type = attr.type := by
  cases c with
  | fixed slots data =>
    exact (Column.type_of_mem_values (List.mem_of_mem_drop (List.mem_of_mem_take hv))).trans h.2.1
  | lists ls =>
    cases hl : ls[i]? with
    | none => simp [cell, hl] at hv
    | some l =>
      rw [cell, hl] at hv
      exact (Column.type_of_mem_values hv).trans (h.2.2 l (List.mem_of_getElem? hl))

theorem Matches.cell_outside (h : c.Matches attr n) (hi : n ≤ i) : c.cell i = [] := by
  cases c with
  | fixed slots data =>
    have hsize : data.values.length ≤ i * slots := by
      rw [Column.length_values, h.2.2]
      exact Nat.mul_le_mul_right _ hi
    simp [cell, slice, List.drop_eq_nil_of_le hsize]
  | lists ls =>
    have hlen : ls.length = n := h.2.1
    simp [cell, List.getElem?_eq_none (show ls.length ≤ i by omega)]

/-! ### A whole column at once -/

theorem cell_zeros (slots n : Nat) (ty : AttrType) (hi : i < n) :
    slice slots i (List.replicate (n * slots) (Value.zero ty)) =
      List.replicate slots (.zero ty) := by
  have hle : (i + 1) * slots ≤ n * slots := Nat.mul_le_mul_right _ hi
  rw [Nat.succ_mul] at hle
  rw [slice, List.drop_replicate, List.take_replicate, Nat.min_eq_left (by omega)]

theorem blank_matches {schema : String} {l : AttrLayout}
    (h : AttrLayout.ofAttribute schema n attr = .ok l) :
    (blank n l).Matches attr n ∧ ∀ i < n, (blank n l).cell i = Table.initial attr := by
  rcases AttrLayout.ofAttribute_ok.1 h with ⟨hs, rfl⟩ | ⟨slots, hs, -, rfl⟩
  · refine ⟨⟨Attribute.slotCount?_eq_none.1 hs, by simp, fun l hl => ?_⟩, fun i hi => ?_⟩
    · rw [List.eq_of_mem_replicate hl]
      rfl
    · simp [blank, cell, Table.initial, hs, hi]
  · refine ⟨⟨hs, rfl, by simp⟩, ?_⟩
    intro i hi
    simp only [blank, cell, Column.values_zeroed, Table.initial, hs]
    exact cell_zeros slots n attr.type hi

theorem Matches.reset (h : c.Matches attr n) :
    c.reset.Matches attr n ∧ ∀ i < n, c.reset.cell i = Table.initial attr := by
  cases c with
  | fixed slots data =>
    obtain ⟨hs, ht, hsize⟩ := h
    refine ⟨⟨hs, ht, by simpa [Column.zeroOut] using hsize⟩, ?_⟩
    intro i hi
    simp only [DenseColumn.reset, cell, Column.zeroOut, Column.values_zeroed, hsize, ht,
      Table.initial, hs]
    exact cell_zeros slots n attr.type hi
  | lists ls =>
    obtain ⟨hlist, hlen, ht⟩ := h
    refine ⟨⟨hlist, by simpa using hlen, fun l hl => ?_⟩, fun i hi => ?_⟩
    · obtain ⟨l', hl', rfl⟩ := List.mem_map.1 hl
      exact ht l' hl'
    · have hi' : i < ls.length := by omega
      simp [DenseColumn.reset, cell, Table.initial, Attribute.slotCount?_eq_none.2 hlist, hi']

theorem Matches.capture (h : c.Matches attr n) :
    (c.capture attr).Holds attr n ∧ ∀ i < n, (c.capture attr).piece i = c.cell i := by
  cases c with
  | fixed slots data =>
    obtain ⟨hs, ht, hsize⟩ := h
    refine ⟨⟨ht, ImageColumn.fits_fixed.2 ⟨hs, by rw [hsize, Nat.mul_comm]⟩⟩, ?_⟩
    intro i _
    simp [DenseColumn.capture, ImageColumn.piece, ImageColumn.start, ImageColumn.data, cell, slice,
      Nat.succ_mul]
  | lists ls =>
    obtain ⟨hlist, rfl, ht⟩ := h
    have hL := (ImageColumn.Lists.noLists attr.type).foldl_pushColumn ht
    rw [List.nil_append] at hL
    refine ⟨?_, fun i hi => ?_⟩
    · have := hL.holds hlist
      rwa [List.length_map] at this
    · rw [DenseColumn.capture, hL.piece (by simpa using hi)]
      simp [cell, hi]

/-- A column is made of its cells. -/
theorem Matches.ext {d : DenseColumn} (hc : c.Matches attr n) (hd : d.Matches attr n)
    (h : ∀ i < n, c.cell i = d.cell i) : c = d := by
  cases c with
  | fixed slots data =>
    cases d with
    | fixed slots' data' =>
      have himage : ImageColumn.fixed slots data = .fixed slots' data' :=
        hc.capture.1.ext hd.capture.1 fun i hi =>
          ((hc.capture.2 i hi).trans (h i hi)).trans (hd.capture.2 i hi).symm
      cases himage
      rfl
    | lists ls' =>
      have hs := hc.1
      rw [Attribute.slotCount?_eq_none.2 hd.1] at hs
      cases hs
  | lists ls =>
    obtain ⟨hlist, rfl, ht⟩ := hc
    cases d with
    | fixed slots' data' =>
      have hs := hd.1
      rw [Attribute.slotCount?_eq_none.2 hlist] at hs
      cases hs
    | lists ls' =>
      obtain ⟨-, hlen, ht'⟩ := hd
      have hls : ls = ls' := List.ext_getElem hlen.symm fun i hi hi' => by
        refine Column.ext_values ?_ (by simpa [cell, hi, hi'] using h i hi)
        rw [ht _ (List.getElem_mem hi), ht' _ (List.getElem_mem hi')]
      rw [hls]

/-- The values of an instance as a column of their own. -/
def cut (column : ImageColumn) (i : Nat) : Column :=
  { column.data with
    data := (column.data.data.drop (column.start i)).take (column.start (i + 1) - column.start i) }

theorem values_cut (column : ImageColumn) (i : Nat) : (cut column i).values = column.piece i := by
  simp [cut, ImageColumn.piece, Column.values, List.map_take, List.map_drop]

theorem slice?_cut {column : ImageColumn} (h : column.Cuts n) (hi : i < n) :
    column.data.slice? (column.start i) (column.start (i + 1)) = some (cut column i) :=
  if_pos ⟨h.start_succ i hi, h.start_le_size hi⟩

theorem restore_of_holds (schema : String) {column : ImageColumn} (h : column.Holds attr n) :
    ∃ d, restore schema n column = .ok d ∧ d.Matches attr n ∧
      ∀ i < n, d.cell i = column.piece i := by
  cases column with
  | fixed slots data =>
    obtain ⟨hs, hsize⟩ := ImageColumn.fits_fixed.1 h.fits
    refine ⟨_, rfl, ⟨hs, h.type, by rw [hsize, Nat.mul_comm]⟩, ?_⟩
    intro i _
    simp [ImageColumn.piece, ImageColumn.start, ImageColumn.data, cell, slice, Nat.succ_mul]
  | list offsets data =>
    have hcuts := h.cuts
    refine ⟨lists ((List.range n).map (cut (.list offsets data))), ?_, ⟨?_, by simp, ?_⟩, ?_⟩
    · simp only [restore]
      rw [Except.mapM_eq_map fun i hi => ?_]
      · rfl
      · have hi := List.mem_range.1 hi
        have hcut : data.slice? _ _ = _ := slice?_cut hcuts hi
        simp only [hcuts.range? i hi, hcut]
    · exact Attribute.slotCount?_eq_none.1 (ImageColumn.fits_list.1 h.fits).1
    · intro l hl
      obtain ⟨i, -, rfl⟩ := List.mem_map.1 hl
      exact h.type
    · intro i hi
      simp [cell, hi, values_cut]

/-- The columns of an image that passes the check. -/
theorem exists_restored (schema : String) {attrs : List Attribute} {columns : List ImageColumn}
    (h : List.Forall₂ (fun attr column => column.Holds attr n) attrs columns) :
    ∃ ds, columns.mapM (restore schema n) = .ok ds ∧
      List.Forall₂ (fun attr d => Matches attr n d) attrs ds ∧
      List.Forall₂ (fun column d => ∀ i < n, d.cell i = column.piece i) columns ds := by
  induction h with
  | nil => exact ⟨[], rfl, .nil, .nil⟩
  | cons hhead _ ih =>
    obtain ⟨d, hd, hm, hcell⟩ := restore_of_holds schema hhead
    obtain ⟨ds, hds, hms, hcells⟩ := ih
    refine ⟨d :: ds, ?_, .cons hm hms, .cons hcell hcells⟩
    rw [List.mapM_cons, hd, Except.ok_bind, hds]
    rfl

theorem Matches.memory (h : c.Matches attr n) :
    c.memory = ((List.range n).map fun i => (c.cell i).length * attr.type.width).sum := by
  cases c with
  | fixed slots data =>
    have hlen : ∀ i ∈ List.range n, ((fixed slots data).cell i).length * attr.type.width =
        slots * attr.type.width := fun i hi => by
      rw [h.length_cell (List.mem_range.1 hi) h.1]
    rw [List.map_congr_left hlen]
    obtain ⟨-, ht, hsize⟩ := h
    simp [DenseColumn.memory, Column.memory, hsize, ht, Nat.mul_assoc]
  | lists ls =>
    obtain ⟨-, rfl, ht⟩ := h
    rw [DenseColumn.memory]
    congr 1
    apply List.ext_getElem
    · simp
    · intro i hi _
      have hi' : i < ls.length := by simpa using hi
      simp [cell, hi', Column.memory, ht ls[i] (List.getElem_mem hi')]

end DenseColumn

/-! ## Pools -/

namespace DensePool

/-- Every column stores its attribute, and the layout is the one that was accepted for the
schema. -/
structure Valid (p : DensePool) : Prop where
  schema : p.schema.WellFormed
  layout : PoolLayout.ofSchema p.schema p.layout.count = .ok p.layout
  columns : List.Forall₂ (fun attr c => DenseColumn.Matches attr p.layout.count c)
    p.schema.attributes p.columns

/-- The table of the columns' cells. -/
def table (p : DensePool) : Table where
  schema := p.schema
  count := p.layout.count
  cells i a := (p.columns[a]?.map (·.cell i)).getD []

variable {p : DensePool} {c : Coord} {attr : Attribute}

theorem cells_eq {col : DenseColumn} {a : Nat} (h : p.columns[a]? = some col) (i : Nat) :
    p.table.cells i a = col.cell i := by simp [table, h]

theorem Valid.sound (h : p.Valid) : p.table.Sound where
  schema := h.schema
  slots i a attr n hi ha hn := by
    obtain ⟨col, hcol, hm⟩ := h.columns.exists_right ha
    rw [cells_eq hcol]
    exact hm.length_cell hi hn
  typed i a attr ha v hv := by
    obtain ⟨col, hcol, hm⟩ := h.columns.exists_right ha
    rw [cells_eq hcol] at hv
    exact hm.type_of_mem_cell hv
  outside i a hia := by
    cases hcol : p.columns[a]? with
    | none => simp [table, hcol]
    | some col =>
      obtain ⟨attr, ha, hm⟩ := h.columns.exists_left hcol
      rw [cells_eq hcol]
      have hlt : a < p.table.schema.size := (List.getElem?_eq_some_iff.1 ha).1
      exact hm.cell_outside (Nat.le_of_not_lt fun hi => hia ⟨hi, hlt⟩)

/-- A pool is made of its table. -/
theorem Valid.ext {q : DensePool} (hp : p.Valid) (hq : q.Valid) (h : p.table = q.table) :
    p = q := by
  have hs : p.schema = q.schema := congrArg Table.schema h
  have hn : p.layout.count = q.layout.count := congrArg Table.count h
  have hlayout : p.layout = q.layout := by
    have hl := hp.layout
    rw [hs, hn, hq.layout] at hl
    exact (Except.ok.inj hl).symm
  have hqc := hq.columns
  rw [← hs, ← hn] at hqc
  have hcolumns : p.columns = q.columns :=
    hp.columns.right_ext hqc fun a attr c d _ hc hd hcm hdm => hcm.ext hdm fun i _ => by
      rw [← cells_eq hc, ← cells_eq hd, h]
  obtain ⟨schema, layout, columns⟩ := p
  obtain ⟨schema', layout', columns'⟩ := q
  cases hs
  cases hlayout
  cases hcolumns
  rfl

/-- A pool whose columns store their attributes and read as a table does. -/
theorem valid_of_columns {t : Table} (hs : p.schema = t.schema) (hn : p.layout.count = t.count)
    (hwf : t.schema.WellFormed) (hl : PoolLayout.ofSchema t.schema t.count = .ok p.layout)
    (ht : t.Bounded)
    (hcols : List.Forall₂ (fun attr c => DenseColumn.Matches attr t.count c) t.schema.attributes
      p.columns)
    (hcells : ∀ (a : Nat) attr col, t.schema.attributes[a]? = some attr → p.columns[a]? = some col →
      ∀ i < t.count, col.cell i = t.cells i a) : p.Valid ∧ p.table = t := by
  have hv : p.Valid := ⟨by rwa [hs], by rw [hs, hn]; exact hl, by rw [hs, hn]; exact hcols⟩
  refine ⟨hv, hv.sound.outside.ext ht hs hn fun i hi a ha => ?_⟩
  have hattr : t.schema.attributes[a]? = some t.schema.attributes[a] := List.getElem?_eq_getElem ha
  obtain ⟨col, hcol, -⟩ := hcols.exists_right hattr
  rw [cells_eq hcol]
  exact hcells a _ col hattr hcol i hi

theorem allocate_valid {schema : Schema} {n : Nat} {layout : PoolLayout} (hwf : schema.WellFormed)
    (hl : PoolLayout.ofSchema schema n = .ok layout) :
    (allocate schema layout).Valid ∧ (allocate schema layout).table = .blank schema n := by
  obtain ⟨rfl, hentries⟩ := PoolLayout.ofSchema_ok.1 hl
  refine valid_of_columns (t := .blank schema layout.count) rfl rfl hwf hl
    (Table.blank_bounded _ _) ?_ fun a attr col ha hcol i hi => ?_
  · exact List.forall₂_map_right_iff.2 (hentries.imp fun _ _ h => (DenseColumn.blank_matches h).1)
  · rw [allocate, List.getElem?_map] at hcol
    obtain ⟨l, hl, rfl⟩ := Option.map_eq_some_iff.1 hcol
    exact ((DenseColumn.blank_matches (hentries.at_pos ha hl)).2 i hi).trans
      (Table.cells_blank hi ha).symm

/-! ### Finding a column -/

/-- The slot count and the flat column that the pool has for an attribute. -/
structure HoldsFixed (p : DensePool) (c : Coord) (q : Nat × Column) (attr : Attribute) : Prop where
  column : p.columns[c.attr]? = some (.fixed q.1 q.2)
  declared : p.schema.attributes[c.attr]? = some attr
  index_lt : c.index < p.layout.count
  storing : DenseColumn.Matches attr p.layout.count (.fixed q.1 q.2)

/-- The list that the pool has for an attribute of an instance, one of `ls`. -/
structure HoldsList (p : DensePool) (c : Coord) (ls : List Column) (l : Column)
    (attr : Attribute) : Prop where
  column : p.columns[c.attr]? = some (.lists ls)
  list : ls[c.index]? = some l
  declared : p.schema.attributes[c.attr]? = some attr
  storing : DenseColumn.Matches attr p.layout.count (.lists ls)

theorem Valid.fixedColumn_rel (h : p.Valid) (c : Coord) :
    Except.Rel (p.HoldsFixed c) (p.fixedColumn c) (p.schema.locate p.layout.count c .fixed) := by
  unfold fixedColumn
  cases hl : p.schema.locate p.layout.count c .fixed with
  | error e => exact .error e
  | ok attr =>
    obtain ⟨ha, hi, hsh⟩ := Schema.locate_ok.1 hl
    obtain ⟨col, hcol, hm⟩ := h.columns.exists_right ha
    cases col with
    | fixed slots data =>
      rw [Except.ok_bind, hcol]
      exact .ok ⟨hcol, ha, hi, hm⟩
    | lists ls =>
      rw [DenseColumn.Matches, Attribute.shape_eq_fixed.1 hsh] at hm
      cases hm.1

theorem Valid.listColumn_rel (h : p.Valid) (c : Coord) :
    Except.Rel (fun l attr => ∃ ls, p.HoldsList c ls l attr) (p.listColumn c)
      (p.schema.locate p.layout.count c .list) := by
  unfold listColumn
  cases hl : p.schema.locate p.layout.count c .list with
  | error e => exact .error e
  | ok attr =>
    obtain ⟨ha, hi, hsh⟩ := Schema.locate_ok.1 hl
    obtain ⟨col, hcol, hm⟩ := h.columns.exists_right ha
    cases col with
    | fixed slots data =>
      rw [DenseColumn.Matches, Attribute.slotCount?_eq_none.2 (Attribute.shape_eq_list.1 hsh)] at hm
      cases hm.1
    | lists ls =>
      have hlist : ls[c.index]? = some _ := List.getElem?_eq_getElem (by rw [hm.2.1]; exact hi)
      rw [Except.ok_bind, hcol]
      simp only [hlist]
      exact .ok ⟨ls, hcol, hlist, ha, hm⟩

theorem HoldsFixed.cell {q : Nat × Column} (h : p.HoldsFixed c q attr) :
    p.table.cell c = slice q.1 c.index q.2.values := cells_eq h.column c.index

theorem HoldsFixed.run_le {q : Nat × Column} (h : p.HoldsFixed c q attr) :
    c.index * q.1 + q.1 ≤ q.2.size := DenseColumn.run_le h.storing h.index_lt

theorem HoldsFixed.slot_lt {q : Nat × Column} (h : p.HoldsFixed c q attr) {slot : Nat}
    (hslot : p.schema.requireSlot attr slot = .ok ()) : slot < q.1 := by
  rwa [Schema.requireSlot_ok, h.storing.1, Option.getD_some] at hslot

section

variable {ls : List Column} {l : Column}

theorem HoldsList.cell (h : p.HoldsList c ls l attr) : p.table.cell c = l.values := by
  rw [Table.cell, cells_eq h.column, DenseColumn.cell, h.list]
  rfl

theorem HoldsList.type (h : p.HoldsList c ls l attr) : l.type = attr.type :=
  h.storing.2.2 l (List.mem_of_getElem? h.list)

end

/-! ### Reading -/

theorem Valid.get_eq (h : p.Valid) (c : Coord) (slot : Nat) :
    p.get c slot = p.table.get c slot := by
  refine Except.Rel.eq (.attribute_place (h.fixedColumn_rel c) fun q attr hq =>
    .check _ fun _ hslot => ?_)
  have hslot := hq.slot_lt hslot
  have hlt : c.index * q.1 + slot < q.2.values.length := by
    have := hq.run_le
    rw [Column.length_values]
    omega
  rw [hq.cell, Column.get?_eq, getElem?_slice, if_pos hslot, List.getElem?_eq_getElem hlt]
  exact .ok rfl

theorem Valid.getSlots_eq (h : p.Valid) (c : Coord) : p.getSlots c = p.table.getSlots c := by
  refine Except.Rel.eq (.bind (h.fixedColumn_rel c) fun q attr hq => ?_)
  have hrange := Column.range?_eq (Nat.le_add_right (c.index * q.1) q.1) hq.run_le
  rw [hq.cell]
  simp only [hrange, Nat.add_sub_cancel_left]
  exact .ok rfl

theorem Valid.listLength_eq (h : p.Valid) (c : Coord) :
    p.listLength c = p.table.listLength c := by
  refine Except.Rel.eq (.bind (h.listColumn_rel c) ?_)
  rintro l attr ⟨ls, hl⟩
  rw [hl.cell, Column.length_values]
  exact .ok rfl

theorem Valid.getList_eq (h : p.Valid) (c : Coord) : p.getList c = p.table.getList c := by
  refine Except.Rel.eq (.bind (h.listColumn_rel c) ?_)
  rintro l attr ⟨ls, hl⟩
  rw [hl.cell]
  exact .ok rfl

/-! ### Writing -/

/-- The pool is valid and this is its table. -/
abbrev Models (p : DensePool) (t : Table) : Prop := p.Valid ∧ p.table = t

/-- Putting a column that differs in the cell of one instance. -/
theorem Valid.put (h : p.Valid) (ha : p.schema.attributes[c.attr]? = some attr)
    {old new : DenseColumn} (hcol : p.columns[c.attr]? = some old) {vs : List Value}
    (hm : new.Matches attr p.layout.count) (hself : new.cell c.index = vs)
    (hne : ∀ i, i ≠ c.index → new.cell i = old.cell i) :
    (p.put c.attr new).Models (p.table.put c vs) := by
  refine ⟨⟨h.schema, h.layout, h.columns.set_right c.attr fun attr' ha' => ?_⟩, ?_⟩
  · rw [ha] at ha'
    cases ha'
    exact hm
  · simp only [table, DensePool.put, Table.put, Table.mk.injEq, true_and]
    funext i a
    have hlt := (List.getElem?_eq_some_iff.1 hcol).1
    by_cases ha : a = c.attr
    · subst ha
      rw [List.getElem?_set_self hlt]
      by_cases hi : i = c.index
      · subst hi
        simpa using hself
      · simpa [hi, hcol] using hne i hi
    · rw [List.getElem?_set_ne (Ne.symm ha), if_neg fun h => ha h.2]

/-- Overwriting slots of one instance. -/
theorem Valid.put_fixed (h : p.Valid) {q : Nat × Column} (hq : p.HoldsFixed c q attr) {k : Nat}
    {vs ws : List Value} (hk : k + vs.length ≤ q.1) (ht : ∀ v ∈ vs, v.type = attr.type)
    (hself : ∀ d, Overwrites d q.2.values q.1 c.index k vs → slice q.1 c.index d = ws) :
    (p.put c.attr (.fixed q.1 (q.2.setFrom (c.index * q.1 + k) vs))).Models (p.table.put c ws) := by
  have hfit : c.index * q.1 + k + vs.length ≤ q.2.size := by
    have := hq.run_le
    omega
  have hover := Column.overwrites hfit fun v hv => (ht v hv).trans hq.storing.2.1.symm
  refine h.put hq.declared hq.column ⟨hq.storing.1,
    (Column.type_setFrom _ _ _).trans hq.storing.2.1,
    (Column.size_setFrom _ _ _).trans hq.storing.2.2⟩ (hself _ hover) fun i hne => ?_
  exact slice_overwrite_ne hover hne hk

theorem putList_eq {ls : List Column} (hcol : p.columns[c.attr]? = some (.lists ls)) (l : Column) :
    p.putList c l = p.put c.attr (.lists (ls.set c.index l)) := by
  rw [putList, List.modify_eq_set_getElem?, hcol]
  rfl

/-- Putting one instance's list. -/
theorem Valid.put_list (h : p.Valid) {ls : List Column} {l new : Column}
    (hl : p.HoldsList c ls l attr) (ht : new.type = attr.type) :
    (p.putList c new).Models (p.table.put c new.values) := by
  obtain ⟨hlist, hlen, htypes⟩ := hl.storing
  rw [putList_eq hl.column]
  refine h.put hl.declared hl.column ⟨hlist, by simpa using hlen, fun m hmem => ?_⟩ ?_
    fun i hne => ?_
  · rcases List.mem_or_eq_of_mem_set hmem with hmem | rfl
    · exact htypes m hmem
    · exact ht
  · rw [DenseColumn.cell, List.getElem?_set_self (List.getElem?_eq_some_iff.1 hl.list).1]
    rfl
  · rw [DenseColumn.cell, List.getElem?_set_ne (Ne.symm hne)]
    rfl

theorem Valid.set_yields (h : p.Valid) (c : Coord) (slot : Nat) (v : Value) :
    Action.Yields Models (set c slot v) p (p.table.set c slot v) := by
  -- the table makes the same checks; the column is found again before it is changed
  refine .attribute_place (h.fixedColumn_rel c) rfl fun q attr hplace hq =>
    .check fun _ hslot => .check fun w hw => .pass hplace (.modify ?_)
  have hslot := hq.slot_lt hslot
  refine h.put_fixed hq ?_ (by simpa using Schema.type_convert hw) fun d hd => ?_
  · exact hslot
  · rw [hq.cell]
    exact slice_overwrite_one hd hslot (by simpa using hq.run_le)

theorem Valid.setSlots_yields (h : p.Valid) (c : Coord) (vs : List Value) :
    Action.Yields Models (setSlots c vs) p (p.table.setSlots c vs) := by
  refine .attribute_place (h.fixedColumn_rel c) rfl fun q attr hplace hq =>
    .check fun _ hn => .check fun ws hws => .pass hplace (.modify ?_)
  rw [Schema.requireSlotCount_ok, hq.storing.1, Option.getD_some] at hn
  have hlen : ws.length = q.1 := (Schema.length_convertAll hws).trans hn
  exact h.put_fixed (k := 0) hq (by omega) (Schema.type_convertAll hws) fun d hd =>
    slice_overwrite_all hd hlen

theorem Valid.append_yields (h : p.Valid) (c : Coord) (v : Value) :
    Action.Yields Models (append c v) p (p.table.append c v) := by
  refine .place_attribute (h.listColumn_rel c) rfl fun l attr hplace hl =>
    .check fun w hw => .pass hplace (.modify ?_)
  obtain ⟨ls, hl⟩ := hl
  have htype : ∀ x ∈ [w], x.type = l.type := by simpa [hl.type] using Schema.type_convert hw
  obtain ⟨hty, hvals⟩ := Column.foldl_push htype
  rw [hl.cell, ← hvals]
  exact h.put_list hl (hty.trans hl.type)

theorem Valid.setList_yields (h : p.Valid) (c : Coord) (vs : List Value) :
    Action.Yields Models (setList c vs) p (p.table.setList c vs) := by
  refine .place_attribute (h.listColumn_rel c) rfl fun l attr hplace hl =>
    .check fun ws hws => .pass hplace (.modify ?_)
  obtain ⟨ls, hl⟩ := hl
  have htype : ∀ x ∈ ws, x.type = l.clear.type := fun x hx =>
    (Schema.type_convertAll hws x hx).trans hl.type.symm
  obtain ⟨hty, hvals⟩ := Column.foldl_push htype
  have hput := h.put_list hl (hty.trans hl.type)
  rwa [hvals, Column.values_clear, List.nil_append] at hput

/-! ### The pool as a whole -/

theorem Valid.reset_yields (h : p.Valid) : Action.Yields Models reset p (.ok p.table.reset) := by
  refine .modify (valid_of_columns (t := .blank p.schema p.layout.count) rfl rfl h.schema h.layout
    (Table.blank_bounded _ _) ?_ fun a attr col ha hcol i hi => ?_)
  · exact List.forall₂_map_right_iff.2 (h.columns.imp fun _ _ hm => hm.reset.1)
  · rw [List.getElem?_map] at hcol
    obtain ⟨col', hcol', rfl⟩ := Option.map_eq_some_iff.1 hcol
    exact ((h.columns.at_pos ha hcol').reset.2 i hi).trans (Table.cells_blank hi ha).symm

theorem Valid.capture_shows (h : p.Valid) : p.capture.Shows p.table := by
  have hcapture {a : Nat} {attr : Attribute} {col : DenseColumn}
      (ha : p.schema.attributes[a]? = some attr) (hcol : p.columns[a]? = some col) :
      p.capture.columns[a]? = some (col.capture attr) := by
    have hz : (p.columns.zip p.schema.attributes)[a]? = some (col, attr) :=
      List.getElem?_zip_eq_some.2 ⟨hcol, ha⟩
    simp [capture, hz]
  have hcheck : p.capture.check p.schema p.layout.count = .ok () := by
    refine PoolImage.check_ok.2 ⟨rfl, .of_pos ?_ fun a attr ic ha hic => ?_⟩
    · simp [capture, h.columns.length_eq]
    · obtain ⟨col, hcol, hm⟩ := h.columns.exists_right ha
      rw [hcapture ha hcol] at hic
      cases hic
      exact hm.capture.1
  refine ⟨hcheck, ?_⟩
  intro i hi a ha
  have hattr : p.schema.attributes[a]? = some p.schema.attributes[a] := List.getElem?_eq_getElem ha
  obtain ⟨col, hcol, hm⟩ := h.columns.exists_right hattr
  obtain ⟨ic, hic, -, hv⟩ := PoolImage.values?_of_check hcheck hi hattr
  rw [hcapture hattr hcol] at hic
  cases hic
  rw [hv, hm.capture.2 i hi, cells_eq hcol]

theorem Valid.restore_yields (h : p.Valid) (image : PoolImage) :
    Action.Yields Models (restore image) p (p.table.restore image) := by
  refine .check fun _ hcheck => ?_
  obtain ⟨ds, hds, hms, hcells⟩ :=
    DenseColumn.exists_restored p.schema.name (PoolImage.check_ok.1 hcheck).2
  refine .pass hds (.modify (valid_of_columns rfl rfl h.schema h.layout
    (PoolImage.bounded_of_check hcheck) hms fun a attr col ha hcol i hi => ?_))
  obtain ⟨ic, hic, -, hv⟩ := PoolImage.values?_of_check hcheck hi ha
  exact (hcells.at_pos hic hcol i hi).trans (Table.cells_ofImage hv).symm

theorem Valid.memory_eq (h : p.Valid) : p.memory = p.table.memory := by
  have hcols : p.columns.map DenseColumn.memory =
      p.schema.attributes.zipIdx.map fun q => p.table.columnMemory q.1 q.2 := by
    apply List.ext_getElem?
    intro a
    rw [List.getElem?_map, List.getElem?_map, List.getElem?_zipIdx]
    cases ha : p.schema.attributes[a]? with
    | none =>
      have hcol : p.columns[a]? = none := by
        rw [List.getElem?_eq_none_iff, ← h.columns.length_eq, ← List.getElem?_eq_none_iff]
        exact ha
      simp [hcol]
    | some attr =>
      obtain ⟨col, hcol, hm⟩ := h.columns.exists_right ha
      simp [hcol, hm.memory, Table.columnMemory, table]
  rw [DensePool.memory, Table.memory, hcols]
  rfl

instance : LawfulPool DensePool where
  Valid := Valid
  table := table
  ext := Valid.ext
  sound := Valid.sound
  allocate := allocate_valid
  count _ := rfl
  get c slot h := h.get_eq c slot
  getSlots c h := h.getSlots_eq c
  listLength c h := h.listLength_eq c
  getList c h := h.getList_eq c
  set c slot v h := h.set_yields c slot v
  setSlots c vs h := h.setSlots_yields c vs
  append c v h := h.append_yields c v
  setList c vs h := h.setList_yields c vs
  reset := Valid.reset_yields
  capture h := ⟨_, rfl, h.capture_shows⟩
  restore image h := h.restore_yields image
  memory := Valid.memory_eq

end DensePool

end NodeStore
