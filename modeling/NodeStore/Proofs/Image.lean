import NodeStore.Image
import NodeStore.Proofs.Column
import NodeStore.Proofs.Except

/-!
# Reading captured pools

An image column that fits its attribute cuts its data into one piece per instance
(`ImageColumn.Cuts`): the pieces come one after the other from the first value to the last, so the
pieces and the type make the column (`ImageColumn.Holds.ext`).

* `PoolImage.check_ok`: the check asks of every column that it holds its attribute.
* `PoolImage.values?_of_check`: an image that passes the check has values for every instance and
  attribute, as many as there are slots and all of the declared type, and for no others.
* `PoolImage.ext_of_check`: two images that pass the check and read alike are equal.
-/

namespace NodeStore

namespace ImageColumn

/-- Where the values of an instance start. -/
def start : ImageColumn → Nat → Nat
  | fixed slots _, i => i * slots
  | list offsets _, i => offsets[i]?.getD 0

/-- The values of an instance. -/
def piece (c : ImageColumn) (i : Nat) : List Value :=
  (c.data.values.drop (c.start i)).take (c.start (i + 1) - c.start i)

/-- The data is cut into pieces for `n` instances, one after the other and with no rest. -/
structure Cuts (c : ImageColumn) (n : Nat) : Prop where
  start_zero : c.start 0 = 0
  start_succ : ∀ i < n, c.start i ≤ c.start (i + 1)
  start_count : c.start n = c.data.size
  range? : ∀ i < n, c.range? i = some (c.start i, c.start (i + 1))

/-- The column holds values of an attribute for `n` instances. -/
structure Holds (c : ImageColumn) (attr : Attribute) (n : Nat) : Prop where
  type : c.data.type = attr.type
  fits : c.Fits attr n

variable {c d : ImageColumn} {attr : Attribute} {n : Nat}

/-! ## Pieces -/

namespace Cuts

theorem start_mono (h : c.Cuts n) {i j : Nat} (hij : i ≤ j) (hj : j ≤ n) :
    c.start i ≤ c.start j := by
  induction j with
  | zero => exact Nat.le_of_eq (by rw [Nat.le_zero.1 hij])
  | succ j ih =>
    rcases Nat.lt_or_ge i (j + 1) with hlt | hge
    · exact Nat.le_trans (ih (by omega) (by omega)) (h.start_succ j (by omega))
    · exact Nat.le_of_eq (by rw [show i = j + 1 by omega])

theorem start_le_size (h : c.Cuts n) {i : Nat} (hi : i ≤ n) : c.start i ≤ c.data.size := by
  rw [← h.start_count]
  exact h.start_mono hi (Nat.le_refl n)

theorem length_piece (h : c.Cuts n) {i : Nat} (hi : i < n) :
    (c.piece i).length = c.start (i + 1) - c.start i := by
  have := h.start_le_size (show i + 1 ≤ n from hi)
  have := h.start_succ i hi
  simp [piece]
  omega

theorem read (h : c.Cuts n) {i : Nat} (hi : i < n) :
    c.data.range? (c.start i) (c.start (i + 1)) = some (c.piece i) :=
  Column.range?_eq (h.start_succ i hi) (h.start_le_size (show i + 1 ≤ n from hi))

/-- The first pieces are the values up to where the next one starts. -/
theorem take_start (h : c.Cuts n) {k : Nat} (hk : k ≤ n) :
    c.data.values.take (c.start k) = (List.range k).flatMap c.piece := by
  induction k with
  | zero => simp [h.start_zero]
  | succ k ih =>
    rw [List.range_succ, List.flatMap_append, ← ih (by omega)]
    have := h.start_succ k (by omega)
    rw [show c.start (k + 1) = c.start k + (c.start (k + 1) - c.start k) by omega, List.take_add]
    simp [piece]

theorem values_eq (h : c.Cuts n) : c.data.values = (List.range n).flatMap c.piece := by
  rw [← h.take_start (Nat.le_refl n), h.start_count, ← Column.length_values, List.take_length]

theorem start_eq (h : c.Cuts n) {k : Nat} (hk : k ≤ n) :
    c.start k = ((List.range k).flatMap c.piece).length := by
  rw [← h.take_start hk, List.length_take, Column.length_values,
    Nat.min_eq_left (h.start_le_size hk)]

theorem type_of_mem_piece {i : Nat} {v : Value} (hv : v ∈ c.piece i) : v.type = c.data.type :=
  Column.type_of_mem_values (List.mem_of_mem_drop (List.mem_of_mem_take hv))

end Cuts

/-! ## Columns that fit -/

theorem fits_fixed {slots : Nat} {data : Column} :
    (fixed slots data).Fits attr n ↔ attr.slotCount? = some slots ∧ data.size = slots * n := by
  unfold Fits
  cases h : attr.slotCount? with
  | none => simp
  | some declared => simp [eq_comm]; grind

theorem fits_list {offsets : List Nat} {data : Column} :
    (list offsets data).Fits attr n ↔ attr.slotCount? = none ∧ offsets.length = n + 1 ∧
      offsets.head? = some 0 ∧ offsets.getLast? = some data.size ∧
      ∀ p ∈ offsets.zip offsets.tail, p.1 ≤ p.2 := by
  unfold Fits
  cases h : attr.slotCount? <;> simp

theorem start_list (data : Column) {offsets : List Nat} {i : Nat} (hi : i < offsets.length) :
    offsets[i]? = some ((list offsets data).start i) := by
  simp [start, hi]

theorem Fits.cuts (h : c.Fits attr n) : c.Cuts n := by
  cases c with
  | fixed slots data =>
    obtain ⟨-, hsize⟩ := fits_fixed.1 h
    refine ⟨Nat.zero_mul _, fun i _ => Nat.mul_le_mul_right _ (Nat.le_succ i), ?_, fun i hi => ?_⟩
    · simp [start, ImageColumn.data, hsize, Nat.mul_comm]
    · have hle : (i + 1) * slots ≤ n * slots := Nat.mul_le_mul_right _ hi
      rw [Nat.succ_mul] at hle
      simp [ImageColumn.range?, start, hsize, Nat.succ_mul, Nat.mul_comm slots n, hle]
  | list offsets data =>
    obtain ⟨-, hlen, hhead, hlast, hmono⟩ := fits_list.1 h
    refine ⟨?_, fun i hi => ?_, ?_, fun i hi => ?_⟩
    · rw [List.head?_eq_getElem?] at hhead
      simp [start, hhead]
    · refine hmono ((list offsets data).start i, (list offsets data).start (i + 1)) ?_
      rw [List.mem_iff_getElem?]
      refine ⟨i, ?_⟩
      rw [List.getElem?_zip_eq_some, List.getElem?_tail]
      exact ⟨start_list data (by omega), start_list data (by omega)⟩
    · rw [List.getLast?_eq_getElem?, hlen] at hlast
      simp only [Nat.add_sub_cancel] at hlast
      simp [start, hlast, ImageColumn.data]
    · simp only [ImageColumn.range?]
      rw [start_list data (by omega), start_list data (by omega)]

theorem Holds.cuts (h : c.Holds attr n) : c.Cuts n := h.fits.cuts

theorem Holds.length_piece (h : c.Holds attr n) {i slots : Nat} (hi : i < n)
    (hs : attr.slotCount? = some slots) : (c.piece i).length = slots := by
  rw [h.cuts.length_piece hi]
  cases c with
  | fixed slots' data =>
    obtain ⟨hs', -⟩ := fits_fixed.1 h.fits
    rw [hs] at hs'
    cases hs'
    simp [start, Nat.succ_mul]
  | list offsets data =>
    rw [(fits_list.1 h.fits).1] at hs
    cases hs

theorem Holds.type_of_mem_piece (h : c.Holds attr n) {i : Nat} {v : Value} (hv : v ∈ c.piece i) :
    v.type = attr.type := (Cuts.type_of_mem_piece hv).trans h.type

/-- A column is made of its pieces. -/
theorem Holds.ext (hc : c.Holds attr n) (hd : d.Holds attr n)
    (h : ∀ i < n, c.piece i = d.piece i) : c = d := by
  have hpieces : ∀ k ≤ n, (List.range k).flatMap c.piece = (List.range k).flatMap d.piece := by
    intro k hk
    rw [List.flatMap_def, List.flatMap_def]
    congr 1
    exact List.map_congr_left fun i hi => h i (by have := List.mem_range.1 hi; omega)
  have hdata : c.data = d.data := Column.ext_values (hc.type.trans hd.type.symm) (by
    rw [hc.cuts.values_eq, hd.cuts.values_eq, hpieces n (Nat.le_refl n)])
  have hstart : ∀ k ≤ n, c.start k = d.start k := fun k hk => by
    rw [hc.cuts.start_eq hk, hd.cuts.start_eq hk, hpieces k hk]
  cases c with
  | fixed slots data =>
    obtain ⟨hs, -⟩ := fits_fixed.1 hc.fits
    cases d with
    | fixed slots' data' =>
      obtain ⟨hs', -⟩ := fits_fixed.1 hd.fits
      rw [hs] at hs'
      cases hs'
      rw [show data = data' from hdata]
    | list offsets data' =>
      rw [(fits_list.1 hd.fits).1] at hs
      cases hs
  | list offsets data =>
    obtain ⟨hs, hlen, -⟩ := fits_list.1 hc.fits
    cases d with
    | fixed slots data' =>
      rw [(fits_fixed.1 hd.fits).1] at hs
      cases hs
    | list offsets' data' =>
      obtain ⟨-, hlen', -⟩ := fits_list.1 hd.fits
      have hoff : offsets = offsets' := List.ext_getElem? fun i => by
        rcases Nat.lt_or_ge i (n + 1) with hi | hi
        · rw [start_list data (by omega), start_list data' (by omega),
            hstart i (by omega)]
        · rw [List.getElem?_eq_none (by omega), List.getElem?_eq_none (by omega)]
      rw [hoff, show data = data' from hdata]

end ImageColumn

namespace PoolImage

variable {p q : PoolImage} {schema : Schema} {n : Nat}

theorem checkColumn_ok {attr : Attribute} {column : ImageColumn} :
    checkColumn schema n attr column = .ok () ↔ column.Holds attr n := by
  unfold checkColumn
  by_cases ht : column.data.type = attr.type
  · by_cases hf : column.Fits attr n
    · simp [ht, hf, ImageColumn.Holds.mk]
    · simp only [ht, hf, ne_eq, not_true_eq_false, not_false_eq_true, ↓reduceIte, reduceCtorEq,
        false_iff]
      exact fun h => hf h.fits
  · simp only [ht, ne_eq, not_false_eq_true, ↓reduceIte, reduceCtorEq, false_iff]
    exact fun h => ht h.type

theorem check_ok : p.check schema n = .ok () ↔
    p.count = n ∧
      List.Forall₂ (fun attr column => column.Holds attr n) schema.attributes p.columns := by
  unfold check
  by_cases hn : p.count = n
  · by_cases hl : p.columns.length = schema.size
    · simp only [hn, hl, ne_eq, not_true_eq_false, ↓reduceIte, true_and]
      rw [Except.forM_ok, List.forall₂_iff_zip]
      simp only [checkColumn_ok, Prod.forall]
      exact ⟨fun h => ⟨hl.symm, fun {a b} => h a b⟩, fun h => h.2⟩
    · simp only [hn, hl, ne_eq, not_true_eq_false, not_false_eq_true, ↓reduceIte, reduceCtorEq,
        true_and, false_iff]
      exact fun h => hl h.length_eq.symm
  · simp [hn]

/-- The pieces of the columns are the values of an image that passes the check. -/
theorem values?_of_check (h : p.check schema n = .ok ()) {i a : Nat} {attr : Attribute} (hi : i < n)
    (ha : schema.attributes[a]? = some attr) :
    ∃ c, p.columns[a]? = some c ∧ c.Holds attr n ∧ p.values? i a = some (c.piece i) := by
  obtain ⟨rfl, hcols⟩ := check_ok.1 h
  obtain ⟨c, hc, hholds⟩ := hcols.exists_right ha
  refine ⟨c, hc, hholds, ?_⟩
  simp [values?, hi, column?, hc, hholds.cuts.range? i hi, hholds.cuts.read hi]

theorem values?_eq_none (h : p.check schema n = .ok ()) {i a : Nat}
    (hia : ¬ (i < n ∧ a < schema.size)) : p.values? i a = none := by
  obtain ⟨rfl, hcols⟩ := check_ok.1 h
  unfold values? column?
  by_cases hi : i < p.count
  · have ha : p.columns.length ≤ a := by
      rw [← hcols.length_eq]
      exact Nat.le_of_not_lt fun ha => hia ⟨hi, ha⟩
    simp [hi, List.getElem?_eq_none ha]
  · simp [hi]

/-- An image is made of the values it reads as. -/
theorem ext_of_check (hp : p.check schema n = .ok ()) (hq : q.check schema n = .ok ())
    (h : ∀ i < n, ∀ a < schema.size, p.values? i a = q.values? i a) : p = q := by
  obtain ⟨hpn, hpc⟩ := check_ok.1 hp
  obtain ⟨hqn, hqc⟩ := check_ok.1 hq
  have hcols : p.columns = q.columns :=
    hpc.right_ext hqc fun a attr c d hattr hc hd hch hdh => hch.ext hdh fun i hi => by
      obtain ⟨c', hc', -, hcv⟩ := values?_of_check hp hi hattr
      obtain ⟨d', hd', -, hdv⟩ := values?_of_check hq hi hattr
      rw [hc] at hc'
      rw [hd] at hd'
      cases hc'
      cases hd'
      rw [h i hi a (List.getElem?_eq_some_iff.1 hattr).1, hdv] at hcv
      exact (Option.some.inj hcv).symm
  cases p
  cases q
  simp_all

end PoolImage

end NodeStore
