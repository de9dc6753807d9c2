import Mathlib.Algebra.BigOperators.Group.List.Lemmas
import NodeStore.Proofs.Image
import NodeStore.Proofs.Schema
import NodeStore.Query

/-!
# List columns put together list by list

`ImageColumn.Lists c ty L`: the column `c` is that of the lists `L`, one after the other in its
data, with the offsets of their starts and of the last end. Adding a list of values of the type
`ty`, as a column or as tagged values, makes the column of one list more (`Lists.pushColumn`,
`Lists.pushValues`). The pieces of such a column are its lists (`Lists.piece`, `Lists.holds`).
-/

namespace NodeStore

theorem length_offsetsFrom (start : Nat) (ns : List Nat) :
    (offsetsFrom start ns).length = ns.length + 1 := by
  induction ns generalizing start with
  | nil => rfl
  | cons n ns ih => simp [offsetsFrom, ih]

theorem getElem?_offsetsFrom (start : Nat) {ns : List Nat} {i : Nat} (hi : i ≤ ns.length) :
    (offsetsFrom start ns)[i]? = some (start + (ns.take i).sum) := by
  induction ns generalizing start i with
  | nil =>
    obtain rfl : i = 0 := Nat.le_zero.1 hi
    rfl
  | cons n ns ih =>
    cases i with
    | zero => rfl
    | succ i =>
      rw [offsetsFrom, List.getElem?_cons_succ, ih _ (by simpa using hi)]
      simp [Nat.add_assoc]

theorem offsetsFrom_concat (start : Nat) (ns : List Nat) (n : Nat) :
    offsetsFrom start (ns ++ [n]) = offsetsFrom start ns ++ [start + ns.sum + n] := by
  induction ns generalizing start with
  | nil => rfl
  | cons m ns ih => simp [offsetsFrom, ih, Nat.add_assoc]

namespace ImageColumn

/-- The column of the given lists. -/
def Lists (c : ImageColumn) (ty : AttrType) (L : List (List Value)) : Prop :=
  ∃ data, c = list (offsetsFrom 0 (L.map List.length)) data ∧ data.type = ty ∧
    data.values = L.flatten

namespace Lists

variable {c : ImageColumn} {ty : AttrType} {L : List (List Value)}

theorem noLists (ty : AttrType) : (ImageColumn.noLists ty).Lists ty [] :=
  ⟨.empty ty, rfl, rfl, rfl⟩

/-! ## One list more -/

/-- What either way of adding a list leaves behind. -/
theorem snoc {data : Column} {vs : List Value} (ht : data.type = ty)
    (hv : data.values = L.flatten ++ vs) :
    (list (offsetsFrom 0 (L.map List.length) ++ [data.size]) data).Lists ty (L ++ [vs]) := by
  refine ⟨data, ?_, ht, by simpa using hv⟩
  rw [List.map_append, List.map_cons, List.map_nil, offsetsFrom_concat, ← Column.length_values, hv]
  simp [List.length_flatten]

theorem pushColumn (h : c.Lists ty L) {l : Column} (hl : l.type = ty) :
    (c.pushColumn l).1 = true ∧ (c.pushColumn l).2.Lists ty (L ++ [l.values]) := by
  obtain ⟨data, rfl, ht, hv⟩ := h
  obtain ⟨e, he, het, hev⟩ := Column.append?_eq (c := data) (d := l) (hl.trans ht.symm)
  simp only [ImageColumn.pushColumn, he]
  exact ⟨trivial, snoc (het.trans ht) (by rw [hev, hv])⟩

/-- A list goes in as what its values convert to. -/
theorem pushValues_convert (h : c.Lists ty L) {vs ws : List Value}
    (hws : vs.mapM (fun v : Value => v.convert? ty) = some ws) :
    (c.pushValues vs).1 = true ∧ (c.pushValues vs).2.Lists ty (L ++ [ws]) := by
  obtain ⟨data, rfl, rfl, hv⟩ := h
  obtain ⟨e, he, het, hev⟩ := Column.pushAll_convert hws
  simp only [ImageColumn.pushValues, he]
  exact ⟨trivial, snoc het (by rw [hev, hv])⟩

theorem pushValues (h : c.Lists ty L) {vs : List Value} (hvs : ∀ v ∈ vs, v.type = ty) :
    (c.pushValues vs).1 = true ∧ (c.pushValues vs).2.Lists ty (L ++ [vs]) :=
  h.pushValues_convert (Value.mapM_convert?_self hvs)

theorem foldl_pushColumn (h : c.Lists ty L) {ls : List Column} (hls : ∀ l ∈ ls, l.type = ty) :
    (ls.foldl (fun image l => (image.pushColumn l).2) c).Lists ty (L ++ ls.map Column.values) := by
  induction ls generalizing c L with
  | nil => simpa using h
  | cons l ls ih =>
    rw [List.foldl_cons]
    have := ih (h.pushColumn (hls l (by simp))).2 fun m hm => hls m (List.mem_cons_of_mem _ hm)
    simpa using this

/-! ## Lists that are refused -/

theorem pushColumn_refused (h : c.Lists ty L) {l : Column} (hl : l.type ≠ ty) :
    c.pushColumn l = (false, c) := by
  obtain ⟨data, rfl, rfl, -⟩ := h
  simp [ImageColumn.pushColumn, Column.append?, hl]

/-- The values that went in before the one that does not convert are taken out again. -/
theorem pushValues_refused (h : c.Lists ty L) {vs : List Value}
    (hvs : vs.mapM (fun v : Value => v.convert? ty) = none) : c.pushValues vs = (false, c) := by
  obtain ⟨data, rfl, rfl, -⟩ := h
  have hfails := Column.pushAll_refused hvs
  have hback := data.truncate_pushAll vs
  rcases hout : data.pushAll vs with ⟨fits, partly⟩
  rw [hout] at hfails hback
  obtain rfl : fits = false := hfails
  simp only [ImageColumn.pushValues, hout, hback]

/-! ## Its pieces -/

theorem start_eq (h : c.Lists ty L) {i : Nat} (hi : i ≤ L.length) :
    c.start i = ((L.map List.length).take i).sum := by
  obtain ⟨data, rfl, -, -⟩ := h
  simp [start, getElem?_offsetsFrom 0 (show i ≤ (L.map List.length).length by simpa using hi)]

theorem piece (h : c.Lists ty L) {i : Nat} (hi : i < L.length) : c.piece i = L[i] := by
  have hs := h.start_eq (Nat.le_of_lt hi)
  have hs' := h.start_eq (show i + 1 ≤ L.length from hi)
  obtain ⟨data, rfl, -, hv⟩ := h
  rw [ImageColumn.piece, hs, hs', ← List.drop_take]
  exact hv ▸ List.drop_take_succ_flatten_eq_getElem L i hi

theorem holds {attr : Attribute} (h : c.Lists attr.type L) (ha : attr.isList = true) :
    c.Holds attr L.length := by
  obtain ⟨data, rfl, ht, hv⟩ := h
  have hlen : (offsetsFrom 0 (L.map List.length)).length = L.length + 1 := by
    rw [length_offsetsFrom, List.length_map]
  have hget {i : Nat} (hi : i ≤ L.length) := getElem?_offsetsFrom 0
    (show i ≤ (L.map List.length).length by simpa using hi)
  refine ⟨ht, fits_list.2 ⟨Attribute.slotCount?_eq_none.2 ha, hlen, ?_, ?_, fun p hp => ?_⟩⟩
  · rw [List.head?_eq_getElem?, hget (Nat.zero_le _)]
    rfl
  · rw [List.getLast?_eq_getElem?, hlen, Nat.add_sub_cancel, hget (Nat.le_refl _),
      ← Column.length_values, hv]
    simp [List.length_flatten, List.take_of_length_le]
  · obtain ⟨i, hi⟩ := List.mem_iff_getElem?.1 hp
    rw [List.getElem?_zip_eq_some, List.getElem?_tail] at hi
    have hlt : i + 1 < L.length + 1 := by
      rw [← hlen]
      exact (List.getElem?_eq_some_iff.1 hi.2).1
    rw [hget (by omega), hget (by omega)] at hi
    rw [← Option.some.inj hi.1, ← Option.some.inj hi.2, List.take_add_one]
    simp

end Lists

/-- A flat column of runs of one length. -/
theorem fixed_holds {attr : Attribute} {slots : Nat} {data : Column} {L : List (List Value)}
    (ha : attr.slotCount? = some slots) (ht : data.type = attr.type)
    (hv : data.values = L.flatten) (hL : ∀ vs ∈ L, vs.length = slots) :
    (fixed slots data).Holds attr L.length ∧
      ∀ (i : Nat) (hi : i < L.length), (fixed slots data).piece i = L[i] := by
  have hlens : L.map List.length = List.replicate L.length slots :=
    List.eq_replicate_iff.2 ⟨by simp, fun n hn => by
      obtain ⟨vs, hvs, rfl⟩ := List.mem_map.1 hn
      exact hL vs hvs⟩
  have hstart : ∀ i ≤ L.length, ((L.map List.length).take i).sum = i * slots := fun i hi => by
    rw [hlens, List.take_replicate, Nat.min_eq_left hi]
    simp
  refine ⟨⟨ht, fits_fixed.2 ⟨ha, ?_⟩⟩, fun i hi => ?_⟩
  · rw [← Column.length_values, hv, List.length_flatten, hlens]
    simp [Nat.mul_comm]
  · rw [piece, start, start, ← hstart i (Nat.le_of_lt hi), ← hstart (i + 1) hi, ← List.drop_take]
    exact hv ▸ List.drop_take_succ_flatten_eq_getElem L i hi

end ImageColumn

end NodeStore
