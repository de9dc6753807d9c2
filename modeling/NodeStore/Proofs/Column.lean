import NodeStore.Column
import NodeStore.Proofs.Value

/-!
# Columns as lists of values

A column is its type and its tagged values (`Column.ext_values`). Values of its own type go in
unchanged, and each operation on the column is one on the list of values.
-/

namespace NodeStore.Column

variable {c d : Column} {v w : Value} {vs ws : List Value}

@[simp] theorem length_values (c : Column) : c.values.length = c.size := by
  simp [values, size]

theorem type_of_mem_values (h : v ∈ c.values) : v.type = c.type := by
  obtain ⟨x, -, rfl⟩ := List.mem_map.1 h
  rfl

theorem get?_eq (c : Column) (i : Nat) : c.get? i = c.values[i]? := by
  simp [get?, values]

/-- Type and values make the column. -/
theorem ext_values (ht : c.type = d.type) (hv : c.values = d.values) : c = d := by
  obtain ⟨ty, xs⟩ := c
  obtain ⟨ty', ys⟩ := d
  obtain rfl : ty = ty' := ht
  have hxy : xs = ys := (List.map_inj_right fun x y h => by cases h; rfl).1 hv
  rw [hxy]

/-! ## Writing -/

theorem values_set {i : Nat} (hi : i < c.size) (hv : v.type = c.type) :
    ∃ d, c.set? i v = some d ∧ d.type = c.type ∧ d.values = c.values.set i v := by
  obtain ⟨ty, x⟩ := v
  obtain rfl : ty = c.type := hv
  have hx : Value.cast? ⟨c.type, x⟩ c.type = some x := Value.cast?_self ⟨c.type, x⟩
  exact ⟨{ c with data := c.data.set i x }, by simp [set?, hi, hx], rfl, by simp [values]⟩

theorem type_setFrom (c : Column) (i : Nat) (vs : List Value) : (c.setFrom i vs).type = c.type := by
  induction vs generalizing c i with
  | nil => rfl
  | cons v vs ih =>
    rw [setFrom, ih]
    unfold set?
    split
    · cases v.cast? c.type <;> rfl
    · rfl

theorem size_setFrom (c : Column) (i : Nat) (vs : List Value) : (c.setFrom i vs).size = c.size := by
  induction vs generalizing c i with
  | nil => rfl
  | cons v vs ih =>
    rw [setFrom, ih]
    unfold set?
    split
    · cases v.cast? c.type <;> simp [size]
    · rfl

theorem values_setFrom {i : Nat} (hi : i + vs.length ≤ c.size) (hv : ∀ v ∈ vs, v.type = c.type)
    (k : Nat) : (c.setFrom i vs).values[k]? =
      if i ≤ k ∧ k < i + vs.length then vs[k - i]? else c.values[k]? := by
  induction vs generalizing c i with
  | nil =>
    simp only [setFrom, List.length_nil, Nat.add_zero]
    rw [if_neg (by omega)]
  | cons v vs ih =>
    simp only [List.length_cons] at hi ⊢
    obtain ⟨d, hd, hty, hvals⟩ := values_set (c := c) (i := i) (by omega) (hv v (by simp))
    have hsize : d.size = c.size := by rw [← length_values, hvals]; simp
    rw [setFrom, hd, Option.getD_some, ih (by omega) (fun w hw => by
      rw [hty]; exact hv w (List.mem_cons_of_mem _ hw)), hvals]
    rcases Nat.lt_trichotomy k i with h | rfl | h
    · rw [if_neg (by omega), if_neg (by omega), List.getElem?_set_ne (by omega)]
    · rw [if_neg (by omega), if_pos (by omega)]
      simp [show k < c.size by omega]
    · rw [List.getElem?_set_ne (by omega)]
      obtain ⟨j, rfl⟩ : ∃ j, k = i + 1 + j := ⟨k - (i + 1), by omega⟩
      rw [show i + 1 + j - i = j + 1 by omega, show i + 1 + j - (i + 1) = j by omega,
        List.getElem?_cons_succ]
      by_cases hj : j < vs.length
      · rw [if_pos (by omega), if_pos (by omega)]
      · rw [if_neg (by omega), if_neg (by omega)]

/-- A value goes in as what it converts to. -/
theorem push?_convert (h : v.convert? c.type = some w) :
    ∃ d, c.push? v = some d ∧ d.type = c.type ∧ d.values = c.values ++ [w] := by
  obtain ⟨x, hx, rfl⟩ := Option.map_eq_some_iff.1 h
  have hx : v.cast? c.type = some x := hx
  exact ⟨{ c with data := c.data ++ [x] }, by simp [push?, hx], rfl, by simp [values]⟩

theorem push?_eq (hv : v.type = c.type) :
    ∃ d, c.push? v = some d ∧ d.type = c.type ∧ d.values = c.values ++ [v] :=
  push?_convert (hv ▸ v.convert?_self)

theorem push?_eq_none (h : v.convert? c.type = none) : c.push? v = none := by
  have hv : v.cast? c.type = none := Option.map_eq_none_iff.1 h
  simp [push?, hv]

theorem foldl_push (hv : ∀ v ∈ vs, v.type = c.type) :
    (vs.foldl push c).type = c.type ∧ (vs.foldl push c).values = c.values ++ vs := by
  induction vs generalizing c with
  | nil => simp
  | cons v vs ih =>
    obtain ⟨d, hd, hty, hvals⟩ := push?_eq (c := c) (hv v (by simp))
    rw [List.foldl_cons, push, hd, Option.getD_some]
    obtain ⟨h1, h2⟩ := ih (c := d) fun w hw => by rw [hty]; exact hv w (List.mem_cons_of_mem _ hw)
    exact ⟨h1.trans hty, by rw [h2, hvals]; simp⟩

/-- Values that all convert go in as what they convert to. -/
theorem pushAll_convert (h : vs.mapM (fun v : Value => v.convert? c.type) = some ws) :
    ∃ d, c.pushAll vs = (true, d) ∧ d.type = c.type ∧ d.values = c.values ++ ws := by
  induction vs generalizing c ws with
  | nil =>
    obtain rfl : [] = ws := Option.some.inj h
    exact ⟨c, rfl, rfl, by simp⟩
  | cons v vs ih =>
    rw [List.mapM_cons] at h
    obtain ⟨w, hw, h⟩ := Option.bind_eq_some_iff.1 h
    obtain ⟨ws, hws, h⟩ := Option.bind_eq_some_iff.1 h
    obtain rfl := Option.some.inj h
    obtain ⟨d, hd, hty, hvals⟩ := push?_convert hw
    obtain ⟨e, he, hty', hvals'⟩ := ih (c := d) (by rwa [hty])
    exact ⟨e, by rw [pushAll, hd]; exact he, hty'.trans hty, by rw [hvals', hvals]; simp⟩

/-- One value that does not convert is enough. -/
theorem pushAll_refused (h : vs.mapM (fun v : Value => v.convert? c.type) = none) :
    (c.pushAll vs).1 = false := by
  induction vs generalizing c with
  | nil => cases h
  | cons v vs ih =>
    rw [List.mapM_cons] at h
    cases hw : v.convert? c.type with
    | none => rw [pushAll, push?_eq_none hw]
    | some w =>
      obtain ⟨d, hd, hty, -⟩ := push?_convert hw
      rw [pushAll, hd]
      refine ih ?_
      rw [hty]
      cases hws : vs.mapM (fun v : Value => v.convert? c.type) with
      | none => rfl
      | some ws => simp [hw, hws] at h

/-- Whether or not all of them go in, what was there before is not touched. -/
theorem truncate_pushAll (c : Column) (vs : List Value) :
    (c.pushAll vs).2.truncate c.size = c := by
  suffices h : ∃ xs, (c.pushAll vs).2 = { c with data := c.data ++ xs } by
    obtain ⟨xs, h⟩ := h
    rw [h, truncate, size, List.take_left]
  induction vs generalizing c with
  | nil => exact ⟨[], by simp [pushAll]⟩
  | cons v vs ih =>
    rw [pushAll]
    cases hx : v.cast? c.type with
    | none => exact ⟨[], by simp [push?, hx]⟩
    | some x =>
      obtain ⟨xs, hxs⟩ := ih { c with data := c.data ++ [x] }
      exact ⟨x :: xs, by simpa [push?, hx] using hxs⟩

theorem append?_eq (ht : d.type = c.type) :
    ∃ e, c.append? d = some e ∧ e.type = c.type ∧ e.values = c.values ++ d.values := by
  obtain ⟨ty, ys⟩ := d
  obtain rfl : ty = c.type := ht
  exact ⟨{ c with data := c.data ++ ys }, by simp [append?], rfl, by simp [values]⟩

/-! ## Blank columns -/

@[simp] theorem values_empty (ty : AttrType) : (empty ty).values = [] := rfl

@[simp] theorem values_zeroed (ty : AttrType) (n : Nat) :
    (zeroed ty n).values = List.replicate n (Value.zero ty) := by
  simp [zeroed, values, Value.zero]

@[simp] theorem size_zeroed (ty : AttrType) (n : Nat) : (zeroed ty n).size = n := by
  simp [zeroed, size]

@[simp] theorem values_clear (c : Column) : c.clear.values = [] := rfl

/-! ## Slices -/

theorem slice?_eq {start stop : Nat} (h : start ≤ stop) (h' : stop ≤ c.size) :
    ∃ d, c.slice? start stop = some d ∧ d.type = c.type ∧
      d.values = (c.values.drop start).take (stop - start) :=
  ⟨_, if_pos ⟨h, h'⟩, rfl, by simp [values, List.map_take, List.map_drop]⟩

theorem range?_eq {start stop : Nat} (h : start ≤ stop) (h' : stop ≤ c.size) :
    c.range? start stop = some ((c.values.drop start).take (stop - start)) := by
  obtain ⟨d, hd, -, hvals⟩ := slice?_eq h h'
  rw [range?, hd, Option.map_some, hvals]

end NodeStore.Column
