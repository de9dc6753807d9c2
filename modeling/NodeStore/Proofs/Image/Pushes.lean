import NodeStore.Proofs.Action
import NodeStore.Proofs.ListColumn

/-!
# List columns after any pushes

A list column is put together instance by instance, of columns and of tagged values, and some of the
lists offered to it are refused (`ImageColumn.Push`). A push adds the elements that its list has in
the column's type (`ImageColumn.Push.elements?`) or, if there are none, nothing at all:

* `ImageColumn.Lists.push`, `ImageColumn.Lists.push_refused`: what one push does.
* `ImageColumn.Lists.after`: so after any pushes the column is that of the lists that went in.
* `ImageColumn.pushes_decode`: what is read from it by its offsets.
-/

namespace NodeStore

theorem le_of_mem_offsetsFrom {start i : Nat} {ns : List Nat} (h : i ∈ offsetsFrom start ns) :
    start ≤ i := by
  induction ns generalizing start with
  | nil => exact Nat.le_of_eq (List.mem_singleton.1 h).symm
  | cons n ns ih =>
    rcases List.mem_cons.1 h with rfl | h
    · exact Nat.le_refl i
    · exact Nat.le_trans (Nat.le_add_right start n) (ih h)

theorem pairwise_offsetsFrom (start : Nat) (ns : List Nat) :
    (offsetsFrom start ns).Pairwise (· ≤ ·) := by
  induction ns generalizing start with
  | nil => exact List.pairwise_singleton _ start
  | cons n ns ih =>
    refine List.pairwise_cons.2 ⟨fun i hi => ?_, ih (start + n)⟩
    exact Nat.le_trans (Nat.le_add_right start n) (le_of_mem_offsetsFrom hi)

namespace ImageColumn

open NodeStore.Action

/-- A list offered to a list column for one more instance. -/
inductive Push where
  | column (l : Column)
  | values (vs : List Value)

namespace Push

/-- Offers the list and tells whether it went in. -/
def perform : Push → Action ImageColumn Bool
  | .column l => fun c => ⟨.ok (c.pushColumn l).1, (c.pushColumn l).2, []⟩
  | .values vs => fun c => ⟨.ok (c.pushValues vs).1, (c.pushValues vs).2, []⟩

/-- The elements the list has in a column of a type: those of a column of this type, or what the
values convert to, if they all do. -/
def elements? (ty : AttrType) : Push → Option (List Value)
  | .column l => if l.type = ty then some l.values else none
  | .values vs => vs.mapM fun v => v.convert? ty

end Push

variable {c : ImageColumn} {ty : AttrType} {L : List (List Value)} {p : Push} {vs : List Value}

/-! ## Pushes -/

/-- A list that has elements in the type goes in. -/
theorem Lists.push (h : c.Lists ty L) (hvs : p.elements? ty = some vs) :
    (p.perform c).result = .ok true ∧ (p.perform c).state.Lists ty (L ++ [vs]) := by
  cases p with
  | column l =>
    have hl : l.type = ty := by
      by_contra hl
      simp [Push.elements?, hl] at hvs
    obtain rfl : l.values = vs := by simpa [Push.elements?, hl] using hvs
    obtain ⟨hfits, hlists⟩ := h.pushColumn hl
    exact ⟨congrArg Except.ok hfits, hlists⟩
  | values vs =>
    obtain ⟨hfits, hlists⟩ := h.pushValues_convert hvs
    exact ⟨congrArg Except.ok hfits, hlists⟩

/-- Any other leaves the column as it was. -/
theorem Lists.push_refused (h : c.Lists ty L) (hp : p.elements? ty = none) :
    p.perform c = ⟨.ok false, c, []⟩ := by
  cases p with
  | column l =>
    have hl : l.type ≠ ty := fun hl => by simp [Push.elements?, hl] at hp
    simp only [Push.perform, h.pushColumn_refused hl]
  | values vs => simp only [Push.perform, h.pushValues_refused hp]

/-- Any number of pushes: those went in that have elements in the type, one after the other. -/
theorem Lists.after (h : c.Lists ty L) (pushes : List Push) :
    (after Push.perform pushes c).Lists ty (L ++ pushes.filterMap (Push.elements? ty)) ∧
      answers Push.perform pushes c = pushes.map fun p => .ok (p.elements? ty).isSome := by
  induction pushes generalizing c L with
  | nil => exact ⟨by simpa using h, rfl⟩
  | cons p pushes ih =>
    rw [after_cons, answers, List.map_cons]
    cases hp : p.elements? ty with
    | some vs =>
      obtain ⟨hfits, hlists⟩ := h.push hp
      obtain ⟨hafter, hanswers⟩ := ih hlists
      refine ⟨?_, by rw [hfits, hanswers]; rfl⟩
      simpa [List.filterMap_cons_some hp] using hafter
    | none =>
      rw [h.push_refused hp, List.filterMap_cons_none hp]
      obtain ⟨hafter, hanswers⟩ := ih h
      exact ⟨hafter, by rw [hanswers]; rfl⟩

/-! ## Reading by the offsets -/

/-- The offsets start at zero, never decrease and end with the data, and they delimit the lists `L`,
one for each instance and none beyond. -/
structure Delimits (offsets : List Nat) (data : Column) (L : List (List Value)) : Prop where
  first : offsets.head? = some 0
  ordered : offsets.Pairwise (· ≤ ·)
  last : offsets.getLast? = some data.size
  count : (list offsets data).count = L.length
  range : ∀ k (hk : k < L.length), ∃ start stop,
    (list offsets data).range? k = some (start, stop) ∧ data.range? start stop = some L[k]
  beyond : ∀ k, L.length ≤ k → (list offsets data).range? k = none

theorem Lists.delimits (h : c.Lists ty L) :
    ∃ offsets data, c = list offsets data ∧ data.type = ty ∧ Delimits offsets data L := by
  have hcuts : c.Cuts L.length := by
    have hholds : c.Holds ⟨0, "", ty, 1, true, false⟩ L.length := h.holds rfl
    exact hholds.cuts
  have hpiece {k : Nat} (hk : k < L.length) := h.piece hk
  obtain ⟨data, rfl, ht, hv⟩ := h
  have hlen : (offsetsFrom 0 (L.map List.length)).length = L.length + 1 := by
    rw [length_offsetsFrom, List.length_map]
  refine ⟨_, data, rfl, ht, ⟨?_, pairwise_offsetsFrom 0 _, ?_, ?_, fun k hk => ?_, fun k hk => ?_⟩⟩
  · rw [List.head?_eq_getElem?, getElem?_offsetsFrom 0 (Nat.zero_le _)]
    rfl
  · rw [List.getLast?_eq_getElem?, length_offsetsFrom, Nat.add_sub_cancel,
      getElem?_offsetsFrom 0 (Nat.le_refl _), List.take_length, ← Column.length_values, hv,
      List.length_flatten, Nat.zero_add]
  · rw [count, hlen, Nat.add_sub_cancel]
  · exact ⟨_, _, hcuts.range? k hk, hpiece hk ▸ hcuts.read hk⟩
  · have hnone : (offsetsFrom 0 (L.map List.length))[k + 1]? = none :=
      List.getElem?_eq_none (by omega)
    simp only [range?, hnone]
    cases (offsetsFrom 0 (L.map List.length))[k]? <;> rfl

/-- After any pushes to a column of no instances, just those went in that have elements in its type,
and the column is read as these. One that does not leaves data and offsets as they are. -/
theorem pushes_decode (ty : AttrType) (pushes : List Push) :
    answers Push.perform pushes (noLists ty) =
      pushes.map (fun p => .ok (p.elements? ty).isSome) ∧
    ∃ offsets data, after Push.perform pushes (noLists ty) = list offsets data ∧ data.type = ty ∧
      Delimits offsets data (pushes.filterMap (Push.elements? ty)) ∧
      ∀ p : Push, p.elements? ty = none →
        p.perform (list offsets data) = ⟨.ok false, list offsets data, []⟩ := by
  obtain ⟨hlists, hanswers⟩ := (Lists.noLists ty).after pushes
  obtain ⟨offsets, data, hafter, ht, hdelimits⟩ := hlists.delimits
  refine ⟨hanswers, offsets, data, hafter, ht, hdelimits, fun p hp => ?_⟩
  rw [hafter] at hlists
  exact hlists.push_refused hp

/-- The second list is of another type, and the last value of the third does not convert. -/
example : (after Push.perform [.values [.int ⟨true, .two⟩ 5], .column (.empty .int16),
    .values [.int ⟨true, .one⟩ 6, .int ⟨true, .two⟩ 300], .values []] (noLists .int8)) =
      .list [0, 1, 1] ⟨.int8, [⟨5, by decide⟩]⟩ := by
  rfl

end ImageColumn

end NodeStore
