import Mathlib.Data.List.Forall2
import Mathlib.Data.List.Nodup

/-!
# Lists related position by position

`List.Forall₂` through look-ups: what stands at a position of one list is related to what stands
there in the other.
-/

namespace List.Forall₂

variable {α β : Type} {R : α → β → Prop} {l : List α} {m : List β} {i : Nat} {a : α} {b : β}

theorem exists_right (h : Forall₂ R l m) (ha : l[i]? = some a) : ∃ b, m[i]? = some b ∧ R a b := by
  induction h generalizing i with
  | nil => simp at ha
  | cons hab _ ih =>
    cases i with
    | zero =>
      cases ha
      exact ⟨_, rfl, hab⟩
    | succ i => exact ih ha

theorem exists_left (h : Forall₂ R l m) (hb : m[i]? = some b) : ∃ a, l[i]? = some a ∧ R a b :=
  h.flip.exists_right hb

theorem at_pos (h : Forall₂ R l m) (ha : l[i]? = some a) (hb : m[i]? = some b) : R a b := by
  obtain ⟨b', hb', hab⟩ := h.exists_right ha
  rw [hb] at hb'
  cases hb'
  exact hab

theorem of_pos (hlen : l.length = m.length)
    (h : ∀ (i : Nat) a b, l[i]? = some a → m[i]? = some b → R a b) : Forall₂ R l m := by
  induction l generalizing m with
  | nil => cases m <;> simp_all
  | cons a l ih =>
    cases m with
    | nil => simp at hlen
    | cons b m =>
      exact .cons (h 0 a b rfl rfl) (ih (by simpa using hlen) fun i => h (i + 1))

/-- Two lists related to the same one are equal if they agree at every position. -/
theorem right_ext {m' : List β} (h : Forall₂ R l m) (h' : Forall₂ R l m')
    (heq : ∀ (i : Nat) a b b', l[i]? = some a → m[i]? = some b → m'[i]? = some b' →
      R a b → R a b' → b = b') : m = m' := by
  refine List.ext_getElem (h.length_eq.symm.trans h'.length_eq) fun i hi hi' => ?_
  have hm : m[i]? = some m[i] := List.getElem?_eq_getElem hi
  have hm' : m'[i]? = some m'[i] := List.getElem?_eq_getElem hi'
  obtain ⟨a, ha, hab⟩ := h.exists_left hm
  exact heq i a _ _ ha hm hm' hab (h'.at_pos ha hm')

/-- Both lists with one position overwritten. -/
theorem set (h : Forall₂ R l m) (i : Nat) (hab : R a b) : Forall₂ R (l.set i a) (m.set i b) := by
  induction h generalizing i with
  | nil => exact .nil
  | cons hcd htl ih =>
    cases i with
    | zero => exact .cons hab htl
    | succ i => exact .cons hcd (ih i)

/-- One list with a position overwritten, related to what stood there already. -/
theorem set_right (h : Forall₂ R l m) (i : Nat) (hb : ∀ a, l[i]? = some a → R a b) :
    Forall₂ R l (m.set i b) := by
  induction h generalizing i with
  | nil => exact .nil
  | cons hcd htl ih =>
    cases i with
    | zero => exact .cons (hb _ rfl) htl
    | succ i => exact .cons hcd (ih i hb)

end List.Forall₂

/-- Setting an element to one that is mapped alike leaves what the list is mapped to. -/
theorem List.map_set_of_eq {α β : Type} {l : List α} {i : Nat} {a b : α} {f : α → β}
    (ha : l[i]? = some a) (hab : f b = f a) : (l.set i b).map f = l.map f := by
  obtain ⟨hlt, rfl⟩ := List.getElem?_eq_some_iff.1 ha
  rw [List.map_set, hab, ← List.getElem_map f, List.set_getElem_self]
  simpa using hlt
