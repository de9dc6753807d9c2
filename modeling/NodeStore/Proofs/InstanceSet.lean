import NodeStore.InstanceSet

/-!
# Membership of instance sets

What is in a set after it was changed: an added index and what was there before
(`InstanceSet.contains_insert`), every index below a bound and what was there before
(`InstanceSet.contains_insertBelow`). Words are added as needed and hold nothing at first, so
growing alone is not seen (`InstanceSet.word_grow`). Either way the set only gains, and only indices
that were given (`InstanceSet.Gains`).
-/

namespace NodeStore.InstanceSet

variable (s : InstanceSet) (i j n w : Nat)

theorem contains_empty : empty.contains i = false := BitVec.getLsbD_zero

theorem contains_clear : s.clear.contains i = false := contains_empty i

theorem length_words_grow : (s.grow n).words.length = max s.words.length n := by
  simp only [grow, List.length_append, List.length_replicate]
  omega

theorem word_grow : (s.grow n).word w = s.word w := by
  unfold word grow
  rw [List.getElem?_append]
  split
  · rfl
  · rename_i hw
    rw [List.getElem?_eq_none (l := s.words) (by omega), List.getElem?_replicate]
    split <;> rfl

theorem word_set {k : Nat} (hk : k < s.words.length) (b : BitVec 64) :
    (mk (s.words.set k b)).word w = if k = w then b else s.word w := by
  rw [word, List.getElem?_set, if_pos hk]
  split <;> rfl

/-! ## One index -/

theorem word_insert : (s.insert i).word w =
    if i / 64 = w then s.word w ||| BitVec.twoPow 64 (i % 64) else s.word w := by
  have hlt : i / 64 < (s.grow (i / 64 + 1)).words.length := by
    rw [length_words_grow]
    omega
  rw [insert, word_set _ w hlt, word_grow, word_grow]
  split
  · rename_i hw
    rw [hw]
  · rfl

theorem contains_insert : (s.insert i).contains j = (decide (j = i) || s.contains j) := by
  have hbit : i % 64 < 64 := Nat.mod_lt i (by decide)
  rw [contains, word_insert, contains]
  split
  · rename_i hword
    -- in the word of `i` the bits tell the indices apart
    have hsame : i % 64 = j % 64 ↔ j = i := by omega
    simp [BitVec.getLsbD_or, hbit, hsame, Bool.or_comm]
  · rename_i hword
    have hne : j ≠ i := by omega
    simp [hne]

/-! ## All indices below a bound -/

theorem getLsbD_lowBits (hn : n ≤ 64) : (lowBits n).getLsbD i = decide (i < n) := by
  rw [lowBits, BitVec.getLsbD_ofNat, Nat.testBit_two_pow_sub_one]
  by_cases hi : i < n
  · simp [hi, Nat.lt_of_lt_of_le hi hn]
  · simp [hi]

theorem length_words_fill (hn : n ≤ s.words.length) :
    (s.fill n).words.length = s.words.length := by
  rw [fill, List.length_append, List.length_replicate, List.length_drop, Nat.add_sub_cancel' hn]

theorem word_fill : (s.fill n).word w = if w < n then BitVec.allOnes 64 else s.word w := by
  rw [word, fill, List.getElem?_append, List.length_replicate]
  split
  · rename_i hw
    rw [List.getElem?_replicate_of_lt hw, Option.getD_some]
  · rename_i hw
    rw [List.getElem?_drop, Nat.add_sub_cancel' (Nat.not_lt.1 hw), word]

theorem word_insertBelow : (s.insertBelow n).word w =
    if w < n / 64 then BitVec.allOnes 64
    else if n / 64 = w then s.word w ||| lowBits (n % 64)
    else s.word w := by
  unfold insertBelow
  dsimp only
  split
  · rename_i hrest
    have hlt : n / 64 < ((s.grow (n / 64 + 1)).fill (n / 64)).words.length := by
      rw [length_words_fill _ _ (by rw [length_words_grow]; omega), length_words_grow]
      omega
    rw [word_set _ w hlt, word_fill, word_fill, word_grow, word_grow, if_neg (Nat.lt_irrefl _)]
    split
    · rename_i hw
      rw [if_neg (by omega), hw]
    · rfl
  · rename_i hrest
    have hzero : n % 64 = 0 := by omega
    have hempty : lowBits 0 = 0#64 := rfl
    rw [word_fill, word_grow, hzero, hempty, BitVec.or_zero, ite_self]

theorem contains_insertBelow :
    (s.insertBelow n).contains j = (decide (j < n) || s.contains j) := by
  have hbit : j % 64 < 64 := Nat.mod_lt j (by decide)
  rw [contains, word_insertBelow, contains]
  split
  · have hlt : j < n := by omega
    rw [BitVec.getLsbD_allOnes, decide_eq_true hbit, decide_eq_true hlt, Bool.true_or]
  · split
    · have hlow : j % 64 < n % 64 ↔ j < n := by omega
      rw [BitVec.getLsbD_or, getLsbD_lowBits _ _ (by omega), Bool.or_comm, decide_eq_decide.2 hlow]
    · have hge : ¬ j < n := by omega
      simp [hge]

/-! ## Sets that gain -/

/-- The set `t` has what `s` has, and else only indices below the bound. -/
structure Gains (s t : InstanceSet) (n : Nat) : Prop where
  kept : ∀ i, s.contains i = true → t.contains i = true
  new : ∀ i, t.contains i = true → s.contains i = true ∨ i < n

theorem Gains.refl : s.Gains s n := ⟨fun _ hi => hi, fun _ hi => .inl hi⟩

variable {i n}

theorem gains_insert (hi : i < n) : s.Gains (s.insert i) n where
  kept j hj := by rw [contains_insert, hj, Bool.or_true]
  new j hj := by
    rw [contains_insert, Bool.or_eq_true, decide_eq_true_iff] at hj
    rcases hj with rfl | hj
    · exact .inr hi
    · exact .inl hj

theorem gains_insertBelow : s.Gains (s.insertBelow n) n where
  kept j hj := by rw [contains_insertBelow, hj, Bool.or_true]
  new j hj := by
    rw [contains_insertBelow, Bool.or_eq_true, decide_eq_true_iff] at hj
    exact hj.symm

end NodeStore.InstanceSet
