import Mathlib.Data.Finset.Card
import Mathlib.Data.Finset.Lattice.Lemmas
import Mathlib.Data.Finset.Range
import NodeStore.Proofs.InstanceSet

/-!
# Instance sets are finite sets

An instance set stands for the finite set of the indices it contains, whatever calls built it and
however many words they left (`InstanceSet.run_is_finite_set`). What it tells of itself it reads off
its words, and all of it follows from what it contains:

* `InstanceSet.word_eq_of_contains`: sets that contain the same have the same words, but for absent
  ones. So they are equal, and a set that contains nothing is empty.
* `InstanceSet.Iter.Next`: a step of an iteration gives the least index ahead and leaves the others
  ahead. So an iteration gives what the set contains, in ascending order, and as many indices as
  there are bits (`InstanceSet.Iter.toList_spec`).
* `InstanceSet.Denotes.perform`: a call does to the indices what it does to the finite set.
-/

namespace NodeStore.InstanceSet

variable {s t : InstanceSet} {w : BitVec 64} {i j k : Nat}

/-! ## Sets that contain the same -/

theorem contains_mul_add (s : InstanceSet) (k : Nat) {b : Nat} (hb : b < 64) :
    s.contains (64 * k + b) = (s.word k).getLsbD b := by
  rw [contains, show (64 * k + b) / 64 = k by omega, show (64 * k + b) % 64 = b by omega]

theorem word_eq_of_contains (h : ∀ i, s.contains i = t.contains i) (k : Nat) :
    s.word k = t.word k := by
  refine BitVec.eq_of_getLsbD_eq fun b hb => ?_
  rw [← contains_mul_add s k hb, ← contains_mul_add t k hb, h]

theorem word_eq_zero (h : s.words.length ≤ k) : s.word k = 0#64 := by
  rw [word, List.getElem?_eq_none h, Option.getD_none]
  rfl

theorem word_eq_getElem (h : k < s.words.length) : s.word k = s.words[k] := by
  rw [word, List.getElem?_eq_getElem h, Option.getD_some]

theorem same_iff : s.same t = true ↔ ∀ i, s.contains i = t.contains i := by
  simp only [same, List.all_eq_true, List.mem_range, beq_iff_eq]
  refine ⟨fun h i => ?_, fun h k _ => word_eq_of_contains h k⟩
  -- beyond the words of both there is nothing to compare
  rcases Nat.lt_or_ge (i / 64) (max s.words.length t.words.length) with hi | hi
  · rw [contains, h _ hi, contains]
  · rw [contains, contains, word_eq_zero (by omega), word_eq_zero (by omega)]

theorem isEmpty_iff : s.isEmpty = true ↔ ∀ i, s.contains i = false := by
  simp only [isEmpty, List.all_eq_true, beq_iff_eq]
  refine ⟨fun h i => ?_, fun h b hb => ?_⟩
  · rcases Nat.lt_or_ge (i / 64) s.words.length with hi | hi
    · rw [contains, word_eq_getElem hi, h _ (List.getElem_mem hi)]
      exact BitVec.getLsbD_zero
    · rw [contains, word_eq_zero hi]
      exact BitVec.getLsbD_zero
  · obtain ⟨k, hk, rfl⟩ := List.mem_iff_getElem.1 hb
    rw [← word_eq_getElem hk, word_eq_of_contains fun i => (h i).trans (contains_empty i).symm]
    rfl

/-! ## The lowest bit -/

theorem ctz_lt (hw : w ≠ 0) : w.ctz.toNat < 64 :=
  BitVec.lt_of_getLsbD (BitVec.getLsbD_true_ctz_of_ne_zero hw)

/-- A word is made of its lowest bit and what is above. -/
theorem toNat_eq_of_lowest (hw : w ≠ 0) :
    ∃ q, w.toNat = 2 ^ (w.ctz.toNat + 1) * q + 2 ^ w.ctz.toNat := by
  have hbelow : w.toNat % 2 ^ w.ctz.toNat = 0 := by
    refine Nat.eq_of_testBit_eq fun i => ?_
    rw [Nat.testBit_mod_two_pow, Nat.zero_testBit, Bool.and_eq_false_imp]
    exact fun hi => BitVec.getLsbD_false_of_lt_ctz (of_decide_eq_true hi)
  have hbit : w.toNat / 2 ^ w.ctz.toNat % 2 = 1 := by
    have hset : w.toNat.testBit w.ctz.toNat = true := BitVec.getLsbD_true_ctz_of_ne_zero hw
    rwa [Nat.testBit_eq_decide_div_mod_eq, decide_eq_true_iff] at hset
  have hlowest : w.toNat % 2 ^ (w.ctz.toNat + 1) = 2 ^ w.ctz.toNat := by
    rw [Nat.mod_pow_succ, hbelow, hbit, Nat.zero_add, Nat.mul_one]
  exact ⟨w.toNat / 2 ^ (w.ctz.toNat + 1), by rw [← hlowest, Nat.div_add_mod]⟩

/-- Taking one away borrows from the lowest bit and keeps what is above. -/
theorem getLsbD_strip (hw : w ≠ 0) (i : Nat) :
    (w &&& (w - 1)).getLsbD i = (w.getLsbD i && decide (i ≠ w.ctz.toNat)) := by
  obtain ⟨q, hq⟩ := toNat_eq_of_lowest hw
  have hpos := Nat.two_pow_pos w.ctz.toNat
  have hgrow : 2 ^ w.ctz.toNat < 2 ^ (w.ctz.toNat + 1) := Nat.pow_lt_pow_succ Nat.one_lt_two
  have hless : (w - 1).toNat = 2 ^ (w.ctz.toNat + 1) * q + (2 ^ w.ctz.toNat - 1) := by
    have : (w - 1).toNat = w.toNat - 1 := by bv_omega
    omega
  have hbit : (w - 1).getLsbD i = if i < w.ctz.toNat + 1 then decide (i < w.ctz.toNat)
      else q.testBit (i - (w.ctz.toNat + 1)) := by
    rw [BitVec.getLsbD, hless, Nat.testBit_two_pow_mul_add q (by omega),
      Nat.testBit_two_pow_sub_one]
  rw [BitVec.getLsbD_and, hbit]
  -- below its lowest bit the word has nothing, and at it the word less one has nothing
  rcases Nat.lt_trichotomy i w.ctz.toNat with hi | rfl | hi
  · rw [BitVec.getLsbD_false_of_lt_ctz hi, Bool.false_and, Bool.false_and]
  · simp
  · have habove : w.getLsbD i = q.testBit (i - (w.ctz.toNat + 1)) := by
      rw [BitVec.getLsbD, hq, Nat.testBit_two_pow_mul_add q hgrow, if_neg (by omega)]
    simp [habove, show ¬ i < w.ctz.toNat + 1 by omega, hi.ne']

theorem mem_bitsOf : i ∈ bitsOf w ↔ w.getLsbD i = true := by
  rw [bitsOf, List.mem_filter, List.mem_range]
  exact ⟨And.right, fun h => ⟨BitVec.lt_of_getLsbD h, h⟩⟩

theorem length_bitsOf_strip (hw : w ≠ 0) :
    (bitsOf w).length = (bitsOf (w &&& (w - 1))).length + 1 := by
  have hnodup : (bitsOf w).Nodup := List.nodup_range.filter _
  have hmem : w.ctz.toNat ∈ bitsOf w := mem_bitsOf.2 (BitVec.getLsbD_true_ctz_of_ne_zero hw)
  have herase : bitsOf (w &&& (w - 1)) = (bitsOf w).erase w.ctz.toNat := by
    rw [hnodup.erase_eq_filter, bitsOf, bitsOf, List.filter_filter]
    refine List.filter_congr fun i _ => ?_
    rw [getLsbD_strip hw, Bool.and_comm, decide_not, bne, beq_eq_decide]
  rw [herase, List.length_erase_of_mem hmem]
  have := List.length_pos_of_mem hmem
  omega

/-! ## Iteration -/

namespace Iter

variable {it it' : Iter}

/-- The index is still to come: its bit is left in the current word, or in a word after it. -/
def Ahead (it : Iter) (i : Nat) : Prop :=
  i / 64 = it.position ∧ it.current.getLsbD (i % 64) = true ∨
    it.position < i / 64 ∧ (InstanceSet.mk it.words).contains i = true

/-- The number of bits left. -/
def left (it : Iter) : Nat :=
  (bitsOf it.current).length +
    ((it.words.drop (it.position + 1)).map fun w => (bitsOf w).length).sum

/-- A step from `it` to `it'` that gives `i`: the least index ahead, and just this one is gone. -/
structure Next (it : Iter) (i : Nat) (it' : Iter) : Prop where
  ahead : it.Ahead i
  least : ∀ j, it.Ahead j → i ≤ j
  rest : ∀ j, it'.Ahead j ↔ it.Ahead j ∧ j ≠ i
  left : it.left = it'.left + 1

/-- At a word that has a bit. -/
theorem next_current (hw : it.current ≠ 0) :
    it.Next (64 * it.position + it.current.ctz.toNat)
      { it with current := it.current &&& (it.current - 1) } := by
  have hlt := ctz_lt hw
  refine ⟨.inl ⟨by omega, ?_⟩, fun j hj => ?_, fun j => ?_, ?_⟩
  · rw [show (64 * it.position + it.current.ctz.toNat) % 64 = it.current.ctz.toNat by omega]
    exact BitVec.getLsbD_true_ctz_of_ne_zero hw
  · rcases hj with ⟨hpos, hbit⟩ | ⟨hpos, -⟩
    · have hge : ¬ j % 64 < it.current.ctz.toNat := fun hlow => by
        rw [BitVec.getLsbD_false_of_lt_ctz hlow] at hbit
        cases hbit
      omega
    · omega
  · have hhere (hpos : j / 64 = it.position) :
        j % 64 ≠ it.current.ctz.toNat ↔ j ≠ 64 * it.position + it.current.ctz.toNat := by
      omega
    have hafter (hpos : it.position < j / 64) :
        j ≠ 64 * it.position + it.current.ctz.toNat := by omega
    simp only [Ahead, getLsbD_strip hw, Bool.and_eq_true, decide_eq_true_eq]
    constructor
    · rintro (⟨hpos, hbit, hne⟩ | ⟨hpos, hbit⟩)
      · exact ⟨.inl ⟨hpos, hbit⟩, (hhere hpos).1 hne⟩
      · exact ⟨.inr ⟨hpos, hbit⟩, hafter hpos⟩
    · rintro ⟨⟨hpos, hbit⟩ | hafter, hne⟩
      · exact .inl ⟨hpos, hbit, (hhere hpos).2 hne⟩
      · exact .inr hafter
  · simp only [left, length_bitsOf_strip hw]
    omega

/-- Past a word without bits everything is still ahead. -/
theorem ahead_skip (hw : it.current = 0#64) (hlt : it.position + 1 < it.words.length) (j : Nat) :
    Ahead { it with position := it.position + 1, current := it.words[it.position + 1] } j ↔
      it.Ahead j := by
  have hword : (InstanceSet.mk it.words).word (it.position + 1) = it.words[it.position + 1] :=
    word_eq_getElem hlt
  simp only [Ahead, hw, contains, BitVec.getLsbD_zero, Bool.false_eq_true, and_false, false_or]
  constructor
  · rintro (⟨hpos, hbit⟩ | ⟨hpos, hbit⟩)
    · exact ⟨by omega, by rwa [hpos, hword]⟩
    · exact ⟨by omega, hbit⟩
  · rintro ⟨hpos, hbit⟩
    rcases Nat.lt_or_eq_of_le hpos with hafter | hhere
    · exact .inr ⟨hafter, hbit⟩
    · rw [← hhere, hword] at hbit
      exact .inl ⟨hhere.symm, hbit⟩

theorem left_skip (hw : it.current = 0#64) (hlt : it.position + 1 < it.words.length) :
    left { it with position := it.position + 1, current := it.words[it.position + 1] } =
      it.left := by
  have hnone : bitsOf 0#64 = [] := rfl
  simp only [left, hw, hnone, List.drop_eq_getElem_cons hlt, List.map_cons, List.sum_cons,
    List.length_nil, Nat.zero_add]

theorem next_of_some (h : it.next? = some (i, it')) : it.Next i it' := by
  fun_induction next? it with
  | case1 it hw =>
    cases h
    exact next_current hw
  | case2 it hw hlt ih =>
    obtain ⟨hahead, hleast, hrest, hleft⟩ := ih h
    have hskip := ahead_skip (Decidable.not_not.1 hw) hlt
    refine ⟨(hskip i).1 hahead, fun j hj => hleast j ((hskip j).2 hj), fun j => ?_, ?_⟩
    · rw [hrest, hskip]
    · rw [← left_skip (Decidable.not_not.1 hw) hlt, hleft]
  | case3 => cases h

theorem end_of_none (h : it.next? = none) : (∀ i, ¬ it.Ahead i) ∧ it.left = 0 := by
  fun_induction next? it with
  | case1 => cases h
  | case2 it hw hlt ih =>
    have hzero : it.current = 0#64 := Decidable.not_not.1 hw
    obtain ⟨hahead, hleft⟩ := ih h
    exact ⟨fun i hi => hahead i ((ahead_skip hzero hlt i).2 hi), left_skip hzero hlt ▸ hleft⟩
  | case3 it hw hge =>
    have hzero : it.current = 0#64 := Decidable.not_not.1 hw
    refine ⟨fun i hi => ?_, ?_⟩
    · rcases hi with ⟨-, hbit⟩ | ⟨hpos, hbit⟩
      · rw [hzero, BitVec.getLsbD_zero] at hbit
        cases hbit
      · have hbeyond : (InstanceSet.mk it.words).words.length ≤ i / 64 := by
          show it.words.length ≤ i / 64
          omega
        rw [contains, word_eq_zero hbeyond, BitVec.getLsbD_zero] at hbit
        cases hbit
    · rw [left, hzero, List.drop_eq_nil_of_le (by omega)]
      rfl

/-- An iteration gives what is ahead, in ascending order, one index for each bit. -/
theorem toList_spec (it : Iter) :
    (∀ i, i ∈ it.toList ↔ it.Ahead i) ∧ it.toList.Pairwise (· < ·) ∧
      it.toList.length = it.left := by
  fun_induction toList it with
  | case1 it i it' h ih =>
    obtain ⟨hmem, hascending, hlength⟩ := ih
    have hnext := next_of_some h
    refine ⟨fun j => ?_, List.pairwise_cons.2 ⟨fun j hj => ?_, hascending⟩, ?_⟩
    · rw [List.mem_cons, hmem, hnext.rest]
      have := hnext.ahead
      by_cases hj : j = i
      · simp [hj, this]
      · simp [hj]
    · obtain ⟨hahead, hne⟩ := (hnext.rest j).1 ((hmem j).1 hj)
      exact Nat.lt_of_le_of_ne (hnext.least j hahead) hne.symm
    · rw [List.length_cons, hlength, hnext.left]
  | case2 it h =>
    obtain ⟨hahead, hleft⟩ := end_of_none h
    exact ⟨fun i => by simp [hahead i], List.Pairwise.nil, hleft.symm⟩

end Iter

theorem ahead_iter (i : Nat) : s.iter.Ahead i ↔ s.contains i = true := by
  simp only [Iter.Ahead, iter, contains]
  constructor
  · rintro (⟨hpos, hbit⟩ | ⟨-, hbit⟩)
    · rwa [hpos]
    · exact hbit
  · intro hbit
    rcases Nat.eq_zero_or_pos (i / 64) with hpos | hpos
    · exact .inl ⟨hpos, hpos ▸ hbit⟩
    · exact .inr ⟨hpos, hbit⟩

theorem left_iter (s : InstanceSet) : s.iter.left = s.size := by
  obtain ⟨_ | ⟨w, ws⟩⟩ := s <;> rfl

theorem mem_toList : i ∈ s.toList ↔ s.contains i = true := by
  rw [toList, s.iter.toList_spec.1, ahead_iter]

theorem pairwise_toList (s : InstanceSet) : s.toList.Pairwise (· < ·) := s.iter.toList_spec.2.1

theorem length_toList (s : InstanceSet) : s.toList.length = s.size := by
  rw [toList, s.iter.toList_spec.2.2, left_iter]

/-! ## Changes -/

/-- The calls that change a set, or start it anew from given indices. -/
inductive Change where
  | insert (i : Nat)
  | insertBelow (count : Nat)
  | clear
  | collect (items : List Nat)

/-- What a call does to a set. -/
def Change.perform : Change → InstanceSet → InstanceSet
  | .insert i, s => (s.add i).2
  | .insertBelow count, s => s.insertBelow count
  | .clear, s => s.clear
  | .collect items, _ => ofList items

/-- What a call does to the finite set. -/
def Change.denote : Change → Finset Nat → Finset Nat
  | .insert i, X => Insert.insert i X
  | .insertBelow count, X => X ∪ Finset.range count
  | .clear, _ => ∅
  | .collect items, _ => items.toFinset

/-- The set after calls, from the one without elements. -/
def changed (xs : List Change) : InstanceSet := xs.foldl (fun s x => x.perform s) empty

/-- The finite set after calls. -/
def denoted (xs : List Change) : Finset Nat := xs.foldl (fun X x => x.denote X) ∅

/-- The set contains what the finite set has. -/
def Denotes (s : InstanceSet) (X : Finset Nat) : Prop := ∀ i, s.contains i = decide (i ∈ X)

variable {X Y : Finset Nat}

theorem denotes_empty : empty.Denotes ∅ := contains_empty

theorem Denotes.insert (h : s.Denotes X) (i : Nat) : (s.insert i).Denotes (Insert.insert i X) := by
  intro j
  rw [contains_insert, h]
  simp

theorem Denotes.foldl_insert (h : s.Denotes X) (items : List Nat) :
    (items.foldl InstanceSet.insert s).Denotes (X ∪ items.toFinset) := by
  induction items generalizing s X with
  | nil => simpa using h
  | cons i items ih => simpa [Finset.union_insert, Finset.insert_union] using ih (h.insert i)

theorem Denotes.perform (h : s.Denotes X) (x : Change) : (x.perform s).Denotes (x.denote X) := by
  cases x with
  | insert i => exact h.insert i
  | insertBelow count =>
    intro j
    rw [Change.perform, contains_insertBelow, h, Bool.or_comm]
    simp [Change.denote]
  | clear => exact contains_clear s
  | collect items =>
    simpa [Change.perform, ofList, Change.denote] using denotes_empty.foldl_insert items

theorem Denotes.foldl_perform (h : s.Denotes X) (xs : List Change) :
    (xs.foldl (fun s x => x.perform s) s).Denotes (xs.foldl (fun X x => x.denote X) X) := by
  induction xs generalizing s X with
  | nil => exact h
  | cons x xs ih => exact ih (h.perform x)

/-- What a set tells of itself is what there is to tell of the finite set. An iteration comes to its
end, and gives the elements in strictly ascending order. -/
structure ReadsAs (s : InstanceSet) (X : Finset Nat) : Prop where
  contains : ∀ i, s.contains i = decide (i ∈ X)
  fresh : ∀ i, (s.add i).1 = decide (i ∉ X)
  size : s.size = X.card
  isEmpty : s.isEmpty = decide (X = ∅)
  listed : ∀ i, i ∈ s.toList ↔ i ∈ X
  ascending : s.toList.Pairwise (· < ·)

theorem Denotes.readsAs (h : s.Denotes X) : s.ReadsAs X := by
  have hlisted (i : Nat) : i ∈ s.toList ↔ i ∈ X := by rw [mem_toList, h, decide_eq_true_iff]
  refine ⟨h, fun i => ?_, ?_, ?_, hlisted, s.pairwise_toList⟩
  · rw [add, h, decide_not]
  · have hnodup : s.toList.Nodup := s.pairwise_toList.imp Nat.ne_of_lt
    have hX : s.toList.toFinset = X := Finset.ext fun i => List.mem_toFinset.trans (hlisted i)
    rw [← s.length_toList, ← hX, List.toFinset_card_of_nodup hnodup]
  · rw [Bool.eq_iff_iff, isEmpty_iff, decide_eq_true_iff, Finset.eq_empty_iff_forall_notMem]
    exact forall_congr' fun i => by rw [h, decide_eq_false_iff_not]

theorem Denotes.same (hs : s.Denotes X) (ht : t.Denotes Y) : s.same t = decide (X = Y) := by
  rw [Bool.eq_iff_iff, same_iff, decide_eq_true_iff, Finset.ext_iff]
  exact forall_congr' fun i => by rw [hs, ht, decide_eq_decide]

/-- After any calls a set reads as the finite set that the same calls make, and two sets are equal
just if these are, whatever calls they come from. -/
theorem run_is_finite_set (xs : List Change) :
    (changed xs).ReadsAs (denoted xs) ∧
      ∀ ys, (changed xs == changed ys) = decide (denoted xs = denoted ys) :=
  ⟨(denotes_empty.foldl_perform xs).readsAs, fun ys =>
    (denotes_empty.foldl_perform xs).same (denotes_empty.foldl_perform ys)⟩

example : (changed [.insert 70, .clear, .insertBelow 66] == changed [.insertBelow 64,
    .insert 65, .insert 64, .insert 3]) = true := by
  decide

end NodeStore.InstanceSet
