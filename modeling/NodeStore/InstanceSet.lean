/-!
# Sets of instances

An `InstanceSet` is a set of instance indices, kept as a sequence of 64-bit words that grows as
needed: index `i` is bit `i % 64` of word `i / 64`, and absent words hold nothing. Sets that differ
only in trailing empty words are equal as sets (`InstanceSet.same`). An iteration
(`InstanceSet.Iter`) takes the lowest bit of a word as long as there is one, and then the next word.
-/

namespace NodeStore

/-- A growable bit set of indices. -/
structure InstanceSet where
  words : List (BitVec 64) := []

namespace InstanceSet

/-- The set without elements. -/
def empty : InstanceSet := {}

instance : Inhabited InstanceSet := ⟨empty⟩

/-- The word at position `w`, which is zero beyond the last. -/
def word (s : InstanceSet) (w : Nat) : BitVec 64 := s.words[w]?.getD 0

/-- At least `n` words. -/
def grow (s : InstanceSet) (n : Nat) : InstanceSet :=
  ⟨s.words ++ List.replicate (n - s.words.length) 0⟩

def contains (s : InstanceSet) (i : Nat) : Bool := (s.word (i / 64)).getLsbD (i % 64)

/-- Adds an index. -/
def insert (s : InstanceSet) (i : Nat) : InstanceSet :=
  let g := s.grow (i / 64 + 1)
  ⟨g.words.set (i / 64) (g.word (i / 64) ||| BitVec.twoPow 64 (i % 64))⟩

/-- Adds an index and tells whether it is new. -/
def add (s : InstanceSet) (i : Nat) : Bool × InstanceSet := (!s.contains i, s.insert i)

/-- The word with its lowest `n` bits set. -/
def lowBits (n : Nat) : BitVec 64 := BitVec.ofNat 64 (2 ^ n - 1)

/-- All bits set in the first `n` words. -/
def fill (s : InstanceSet) (n : Nat) : InstanceSet :=
  ⟨List.replicate n (BitVec.allOnes 64) ++ s.words.drop n⟩

/-- Adds every index below `count`: fills the whole words, then the low bits of the one begun. -/
def insertBelow (s : InstanceSet) (count : Nat) : InstanceSet :=
  let full := count / 64
  let rest := count % 64
  let g := (s.grow (full + if rest > 0 then 1 else 0)).fill full
  if rest > 0 then ⟨g.words.set full (g.word full ||| lowBits rest)⟩ else g

def clear (_ : InstanceSet) : InstanceSet := empty

/-- The set bits of a word, ascending. -/
def bitsOf (w : BitVec 64) : List Nat := (List.range 64).filter w.getLsbD

/-- The set of the given indices. -/
def ofList (items : List Nat) : InstanceSet := items.foldl insert empty

/-- Number of indices: the set bits of all words. -/
def size (s : InstanceSet) : Nat := (s.words.map fun w => (bitsOf w).length).sum

/-- Whether all words are zero. -/
def isEmpty (s : InstanceSet) : Bool := s.words.all (· == 0)

/-- Whether two sets hold the same indices. -/
def same (s t : InstanceSet) : Bool :=
  (List.range (max s.words.length t.words.length)).all fun w => s.word w == t.word w

instance : BEq InstanceSet := ⟨same⟩

/-! ## Iteration -/

/-- Where an iteration over the words is: at a word of which some bits may be gone. -/
structure Iter where
  words : List (BitVec 64)
  position : Nat
  current : BitVec 64

namespace Iter

/-- The next index, which is the lowest bit left. Words without bits are skipped. -/
def next? (it : Iter) : Option (Nat × Iter) :=
  if it.current ≠ 0 then
    some (64 * it.position + it.current.ctz.toNat,
      { it with current := it.current &&& (it.current - 1) })
  else if h : it.position + 1 < it.words.length then
    next? { it with position := it.position + 1, current := it.words[it.position + 1] }
  else none
termination_by it.words.length - it.position

/-- The words ahead as numbers, summed up. Every index taken makes it less. -/
def weight (it : Iter) : Nat :=
  it.current.toNat + ((it.words.drop (it.position + 1)).map BitVec.toNat).sum

theorem weight_next {it it' : Iter} {i : Nat} (h : it.next? = some (i, it')) :
    it'.weight < it.weight := by
  fun_induction next? it with
  | case1 it hcurrent =>
    cases h
    have hless : (it.current - 1).toNat < it.current.toNat := by bv_omega
    have hand : (it.current &&& (it.current - 1)).toNat ≤ (it.current - 1).toNat := by
      rw [BitVec.toNat_and]
      exact Nat.and_le_right
    simp only [weight]
    omega
  | case2 it hcurrent hlt ih =>
    have hzero : it.current.toNat = 0 := by simp [Decidable.not_not.1 hcurrent]
    have := ih h
    simp only [weight, List.drop_eq_getElem_cons hlt, List.map_cons, List.sum_cons] at this ⊢
    omega
  | case3 => cases h

/-- The indices up to the end of the iteration. -/
def toList (it : Iter) : List Nat :=
  match _h : it.next? with
  | some (i, it') => i :: it'.toList
  | none => []
termination_by it.weight
decreasing_by exact weight_next _h

end Iter

/-- An iteration at the first word. -/
def iter (s : InstanceSet) : Iter := ⟨s.words, 0, s.word 0⟩

/-- The indices as an iteration gives them. -/
def toList (s : InstanceSet) : List Nat := s.iter.toList

end InstanceSet

end NodeStore
