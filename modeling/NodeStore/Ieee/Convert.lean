import NodeStore.Ieee.Basic

/-!
# Conversion to a binary format

A nonnegative number that is `n / 2 ^ k` units of a format either is a value of that format or has
a nearest one. `Ieee.ofUnits?` finds the value of a whole number of units, if there is one, and
`Ieee.roundUnits` the nearest value, ties to the even mantissa. Integers and values of the other
format are both such numbers: `ofInt` and `round` convert them to the nearest value. The way back to
integers is `truncate`.
-/

namespace NodeStore

namespace Format

/-- The least scale at which `precision` bits can hold a number of `n` units. -/
def scaleFor (f : Format) (n : Nat) : Nat := n.log2 + 1 - f.precision

theorem precision_pos (f : Format) : 0 < f.precision := by cases f <;> decide

theorem canonical_scaleFor (f : Format) (n : Nat) (h : f.scaleFor n ≤ f.maxScale) :
    f.Canonical (n / 2 ^ f.scaleFor n) (f.scaleFor n) := by
  have hp := f.precision_pos
  refine ⟨?_, h, ?_⟩
  · rw [Nat.div_lt_iff_lt_mul (Nat.two_pow_pos _), ← Nat.pow_add]
    refine Nat.lt_of_lt_of_le Nat.lt_log2_self (Nat.pow_le_pow_right (by decide) ?_)
    unfold scaleFor
    omega
  · by_cases hs : f.scaleFor n = 0
    · exact .inr hs
    · left
      have hn : n ≠ 0 := fun hn => hs (by cases f <;> simp [hn, scaleFor, precision])
      rw [lead, Nat.le_div_iff_mul_le (Nat.two_pow_pos _), ← Nat.pow_add]
      refine Nat.le_trans (Nat.pow_le_pow_right (by decide) ?_) (Nat.log2_self_le hn)
      unfold scaleFor at hs ⊢
      omega

end Format

/-- The quotient of two natural numbers to the nearest, a half going to the even neighbour. -/
def roundHalfEven (n d : Nat) : Nat :=
  let q := n / d
  let r := n % d
  if 2 * r < d ∨ 2 * r = d ∧ q % 2 = 0 then q else q + 1

namespace Ieee

variable {f : Format}

/-- The value of `n` units, if the format has it. -/
def ofUnits? (f : Format) (negative : Bool) (n : Nat) : Option (Ieee f) :=
  let s := f.scaleFor n
  if h : n % 2 ^ s = 0 ∧ s ≤ f.maxScale then
    some (.finite negative (n / 2 ^ s) s (f.canonical_scaleFor n h.2))
  else
    none

/-- The value nearest to `n / 2 ^ k` units; beyond the largest finite number, infinity. -/
def roundUnits (f : Format) (negative : Bool) (n k : Nat) : Ieee f :=
  let s := n.log2 + 1 - (f.precision + k)
  (ofUnits? f negative (roundHalfEven n (2 ^ (s + k)) * 2 ^ s)).getD (.infinite negative)

/-- The value nearest to `z / 2 ^ k`. Zero is positive. -/
def ofDyadic (f : Format) (z : Int) (k : Nat) : Ieee f :=
  roundUnits f (decide (z < 0)) (z.natAbs * 2 ^ f.depth) k

/-- The value nearest to an integer. -/
def ofInt (f : Format) (z : Int) : Ieee f := ofDyadic f z 0

/-- The value with the other sign. -/
def neg : Ieee f → Ieee f
  | .nan => .nan
  | .infinite negative => .infinite !negative
  | .finite negative m s h => .finite (!negative) m s h

/-- The value of the format `g` nearest to a value. -/
def round (g : Format) : Ieee f → Ieee g
  | .nan => .nan
  | .infinite negative => .infinite negative
  | .finite negative m s _ => roundUnits g negative (m * 2 ^ s * 2 ^ g.depth) f.depth

/-- The number without its fraction, brought into the range from `low` to `high`; not-a-number
counts as zero. -/
def truncate (low high : Int) : Ieee f → Int
  | .nan => 0
  | .infinite negative => if negative then low else high
  | .finite negative m s _ =>
    let n : Nat := m * 2 ^ s / 2 ^ f.depth
    max low (min high (if negative then -n else n))

end Ieee

end NodeStore
