import NodeStore.Ieee.Basic

/-!
# Decimal text of binary numbers

A finite number is written with the fewest significant digits that read back to it in its own
format; of several such decimals the nearest is taken, and of two equally near ones the larger.
`Ieee.shortest` chooses the digits in exact arithmetic. Two layouts write them:

* `Ieee.plainText`: always positional, whole numbers without a point (`1`, `-0`, `0.00001`);
* `Ieee.pointedText`: whole numbers keep a point (`1.0`), and numbers whose leading digit stands
  below `10 ^ -4` or at least at `10 ^ 16` take an exponent (`1e-5`, `1.5e16`).
-/

namespace NodeStore

/-- The decimal number `digits * 10 ^ exponent`. -/
structure Decimal where
  digits : Nat
  exponent : Int

namespace Decimal

/-- The digits as text. -/
def text (d : Decimal) : String := toString d.digits

/-- The power of ten at which the leading digit stands. -/
def leadingPower (d : Decimal) : Int := d.exponent + d.text.length - 1

/-- Positional text; `point` is what follows a whole number. -/
def positional (d : Decimal) (point : String) : String :=
  let e := d.leadingPower
  if 0 ≤ d.exponent then
    d.text.pushn '0' d.exponent.toNat ++ point
  else if 0 ≤ e then
    let chars := d.text.toList
    String.ofList (chars.take (e.toNat + 1)) ++ "." ++ String.ofList (chars.drop (e.toNat + 1))
  else
    "0.".pushn '0' (-e - 1).toNat ++ d.text

/-- Text with one digit before the point and a power of ten. -/
def exponential (d : Decimal) : String :=
  let mantissa := match d.text.toList with
    | [] => ""
    | [c] => String.singleton c
    | c :: rest => String.ofList (c :: '.' :: rest)
  mantissa ++ "e" ++ toString d.leadingPower

end Decimal

/-- The reals that round to a positive number: from `low` to `high` times `2 ^ power`, around
`middle * 2 ^ power`. -/
structure RoundingInterval where
  low : Nat
  middle : Nat
  high : Nat
  power : Int
  closed : Bool

namespace RoundingInterval

/-- The interval of the number with canonical form `(m, s)`. The gap below a power of two is half
as wide as the gap above, and the ends belong to an even mantissa. -/
def ofCanonical (f : Format) (m s : Nat) : RoundingInterval where
  low := 4 * m - (if m = f.lead ∧ 0 < s then 1 else 2)
  middle := 4 * m
  high := 4 * m + 2
  power := (s : Int) - f.depth - 2
  closed := m % 2 == 0

/-- Factors that bring `x * 2 ^ power` and `c * 10 ^ k` to one denominator. -/
def factors (i : RoundingInterval) (k : Int) : Nat × Nat :=
  (2 ^ i.power.toNat * 10 ^ (-k).toNat, 10 ^ k.toNat * 2 ^ (-i.power).toNat)

/-- Whether `c * 10 ^ k` lies in the interval. -/
def holds (i : RoundingInterval) (k : Int) (c : Nat) : Bool :=
  let (b, d) := i.factors k
  if i.closed then i.low * b ≤ c * d && c * d ≤ i.high * b
  else i.low * b < c * d && c * d < i.high * b

/-- The largest multiple of `10 ^ k` that is not above the middle. -/
def floor (i : RoundingInterval) (k : Int) : Nat :=
  let (b, d) := i.factors k
  i.middle * b / d

/-- The multiple of `10 ^ k` in the interval that is nearest to the middle, a tie going up. -/
def hit? (i : RoundingInterval) (k : Int) : Option Nat :=
  let (b, d) := i.factors k
  let c := i.floor k
  let above := c + 1
  let nearerAbove := decide (above * d - i.middle * b ≤ i.middle * b - c * d)
  if i.holds k above && (nearerAbove || !i.holds k c) then some above
  else if i.holds k c then some c
  else none

/-- The first grid with a hit, from `10 ^ k` downwards through at most `n` finer ones. -/
def search (i : RoundingInterval) : Nat → Int → Decimal
  | 0, k => ⟨i.floor k, k⟩
  | n + 1, k =>
    match i.hit? k with
    | some c => ⟨c, k⟩
    | none => i.search n (k - 1)

end RoundingInterval

namespace Ieee

variable {f : Format}

/-- The shortest decimal that reads back to the number of canonical form `(m, s)`. Seventeen
digits always suffice, and the first grid tried is above the number. -/
def shortest (f : Format) (m s : Nat) : Decimal :=
  if m = 0 then ⟨0, 0⟩
  else
    let bits : Int := m.log2 + 1 + s - f.depth
    (RoundingInterval.ofCanonical f m s).search 20 (bits * 30103 / 100000 + 1)

/-- Text of a value, given the layout of its digits. -/
def textBy (layout : Decimal → String) : Ieee f → String
  | .nan => "NaN"
  | .infinite negative => (if negative then "-" else "") ++ "inf"
  | .finite negative m s _ => (if negative then "-" else "") ++ layout (shortest f m s)

/-- Positional text, whole numbers without a point. -/
def plainText (x : Ieee f) : String := x.textBy (·.positional "")

/-- Text that keeps a point and writes very small and very large numbers with an exponent. -/
def pointedText (x : Ieee f) : String :=
  x.textBy fun d =>
    if d.digits ≠ 0 ∧ (d.leadingPower < -4 ∨ 16 ≤ d.leadingPower) then d.exponential
    else d.positional ".0"

end Ieee

end NodeStore
