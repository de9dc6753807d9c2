/-!
# Binary floating-point numbers

`Ieee f` is the set of values of a binary interchange format `f`, as data: not-a-number, a signed
infinity, or a signed finite number. A finite number is a mantissa and a scale in canonical form,
and stands for `mantissa * 2 ^ scale` units of the least positive number `2 ^ -depth`, so every
finite value of the format is a whole number of units (`Ieee.units?`). All not-a-numbers are one
value: payloads are never shown.

`Ieee.ofBits` and `Ieee.toBits` are the interchange encoding.
-/

namespace NodeStore

-- powers and sums of numbers are those of the core library, whatever else is imported
attribute [instance(high)] instPowNat Zero.ofOfNat0

/-- The binary interchange formats of 32 and 64 bits. -/
inductive Format where
  | single
  | double
deriving DecidableEq

namespace Format

/-- Storage width in bytes. -/
def bytes : Format → Nat
  | single => 4
  | double => 8

/-- Significant bits, the leading one included. -/
def precision : Format → Nat
  | single => 24
  | double => 53

/-- The least positive number is `2 ^ -depth`. -/
def depth : Format → Nat
  | single => 149
  | double => 1074

/-- The scale of the largest finite numbers. -/
def maxScale : Format → Nat
  | single => 253
  | double => 2045

/-- The leading mantissa bit of a number that is not subnormal. -/
def lead (f : Format) : Nat := 2 ^ (f.precision - 1)

/-- The sign bit of the encoding. -/
def signBit (f : Format) : Nat := 2 ^ (8 * f.bytes - 1)

theorem two_mul_lead (f : Format) : 2 * f.lead = 2 ^ f.precision := by cases f <;> rfl

theorem lead_pos (f : Format) : 0 < f.lead := by cases f <;> decide

/-- Every number has one canonical form: only the numbers of scale zero lack the leading bit. -/
def Canonical (f : Format) (mantissa scale : Nat) : Prop :=
  mantissa < 2 ^ f.precision ∧ scale ≤ f.maxScale ∧ (f.lead ≤ mantissa ∨ scale = 0)

instance (f : Format) (m s : Nat) : Decidable (f.Canonical m s) :=
  inferInstanceAs (Decidable (_ ∧ _ ∧ _))

end Format

/-- A value of a binary interchange format. -/
inductive Ieee (f : Format) where
  | nan
  | infinite (negative : Bool)
  | finite (negative : Bool) (mantissa scale : Nat) (canonical : f.Canonical mantissa scale)
deriving DecidableEq

namespace Ieee

variable {f : Format}

/-- Positive zero. -/
def zero : Ieee f := .finite false 0 0 (by cases f <;> decide)

instance : Inhabited (Ieee f) := ⟨zero⟩

/-- The magnitude of a finite value, counted in units of the least positive number. -/
def units? : Ieee f → Option Nat
  | .finite _ m s _ => some (m * 2 ^ s)
  | _ => none

def isNaN : Ieee f → Bool
  | .nan => true
  | _ => false

/-- The sign bit; not-a-number counts as positive. -/
def isNegative : Ieee f → Bool
  | .nan => false
  | .infinite negative => negative
  | .finite negative _ _ _ => negative

/-- Numeric equality: not-a-number differs from everything, and the two zeros are equal. -/
def numEq (x y : Ieee f) : Bool :=
  !x.isNaN && (x == y || (x.units? == some 0 && y.units? == some 0))

/-! ## Interchange encoding -/

/-- The magnitude field of the encoding holds `scale * lead + mantissa`. -/
def magnitudeBits : Ieee f → Nat
  | .nan => (f.maxScale + 2) * f.lead + f.lead / 2
  | .infinite _ => (f.maxScale + 2) * f.lead
  | .finite _ m s _ => s * f.lead + m

/-- The encoding of a value; not-a-number is written as the positive quiet one. -/
def toBits (x : Ieee f) : Nat :=
  (if x.isNegative then f.signBit else 0) + x.magnitudeBits

/-- The value that a bit pattern encodes. Bits above the width are ignored. -/
def ofBits (f : Format) (bits : Nat) : Ieee f :=
  let negative := bits / f.signBit % 2 == 1
  let magnitude := bits % f.signBit
  let field := magnitude / f.lead
  let fraction := magnitude % f.lead
  have hf : fraction < f.lead := Nat.mod_lt _ f.lead_pos
  have hl := f.two_mul_lead
  if field = 0 then
    .finite negative fraction 0 ⟨by omega, by omega, .inr rfl⟩
  else if h : field ≤ f.maxScale + 1 then
    .finite negative (f.lead + fraction) (field - 1) ⟨by omega, by omega, .inl (by omega)⟩
  else if fraction = 0 then
    .infinite negative
  else
    .nan

end Ieee

end NodeStore
