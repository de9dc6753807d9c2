import NodeStore.Ieee.Convert

/-!
# Attribute types

The closed set of ten storage types: signed and unsigned integers of one, two, four and eight
bytes, and the two binary floating-point formats. `Scalar ty` is one stored value of type `ty`.
-/

namespace NodeStore

/-- Width of an integer type. -/
inductive Width where
  | one
  | two
  | four
  | eight
deriving DecidableEq

def Width.bytes : Width → Nat
  | .one => 1
  | .two => 2
  | .four => 4
  | .eight => 8

/-- A fixed-width integer type. -/
structure IntKind where
  signed : Bool
  width : Width
deriving DecidableEq

namespace IntKind

def bits (k : IntKind) : Nat := 8 * k.width.bytes

/-- The least integer of the type. -/
def low (k : IntKind) : Int := if k.signed then -2 ^ (k.bits - 1) else 0

/-- The greatest integer of the type. -/
def high (k : IntKind) : Int := if k.signed then 2 ^ (k.bits - 1) - 1 else 2 ^ k.bits - 1

/-- The range of the type. -/
def Holds (k : IntKind) (z : Int) : Prop := k.low ≤ z ∧ z ≤ k.high

instance (k : IntKind) (z : Int) : Decidable (k.Holds z) := inferInstanceAs (Decidable (_ ∧ _))

theorem holds_zero (k : IntKind) : k.Holds 0 := by
  rcases k with ⟨_ | _, _ | _ | _ | _⟩ <;> decide

/-- The integer of the type that differs from `z` by a multiple of `2 ^ bits`. -/
def wrap (k : IntKind) (z : Int) : Int := k.low + (z - k.low) % 2 ^ k.bits

theorem low_add_two_pow (k : IntKind) : k.low + 2 ^ k.bits = k.high + 1 := by
  rcases k with ⟨_ | _, _ | _ | _ | _⟩ <;> decide

theorem holds_wrap (k : IntKind) (z : Int) : k.Holds (k.wrap z) := by
  have hb : (0 : Int) < 2 ^ k.bits := Int.pow_pos (by decide)
  have h0 := Int.emod_nonneg (z - k.low) (Int.ne_of_gt hb)
  have h1 := Int.emod_lt_of_pos (z - k.low) hb
  have h2 := k.low_add_two_pow
  unfold Holds wrap
  omega

end IntKind

/-- The storage type of an attribute. -/
inductive AttrType where
  | int (kind : IntKind)
  | float (format : Format)
deriving DecidableEq

namespace AttrType

abbrev int8 : AttrType := int ⟨true, .one⟩
abbrev int16 : AttrType := int ⟨true, .two⟩
abbrev int32 : AttrType := int ⟨true, .four⟩
abbrev int64 : AttrType := int ⟨true, .eight⟩
abbrev uint8 : AttrType := int ⟨false, .one⟩
abbrev uint16 : AttrType := int ⟨false, .two⟩
abbrev uint32 : AttrType := int ⟨false, .four⟩
abbrev uint64 : AttrType := int ⟨false, .eight⟩
abbrev float32 : AttrType := float .single
abbrev float64 : AttrType := float .double

/-- Every type, in the order of the listing: signed, unsigned, floating-point. -/
def all : List AttrType :=
  [int8, int16, int32, int64, uint8, uint16, uint32, uint64, float32, float64]

/-- Storage width of one value in bytes. -/
def width : AttrType → Nat
  | int k => k.width.bytes
  | float f => f.bytes

def isFloat : AttrType → Bool
  | int _ => false
  | float _ => true

/-- Canonical name: the class and the width in bits. -/
def name (ty : AttrType) : String :=
  match ty with
  | int ⟨true, w⟩ => "int" ++ toString (8 * w.bytes)
  | int ⟨false, w⟩ => "uint" ++ toString (8 * w.bytes)
  | float f => "float" ++ toString (8 * f.bytes)

/-- Code of one letter. -/
def letter : AttrType → String
  | int ⟨true, .one⟩ => "b"
  | int ⟨true, .two⟩ => "h"
  | int ⟨true, .four⟩ => "i"
  | int ⟨true, .eight⟩ => "l"
  | int ⟨false, .one⟩ => "B"
  | int ⟨false, .two⟩ => "H"
  | int ⟨false, .four⟩ => "I"
  | int ⟨false, .eight⟩ => "L"
  | float .single => "f"
  | float .double => "d"

/-- Code made of the class and the width in bytes. -/
def code : AttrType → String
  | int ⟨true, w⟩ => "i" ++ toString w.bytes
  | int ⟨false, w⟩ => "u" ++ toString w.bytes
  | float f => "f" ++ toString f.bytes

/-- The type that a name or a code stands for. -/
def parse? (s : String) : Option AttrType :=
  all.find? fun ty => s == ty.name || s == ty.letter || s == ty.code

/-- What the reader of type names says of a text that is no type. -/
def unknownMessage (s : String) : String := s!"unknown attribute type '{s}'"

end AttrType

/-- An integer of a fixed-width type. -/
structure BoundedInt (k : IntKind) where
  val : Int
  holds : k.Holds val
deriving DecidableEq

/-- One stored value of an attribute type. -/
def Scalar : AttrType → Type
  | .int k => BoundedInt k
  | .float f => Ieee f

/-- A number of any type: an integer, or a value of the wide floating-point format. -/
inductive Numeric where
  | int (z : Int)
  | float (x : Ieee .double)

namespace Numeric

/-- The least integer that a floating-point value is brought back to. -/
def low : Int := -2 ^ (127 : Nat)

/-- The greatest integer that a floating-point value is brought back to. -/
def high : Int := 2 ^ (127 : Nat) - 1

/-- The number in a type, if that type has it. Integers go to an integer type that holds them, and
to a floating-point type if the nearest value, brought back, is the integer again. Floating-point
values go only to floating-point types, to the short one if the nearest value, widened again, is
equal. -/
def cast? : Numeric → (ty : AttrType) → Option (Scalar ty)
  | int z, .int k => if h : k.Holds z then some (⟨z, h⟩ : BoundedInt k) else none
  | int z, .float f =>
    let y := Ieee.ofInt f z
    if y.truncate low high = z then some y else none
  | float x, .float .double => some x
  | float x, .float .single =>
    if x.isNaN then
      some (.nan : Ieee .single)
    else
      let y := x.round .single
      if (y.round .double).numEq x then some y else none
  | float _, .int _ => none

end Numeric

namespace Scalar

instance instDecidableEq : (ty : AttrType) → DecidableEq (Scalar ty)
  | .int k => inferInstanceAs (DecidableEq (BoundedInt k))
  | .float f => inferInstanceAs (DecidableEq (Ieee f))

/-- The value that storage holds at first and after a reset. -/
def zero : (ty : AttrType) → Scalar ty
  | .int k => (⟨0, k.holds_zero⟩ : BoundedInt k)
  | .float _ => Ieee.zero

instance (ty : AttrType) : Inhabited (Scalar ty) := ⟨zero ty⟩

/-- Equality as numbers: not-a-number differs from itself, and the two zeros are equal. -/
def numEq : {ty : AttrType} → Scalar ty → Scalar ty → Bool
  | .int _, (x : BoundedInt _), (y : BoundedInt _) => x.val == y.val
  | .float _, (x : Ieee _), (y : Ieee _) => x.numEq y

/-- The number that conversions start from. Values of the short format are widened. -/
def numeric : {ty : AttrType} → Scalar ty → Numeric
  | .int _, (x : BoundedInt _) => .int x.val
  | .float .single, (x : Ieee .single) => .float (x.round .double)
  | .float .double, (x : Ieee .double) => .float x

/-- The same number in another type, if that type has it. -/
def cast? {source : AttrType} (x : Scalar source) (target : AttrType) : Option (Scalar target) :=
  x.numeric.cast? target

/-- The nearest value of the wide floating-point format. -/
def toDouble {ty : AttrType} (x : Scalar ty) : Ieee .double :=
  match x.numeric with
  | .int z => .ofInt .double z
  | .float y => y

end Scalar

end NodeStore
