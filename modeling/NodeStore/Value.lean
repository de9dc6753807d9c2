import NodeStore.AttrType
import NodeStore.Ieee.Decimal

/-!
# Attribute values

A `Value` is a stored value together with its type. `Value.convert?` converts without loss or not
at all; `Value.toDouble` and `Value.toSingle` widen or narrow to the nearest number for feature
extraction.
-/

namespace NodeStore

/-- A value tagged with its type. -/
structure Value where
  type : AttrType
  payload : Scalar type
deriving DecidableEq

namespace Value

/-- The zero of a type. -/
def zero (ty : AttrType) : Value := ⟨ty, Scalar.zero ty⟩

/-- An integer as a value of an integer type, if it is in range. -/
def int? (k : IntKind) (z : Int) : Option Value :=
  if h : k.Holds z then some ⟨.int k, (⟨z, h⟩ : BoundedInt k)⟩ else none

/-- An integer as a value of an integer type, brought into range by whole periods. -/
def int (k : IntKind) (z : Int) : Value := ⟨.int k, (⟨k.wrap z, k.holds_wrap z⟩ : BoundedInt k)⟩

/-- A floating-point number as a value. -/
def float {f : Format} (x : Ieee f) : Value := ⟨.float f, x⟩

/-- The payload as a value of the type `ty`, without loss. -/
def cast? (v : Value) (ty : AttrType) : Option (Scalar ty) := v.payload.cast? ty

/-- The value in the type `ty`, without loss. -/
def convert? (v : Value) (ty : AttrType) : Option Value := (v.cast? ty).map (⟨ty, ·⟩)

/-- The nearest value of the wide floating-point format. -/
def toDouble (v : Value) : Ieee .double := v.payload.toDouble

/-- The wide format's value narrowed to the nearest of the short one. -/
def toSingle (v : Value) : Ieee .single := v.toDouble.round .single

/-- The number alone. -/
def text : Value → String
  | ⟨.int _, (x : BoundedInt _)⟩ => toString x.val
  | ⟨.float _, (x : Ieee _)⟩ => x.plainText

/-- The capitalised type name around the number, as error messages show a value. -/
def taggedText : Value → String
  | ⟨.int ⟨signed, w⟩, (x : BoundedInt _)⟩ =>
    (if signed then "Int" else "UInt") ++ toString (8 * w.bytes) ++ "(" ++ toString x.val ++ ")"
  | ⟨.float f, (x : Ieee _)⟩ => "Float" ++ toString (8 * f.bytes) ++ "(" ++ x.pointedText ++ ")"

end Value

end NodeStore
