import NodeStore.Value

/-!
# Value literals

An exact notation for values: the name of the type, a colon, and the number. Integers are decimal.
Floating-point numbers are their bit pattern in hexadecimal, as many digits as the format has, so
the sign of zero shows; not-a-number is written `nan`.
-/

namespace NodeStore

/-- The last `n` hexadecimal digits of a number. -/
def hexText (n b : Nat) : String :=
  String.ofList (List.leftpad n '0' ((Nat.toDigits 16 b).reverse.take n).reverse)

/-- The number that hexadecimal digits stand for. -/
def ofHex (s : String) : Nat :=
  s.toList.foldl (fun n c =>
    16 * n + (if c.isDigit then c.toNat - '0'.toNat else c.toLower.toNat - 'a'.toNat + 10)) 0

namespace Ieee

variable {f : Format}

/-- The bit pattern of a value, or `nan`. -/
def literal (x : Ieee f) : String := if x.isNaN then "nan" else hexText (2 * f.bytes) x.toBits

/-- The value of a bit pattern or of `nan`. -/
def ofLiteral (f : Format) (s : String) : Ieee f := if s = "nan" then .nan else ofBits f (ofHex s)

end Ieee

namespace Value

/-- The literal of a value. -/
def literal : Value → String
  | ⟨.int k, (x : BoundedInt k)⟩ => (AttrType.int k).name ++ ":" ++ toString x.val
  | ⟨.float f, (x : Ieee f)⟩ => (AttrType.float f).name ++ ":" ++ x.literal

/-- The value of a literal. -/
def ofLiteral? (s : String) : Option Value :=
  match s.splitOn ":" with
  | [name, body] =>
    match AttrType.parse? name with
    | some (.int k) => body.toInt?.bind (int? k)
    | some (.float f) => some (float (Ieee.ofLiteral f body))
    | none => none
  | _ => none

end Value

end NodeStore
