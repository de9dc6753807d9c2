import NodeStore.Schema

/-!
# Coordinates

A `Coord` addresses one attribute of one instance. The checks every access makes come in a fixed
order: the attribute exists, the index is below the instance count, the attribute has the shape the
access needs, then slot or value count, and last the values convert to the declared type.
-/

namespace NodeStore

/-- One attribute of one instance. -/
structure Coord where
  schema : SchemaId
  index : Nat
  attr : AttrId
deriving DecidableEq

/-- The error for a schema number without a pool. -/
def noPool (id : SchemaId) : FrameError := .unknownSchema (.numbered id)

namespace Schema

/-- The attribute at a coordinate, which must be in range and of the given shape. -/
def locate (s : Schema) (count : Nat) (c : Coord) (shape : Shape) :
    Except FrameError Attribute := do
  let attr ← s.attributeAt c.attr
  if count ≤ c.index then
    throw (.indexOutOfRange s.name c.index count)
  if attr.shape ≠ shape then
    throw (.shapeMismatch s.name (.named attr.name) shape attr.shape)
  return attr

/-- Requires a slot below the declared count. -/
def requireSlot (s : Schema) (attr : Attribute) (slot : Nat) : Except FrameError Unit :=
  let slots := attr.slotCount?.getD 0
  if slot < slots then .ok () else .error (.slotOutOfRange s.name attr.name slot slots)

/-- Requires as many values as there are slots. -/
def requireSlotCount (s : Schema) (attr : Attribute) (actual : Nat) : Except FrameError Unit :=
  let expected := attr.slotCount?.getD 0
  if actual = expected then .ok ()
  else .error (.slotCountMismatch s.name attr.name expected actual)

/-- The value in the declared type. -/
def convert (s : Schema) (attr : Attribute) (v : Value) : Except FrameError Value :=
  match v.convert? attr.type with
  | some w => .ok w
  | none => .error (.typeMismatch s.name attr.name attr.type v)

/-- All values in the declared type; the first that does not convert is the error. -/
def convertAll (s : Schema) (attr : Attribute) (vs : List Value) : Except FrameError (List Value) :=
  vs.mapM (s.convert attr)

end Schema

end NodeStore
