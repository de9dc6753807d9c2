import NodeStore.Frame.Basic

/-!
# Instances as views

A `Node` is one instance of a frame, opened once, whose attributes go by name alone. A `Key` names
an attribute together with its schema and the type its values are wanted in: reading by a key
converts to that type, and a key of another schema is refused before anything is read or written.
-/

namespace NodeStore

/-- An opened instance. -/
structure Node where
  schema : SchemaId
  index : Nat
deriving DecidableEq

/-- An attribute of a named schema, with the type its values are wanted in. -/
structure Key where
  schema : String
  attr : String
  type : AttrType
deriving DecidableEq

/-- Opens an instance. -/
def Frame.node (f : Frame) (schema : String) (index : Nat) : Except FrameError Node := do
  let schema ← f.schema schema
  f.requireIndex schema.id index
  return ⟨schema.id, index⟩

namespace Node

/-- The coordinate of an attribute of the instance. -/
def coord (n : Node) (attr : String) (f : Frame) : Except FrameError Coord := do
  let schema ← f.schemaAt n.schema
  let attr ← schema.attributeNamed attr
  return ⟨schema.id, n.index, attr.id⟩

/-- The instance's schema, if the key is one of its own. -/
def requireKey (n : Node) (key : Key) (f : Frame) : Except FrameError Schema := do
  let schema ← f.schemaAt n.schema
  if key.schema ≠ schema.name then
    throw (.unknownAttribute schema.name (.keyed key.schema key.attr))
  return schema

/-- A value in the type of a key. -/
def typed (schema : Schema) (key : Key) (v : Value) : Except FrameError Value :=
  match v.convert? key.type with
  | some w => .ok w
  | none => .error (.typeMismatch schema.name key.attr key.type v)

/-! ## Reading by a key -/

/-- The first slot of a fixed attribute. -/
def read (n : Node) (key : Key) (f : Frame) : Except FrameError Value := do
  let schema ← n.requireKey key f
  typed schema key (← f.store.get (← n.coord key.attr f) 0)

/-- Every slot of a fixed attribute. -/
def readSlots (n : Node) (key : Key) (f : Frame) : Except FrameError (List Value) := do
  let schema ← n.requireKey key f
  (← f.store.getSlots (← n.coord key.attr f)).mapM (typed schema key)

/-- The elements of a list attribute. -/
def readList (n : Node) (key : Key) (f : Frame) : Except FrameError (List Value) := do
  let schema ← n.requireKey key f
  (← f.store.getList (← n.coord key.attr f)).mapM (typed schema key)

/-! ## Writing by a key

The values are in the type of the key already. -/

/-- Writes the first slot of a fixed attribute. -/
def write (n : Node) (key : Key) (x : Scalar key.type) : Action Frame Unit := do
  let _ ← Action.read (n.requireKey key)
  let c ← Action.read (n.coord key.attr)
  Frame.write c (Store.set c 0 ⟨key.type, x⟩)

/-- Writes every slot of a fixed attribute. -/
def writeSlots (n : Node) (key : Key) (xs : List (Scalar key.type)) : Action Frame Unit := do
  let _ ← Action.read (n.requireKey key)
  let c ← Action.read (n.coord key.attr)
  Frame.write c (Store.setSlots c (xs.map (⟨key.type, ·⟩)))

/-- Appends to a list attribute. -/
def push (n : Node) (key : Key) (x : Scalar key.type) : Action Frame Unit := do
  let _ ← Action.read (n.requireKey key)
  let c ← Action.read (n.coord key.attr)
  Frame.write c (Store.append c ⟨key.type, x⟩)

/-- Ends the set-up of the instance. -/
def sealNode (n : Node) : Action Frame Unit := Frame.sealAt n.schema n.index

end Node

end NodeStore
