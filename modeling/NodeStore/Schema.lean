import NodeStore.Action

/-!
# Schemas

A `Schema` is a named record type: an ordered list of attributes, each found by its name or by its
position. Attributes are declared one by one; a declaration is refused for an empty name, a name
that repeats, or a fixed attribute without slots, and then changes nothing.
-/

namespace NodeStore

/-- What is asked of an attribute at its declaration. -/
structure AttrSpec where
  name : String
  type : AttrType
  slots : Nat := 1
  isList : Bool := false
  isConst : Bool := false
deriving DecidableEq

/-- A declared attribute. -/
structure Attribute where
  id : AttrId
  name : String
  type : AttrType
  slots : Nat
  isList : Bool
  isConst : Bool
deriving DecidableEq

namespace Attribute

def shape (a : Attribute) : Shape := if a.isList then .list else .fixed

/-- Slot count of a fixed attribute. The slots a list was declared with play no part. -/
def slotCount? (a : Attribute) : Option Nat := if a.isList then none else some a.slots

/-- Bytes of fixed storage per instance. -/
def footprint (a : Attribute) : Nat :=
  match a.slotCount? with
  | some slots => slots * a.type.width
  | none => 0

end Attribute

/-- A named record type. -/
structure Schema where
  id : SchemaId
  name : String
  attributes : List Attribute
deriving DecidableEq

namespace Schema

/-- A schema without attributes. Its number is settled when it is registered. -/
def new (name : String) : Except FrameError Schema :=
  if name = "" then .error (.invalidName .emptySchema) else .ok ⟨0, name, []⟩

/-- Number of attributes. -/
def size (s : Schema) : Nat := s.attributes.length

def attribute? (s : Schema) (name : String) : Option Attribute :=
  s.attributes.find? (·.name == name)

def attributeAt? (s : Schema) (id : AttrId) : Option Attribute := s.attributes[id]?

/-- The attribute of a name. -/
def attributeNamed (s : Schema) (name : String) : Except FrameError Attribute :=
  match s.attribute? name with
  | some a => .ok a
  | none => .error (.unknownAttribute s.name (.named name))

/-- The attribute of a number. -/
def attributeAt (s : Schema) (id : AttrId) : Except FrameError Attribute :=
  match s.attributeAt? id with
  | some a => .ok a
  | none => .error (.unknownAttribute s.name (.numbered id))

/-- Bytes of fixed storage per instance. -/
def footprint (s : Schema) : Nat := (s.attributes.map Attribute.footprint).sum

/-- Checks what is asked of an attribute against those declared before. -/
def requireNew (s : Schema) (spec : AttrSpec) : Except FrameError Unit :=
  if spec.name = "" then
    .error (.invalidName (.emptyAttribute s.name))
  else if (s.attribute? spec.name).isSome then
    .error (.duplicateAttribute s.name spec.name)
  else if !spec.isList && spec.slots == 0 then
    .error (.invalidSlots s.name spec.name)
  else
    .ok ()

/-- The schema with an attribute of the next number. -/
def add (s : Schema) (spec : AttrSpec) : Schema :=
  { s with attributes := s.attributes ++
    [⟨s.size, spec.name, spec.type, spec.slots, spec.isList, spec.isConst⟩] }

/-- Declares an attribute and answers its number. -/
def declare (spec : AttrSpec) : Action Schema AttrId := do
  Action.read (·.requireNew spec)
  let s ← Action.get
  Action.modify (·.add spec)
  return s.size

/-- The schema with one more attribute. -/
def extend (s : Schema) (spec : AttrSpec) : Except FrameError Schema :=
  let o := declare spec s
  o.result.map fun _ => o.state

/-- A schema of its name and its attributes in order. -/
def ofSpecs (name : String) (specs : List AttrSpec) : Except FrameError Schema := do
  specs.foldlM extend (← new name)

end Schema

end NodeStore
