import NodeStore.Schema

/-!
# The schema table

Schemas get consecutive numbers in the order they are registered, under distinct names. A refused
operation leaves the table as it was.

A `Registry.Call` is any one declaration, so that whole sequences of declarations can be spoken of.
A `NodeType` is a schema known in advance.
-/

namespace NodeStore

/-- The schemas declared so far, in the order of their numbers. -/
structure Registry where
  schemas : List Schema := []
deriving DecidableEq

namespace Registry

def size (r : Registry) : Nat := r.schemas.length

def get? (r : Registry) (id : SchemaId) : Option Schema := r.schemas[id]?

def named? (r : Registry) (name : String) : Option Schema := r.schemas.find? (·.name == name)

/-- Registers a schema under the next number, which it answers. -/
def register (schema : Schema) : Action Registry SchemaId := do
  let r ← Action.get
  if (r.named? schema.name).isSome then
    Action.fail (.duplicateSchema schema.name)
  else
    Action.modify fun r => ⟨r.schemas ++ [{ schema with id := r.size }]⟩
    return r.size

/-- Registers a schema without attributes. -/
def declare (name : String) : Action Registry SchemaId := do
  register (← Action.read fun _ => Schema.new name)

/-- Registers a schema with all its attributes, or nothing. -/
def declareWith (name : String) (specs : List AttrSpec) : Action Registry SchemaId := do
  register (← Action.read fun _ => Schema.ofSpecs name specs)

/-- Declares an attribute on a registered schema. -/
def addAttribute (id : SchemaId) (spec : AttrSpec) : Action Registry AttrId := do
  let r ← Action.get
  match r.get? id with
  | none => Action.fail (.unknownSchema (.numbered id))
  | some schema =>
    (Schema.declare spec).on (fun _ => schema) fun s r => ⟨r.schemas.set id s⟩

/-! ## Calls as data -/

/-- A declaration. -/
inductive Call where
  | declare (name : String)
  | declareWith (name : String) (specs : List AttrSpec)
  | register (schema : Schema)
  | addAttribute (id : SchemaId) (spec : AttrSpec)
deriving DecidableEq

/-- Carries a call out and answers the number of what it declares: of the schema, or of the
attribute in its schema. -/
def perform : Call → Action Registry Nat
  | .declare name => declare name
  | .declareWith name specs => declareWith name specs
  | .register schema => register schema
  | .addAttribute id spec => addAttribute id spec

end Registry

/-! ## Node types -/

/-- A schema known in advance: a name and the attributes in order. -/
structure NodeType where
  name : String
  attributes : List AttrSpec

namespace NodeType

/-- The schema, not registered anywhere. -/
def schema (n : NodeType) : Except FrameError Schema := Schema.ofSpecs n.name n.attributes

/-- Registers the schema. -/
def declare (n : NodeType) : Action Registry SchemaId := Registry.declareWith n.name n.attributes

end NodeType

end NodeStore
