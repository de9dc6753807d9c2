import NodeStore.Value

/-!
# Errors

`FrameError` names the cause of every failure of the store, with the coordinates it happened at.
`FrameError.message` is the one place that words them, and `FrameError.kind` groups them into the
classes callers branch on.
-/

namespace NodeStore

/-- Position of a schema in declaration order. -/
abbrev SchemaId := Nat

/-- Position of an attribute in its schema. -/
abbrev AttrId := Nat

/-- One time step, chosen by the caller. -/
abbrev Tick := Nat

/-- Whether an attribute has fixed slots or a list of any length. -/
inductive Shape where
  | fixed
  | list
deriving DecidableEq

def Shape.name : Shape → String
  | .fixed => "fixed"
  | .list => "list"

/-- How a schema was asked for. -/
inductive SchemaRef where
  | named (name : String)
  | numbered (id : SchemaId)
deriving DecidableEq

def SchemaRef.text : SchemaRef → String
  | .named name => name
  | .numbered id => "#" ++ toString id

/-- How an attribute was asked for. -/
inductive AttrRef where
  | named (name : String)
  | numbered (id : AttrId)
  | keyed (schema attr : String)
deriving DecidableEq

def AttrRef.text : AttrRef → String
  | .named name => name
  | .numbered id => "#" ++ toString id
  | .keyed schema attr => schema ++ "." ++ attr

/-- What is wrong with a name. -/
inductive NameFault where
  | emptySchema
  | emptyAttribute (schema : String)
deriving DecidableEq

def NameFault.message : NameFault → String
  | .emptySchema => "schema name must not be empty"
  | .emptyAttribute schema => s!"attribute name on schema '{schema}' must not be empty"

/-- What is wrong with a configuration. -/
inductive ConfigFault where
  | zeroCapacity
  | allocationOrder (schema : String) (id pools : Nat)
  | poolTooLarge (schema attr : String) (count slots : Nat)
deriving DecidableEq

def ConfigFault.message : ConfigFault → String
  | .zeroCapacity => "snapshot capacity must be at least 1"
  | .allocationOrder schema id pools =>
    s!"schema '{schema}' has id {id} but {pools} pools are allocated"
  | .poolTooLarge schema attr count slots =>
    s!"instance_count ({count}) * slots ({slots}) overflows for attribute '{attr}' " ++
      s!"of schema '{schema}'"

/-- Where a captured image and its pool disagree. -/
inductive ImageFault where
  | instances (image pool : Nat)
  | attributes (image declared : Nat)
  | type (attr : String) (captured declared : AttrType)
  | shape (attr : String)
  | listBounds (index : Nat)
  | recordField (attr : String)
  | missing (index : Nat) (attr : String)
  | missingAt (tick : Tick) (index : Nat) (attr : String)
deriving DecidableEq

def ImageFault.message : ImageFault → String
  | .instances image pool => s!"image holds {image} instances, pool holds {pool}"
  | .attributes image declared => s!"image holds {image} attributes, schema declares {declared}"
  | .type attr captured declared =>
    s!"attribute '{attr}' captured as {captured.name}, declared {declared.name}"
  | .shape attr => s!"attribute '{attr}' has the wrong shape or length"
  | .listBounds index => s!"list offsets for instance {index} are out of bounds"
  | .recordField attr => s!"record field '{attr}' does not match its layout"
  | .missing index attr => s!"no values for instance {index} attribute '{attr}'"
  | .missingAt tick index attr =>
    s!"tick {tick} holds no values for instance {index} attribute '{attr}'"

/-- Why a call of the store failed. -/
inductive FrameError where
  | duplicateSchema (schema : String)
  | duplicateAttribute (schema attr : String)
  | unknownSchema (schema : SchemaRef)
  | unknownAttribute (schema : String) (attr : AttrRef)
  | invalidName (fault : NameFault)
  | invalidSlots (schema attr : String)
  | indexOutOfRange (schema : String) (index count : Nat)
  | slotOutOfRange (schema attr : String) (slot slots : Nat)
  | slotCountMismatch (schema attr : String) (expected actual : Nat)
  | typeMismatch (schema attr : String) (expected : AttrType) (value : Value)
  | shapeMismatch (schema : String) (attr : AttrRef) (expected actual : Shape)
  | snapshotDisabled
  | tickNotFound (tick : Tick)
  | constAttributeWrite (schema attr : String) (index : Nat)
  | invalidConfig (fault : ConfigFault)
  | imageMismatch (schema : SchemaRef) (fault : ImageFault)
deriving DecidableEq

/-- The classes of errors. -/
inductive ErrorKind where
  | schema
  | indexOutOfRange
  | typeMismatch
  | snapshotDisabled
  | tickNotFound
  | constAttributeWrite
  | config
deriving DecidableEq

/-- The name of a class. -/
def ErrorKind.name : ErrorKind → String
  | .schema => "Schema"
  | .indexOutOfRange => "IndexOutOfRange"
  | .typeMismatch => "TypeMismatch"
  | .snapshotDisabled => "SnapshotDisabled"
  | .tickNotFound => "TickNotFound"
  | .constAttributeWrite => "ConstAttributeWrite"
  | .config => "Config"

namespace FrameError

/-- The name of a cause. -/
def name : FrameError → String
  | duplicateSchema .. => "DuplicateSchema"
  | duplicateAttribute .. => "DuplicateAttribute"
  | unknownSchema .. => "UnknownSchema"
  | unknownAttribute .. => "UnknownAttribute"
  | invalidName .. => "InvalidName"
  | invalidSlots .. => "InvalidSlots"
  | indexOutOfRange .. => "IndexOutOfRange"
  | slotOutOfRange .. => "SlotOutOfRange"
  | slotCountMismatch .. => "SlotCountMismatch"
  | typeMismatch .. => "TypeMismatch"
  | shapeMismatch .. => "ShapeMismatch"
  | snapshotDisabled => "SnapshotDisabled"
  | tickNotFound .. => "TickNotFound"
  | constAttributeWrite .. => "ConstAttributeWrite"
  | invalidConfig .. => "InvalidConfig"
  | imageMismatch .. => "ImageMismatch"

/-- The class of a cause. -/
def kind : FrameError → ErrorKind
  | duplicateSchema .. | duplicateAttribute .. | unknownSchema .. | unknownAttribute ..
  | invalidName .. | invalidSlots .. | imageMismatch .. => .schema
  | indexOutOfRange .. | slotOutOfRange .. => .indexOutOfRange
  | slotCountMismatch .. | typeMismatch .. | shapeMismatch .. => .typeMismatch
  | snapshotDisabled => .snapshotDisabled
  | tickNotFound .. => .tickNotFound
  | constAttributeWrite .. => .constAttributeWrite
  | invalidConfig .. => .config

/-- The text of an error. -/
def message : FrameError → String
  | duplicateSchema schema => s!"schema '{schema}' is already declared"
  | duplicateAttribute schema attr =>
    s!"attribute '{attr}' is already declared on schema '{schema}'"
  | unknownSchema schema => s!"unknown schema '{schema.text}'"
  | unknownAttribute schema attr => s!"unknown attribute '{attr.text}' on schema '{schema}'"
  | invalidName fault => s!"invalid name: {fault.message}"
  | invalidSlots schema attr =>
    s!"attribute '{attr}' on schema '{schema}' must have at least one slot"
  | indexOutOfRange schema index count =>
    s!"index {index} out of range for schema '{schema}' with {count} instances"
  | slotOutOfRange schema attr slot slots =>
    s!"slot {slot} out of range for attribute '{attr}' on schema '{schema}' with {slots} slots"
  | slotCountMismatch schema attr expected actual =>
    s!"attribute '{attr}' on schema '{schema}' expects {expected} values, got {actual}"
  | typeMismatch schema attr expected value =>
    s!"value {value.taggedText} cannot be stored in {expected.name} attribute '{attr}' " ++
      s!"on schema '{schema}'"
  | shapeMismatch schema attr expected actual =>
    s!"attribute '{attr.text}' on schema '{schema}' is a {actual.name} attribute, " ++
      s!"not {expected.name}"
  | snapshotDisabled => "snapshots are not enabled for this frame"
  | tickNotFound tick => s!"tick {tick} is not in the snapshot ring"
  | constAttributeWrite schema attr index =>
    s!"const attribute '{attr}' on schema '{schema}' instance {index} is sealed"
  | invalidConfig fault => s!"invalid frame configuration: {fault.message}"
  | imageMismatch schema fault =>
    s!"pool image does not match schema '{schema.text}': {fault.message}"

end FrameError

end NodeStore
