import NodeStore.Frame.Node
import NodeStore.Text

/-!
# Frame summaries

`Frame.summary` tells what an exporter needs to know of a frame: its storage, its snapshot capacity
and every schema with its attributes. `FrameSummary.text` is the same to read.

Frames, views and keys have descriptions of one line besides, for people who look for faults.
-/

namespace NodeStore

open Text (quoted)

/-- What is told of one schema. -/
structure SchemaSummary where
  name : String
  count : Nat
  footprint : Nat
  attributes : List AttrSpec
deriving DecidableEq

/-- What is told of a frame. -/
structure FrameSummary where
  kind : Kind
  capacity : Option Nat
  schemas : List SchemaSummary
deriving DecidableEq

/-- What was asked of a declared attribute. -/
def Attribute.spec (a : Attribute) : AttrSpec := ⟨a.name, a.type, a.slots, a.isList, a.isConst⟩

/-- One line of text: name, type, slots or list brackets, and whether const. -/
def AttrSpec.line (a : AttrSpec) : String :=
  let brackets := if a.isList then "[]" else if 1 < a.slots then s!"[{a.slots}]" else ""
  s!"    {a.name}: {a.type.name}{brackets}" ++ (if a.isConst then " const\n" else "\n")

namespace SchemaSummary

def attribute? (s : SchemaSummary) (name : String) : Option AttrSpec :=
  s.attributes.find? (·.name == name)

def lines (s : SchemaSummary) : String :=
  s!"  {s.name} x{s.count} ({s.footprint} B/instance)\n" ++
    String.join (s.attributes.map AttrSpec.line)

end SchemaSummary

namespace FrameSummary

def schema? (i : FrameSummary) (name : String) : Option SchemaSummary :=
  i.schemas.find? (·.name == name)

/-- Number of instances of all schemas. -/
def total (i : FrameSummary) : Nat := (i.schemas.map SchemaSummary.count).sum

/-- The summary as text. -/
def text (i : FrameSummary) : String :=
  let snapshots := match i.capacity with
    | some n => s!"{n} snapshot slots"
    | none => "snapshots disabled"
  s!"frame ({i.kind.name} backend, {snapshots})\n" ++
    String.join (i.schemas.map SchemaSummary.lines)

end FrameSummary

/-- The summary of a frame. -/
def Frame.summary (f : Frame) : FrameSummary where
  kind := f.store.kind
  capacity := f.ring.map Ring.capacity
  schemas := f.schemas.map fun s =>
    ⟨s.name, f.count s.id, s.footprint, s.attributes.map Attribute.spec⟩

/-! ## Descriptions -/

/-- Named fields in braces after a title. -/
def describeFields (title : String) (fields : List (String × String)) : String :=
  title ++ " \x7b " ++ ", ".intercalate (fields.map fun (name, text) => name ++ ": " ++ text) ++
    " \x7d"

def Frame.describe (f : Frame) : String :=
  describeFields "Frame" [
    ("backend", quoted f.store.kind.name),
    ("schemas", "[" ++ ", ".intercalate (f.schemas.map fun s => quoted s.name) ++ "]"),
    ("snapshots", optionalNumber (f.ring.map Ring.size))]

/-- A view described by its schema's number, for reading. -/
def Node.describe (n : Node) : String :=
  describeFields "NodeRef" [("schema", s!"SchemaId({n.schema})"), ("index", toString n.index)]

/-- A view described by its schema's name, for writing. -/
def Node.describeNamed (n : Node) (f : Frame) : String :=
  let name := ((f.schemaAt? n.schema).map Schema.name).getD ""
  describeFields "NodeMut" [("schema", quoted name), ("index", toString n.index)]

def Key.describe (k : Key) : String := s!"AttrKey({k.schema}.{k.attr})"

end NodeStore
