import NodeStore.Ring

/-!
# Snapshot queries

A `Query` selects ticks, instances and attributes of one schema. `Query.compile` settles its names
and indices against the schema, and `QueryPlan.execute` reads the ring. The values of the result run
tick by tick, in each tick instance by instance, in each instance attribute by attribute; a table of
offsets marks where each such cell starts, and `QueryResult.cell?` reads one.
-/

namespace NodeStore

/-- A selection: one item, the listed ones in their order, or all there are. -/
inductive Selector (α : Type) where
  | one (a : α)
  | these (as : List α)
  | all
deriving DecidableEq

/-- The selected items, where `everything` tells all there are, asked only when all are meant. -/
def Selector.choose {α : Type} (everything : Unit → List α) : Selector α → List α
  | .one a => [a]
  | .these as => as
  | .all => everything ()

/-- A query over one schema; without further choice, of every held tick and every instance. -/
structure Query where
  schema : String
  ticks : Selector Tick := .all
  indices : Selector Nat := .all
  attrs : List String := []
deriving DecidableEq

/-- A query whose names and indices are settled. -/
structure QueryPlan where
  schema : SchemaId
  ticks : Selector Tick
  indices : List Nat
  attrs : List (AttrId × String)
deriving DecidableEq

/-- Settles a query against a schema of `count` instances: first the names, then the indices. -/
def Query.compile (q : Query) (schema : Schema) (count : Nat) : Except FrameError QueryPlan := do
  let attrs ← q.attrs.mapM fun name => do
    let attr ← schema.attributeNamed name
    return (attr.id, attr.name)
  let indices := q.indices.choose fun _ => List.range count
  match indices.find? (count ≤ ·) with
  | some index => throw (.indexOutOfRange schema.name index count)
  | none => return ⟨schema.id, q.ticks, indices, attrs⟩

/-- Where each of consecutive pieces of the given lengths starts, and where the last ends. -/
def offsetsFrom (start : Nat) : List Nat → List Nat
  | [] => [start]
  | n :: ns => start :: offsetsFrom (start + n) ns

/-- The values a query found and the shape to read them by. -/
structure QueryResult where
  ticks : List Tick
  indices : List Nat
  attrs : List String
  offsets : List Nat
  values : List Value
deriving DecidableEq

namespace QueryPlan

/-- The captured values of one cell. -/
def readCell (p : QueryPlan) (s : Snapshot) (index : Nat) (attr : AttrId × String) :
    Except FrameError (List Value) :=
  match s.values? p.schema index attr.1 with
  | some values => .ok values
  | none => .error (.imageMismatch (.numbered p.schema) (.missingAt s.tick index attr.2))

/-- The cells of the plan, in the order of the result. -/
def cells (p : QueryPlan) (snapshots : List Snapshot) :
    List (Snapshot × Nat × AttrId × String) :=
  snapshots.flatMap fun s => p.indices.flatMap fun index => p.attrs.map fun attr => (s, index, attr)

/-- Runs the plan. Every tick is looked up before any value is read. -/
def execute (p : QueryPlan) (ring : Ring) : Except FrameError QueryResult := do
  let ticks := p.ticks.choose fun _ => ring.ticks
  let snapshots ← ticks.mapM fun tick =>
    match ring.get? tick with
    | some s => Except.ok s
    | none => .error (.tickNotFound tick)
  let pieces ← (p.cells snapshots).mapM fun (s, index, attr) => p.readCell s index attr
  return {
    ticks
    indices := p.indices
    attrs := p.attrs.map (·.2)
    offsets := offsetsFrom 0 (pieces.map List.length)
    values := pieces.flatten }

end QueryPlan

namespace QueryResult

/-- Number of values. -/
def size (r : QueryResult) : Nat := r.values.length

/-- Number of values of each cell, in order. -/
def counts (r : QueryResult) : List Nat :=
  (r.offsets.zip r.offsets.tail).map fun (start, stop) => stop - start

/-- The values of the cell at the given positions among the ticks, indices and attributes. -/
def cell? (r : QueryResult) (tick index attr : Nat) : Option (List Value) :=
  if tick < r.ticks.length ∧ index < r.indices.length ∧ attr < r.attrs.length then do
    let position := (tick * r.indices.length + index) * r.attrs.length + attr
    let start ← r.offsets[position]?
    let stop ← r.offsets[position + 1]?
    return (r.values.drop start).take (stop - start)
  else
    none

/-- Every value as the nearest of the wide floating-point format. -/
def doubles (r : QueryResult) : List (Ieee .double) := r.values.map Value.toDouble

/-- Every value as the nearest of the short floating-point format. -/
def singles (r : QueryResult) : List (Ieee .single) := r.values.map Value.toSingle

end QueryResult

end NodeStore
