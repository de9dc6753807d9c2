import NodeStore.Frame.Summary
import NodeStore.Registry

/-!
# Building frames

A `Builder` gathers schemas, instance counts and the configuration. A schema without a count gets no
instances. `Builder.build` checks the configuration, allocates a pool for each schema in the order
of their numbers, and makes the ring.
-/

namespace NodeStore

/-- The choices a frame is built with. Without a capacity there are no snapshots. -/
structure Config where
  kind : Kind := .standard
  capacity : Option Nat := none
deriving DecidableEq

namespace Config

def hasSnapshots (c : Config) : Bool := c.capacity.isSome

/-- Snapshots need at least one slot. -/
def validate (c : Config) : Except ConfigFault Unit :=
  if c.capacity = some 0 then .error .zeroCapacity else .ok ()

end Config

/-- What a frame is to be built of. -/
structure Builder where
  registry : Registry := {}
  counts : List Nat := []
  config : Config := {}
  /-- A store of the caller's own, in place of a new one. -/
  store : Option Store := none

/-- Allocates a pool for each schema and puts the frame together. -/
def Frame.ofSchemas (schemas : List (Schema × Nat)) (ring : Option Ring) :
    Action Store Frame := do
  schemas.forM fun (schema, count) => Store.allocate schema count
  let store ← Action.get
  return ⟨schemas.map (·.1), store, schemas.map fun _ => .empty, ring⟩

namespace Builder

variable {α : Type}

def inRegistry (x : Action Registry α) : Action Builder α :=
  x.on registry fun r b => { b with registry := r }

/-- The counts, with none missing. -/
def syncedCounts (b : Builder) : List Nat :=
  b.counts ++ List.replicate (b.registry.size - b.counts.length) 0

/-- Sets the instance count of a declared schema. -/
def setCount (id : SchemaId) (count : Nat) : Action Builder Unit := do
  let b ← Action.get
  match b.registry.get? id with
  | none => Action.fail (noPool id)
  | some _ => Action.modify fun b => { b with counts := b.syncedCounts.set id count }

/-- Registers a schema in some way and sets its count. -/
def withCount (x : Action Registry SchemaId) (count : Nat) : Action Builder SchemaId := do
  let id ← inRegistry x
  setCount id count
  return id

/-- Declares a schema without attributes. -/
def declare (name : String) (count : Nat) : Action Builder SchemaId :=
  withCount (Registry.declare name) count

/-- Adds an attribute to a declared schema. -/
def addAttribute (id : SchemaId) (spec : AttrSpec) : Action Builder Unit := do
  let _ ← inRegistry (Registry.addAttribute id spec)

/-- Declares a schema with its attributes. -/
def declareWith (name : String) (specs : List AttrSpec) (count : Nat) : Action Builder Unit := do
  let _ ← withCount (Registry.declareWith name specs) count

/-- Adds a schema made elsewhere. -/
def add (schema : Schema) (count : Nat) : Action Builder Unit := do
  let _ ← withCount (Registry.register schema) count

/-- Declares the schema of a node type. -/
def addNode (n : NodeType) (count : Nat) : Action Builder Unit := do
  let _ ← withCount n.declare count

def setConfig (c : Config) : Action Builder Unit := Action.modify fun b => { b with config := c }

def setKind (k : Kind) : Action Builder Unit :=
  Action.modify fun b => { b with config := { b.config with kind := k } }

/-- Uses a store of the caller's own, whatever kind is configured. -/
def setStore (s : Store) : Action Builder Unit := Action.modify fun b => { b with store := some s }

/-- Uses a store of the caller's own in which each of the given schemas has a pool of one instance
already. -/
def usePreloaded (k : Kind) (schemas : List Schema) : Action Builder Unit := do
  let preload : Action Store Store := do
    schemas.forM fun schema => Store.allocate schema 1
    Action.get
  setStore (← preload.within (.new k))

/-- Enables snapshots. -/
def setSnapshots (capacity : Nat) : Action Builder Unit :=
  Action.modify fun b => { b with config := { b.config with capacity := some capacity } }

/-- The store the frame starts from. -/
def startStore (b : Builder) : Store := b.store.getD (.new b.config.kind)

/-- The ring the frame starts with. -/
def startRing (b : Builder) : Except FrameError (Option Ring) :=
  match b.config.capacity with
  | none => .ok none
  | some n =>
    match Ring.new n with
    | .ok ring => .ok (some ring)
    | .error fault => .error (.invalidConfig fault)

/-- Whether the configuration holds. -/
def checkConfig (b : Builder) : Except FrameError Unit :=
  match b.config.validate with
  | .ok () => .ok ()
  | .error fault => .error (.invalidConfig fault)

/-- Builds the frame. -/
def build : Action Builder Frame := do
  Action.read checkConfig
  let b ← Action.get
  let ring ← Action.read startRing
  let counts := b.syncedCounts
  let frame ← (Frame.ofSchemas (b.registry.schemas.zip counts) ring).within b.startStore
  Action.emit (.frameBuilt frame.store.kind.name b.registry.size counts.sum b.config.capacity)
  return frame

def describe (b : Builder) : String :=
  let kind := match b.config.kind with
    | .dense => "Dense"
    | .lite => "Lite"
  let config := describeFields "FrameConfig" [
    ("backend", kind), ("snapshot_capacity", optionalNumber b.config.capacity)]
  let custom := match b.store with
    | some s => "Some(" ++ Text.quoted s.kind.name ++ ")"
    | none => "None"
  describeFields "FrameBuilder" [
    ("schemas", toString b.registry.size), ("config", config), ("custom_backend", custom)]

/-! ## Steps as data -/

/-- One step of putting a builder together. -/
inductive Step where
  | declare (name : String) (count : Nat)
  | addAttribute (id : SchemaId) (spec : AttrSpec)
  | declareUncounted (name : String)
  | setCount (id : SchemaId) (count : Nat)
  | setConfig (c : Config)
  | setKind (k : Kind)
  | usePreloaded (k : Kind) (schemas : List Schema)
  | setSnapshots (capacity : Nat)
  | declareWith (name : String) (specs : List AttrSpec) (count : Nat)
  | add (schema : Schema) (count : Nat)
  | addNode (n : NodeType) (count : Nat)

/-- Takes a step; declaring a schema answers its number. -/
def perform : Step → Action Builder (Option SchemaId)
  | .declare name count => do return some (← declare name count)
  | .addAttribute id spec => do addAttribute id spec; return none
  | .declareUncounted name => do return some (← inRegistry (Registry.declare name))
  | .setCount id count => do setCount id count; return none
  | .setConfig c => do setConfig c; return none
  | .setKind k => do setKind k; return none
  | .usePreloaded k schemas => do usePreloaded k schemas; return none
  | .setSnapshots capacity => do setSnapshots capacity; return none
  | .declareWith name specs count => do declareWith name specs count; return none
  | .add schema count => do add schema count; return none
  | .addNode n count => do addNode n count; return none

/-- Whether a step that fails ends the building: these hand the builder over and get it back only if
they succeed. -/
def Step.isFinal : Step → Bool
  | .declare .. | .addAttribute .. | .declareUncounted .. | .setCount .. => false
  | _ => true

/-- A builder for schemas with their counts on the standard storage. The capacity matters only if
snapshots are enabled. -/
def ofSchemas (schemas : List (Schema × Nat)) (enable : Bool) (capacity : Nat) :
    Action Builder Unit := do
  if enable then setSnapshots capacity
  schemas.forM fun (schema, count) => add schema count

end Builder

end NodeStore
