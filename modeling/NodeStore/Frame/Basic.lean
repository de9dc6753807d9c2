import NodeStore.InstanceSet
import NodeStore.Query
import NodeStore.Store.Basic

/-!
# Frames

A `Frame` is the live store of a simulation: the pools of all schemas, the set of sealed instances
of each, and, if it was built with snapshots, the ring of captured ticks. Schemas and instance
counts never change.

Every access comes down to a coordinate. A write first asks whether it may change a sealed
instance's const attribute and then leaves all other checks to the store.
-/

namespace NodeStore

/-- An attribute of a schema, looked up once. -/
structure Handle where
  schema : SchemaId
  attr : AttrId
deriving DecidableEq

/-- The coordinate of the attribute in an instance. -/
def Handle.coord (h : Handle) (index : Nat) : Coord := ⟨h.schema, index, h.attr⟩

/-- The live store of a simulation. -/
structure Frame where
  schemas : List Schema
  store : Store
  seals : List InstanceSet
  ring : Option Ring

namespace Frame

variable {α : Type}

/-- Acts on the pools. -/
def inStore (x : Action Store α) : Action Frame α := x.on store fun s f => { f with store := s }

/-! ## Looking up -/

def schema? (f : Frame) (name : String) : Option Schema := f.schemas.find? (·.name == name)

def schemaAt? (f : Frame) (id : SchemaId) : Option Schema := f.schemas[id]?

/-- The schema of a name. -/
def schema (f : Frame) (name : String) : Except FrameError Schema :=
  match f.schema? name with
  | some schema => .ok schema
  | none => .error (.unknownSchema (.named name))

/-- The schema of a number. -/
def schemaAt (f : Frame) (id : SchemaId) : Except FrameError Schema :=
  match f.schemaAt? id with
  | some schema => .ok schema
  | none => .error (noPool id)

/-- Number of instances of a schema. -/
def count (f : Frame) (id : SchemaId) : Nat := (f.store.count? id).getD 0

def instanceCount (f : Frame) (schema : String) : Except FrameError Nat := do
  return f.count (← f.schema schema).id

def hasSnapshots (f : Frame) : Bool := f.ring.isSome

/-- Bytes of the live values and of every captured snapshot. -/
def memory (f : Frame) : Nat := f.store.memory + (f.ring.map Ring.memory).getD 0

/-- Looks a schema and an attribute up once for repeated access. -/
def handle (f : Frame) (schema attr : String) : Except FrameError Handle := do
  let schema ← f.schema schema
  let attr ← schema.attributeNamed attr
  return ⟨schema.id, attr.id⟩

/-- The coordinate of an attribute of an instance. -/
def coord (f : Frame) (schema : String) (index : Nat) (attr : String) :
    Except FrameError Coord := do
  return (← f.handle schema attr).coord index

/-- Requires an index below the instance count. -/
def requireIndex (f : Frame) (id : SchemaId) (index : Nat) : Except FrameError Unit :=
  if index < f.count id then .ok ()
  else .error (.indexOutOfRange (((f.schemaAt? id).map Schema.name).getD "") index (f.count id))

def isSealedAt (f : Frame) (id : SchemaId) (index : Nat) : Bool :=
  (f.seals[id]?).any (·.contains index)

/-- Refuses to write a const attribute of a sealed instance. -/
def permitWrite (f : Frame) (c : Coord) : Except FrameError Unit :=
  if f.isSealedAt c.schema c.index then
    match f.schemaAt? c.schema with
    | none => .ok ()
    | some schema =>
      match schema.attributeAt? c.attr with
      | none => .ok ()
      | some attr =>
        if attr.isConst then .error (.constAttributeWrite schema.name attr.name c.index) else .ok ()
  else
    .ok ()

/-! ## Access at a coordinate -/

/-- Writes through to the store what may be written. -/
def write (c : Coord) (x : Action Store Unit) : Action Frame Unit := do
  Action.read (·.permitWrite c)
  inStore x

/-- Lays values over the slots they are meant for, the later over the earlier. -/
def overlay (schema : Schema) (attr : Attribute) :
    List (Nat × Value) → List Value → Except FrameError (List Value)
  | [], current => .ok current
  | (slot, v) :: rest, current => do
    schema.requireSlot attr slot
    overlay schema attr rest (current.set slot v)

/-- The slots of an attribute after writing `vs` to `slots`, each to its own. -/
def mergedSlots (f : Frame) (c : Coord) (slots : List Nat) (vs : List Value) :
    Except FrameError (List Value) := do
  let current ← f.store.getSlots c
  let schema ← f.schemaAt c.schema
  let attr ← schema.attributeAt c.attr
  if slots.length ≠ vs.length then
    throw (.slotCountMismatch schema.name attr.name slots.length vs.length)
  overlay schema attr (slots.zip vs) current

/-- Writes chosen slots of a fixed attribute. -/
def writeChosen (c : Coord) (slots : List Nat) (vs : List Value) : Action Frame Unit := do
  Action.read (·.permitWrite c)
  let merged ← Action.read (·.mergedSlots c slots vs)
  inStore (Store.setSlots c merged)

/-! ## Sealing -/

/-- Seals an instance of the schema of a number. -/
def sealAt (id : SchemaId) (index : Nat) : Action Frame Unit := do
  Action.read (·.requireIndex id index)
  let f ← Action.get
  match f.seals[id]? with
  | none => return
  | some set =>
    let (fresh, set) := set.add index
    Action.modify fun f => { f with seals := f.seals.set id set }
    if fresh then
      Action.emit (.instanceSealed id index)

/-- Ends the set-up of an instance: its const attributes can no longer be written. -/
def sealInstance (schema : String) (index : Nat) : Action Frame Unit := do
  let schema ← Action.read (·.schema schema)
  sealAt schema.id index

/-- Seals every instance of a schema. -/
def sealSchema (name : String) : Action Frame Unit := do
  let schema ← Action.read (·.schema name)
  let f ← Action.get
  let n := f.count schema.id
  Action.modify fun f => { f with seals := f.seals.modify schema.id (·.insertBelow n) }
  Action.emit (.schemaSealed name n)

/-- Seals every instance of every schema. -/
def sealAll : Action Frame Unit := do
  let f ← Action.get
  Action.modify fun f =>
    { f with seals := f.seals.mapIdx fun id set => set.insertBelow (f.count id) }
  Action.emit (.allSealed f.seals.length)

def isSealed (f : Frame) (schema : String) (index : Nat) : Except FrameError Bool := do
  let schema ← f.schema schema
  f.requireIndex schema.id index
  return f.isSealedAt schema.id index

/-! ## Reset -/

/-- Zeros every value, empties every list, clears all seals and drops every snapshot. -/
def reset : Action Frame Unit := do
  inStore Store.resetAll
  Action.modify fun f =>
    { f with seals := f.seals.map InstanceSet.clear, ring := f.ring.map Ring.clear }
  let f ← Action.get
  Action.emit (.frameReset f.store.kind.name)

/-! ## Snapshots -/

/-- The snapshot ring. -/
def snapshots (f : Frame) : Except FrameError Ring :=
  match f.ring with
  | some ring => .ok ring
  | none => .error .snapshotDisabled

/-- Copies of all pools, in the order of the schemas' numbers. -/
def images (f : Frame) : Except FrameError (List PoolImage) :=
  (List.range f.schemas.length).mapM f.store.capture

/-- Captures the live values as a tick. -/
def capture (tick : Tick) : Action Frame Unit := do
  let ring ← Action.read snapshots
  let pools ← Action.read images
  let (displaced, ring) := ring.push ⟨tick, pools⟩
  Action.modify fun f => { f with ring := some ring }
  Action.emit (.snapshotCaptured tick ring.size)
  match displaced with
  | some old => if old.tick ≠ tick then Action.emit (.snapshotEvicted old.tick)
  | none => return

/-- The snapshot of a tick. -/
def snapshot (f : Frame) (tick : Tick) : Except FrameError Snapshot := do
  let ring ← f.snapshots
  match ring.get? tick with
  | some s => return s
  | none => throw (.tickNotFound tick)

/-- Copies a captured tick back into the pools. Seals and ring stay as they are. -/
def restore (tick : Tick) : Action Frame Unit := do
  let s ← Action.read (·.snapshot tick)
  s.pools.zipIdx.forM fun (image, id) => inStore (Store.restore id image)
  Action.emit (.snapshotRestored s.tick)

/-- Runs a query: first whether there are snapshots, then the schema, the names and the indices, and
last the ticks. -/
def query (f : Frame) (q : Query) : Except FrameError QueryResult := do
  let ring ← f.snapshots
  let schema ← f.schema q.schema
  let plan ← q.compile schema (f.count schema.id)
  plan.execute ring

/-! ## The live state as a whole -/

/-- The values of one attribute of one instance, whatever its shape. -/
def readAll (f : Frame) (schema : String) (index : Nat) (attr : Attribute) :
    Except FrameError (List Value) := do
  let c ← f.coord schema index attr.name
  if attr.isList then f.store.getList c else f.store.getSlots c

/-- Every live value, schema by schema, instance by instance, attribute by attribute. -/
def dump (f : Frame) : Except FrameError (List (List Value)) := do
  let parts ← f.schemas.mapM fun schema => do
    let n ← f.instanceCount schema.name
    let rows ← (List.range n).mapM fun index =>
      schema.attributes.mapM (f.readAll schema.name index)
    return rows.flatten
  return parts.flatten

end Frame

end NodeStore
