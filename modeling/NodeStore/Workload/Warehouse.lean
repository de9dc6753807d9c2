import NodeStore.Builder
import NodeStore.Frame.Op

/-!
# The warehouse script

Three warehouses and two consumers, and six ticks of writes that touch attributes of every shape.
The ring holds fewer ticks than the script captures. `Warehouse.run` tells all that can be seen of
one run.
-/

namespace NodeStore

/-- Shorthands for values of literal types. -/
def int32 (z : Int) : Value := .int ⟨true, .four⟩ z
def int64 (z : Int) : Value := .int ⟨true, .eight⟩ z
def uint16 (z : Int) : Value := .int ⟨false, .two⟩ z
def uint32 (z : Int) : Value := .int ⟨false, .four⟩ z

namespace NodeType

/-- A warehouse. -/
def storage : NodeType where
  name := "storage"
  attributes := [
    { name := "capacity", type := .int32 },
    { name := "product_number", type := .int32, isList := true },
    { name := "position", type := .float32, slots := 2 },
    { name := "facility_id", type := .int64, isConst := true }]

/-- A demand point. -/
def consumer : NodeType where
  name := "consumer"
  attributes := [
    { name := "demand", type := .uint16 },
    { name := "price", type := .float64 },
    { name := "orders", type := .uint32, isList := true }]

end NodeType

namespace Warehouse

/-- Number of warehouses. -/
def storages : Nat := 3

/-- Number of consumers. -/
def consumers : Nat := 2

/-- Ticks the script captures. -/
def ticks : Nat := 6

/-- Ticks the ring holds. -/
def capacity : Nat := 4

/-- The frame of the script. -/
def build (kind : Kind) : Action Builder Frame := do
  Builder.setKind kind
  Builder.setSnapshots capacity
  Builder.addNode .storage storages
  Builder.addNode .consumer consumers
  Builder.build

/-- The writes of one tick, and its capture. -/
def tick (t : Nat) : Action Frame Unit := do
  (List.range storages).forM fun i =>
    Frame.apply "storage" i "capacity" (.set 0 (int32 (100 - 10 * t + i)))
  Frame.apply "storage" (t % storages) "product_number" (.append (int32 t))
  Frame.apply "storage" 0 "position" (.setSlots [
    .float (.ofDyadic .single t 1), .float (Ieee.ofInt .single t).neg])
  Frame.apply "consumer" (t % consumers) "demand" (.set 0 (uint16 (t * 3)))
  Frame.apply "consumer" 0 "price" (.set 0 (.float (.ofDyadic .double (5 * t) 2)))
  if t % 2 = 0 then
    Frame.apply "consumer" 1 "orders" (.append (uint32 t))
  Frame.capture t
  if t = 3 then
    Frame.apply "storage" 0 "product_number" (.setList [])

/-- The whole script: const attributes, sealing, and every tick. -/
def script : Action Frame Unit := do
  (List.range storages).forM fun i =>
    Frame.apply "storage" i "facility_id" (.set 0 (int64 (1000 + i)))
  Frame.sealSchema "storage"
  (List.range ticks).forM tick

/-- Queries with selectors of every form. -/
def queries : List Query := [
  { schema := "storage", attrs := ["capacity", "product_number", "position"] },
  { schema := "consumer", ticks := .these [5, 4], indices := .these [1, 0],
    attrs := ["orders", "demand", "price"] },
  { schema := "storage", ticks := .one 2, indices := .one 1, attrs := ["product_number"] }]

/-- All that can be seen of one run. -/
structure Report where
  results : List QueryResult
  heldTicks : List Tick
  live : List (List Value)
  memory : Nat
  afterReset : List (List Value)

/-- Runs the script and the queries on a frame, then resets it. -/
def observe : Action Frame Report := do
  script
  let results ← Action.read fun f => queries.mapM f.query
  let ring ← Action.read Frame.snapshots
  let live ← Action.read Frame.dump
  let f ← Action.get
  Frame.reset
  let afterReset ← Action.read Frame.dump
  return ⟨results, ring.ticks, live, f.memory, afterReset⟩

/-- One run under a kind of storage, from the building of the frame on. -/
def run (kind : Kind) : Action Builder Report := do
  observe.within (← build kind)

end Warehouse

end NodeStore
