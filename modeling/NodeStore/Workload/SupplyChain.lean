import NodeStore.Workload.Warehouse

/-!
# The supply-chain workload

Facilities, consumers and vehicles, and a fixed rule for what each of them writes in a tick. Lists
are trimmed every eight ticks, so long runs stay bounded.
-/

namespace NodeStore

namespace NodeType

/-- A warehouse or factory. -/
def facility : NodeType where
  name := "facility"
  attributes := [
    { name := "capacity", type := .int32 },
    { name := "stock", type := .uint32, slots := 4 },
    { name := "pending_orders", type := .int32, isList := true },
    { name := "facility_id", type := .int64, isConst := true },
    { name := "position", type := .float32, slots := 2 }]

/-- A transport unit. -/
def vehicle : NodeType where
  name := "vehicle"
  attributes := [
    { name := "location", type := .int32 },
    { name := "payload", type := .float32 },
    { name := "route", type := .int32, isList := true }]

end NodeType

/-- Instance counts and ring size of a supply-chain frame. -/
structure Profile where
  facilities : Nat
  consumers : Nat
  vehicles : Nat
  capacity : Nat

namespace Profile

def reference : Profile := ⟨100, 1000, 200, 16⟩

/-- Ten times the instances of the reference. -/
def stress : Profile := ⟨1000, 10000, 2000, 16⟩

/-- A frame of zeros for a profile. -/
def build (p : Profile) (kind : Kind) : Action Builder Frame := do
  Builder.setKind kind
  Builder.setSnapshots p.capacity
  Builder.addNode .facility p.facilities
  Builder.addNode .consumer p.consumers
  Builder.addNode .vehicle p.vehicles
  Builder.build

end Profile

namespace SupplyChain

/-- Writes the const numbers of the facilities. -/
def numberFacilities : Action Frame Unit := do
  let n ← Action.read (·.instanceCount "facility")
  (List.range n).forM fun i =>
    Frame.apply "facility" i "facility_id" (.set 0 (int64 (10000 + i)))

/-- A tick as a signed 64-bit number, the upper half of the ticks being negative. -/
def signedTick (tick : Tick) : Int := Int.bmod tick (2 ^ (64 : Nat))

/-- What a tick and the number of an instance add up to. Remainders of these sums are written. -/
structure Sums where
  capacity : Int
  order : Int
  /-- Of stock and of locations. -/
  shift : Int
  demand : Nat
  slot : Nat

/-- The first three are signed, as the tick is there; the others are not. -/
def sums (tick : Tick) (i : Nat) : Sums where
  capacity := 1000 - signedTick tick * 3 + i
  order := signedTick tick * 7 + i
  shift := signedTick tick + i
  demand := tick * 13 + i
  slot := tick + i

/-! ## What is written -/

/-- The capacity left at a facility. -/
def capacity (tick : Tick) (i : Nat) : Value := int32 ((sums tick i).capacity.tmod 1000)

/-- The stock of one product at a facility. -/
def stock (tick : Tick) (i : Nat) : Value := uint32 ((sums tick i).shift.tmod 500)

/-- The order that a facility queues. -/
def order (tick : Tick) (i : Nat) : Value := int32 ((sums tick i).order.tmod 97)

def demand (tick : Tick) (i : Nat) : Nat := (sums tick i).demand % 200

/-- The price for a demand: a quarter for each unit, and one. -/
def price (tick : Tick) (i : Nat) : Value := .float (.ofDyadic .double (4 + demand tick i) 2)

/-- What a vehicle carries: one and a half for each tick since the last tenth. -/
def payload (tick : Tick) : Value := .float (.ofDyadic .single (tick % 10 * 3 : Nat) 1)

/-- The facility that a vehicle is at. -/
def location (tick : Tick) (facilities : Nat) (i : Nat) : Value :=
  int32 ((sums tick i).shift.tmod (max facilities 1 : Nat))

/-- A facility restocks and queues an order. -/
def driveFacility (tick : Tick) (i : Nat) : Action Frame Unit := do
  Frame.apply "facility" i "capacity" (.set 0 (capacity tick i))
  Frame.apply "facility" i "stock" (.set ((sums tick i).slot % 4) (stock tick i))
  if tick % 8 = 0 then
    Frame.apply "facility" i "pending_orders" (.setList [])
  Frame.apply "facility" i "pending_orders" (.append (order tick i))

/-- A consumer updates demand and price, and orders every fifth tick. -/
def driveConsumer (tick : Tick) (i : Nat) : Action Frame Unit := do
  Frame.apply "consumer" i "demand" (.set 0 (uint16 (demand tick i)))
  Frame.apply "consumer" i "price" (.set 0 (price tick i))
  if i % 5 = tick % 5 then
    Frame.apply "consumer" i "orders" (.append (uint32 (demand tick i)))
  if tick % 8 = 0 then
    Frame.apply "consumer" i "orders" (.setList [])

/-- A vehicle moves on among the facilities. -/
def driveVehicle (tick : Tick) (facilities : Nat) (i : Nat) : Action Frame Unit := do
  Frame.apply "vehicle" i "location" (.set 0 (location tick facilities i))
  Frame.apply "vehicle" i "payload" (.set 0 (payload tick))
  if tick % 8 = 0 then
    Frame.apply "vehicle" i "route" (.setList [location tick facilities i])
  else
    Frame.apply "vehicle" i "route" (.append (location tick facilities i))

/-- One tick of writes to every instance. -/
def drive (tick : Tick) : Action Frame Unit := do
  let facilities ← Action.read (·.instanceCount "facility")
  (List.range facilities).forM (driveFacility tick)
  let consumers ← Action.read (·.instanceCount "consumer")
  (List.range consumers).forM (driveConsumer tick)
  let vehicles ← Action.read (·.instanceCount "vehicle")
  (List.range vehicles).forM (driveVehicle tick facilities)

/-- What is seen of a run: how the numbering ended, and the memory after each captured tick. -/
structure Report where
  numbering : Except FrameError Unit
  memory : List (Tick × Nat)

/-- Numbers the facilities, seals everything, then drives and captures the given ticks. Sealing
first makes the numbering fail. -/
def run (sealFirst : Bool) (ticks : List Tick) : Action Frame Report := do
  if sealFirst then Frame.sealAll
  let numbering ← numberFacilities.attempt
  Frame.sealAll
  let memory ← ticks.mapM fun t => do
    drive t
    Frame.capture t
    return (t, (← Action.get).memory)
  return ⟨numbering, memory⟩

end SupplyChain

end NodeStore
