import NodeStore.Image

/-!
# The snapshot ring

A `Snapshot` is a copy of every pool at one tick. A `Ring` holds the snapshots of the last ticks:
each new tick takes the slot after the one before, around and around, and so drops the oldest once
all slots are full; a tick that is held already is replaced where it stands. A table of places finds
the slot of a tick.
-/

namespace NodeStore

/-- A copy of every pool, in the order of the schemas' numbers. -/
structure Snapshot where
  tick : Tick
  pools : List PoolImage
deriving DecidableEq

namespace Snapshot

def pool? (s : Snapshot) (id : SchemaId) : Option PoolImage := s.pools[id]?

/-- The captured values of an attribute of an instance. -/
def values? (s : Snapshot) (id : SchemaId) (index : Nat) (attr : AttrId) : Option (List Value) :=
  (s.pool? id).bind (·.values? index attr)

/-- Appends the captured values of an attribute to `out` and tells how many there were. -/
def appendValues (s : Snapshot) (id : SchemaId) (index : Nat) (attr : AttrId) (out : List Value) :
    Option Nat × List Value :=
  match s.pool? id with
  | some pool => pool.appendValues index attr out
  | none => (none, out)

/-- Bytes of the captured values. -/
def memory (s : Snapshot) : Nat := (s.pools.map PoolImage.memory).sum

end Snapshot

/-- A bounded history of snapshots. -/
structure Ring where
  /-- What each slot holds. -/
  slots : List (Option Snapshot)
  /-- The slot of each held tick. -/
  places : List (Tick × Nat)
  /-- How many new ticks have come since the ring was empty. -/
  written : Nat
deriving DecidableEq

namespace Ring

/-- An empty ring of at least one slot. -/
def new (capacity : Nat) : Except ConfigFault Ring :=
  if capacity = 0 then .error .zeroCapacity else .ok ⟨List.replicate capacity none, [], 0⟩

/-- The most snapshots the ring holds. -/
def capacity (r : Ring) : Nat := r.slots.length

/-- Number of snapshots held. -/
def size (r : Ring) : Nat := r.places.length

/-- What a slot holds. -/
def slot (r : Ring) (i : Nat) : Option Snapshot := r.slots[i]?.join

/-- The slot of a tick. -/
def place? (r : Ring) (tick : Tick) : Option Nat := r.places.lookup tick

/-- The table of places without the tick of a snapshot that goes. -/
def placesWithout (r : Ring) (old : Option Snapshot) : List (Tick × Nat) :=
  match old with
  | some old => r.places.filter (·.1 != old.tick)
  | none => r.places

/-- Inserts a snapshot and answers the one it displaces: the one held at its tick, or else the
oldest if the ring is full. -/
def push (r : Ring) (s : Snapshot) : Option Snapshot × Ring :=
  match r.place? s.tick with
  | some i => (r.slot i, { r with slots := r.slots.set i (some s) })
  | none =>
    let i := r.written % r.capacity
    (r.slot i, ⟨r.slots.set i (some s), r.placesWithout (r.slot i) ++ [(s.tick, i)], r.written + 1⟩)

/-- The snapshot of a tick. -/
def get? (r : Ring) (tick : Tick) : Option Snapshot := (r.place? tick).bind r.slot

def contains (r : Ring) (tick : Tick) : Bool := (r.place? tick).isSome

/-- The snapshot of the tick that came last. -/
def latest? (r : Ring) : Option Snapshot :=
  if r.written = 0 then none else r.slot ((r.written - 1) % r.capacity)

/-- The held snapshots, in the order their ticks came. -/
def toList (r : Ring) : List Snapshot :=
  let start := if r.size < r.capacity then 0 else r.written % r.capacity
  (List.range r.capacity).filterMap fun k => r.slot ((start + k) % r.capacity)

/-- The held ticks, in the order they came. -/
def ticks (r : Ring) : List Tick := r.toList.map Snapshot.tick

/-- The ring without snapshots. -/
def clear (r : Ring) : Ring := ⟨List.replicate r.capacity none, [], 0⟩

/-- Bytes of all captured values. -/
def memory (r : Ring) : Nat := (r.toList.map Snapshot.memory).sum

end Ring

end NodeStore
