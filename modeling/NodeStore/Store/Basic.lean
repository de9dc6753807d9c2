import NodeStore.Store.Dense
import NodeStore.Store.Lite
import NodeStore.Store.Pools

/-!
# The store

A `Store` is a pool table of one of the two strategies. Its operations are those of the tables,
whatever the strategy: reads are functions of the store, writes are actions on it.
-/

namespace NodeStore

/-- The pools of a frame under the strategy chosen for it. -/
inductive Store where
  | dense (pools : List DensePool)
  | lite (pools : List LitePool)
deriving DecidableEq

namespace Store

variable {α : Type}

/-- A store without pools. -/
def new : Kind → Store
  | .dense => .dense []
  | .lite => .lite []

def kind : Store → Kind
  | .dense _ => .dense
  | .lite _ => .lite

/-- Looks something up in the pool table, the same way under both strategies. -/
def view (f : {P : Type} → [Pool P] → List P → α) : Store → α
  | .dense ps => f ps
  | .lite ps => f ps

/-- Acts on the pool table, the same way under both strategies. -/
def act (x : {P : Type} → [Pool P] → Action (List P) α) : Action Store α
  | .dense ps => (Action.on (fun _ => ps) (fun ps _ => .dense ps) x) (.dense ps)
  | .lite ps => (Action.on (fun _ => ps) (fun ps _ => .lite ps) x) (.lite ps)

/-! ## Reading -/

def size (s : Store) : Nat := s.view List.length

def count? (s : Store) (id : SchemaId) : Option Nat :=
  s.view fun ps => ps[id]?.map Pool.count

/-- One slot of a fixed attribute. -/
def get (s : Store) (c : Coord) (slot : Nat) : Except FrameError Value :=
  s.view fun ps => do Pool.get (← Pools.pool ps c.schema) c slot

/-- Every slot of a fixed attribute. -/
def getSlots (s : Store) (c : Coord) : Except FrameError (List Value) :=
  s.view fun ps => do Pool.getSlots (← Pools.pool ps c.schema) c

def listLength (s : Store) (c : Coord) : Except FrameError Nat :=
  s.view fun ps => do Pool.listLength (← Pools.pool ps c.schema) c

/-- The elements of a list attribute. -/
def getList (s : Store) (c : Coord) : Except FrameError (List Value) :=
  s.view fun ps => do Pool.getList (← Pools.pool ps c.schema) c

/-- A copy of one pool's values. -/
def capture (s : Store) (id : SchemaId) : Except FrameError PoolImage :=
  s.view fun ps => do Pool.capture (← Pools.pool ps id)

/-- Bytes of all values. -/
def memory (s : Store) : Nat := s.view Pools.memory

/-! ## Writing -/

/-- Adds the pool of a schema. -/
def allocate (schema : Schema) (count : Nat) : Action Store Unit :=
  act (Pools.allocate schema count)

def set (c : Coord) (slot : Nat) (v : Value) : Action Store Unit :=
  act (Pools.change c.schema (Pool.set c slot v))

def setSlots (c : Coord) (vs : List Value) : Action Store Unit :=
  act (Pools.change c.schema (Pool.setSlots c vs))

def append (c : Coord) (v : Value) : Action Store Unit :=
  act (Pools.change c.schema (Pool.append c v))

def setList (c : Coord) (vs : List Value) : Action Store Unit :=
  act (Pools.change c.schema (Pool.setList c vs))

/-- Zeros one pool. -/
def reset (id : SchemaId) : Action Store Unit := act (Pools.reset id)

/-- Zeros every pool. -/
def resetAll : Action Store Unit := act Pools.resetAll

/-- Overwrites one pool's values by those of a copy. -/
def restore (id : SchemaId) (image : PoolImage) : Action Store Unit :=
  act (Pools.change id (Pool.restore image))

end Store

end NodeStore
