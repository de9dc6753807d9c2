import NodeStore.Action
import NodeStore.Coord
import NodeStore.Image
import NodeStore.Layout

/-!
# Pools

A pool holds the live values of all instances of one schema. `Pool P` says what a storage strategy
with pools of type `P` offers: to read, write, zero, capture and restore them. Reads are functions
of a pool, writes are actions on it. The two built-in strategies have names (`Kind`).
-/

namespace NodeStore

/-- A built-in storage strategy. -/
inductive Kind where
  | dense
  | lite
deriving DecidableEq, Inhabited

namespace Kind

def name : Kind → String
  | dense => "dense"
  | lite => "lite"

/-- The kind of a name. -/
def parse? : String → Option Kind
  | "dense" => some dense
  | "lite" => some lite
  | _ => none

/-- What the reader of kinds says of a text that is no kind. -/
def unknownMessage (s : String) : String := s!"unknown backend '{s}' (expected 'dense' or 'lite')"

/-- The kind of a frame for which none was chosen. -/
def standard : Kind := dense

end Kind

/-- A storage strategy for pools. -/
class Pool (P : Type) where
  /-- The name it is chosen by. -/
  kind : Kind
  /-- A pool of zeros and empty lists. -/
  allocate : Schema → PoolLayout → P
  count : P → Nat
  /-- One slot of a fixed attribute. -/
  get : P → Coord → Nat → Except FrameError Value
  set : Coord → Nat → Value → Action P Unit
  /-- Every slot of a fixed attribute. -/
  getSlots : P → Coord → Except FrameError (List Value)
  setSlots : Coord → List Value → Action P Unit
  listLength : P → Coord → Except FrameError Nat
  /-- The elements of a list attribute. -/
  getList : P → Coord → Except FrameError (List Value)
  append : Coord → Value → Action P Unit
  setList : Coord → List Value → Action P Unit
  /-- Zeros and empty lists again. -/
  reset : Action P Unit
  /-- A copy of the values. -/
  capture : P → Except FrameError PoolImage
  /-- Overwrites the values by those of a copy. -/
  restore : PoolImage → Action P Unit
  /-- Bytes of the values at their declared widths. -/
  memory : P → Nat

end NodeStore
