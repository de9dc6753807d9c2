import NodeStore.Store.Basic

/-!
# Store calls as data

A `Store.Call` is any one operation on a store and a `Store.Answer` what it answers, so that whole
sequences of calls can be spoken of. Reads that add to a vector carry it and answer it whole.
-/

namespace NodeStore.Store

/-- An operation on a store. -/
inductive Call where
  | kind
  | allocate (schema : Schema) (count : Nat)
  | size
  | count (id : SchemaId)
  | get (c : Coord) (slot : Nat)
  | set (c : Coord) (slot : Nat) (v : Value)
  | getSlots (c : Coord) (out : List Value)
  | setSlots (c : Coord) (vs : List Value)
  | listLength (c : Coord)
  | getList (c : Coord) (out : List Value)
  | append (c : Coord) (v : Value)
  | setList (c : Coord) (vs : List Value)
  | reset (id : SchemaId)
  | resetAll
  | capture (id : SchemaId)
  | restore (id : SchemaId) (image : PoolImage)
  | memory

/-- What a call answers. -/
inductive Answer where
  | done
  | kind (k : Kind)
  | count (n : Nat)
  | count? (n : Option Nat)
  | value (v : Value)
  | values (vs : List Value)
  | image (i : PoolImage)
deriving DecidableEq

/-- Carries a call out. -/
def perform : Call → Action Store Answer
  | .kind => Action.read fun s => .ok (.kind s.kind)
  | .allocate schema count => do allocate schema count; return .done
  | .size => Action.read fun s => .ok (.count s.size)
  | .count id => Action.read fun s => .ok (.count? (s.count? id))
  | .get c slot => Action.read fun s => (s.get c slot).map .value
  | .set c slot v => do set c slot v; return .done
  | .getSlots c out => Action.read fun s => (s.getSlots c).map fun vs => .values (out ++ vs)
  | .setSlots c vs => do setSlots c vs; return .done
  | .listLength c => Action.read fun s => (s.listLength c).map .count
  | .getList c out => Action.read fun s => (s.getList c).map fun vs => .values (out ++ vs)
  | .append c v => do append c v; return .done
  | .setList c vs => do setList c vs; return .done
  | .reset id => do reset id; return .done
  | .resetAll => do resetAll; return .done
  | .capture id => Action.read fun s => (s.capture id).map .image
  | .restore id image => do restore id image; return .done
  | .memory => Action.read fun s => .ok (.count s.memory)

end NodeStore.Store
