import NodeStore.Frame.Summary

/-!
# Frame operations as data

A `Frame.Op` is any one operation on a frame and a `Frame.Answer` what it answers, so that whole
runs of operations can be spoken of. What is done to a single attribute is an `Access`; the same
access can be made by name (`Frame.Op.access`), by handle (`Frame.Op.accessBy`) and through an
opened instance (`Node.Call.access`).
-/

namespace NodeStore

/-- What can be done to one attribute of one instance. -/
inductive Access where
  | get (slot : Nat)
  | getSlots
  | set (slot : Nat) (v : Value)
  | setSlots (vs : List Value)
  | setSlotsAt (slots : List Nat) (vs : List Value)
  | getList
  | listLength
  | append (v : Value)
  | setList (vs : List Value)
deriving DecidableEq

/-- What an operation answers. -/
inductive Frame.Answer where
  | done
  | flag (b : Bool)
  | count (n : Nat)
  | text (s : String)
  | kind (k : Kind)
  | value (v : Value)
  | values (vs : List Value)
  | schema? (s : Option Schema)
  | schemas (ss : List Schema)
  | handle (h : Handle)
  | key (k : Key)
  | summary (i : FrameSummary)
  | ring (r : Ring)
  | snapshot (s : Snapshot)
  | result (r : QueryResult)
deriving DecidableEq

/-- Makes an access at a coordinate. -/
def Access.perform (c : Coord) : Access → Action Frame Frame.Answer
  | .get slot => Action.read fun f => (f.store.get c slot).map .value
  | .getSlots => Action.read fun f => (f.store.getSlots c).map .values
  | .set slot v => do Frame.write c (Store.set c slot v); return .done
  | .setSlots vs => do Frame.write c (Store.setSlots c vs); return .done
  | .setSlotsAt slots vs => do Frame.writeChosen c slots vs; return .done
  | .getList => Action.read fun f => (f.store.getList c).map .values
  | .listLength => Action.read fun f => (f.store.listLength c).map .count
  | .append v => do Frame.write c (Store.append c v); return .done
  | .setList vs => do Frame.write c (Store.setList c vs); return .done

namespace Node

/-- What can be done with an opened instance. -/
inductive Call where
  | schema
  | index
  | isSealed
  | describe
  | describeNamed
  | seal
  | key (k : Key)
  | access (attr : String) (a : Access)
  | read (k : Key)
  | readSlots (k : Key)
  | readList (k : Key)
  | write (k : Key) (x : Scalar k.type)
  | writeSlots (k : Key) (xs : List (Scalar k.type))
  | push (k : Key) (x : Scalar k.type)

/-- Carries a call out. -/
def perform (n : Node) : Call → Action Frame Frame.Answer
  | .schema => return .count n.schema
  | .index => return .count n.index
  | .isSealed => Action.read fun f => .ok (.flag (f.isSealedAt n.schema n.index))
  | .describe => return .text n.describe
  | .describeNamed => Action.read fun f => .ok (.text (n.describeNamed f))
  | .seal => do n.sealNode; return .done
  | .key k => return .key k
  | .access attr a => do a.perform (← Action.read (n.coord attr))
  | .read k => Action.read fun f => (n.read k f).map .value
  | .readSlots k => Action.read fun f => (n.readSlots k f).map .values
  | .readList k => Action.read fun f => (n.readList k f).map .values
  | .write k x => do n.write k x; return .done
  | .writeSlots k xs => do n.writeSlots k xs; return .done
  | .push k x => do n.push k x; return .done

end Node

namespace Frame

/-- An operation on a frame. -/
inductive Op where
  | kind
  | schema? (name : String)
  | schemaAt? (id : SchemaId)
  | schemas
  | instanceCount (schema : String)
  | hasSnapshots
  | summary
  | memory
  | describe
  | handle (schema attr : String)
  | access (schema : String) (index : Nat) (attr : String) (a : Access)
  | accessBy (h : Handle) (index : Nat) (a : Access)
  | node (schema : String) (index : Nat) (call : Node.Call)
  | seal (schema : String) (index : Nat)
  | sealSchema (schema : String)
  | sealAll
  | isSealed (schema : String) (index : Nat)
  | reset
  | capture (tick : Tick)
  | restore (tick : Tick)
  | snapshot (tick : Tick)
  | ring
  | holdsTick (tick : Tick)
  | query (q : Query)

/-- Carries an operation out. -/
def perform : Op → Action Frame Answer
  | .kind => Action.read fun f => .ok (.kind f.store.kind)
  | .schema? name => Action.read fun f => .ok (.schema? (f.schema? name))
  | .schemaAt? id => Action.read fun f => .ok (.schema? (f.schemaAt? id))
  | .schemas => Action.read fun f => .ok (.schemas f.schemas)
  | .instanceCount schema => Action.read fun f => (f.instanceCount schema).map .count
  | .hasSnapshots => Action.read fun f => .ok (.flag f.hasSnapshots)
  | .summary => Action.read fun f => .ok (.summary f.summary)
  | .memory => Action.read fun f => .ok (.count f.memory)
  | .describe => Action.read fun f => .ok (.text f.describe)
  | .handle schema attr => Action.read fun f => (f.handle schema attr).map .handle
  | .access schema index attr a => do a.perform (← Action.read (·.coord schema index attr))
  | .accessBy h index a => a.perform (h.coord index)
  | .node schema index call => do (← Action.read (·.node schema index)).perform call
  | .seal schema index => do sealInstance schema index; return .done
  | .sealSchema schema => do sealSchema schema; return .done
  | .sealAll => do sealAll; return .done
  | .isSealed schema index => Action.read fun f => (f.isSealed schema index).map .flag
  | .reset => do reset; return .done
  | .capture tick => do capture tick; return .done
  | .restore tick => do restore tick; return .done
  | .snapshot tick => Action.read fun f => (f.snapshot tick).map .snapshot
  | .ring => Action.read fun f => f.snapshots.map .ring
  | .holdsTick tick => Action.read fun f => f.snapshots.map fun ring => .flag (ring.contains tick)
  | .query q => Action.read fun f => (f.query q).map .result

/-- Makes an access by name for its effect alone. -/
def apply (schema : String) (index : Nat) (attr : String) (a : Access) : Action Frame Unit := do
  let _ ← perform (.access schema index attr a)

/-- Appends the elements of a list to the output that stands beside the frame. -/
def gatherList (h : Handle) (index : Nat) : Action (Frame × List Value) Unit := do
  let vs ← Action.read fun s => s.1.store.getList (h.coord index)
  Action.modify fun s => (s.1, s.2 ++ vs)

end Frame

end NodeStore
