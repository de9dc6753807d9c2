import NodeStore.Store.Pool

/-!
# Pool tables

The pools of a frame, in the order of their schemas' numbers, under any one storage strategy. Every
access first finds the pool of the schema it names.
-/

namespace NodeStore

namespace Pools

variable {P : Type} [Pool P]

/-- The pool of a schema. -/
def pool (ps : List P) (id : SchemaId) : Except FrameError P :=
  match ps[id]? with
  | some p => .ok p
  | none => .error (noPool id)

/-- Adds the pool of a schema. Schemas come in the order of their numbers. -/
def allocate (schema : Schema) (count : Nat) : Action (List P) Unit := do
  let ps ← Action.get
  if schema.id ≠ ps.length then
    Action.fail (.invalidConfig (.allocationOrder schema.name schema.id ps.length))
  else
    let layout ← Action.read fun _ => PoolLayout.ofSchema schema count
    Action.emit (.poolAllocated (Pool.kind P).name schema.name count layout.fixedBytes)
    Action.modify (· ++ [Pool.allocate schema layout])

/-- Acts on the pool of a schema, where it is. -/
def change (id : SchemaId) (x : Action P Unit) : Action (List P) Unit := do
  let p ← Action.read (pool · id)
  x.on (fun _ => p) fun p ps => ps.set id p

/-- Zeros one pool. -/
def reset (id : SchemaId) : Action (List P) Unit := change id Pool.reset

/-- Zeros every pool, in order. -/
def resetAll : Action (List P) Unit := do
  let ps ← Action.get
  (List.range ps.length).forM reset

/-- Bytes of all values. -/
def memory (ps : List P) : Nat := (ps.map Pool.memory).sum

end Pools

end NodeStore
