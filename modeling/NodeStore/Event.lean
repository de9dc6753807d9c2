import NodeStore.Error

/-!
# Events

What the store tells about its work while it runs. An event is data; `Event.line` is its text.
-/

namespace NodeStore

/-- Something the store did. -/
inductive Event where
  | frameBuilt (backend : String) (schemas instances : Nat) (capacity : Option Nat)
  | poolAllocated (backend schema : String) (instances fixedBytes : Nat)
  | instanceSealed (schema : SchemaId) (index : Nat)
  | schemaSealed (schema : String) (instances : Nat)
  | allSealed (schemas : Nat)
  | frameReset (backend : String)
  | snapshotCaptured (tick : Tick) (held : Nat)
  | snapshotEvicted (tick : Tick)
  | snapshotRestored (tick : Tick)
  | episodeStarted (entities : Nat)
deriving DecidableEq

/-- The words for a number that may be absent. -/
def optionalNumber : Option Nat → String
  | some n => s!"Some({n})"
  | none => "None"

/-- One line of text: level, message and fields. -/
def Event.line : Event → String
  | frameBuilt backend schemas instances capacity =>
    s!"INFO frame built backend={backend} schemas={schemas} instances={instances} " ++
      s!"snapshot_capacity={optionalNumber capacity}"
  | poolAllocated backend schema instances fixedBytes =>
    s!"TRACE pool allocated backend={backend} schema={schema} instances={instances} " ++
      s!"fixed_bytes={fixedBytes}"
  | instanceSealed schema index => s!"DEBUG instance sealed schema={schema} index={index}"
  | schemaSealed schema instances =>
    s!"DEBUG schema sealed schema={schema} instances={instances}"
  | allSealed schemas => s!"DEBUG all instances sealed schemas={schemas}"
  | frameReset backend => s!"DEBUG frame reset backend={backend}"
  | snapshotCaptured tick held => s!"TRACE snapshot captured tick={tick} held={held}"
  | snapshotEvicted tick => s!"TRACE snapshot evicted evicted={tick}"
  | snapshotRestored tick => s!"DEBUG snapshot restored tick={tick}"
  | episodeStarted entities => s!"DEBUG episode initialized entities={entities}"

end NodeStore
