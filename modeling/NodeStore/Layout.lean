import NodeStore.Schema

/-!
# Pool layout

The sizes of a pool's storage, worked out from its schema and instance count when it is allocated.
Sizes are counted in 64-bit numbers: a fixed attribute whose values in all instances are more than
those can count is refused.
-/

namespace NodeStore

/-- Sizes are below this bound. -/
def sizeLimit : Nat := 2 ^ (64 : Nat)

/-- How one attribute is stored. -/
inductive Storage where
  | fixed (slots total : Nat)
  | list
deriving DecidableEq

/-- The layout of one attribute. -/
structure AttrLayout where
  id : AttrId
  name : String
  type : AttrType
  storage : Storage
deriving DecidableEq

namespace AttrLayout

/-- Bytes of fixed storage per instance. -/
def footprint (a : AttrLayout) : Nat :=
  match a.storage with
  | .fixed slots _ => slots * a.type.width
  | .list => 0

/-- The layout of an attribute of `count` instances. -/
def ofAttribute (schema : String) (count : Nat) (attr : Attribute) :
    Except FrameError AttrLayout :=
  match attr.slotCount? with
  | none => .ok ⟨attr.id, attr.name, attr.type, .list⟩
  | some slots =>
    if count * slots < sizeLimit then
      .ok ⟨attr.id, attr.name, attr.type, .fixed slots (count * slots)⟩
    else
      .error (.invalidConfig (.poolTooLarge schema attr.name count slots))

end AttrLayout

/-- The layout of every attribute of a pool. -/
structure PoolLayout where
  count : Nat
  entries : List AttrLayout
deriving DecidableEq

namespace PoolLayout

/-- The layout of `count` instances of a schema. -/
def ofSchema (schema : Schema) (count : Nat) : Except FrameError PoolLayout := do
  return ⟨count, ← schema.attributes.mapM (AttrLayout.ofAttribute schema.name count)⟩

def get? (l : PoolLayout) (id : AttrId) : Option AttrLayout := l.entries.find? (·.id == id)

/-- Bytes of fixed storage per instance. -/
def footprint (l : PoolLayout) : Nat := (l.entries.map AttrLayout.footprint).sum

/-- Bytes of fixed storage of all instances. -/
def fixedBytes (l : PoolLayout) : Nat := l.footprint * l.count

end PoolLayout

end NodeStore
