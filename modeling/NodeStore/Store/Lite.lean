import NodeStore.Store.Pool

/-!
# Record storage

Every instance is a record of its own with a field of tagged values for each attribute. Captures are
put together field by field.
-/

namespace NodeStore

/-- The values of one attribute in one instance. -/
inductive Field where
  | fixed (values : List Value)
  | list (values : List Value)
deriving DecidableEq

/-- The values of one instance, in the order of the schema. -/
abbrev Record := List Field

/-- A pool as one record per instance. -/
structure LitePool where
  schema : Schema
  layout : PoolLayout
  records : List Record
deriving DecidableEq

namespace Field

/-- A field of zeros or an empty list. -/
def blank (attr : AttrLayout) : Field :=
  match attr.storage with
  | .fixed slots _ => .fixed (List.replicate slots (.zero attr.type))
  | .list => .list []

/-- Number of values. -/
def size : Field → Nat
  | fixed values => values.length
  | list values => values.length

end Field

/-- The record of an instance that nothing was written to. -/
def Record.blank (layout : PoolLayout) : Record := layout.entries.map .blank

namespace LitePool

def allocate (schema : Schema) (layout : PoolLayout) : LitePool :=
  ⟨schema, layout, List.replicate layout.count (Record.blank layout)⟩

/-- The error for an instance without a record or an attribute without a field. -/
def missing (p : LitePool) (c : Coord) : FrameError :=
  .indexOutOfRange p.schema.name c.index p.records.length

/-- The field at a coordinate, whose attribute must be of the given shape. -/
def field (p : LitePool) (c : Coord) (shape : Shape) : Except FrameError Field := do
  let _ ← p.schema.locate p.layout.count c shape
  match p.records[c.index]?.bind (·[c.attr]?) with
  | some field => return field
  | none => throw (p.missing c)

/-- The pool with another field at a coordinate. -/
def put (p : LitePool) (c : Coord) (field : Field) : LitePool :=
  { p with records := p.records.modify c.index (·.set c.attr field) }

/-- Changes the field at a coordinate, where it is. -/
def changeField (c : Coord) (shape : Shape) (f : Field → Field) : Action LitePool Unit := do
  let field ← Action.read (·.field c shape)
  Action.modify (·.put c (f field))

def get (p : LitePool) (c : Coord) (slot : Nat) : Except FrameError Value := do
  let field ← p.field c .fixed
  let attr ← p.schema.attributeAt c.attr
  p.schema.requireSlot attr slot
  match field with
  | .fixed values =>
    match values[slot]? with
    | some v => return v
    | none => throw (p.missing c)
  | .list _ => throw (p.missing c)

def set (c : Coord) (slot : Nat) (v : Value) : Action LitePool Unit := do
  let _ ← Action.read (·.field c .fixed)
  let attr ← Action.read (·.schema.attributeAt c.attr)
  Action.read (·.schema.requireSlot attr slot)
  let v ← Action.read (·.schema.convert attr v)
  changeField c .fixed fun
    | .fixed values => .fixed (values.set slot v)
    | .list values => .list values

def getSlots (p : LitePool) (c : Coord) : Except FrameError (List Value) := do
  match ← p.field c .fixed with
  | .fixed values => return values
  | .list _ => return []

def setSlots (c : Coord) (vs : List Value) : Action LitePool Unit := do
  let _ ← Action.read (·.field c .fixed)
  let attr ← Action.read (·.schema.attributeAt c.attr)
  Action.read (·.schema.requireSlotCount attr vs.length)
  let vs ← Action.read (·.schema.convertAll attr vs)
  changeField c .fixed fun
    | .fixed _ => .fixed vs
    | .list values => .list values

def listLength (p : LitePool) (c : Coord) : Except FrameError Nat := do
  match ← p.field c .list with
  | .list values => return values.length
  | .fixed _ => return 0

def getList (p : LitePool) (c : Coord) : Except FrameError (List Value) := do
  match ← p.field c .list with
  | .list values => return values
  | .fixed _ => return []

def append (c : Coord) (v : Value) : Action LitePool Unit := do
  let _ ← Action.read (·.field c .list)
  let attr ← Action.read (·.schema.attributeAt c.attr)
  let v ← Action.read (·.schema.convert attr v)
  changeField c .list fun
    | .list values => .list (values ++ [v])
    | .fixed values => .fixed values

def setList (c : Coord) (vs : List Value) : Action LitePool Unit := do
  let _ ← Action.read (·.field c .list)
  let attr ← Action.read (·.schema.attributeAt c.attr)
  let vs ← Action.read (·.schema.convertAll attr vs)
  changeField c .list fun
    | .list _ => .list vs
    | .fixed values => .fixed values

def reset : Action LitePool Unit :=
  Action.modify fun p => { p with records := p.records.map fun _ => Record.blank p.layout }

/-- The values of a fixed field at a position of every record. -/
def captureFixed (p : LitePool) (position : Nat) (attr : AttrLayout) :
    Except FrameError Column :=
  p.records.foldlM (fun data (record : Record) =>
    match record[position]? with
    | some (.fixed values) => .ok (values.foldl Column.push data)
    | _ => .error (.imageMismatch (.named p.schema.name) (.recordField attr.name)))
    (Column.empty attr.type)

/-- The values of a list field at a position of every record. -/
def captureLists (p : LitePool) (position : Nat) (attr : AttrLayout) :
    Except FrameError ImageColumn :=
  p.records.foldlM (fun image (record : Record) =>
    match record[position]? with
    | some (.list values) => .ok (image.pushValues values).2
    | _ => .error (.imageMismatch (.named p.schema.name) (.recordField attr.name)))
    (ImageColumn.noLists attr.type)

def capture (p : LitePool) : Except FrameError PoolImage := do
  let columns ← p.layout.entries.zipIdx.mapM fun (attr, position) =>
    match attr.storage with
    | .fixed slots _ => return .fixed slots (← p.captureFixed position attr)
    | .list => p.captureLists position attr
  return ⟨p.records.length, columns⟩

/-- The field of an attribute of an instance, from an image. -/
def restoreField (p : LitePool) (image : PoolImage) (index : Nat) (attr : Attribute) :
    Except FrameError Field :=
  match image.values? index attr.id with
  | some values => .ok (if attr.isList then .list values else .fixed values)
  | none => .error (.imageMismatch (.named p.schema.name) (.missing index attr.name))

def restore (image : PoolImage) : Action LitePool Unit := do
  Action.read fun p => image.check p.schema p.records.length
  let records ← Action.read fun p => (List.range p.records.length).mapM fun index =>
    p.schema.attributes.mapM (p.restoreField image index)
  Action.modify ({ · with records })

def memory (p : LitePool) : Nat :=
  (p.records.map fun record =>
    ((record.zip p.layout.entries).map fun (field, attr) => field.size * attr.type.width).sum).sum

instance : Pool LitePool where
  kind := .lite
  allocate := allocate
  count p := p.records.length
  get := get
  set := set
  getSlots := getSlots
  setSlots := setSlots
  listLength := listLength
  getList := getList
  append := append
  setList := setList
  reset := reset
  capture := capture
  restore := restore
  memory := memory

end LitePool

end NodeStore
