import NodeStore.Store.Pool

/-!
# Dense storage

Each fixed attribute is one typed column for the whole pool, laid out instance by instance: slot `k`
of instance `i` is at `i * slots + k`. Each list attribute has a typed column per instance.
-/

namespace NodeStore

/-- The values of one attribute in all instances. -/
inductive DenseColumn where
  | fixed (slots : Nat) (data : Column)
  | lists (lists : List Column)
deriving DecidableEq

/-- A pool as one column set per attribute. -/
structure DensePool where
  schema : Schema
  layout : PoolLayout
  columns : List DenseColumn
deriving DecidableEq

namespace DenseColumn

/-- A column of zeros or of empty lists. -/
def blank (count : Nat) (attr : AttrLayout) : DenseColumn :=
  match attr.storage with
  | .fixed slots total => .fixed slots (.zeroed attr.type total)
  | .list => .lists (List.replicate count (.empty attr.type))

/-- The column with another list for an instance. -/
def setList (index : Nat) (l : Column) : DenseColumn → DenseColumn
  | fixed slots data => fixed slots data
  | lists ls => lists (ls.set index l)

def reset : DenseColumn → DenseColumn
  | fixed slots data => fixed slots data.zeroOut
  | lists ls => lists (ls.map Column.clear)

def capture (attr : Attribute) : DenseColumn → ImageColumn
  | fixed slots data => .fixed slots data
  | lists ls => ls.foldl (fun image l => (image.pushColumn l).2) (.noLists attr.type)

/-- The column an image column stands for. -/
def restore (schema : String) (count : Nat) (column : ImageColumn) :
    Except FrameError DenseColumn :=
  match column with
  | .fixed slots data => .ok (fixed slots data)
  | .list _ data => do
    let ls ← (List.range count).mapM fun index =>
      match column.range? index with
      | some (start, stop) =>
        match data.slice? start stop with
        | some l => Except.ok l
        | none => .error (.imageMismatch (.named schema) (.listBounds index))
      | none => .error (.imageMismatch (.named schema) (.listBounds index))
    return lists ls

def memory : DenseColumn → Nat
  | fixed _ data => data.memory
  | lists ls => (ls.map Column.memory).sum

end DenseColumn

namespace DensePool

def allocate (schema : Schema) (layout : PoolLayout) : DensePool :=
  ⟨schema, layout, layout.entries.map (.blank layout.count)⟩

/-- The error for a column that is not of the shape its attribute has. -/
def misshapen (p : DensePool) (c : Coord) (expected : Shape) : FrameError :=
  let actual := match expected with
    | .fixed => .list
    | .list => .fixed
  .shapeMismatch p.schema.name (.numbered c.attr) expected actual

/-- The slot count and the column of the fixed attribute at a coordinate. -/
def fixedColumn (p : DensePool) (c : Coord) : Except FrameError (Nat × Column) := do
  let _ ← p.schema.locate p.layout.count c .fixed
  match p.columns[c.attr]? with
  | some (.fixed slots data) => return (slots, data)
  | _ => throw (p.misshapen c .fixed)

/-- The list at a coordinate. -/
def listColumn (p : DensePool) (c : Coord) : Except FrameError Column := do
  let _ ← p.schema.locate p.layout.count c .list
  match p.columns[c.attr]? with
  | some (.lists lists) =>
    match lists[c.index]? with
    | some l => return l
    | none => throw (p.misshapen c .list)
  | _ => throw (p.misshapen c .list)

/-- The pool with another column for an attribute. -/
def put (p : DensePool) (attr : AttrId) (column : DenseColumn) : DensePool :=
  { p with columns := p.columns.set attr column }

/-- The pool with another list at a coordinate. -/
def putList (p : DensePool) (c : Coord) (l : Column) : DensePool :=
  { p with columns := p.columns.modify c.attr (·.setList c.index l) }

/-- Changes the column of a fixed attribute, where it is. -/
def changeFixed (c : Coord) (f : Nat → Column → Column) : Action DensePool Unit := do
  let (slots, data) ← Action.read (·.fixedColumn c)
  Action.modify (·.put c.attr (.fixed slots (f slots data)))

/-- Changes a list, where it is. -/
def changeList (c : Coord) (f : Column → Column) : Action DensePool Unit := do
  let l ← Action.read (·.listColumn c)
  Action.modify (·.putList c (f l))

def get (p : DensePool) (c : Coord) (slot : Nat) : Except FrameError Value := do
  let attr ← p.schema.attributeAt c.attr
  let (slots, data) ← p.fixedColumn c
  p.schema.requireSlot attr slot
  match data.get? (c.index * slots + slot) with
  | some v => return v
  | none => throw (p.misshapen c .fixed)

def set (c : Coord) (slot : Nat) (v : Value) : Action DensePool Unit := do
  let attr ← Action.read (·.schema.attributeAt c.attr)
  let _ ← Action.read (·.fixedColumn c)
  Action.read (·.schema.requireSlot attr slot)
  let v ← Action.read (·.schema.convert attr v)
  changeFixed c fun slots data => data.setFrom (c.index * slots + slot) [v]

def getSlots (p : DensePool) (c : Coord) : Except FrameError (List Value) := do
  let (slots, data) ← p.fixedColumn c
  match data.range? (c.index * slots) (c.index * slots + slots) with
  | some vs => return vs
  | none => throw (p.misshapen c .fixed)

def setSlots (c : Coord) (vs : List Value) : Action DensePool Unit := do
  let attr ← Action.read (·.schema.attributeAt c.attr)
  let _ ← Action.read (·.fixedColumn c)
  Action.read (·.schema.requireSlotCount attr vs.length)
  let vs ← Action.read (·.schema.convertAll attr vs)
  changeFixed c fun slots data => data.setFrom (c.index * slots) vs

def listLength (p : DensePool) (c : Coord) : Except FrameError Nat := do
  return (← p.listColumn c).size

def getList (p : DensePool) (c : Coord) : Except FrameError (List Value) := do
  return (← p.listColumn c).values

def append (c : Coord) (v : Value) : Action DensePool Unit := do
  let _ ← Action.read (·.listColumn c)
  let attr ← Action.read (·.schema.attributeAt c.attr)
  let v ← Action.read (·.schema.convert attr v)
  changeList c (·.push v)

def setList (c : Coord) (vs : List Value) : Action DensePool Unit := do
  let _ ← Action.read (·.listColumn c)
  let attr ← Action.read (·.schema.attributeAt c.attr)
  let vs ← Action.read (·.schema.convertAll attr vs)
  changeList c fun l => vs.foldl Column.push l.clear

def reset : Action DensePool Unit :=
  Action.modify fun p => { p with columns := p.columns.map DenseColumn.reset }

def capture (p : DensePool) : PoolImage :=
  ⟨p.layout.count, (p.columns.zip p.schema.attributes).map fun (column, attr) =>
    column.capture attr⟩

def restore (image : PoolImage) : Action DensePool Unit := do
  Action.read fun p => image.check p.schema p.layout.count
  let columns ← Action.read fun p =>
    image.columns.mapM (DenseColumn.restore p.schema.name p.layout.count)
  Action.modify ({ · with columns })

def memory (p : DensePool) : Nat := (p.columns.map DenseColumn.memory).sum

instance : Pool DensePool where
  kind := .dense
  allocate := allocate
  count p := p.layout.count
  get := get
  set := set
  getSlots := getSlots
  setSlots := setSlots
  listLength := listLength
  getList := getList
  append := append
  setList := setList
  reset := reset
  capture p := .ok p.capture
  restore := restore
  memory := memory

end DensePool

end NodeStore
