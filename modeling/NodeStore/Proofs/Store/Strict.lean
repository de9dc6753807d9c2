import NodeStore.Store.Basic

/-!
# Strict operations

A pool passes over some of the results it gets on the way: whether a value found its place in a
column, whether a list went into an image. Where a column or a field is not as the schema has it,
it falls back on an error or an answer of its own. The strict operations make the same checks, with
the same errors, and do neither: where a pool would pass over a failure or fall back, or where a
position in a flat column cannot be counted, they answer `none`.
-/

namespace NodeStore

/-- A position or size, if it can be counted. -/
def counted? (n : Nat) : Option Nat := if n < sizeLimit then some n else none

/-- Overwrites positions from `i` on, if every value has a place and converts. -/
def Column.setFrom? (c : Column) (i : Nat) : List Value → Option Column
  | [] => some c
  | v :: vs => (c.set? i v).bind fun d => d.setFrom? (i + 1) vs

namespace ImageColumn

/-- The column with one more instance's list, if it went in. -/
def pushColumn? (c : ImageColumn) (l : Column) : Option ImageColumn :=
  if (c.pushColumn l).1 then some (c.pushColumn l).2 else none

/-- The column with one more instance's list, if its values went in. -/
def pushValues? (c : ImageColumn) (vs : List Value) : Option ImageColumn :=
  if (c.pushValues vs).1 then some (c.pushValues vs).2 else none

/-- Start and end of an instance's values, if the positions in a flat column can be counted. -/
def countedRange? (c : ImageColumn) (index : Nat) : Option (Nat × Nat) :=
  match c with
  | fixed slots data => do
    let stop ← counted? (index * slots + slots)
    if stop ≤ data.size then some (index * slots, stop) else none
  | list offsets data => (list offsets data).range? index

end ImageColumn

/-- The values of an attribute of an instance, if their positions can be counted. -/
def PoolImage.countedValues? (p : PoolImage) (index : Nat) (attr : AttrId) :
    Option (List Value) :=
  if index < p.count then do
    let column ← p.column? attr
    let (start, stop) ← column.countedRange? index
    column.data.range? start stop
  else
    none

/-- The operations of a pool, passing over nothing. -/
class StrictPool (P : Type) where
  get : P → Coord → Nat → Except FrameError (Option Value)
  set : P → Coord → Nat → Value → Except FrameError (Option P)
  getSlots : P → Coord → Except FrameError (Option (List Value))
  setSlots : P → Coord → List Value → Except FrameError (Option P)
  listLength : P → Coord → Except FrameError (Option Nat)
  getList : P → Coord → Except FrameError (Option (List Value))
  append : P → Coord → Value → Except FrameError (Option P)
  setList : P → Coord → List Value → Except FrameError (Option P)
  capture : P → Option PoolImage
  restore : P → PoolImage → Except FrameError (Option P)

/-! ## Dense storage -/

namespace DenseColumn

def captureStrict (attr : Attribute) : DenseColumn → Option ImageColumn
  | fixed slots data => some (.fixed slots data)
  | lists ls => ls.foldlM ImageColumn.pushColumn? (.noLists attr.type)

def restoreStrict (count : Nat) (column : ImageColumn) : Option DenseColumn :=
  match column with
  | .fixed slots data => some (fixed slots data)
  | .list _ data => do
    let ls ← (List.range count).mapM fun index => do
      let (start, stop) ← column.range? index
      data.slice? start stop
    return lists ls

end DenseColumn

namespace DensePool

/-- The slot count and the flat column of an attribute. -/
def flat? (p : DensePool) (attr : AttrId) : Option (Nat × Column) :=
  match p.columns[attr]? with
  | some (.fixed slots data) => some (slots, data)
  | _ => none

/-- The lists of an attribute in all instances. -/
def lists? (p : DensePool) (attr : AttrId) : Option (List Column) :=
  match p.columns[attr]? with
  | some (.lists lists) => some lists
  | _ => none

instance : StrictPool DensePool where
  get p c slot := do
    let attr ← p.schema.locate p.layout.count c .fixed
    p.schema.requireSlot attr slot
    return do
      let (slots, data) ← p.flat? c.attr
      data.get? (← counted? (c.index * slots + slot))
  set p c slot v := do
    let attr ← p.schema.locate p.layout.count c .fixed
    p.schema.requireSlot attr slot
    let v ← p.schema.convert attr v
    return do
      let (slots, data) ← p.flat? c.attr
      let data ← data.set? (← counted? (c.index * slots + slot)) v
      return p.put c.attr (.fixed slots data)
  getSlots p c := do
    let _ ← p.schema.locate p.layout.count c .fixed
    return do
      let (slots, data) ← p.flat? c.attr
      data.range? (c.index * slots) (← counted? (c.index * slots + slots))
  setSlots p c vs := do
    let attr ← p.schema.locate p.layout.count c .fixed
    p.schema.requireSlotCount attr vs.length
    let vs ← p.schema.convertAll attr vs
    return do
      let (slots, data) ← p.flat? c.attr
      let _ ← counted? (c.index * slots + slots)
      let data ← data.setFrom? (c.index * slots) vs
      return p.put c.attr (.fixed slots data)
  listLength p c := do
    let _ ← p.schema.locate p.layout.count c .list
    return do
      let lists ← p.lists? c.attr
      let l ← lists[c.index]?
      return l.size
  getList p c := do
    let _ ← p.schema.locate p.layout.count c .list
    return do
      let lists ← p.lists? c.attr
      let l ← lists[c.index]?
      l.range? 0 l.size
  append p c v := do
    let attr ← p.schema.locate p.layout.count c .list
    let v ← p.schema.convert attr v
    return do
      let lists ← p.lists? c.attr
      let l ← lists[c.index]?
      return p.put c.attr (.lists (lists.set c.index (← l.push? v)))
  setList p c vs := do
    let attr ← p.schema.locate p.layout.count c .list
    let vs ← p.schema.convertAll attr vs
    return do
      let lists ← p.lists? c.attr
      let l ← lists[c.index]?
      return p.put c.attr (.lists (lists.set c.index (← vs.foldlM Column.push? l.clear)))
  capture p := do
    let columns ← (p.columns.zip p.schema.attributes).mapM fun (column, attr) =>
      column.captureStrict attr
    return ⟨p.layout.count, columns⟩
  restore p image := do
    image.check p.schema p.layout.count
    return do
      let columns ← image.columns.mapM (DenseColumn.restoreStrict p.layout.count)
      return { p with columns }

end DensePool

/-! ## Record storage -/

namespace LitePool

/-- The values of a fixed attribute of an instance. -/
def fixed? (p : LitePool) (c : Coord) : Option (List Value) :=
  match p.records[c.index]?.bind (·[c.attr]?) with
  | some (.fixed values) => some values
  | _ => none

/-- The elements of a list attribute of an instance. -/
def list? (p : LitePool) (c : Coord) : Option (List Value) :=
  match p.records[c.index]?.bind (·[c.attr]?) with
  | some (.list values) => some values
  | _ => none

/-- The column captured for the attribute at a position of the layout. -/
def captureColumnStrict (p : LitePool) : AttrLayout × Nat → Option ImageColumn
  | (attr, position) =>
    match attr.storage with
    | .fixed slots _ => do
      let data ← p.records.foldlM (fun data (record : Record) =>
        match record[position]? with
        | some (.fixed values) => values.foldlM Column.push? data
        | _ => none) (Column.empty attr.type)
      return .fixed slots data
    | .list => p.records.foldlM (fun image (record : Record) =>
        match record[position]? with
        | some (.list values) => image.pushValues? values
        | _ => none) (ImageColumn.noLists attr.type)

/-- The field of an attribute of an instance, from an image. -/
def restoreFieldStrict (image : PoolImage) (index : Nat) (attr : Attribute) : Option Field := do
  let values ← image.countedValues? index attr.id
  return if attr.isList then .list values else .fixed values

instance : StrictPool LitePool where
  get p c slot := do
    let attr ← p.schema.locate p.layout.count c .fixed
    p.schema.requireSlot attr slot
    return do
      let values ← p.fixed? c
      values[slot]?
  set p c slot v := do
    let attr ← p.schema.locate p.layout.count c .fixed
    p.schema.requireSlot attr slot
    let v ← p.schema.convert attr v
    return do
      let values ← p.fixed? c
      if slot < values.length then some (p.put c (.fixed (values.set slot v))) else none
  getSlots p c := do
    let _ ← p.schema.locate p.layout.count c .fixed
    return p.fixed? c
  setSlots p c vs := do
    let attr ← p.schema.locate p.layout.count c .fixed
    p.schema.requireSlotCount attr vs.length
    let vs ← p.schema.convertAll attr vs
    return do
      let _ ← p.fixed? c
      return p.put c (.fixed vs)
  listLength p c := do
    let _ ← p.schema.locate p.layout.count c .list
    return (p.list? c).map List.length
  getList p c := do
    let _ ← p.schema.locate p.layout.count c .list
    return p.list? c
  append p c v := do
    let attr ← p.schema.locate p.layout.count c .list
    let v ← p.schema.convert attr v
    return do
      let values ← p.list? c
      return p.put c (.list (values ++ [v]))
  setList p c vs := do
    let attr ← p.schema.locate p.layout.count c .list
    let vs ← p.schema.convertAll attr vs
    return do
      let _ ← p.list? c
      return p.put c (.list vs)
  capture p := do
    let columns ← p.layout.entries.zipIdx.mapM p.captureColumnStrict
    return ⟨p.records.length, columns⟩
  restore p image := do
    image.check p.schema p.records.length
    return do
      let records ← (List.range p.records.length).mapM fun index =>
        p.schema.attributes.mapM (restoreFieldStrict image index)
      return { p with records }

end LitePool

end NodeStore
