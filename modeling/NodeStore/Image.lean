import NodeStore.Column
import NodeStore.Schema

/-!
# Captured pools

A `PoolImage` is a copy of a pool's values in one format for all storage strategies: a column for
each attribute. Fixed attributes are laid out instance by instance; a list attribute has all its
elements in one column, with the offsets at which each instance's list starts and the last ends.

An image may be put together of arbitrary columns. `PoolImage.check` accepts those that fit a
schema and an instance count.
-/

namespace NodeStore

/-- The captured values of one attribute. -/
inductive ImageColumn where
  | fixed (slots : Nat) (data : Column)
  | list (offsets : List Nat) (data : Column)
deriving DecidableEq

namespace ImageColumn

/-- A list column of no instances. -/
def noLists (ty : AttrType) : ImageColumn := .list [0] (.empty ty)

def data : ImageColumn → Column
  | fixed _ data => data
  | list _ data => data

/-- Adds one instance's list, taken from a column; tells whether it went in. -/
def pushColumn (values : Column) : ImageColumn → Bool × ImageColumn
  | list offsets data =>
    match data.append? values with
    | some data => (true, list (offsets ++ [data.size]) data)
    | none => (false, list offsets data)
  | fixed slots data => (false, fixed slots data)

/-- Adds one instance's list; tells whether it went in. After a value that does not convert, the
values before it are taken out again. -/
def pushValues (values : List Value) : ImageColumn → Bool × ImageColumn
  | list offsets data =>
    match data.pushAll values with
    | (true, data) => (true, list (offsets ++ [data.size]) data)
    | (false, partly) => (false, list offsets (partly.truncate data.size))
  | fixed slots data => (false, fixed slots data)

/-- Start and end of an instance's values. -/
def range? (c : ImageColumn) (index : Nat) : Option (Nat × Nat) :=
  match c with
  | fixed slots data =>
    if index * slots + slots ≤ data.size then some (index * slots, index * slots + slots) else none
  | list offsets _ =>
    match offsets[index]?, offsets[index + 1]? with
    | some start, some stop => some (start, stop)
    | _, _ => none

/-- Number of instances the column covers. -/
def count : ImageColumn → Nat
  | fixed slots data => data.size / slots
  | list offsets _ => offsets.length - 1

/-- Bytes held by values and offsets; an offset weighs eight bytes. -/
def memory : ImageColumn → Nat
  | fixed _ data => data.memory
  | list offsets data => data.memory + offsets.length * 8

/-- Equality of shape and numbers. -/
def numEq : ImageColumn → ImageColumn → Bool
  | fixed slots data, fixed slots' data' => slots == slots' && data.numEq data'
  | list offsets data, list offsets' data' => offsets == offsets' && data.numEq data'
  | _, _ => false

/-- Whether the column holds values of an attribute for `count` instances. -/
def Fits (c : ImageColumn) (attr : Attribute) (count : Nat) : Prop :=
  match c, attr.slotCount? with
  | fixed slots data, some declared => slots = declared ∧ data.size = declared * count
  | list offsets data, none =>
    offsets.length = count + 1 ∧ offsets.head? = some 0 ∧ offsets.getLast? = some data.size ∧
      ∀ p ∈ offsets.zip offsets.tail, p.1 ≤ p.2
  | _, _ => False

instance (c : ImageColumn) (attr : Attribute) (count : Nat) : Decidable (c.Fits attr count) := by
  unfold Fits; split <;> infer_instance

end ImageColumn

/-- A captured pool: a column for each attribute, in the order of the schema. -/
structure PoolImage where
  count : Nat
  columns : List ImageColumn
deriving DecidableEq

namespace PoolImage

def column? (p : PoolImage) (attr : AttrId) : Option ImageColumn := p.columns[attr]?

/-- The values of an attribute of an instance. -/
def values? (p : PoolImage) (index : Nat) (attr : AttrId) : Option (List Value) :=
  if index < p.count then do
    let column ← p.column? attr
    let (start, stop) ← column.range? index
    column.data.range? start stop
  else
    none

/-- Appends the values of an attribute of an instance to `out` and tells how many there were. -/
def appendValues (p : PoolImage) (index : Nat) (attr : AttrId) (out : List Value) :
    Option Nat × List Value :=
  match p.values? index attr with
  | some values => (some values.length, out ++ values)
  | none => (none, out)

/-- How many values an attribute of an instance has. -/
def lengthOf? (p : PoolImage) (index : Nat) (attr : AttrId) : Option Nat :=
  if index < p.count then do
    let column ← p.column? attr
    let (start, stop) ← column.range? index
    return stop - start
  else
    none

/-- Bytes held by the columns. -/
def memory (p : PoolImage) : Nat := (p.columns.map ImageColumn.memory).sum

/-- Equality of shape and numbers. -/
def numEq (p q : PoolImage) : Bool :=
  p.count == q.count && p.columns.length == q.columns.length &&
    (p.columns.zip q.columns).all fun c => c.1.numEq c.2

/-- Whether one column fits its attribute. -/
def checkColumn (schema : Schema) (count : Nat) (attr : Attribute) (column : ImageColumn) :
    Except FrameError Unit :=
  if column.data.type ≠ attr.type then
    .error (.imageMismatch (.named schema.name) (.type attr.name column.data.type attr.type))
  else if ¬ column.Fits attr count then
    .error (.imageMismatch (.named schema.name) (.shape attr.name))
  else
    .ok ()

/-- Whether the image fits a schema with `count` instances. -/
def check (p : PoolImage) (schema : Schema) (count : Nat) : Except FrameError Unit :=
  if p.count ≠ count then
    .error (.imageMismatch (.named schema.name) (.instances p.count count))
  else if p.columns.length ≠ schema.size then
    .error (.imageMismatch (.named schema.name) (.attributes p.columns.length schema.size))
  else
    (schema.attributes.zip p.columns).forM fun (attr, column) =>
      checkColumn schema count attr column

end PoolImage

end NodeStore
