import NodeStore.Value

/-!
# Typed columns

A `Column` is a sequence of values of one type. Values enter it by lossless conversion and leave it
tagged with its type.
-/

namespace NodeStore

/-- A sequence of values of one type. -/
structure Column where
  type : AttrType
  data : List (Scalar type)
deriving DecidableEq

namespace Column

/-- A column without values. -/
def empty (ty : AttrType) : Column := ⟨ty, []⟩

/-- A column of zeros. -/
def zeroed (ty : AttrType) (n : Nat) : Column := ⟨ty, List.replicate n (Scalar.zero ty)⟩

def size (c : Column) : Nat := c.data.length

/-- The values, tagged. -/
def values (c : Column) : List Value := c.data.map (⟨c.type, ·⟩)

def get? (c : Column) (i : Nat) : Option Value := c.data[i]?.map (⟨c.type, ·⟩)

/-- The column with position `i` overwritten, if it is there and the value converts. -/
def set? (c : Column) (i : Nat) (v : Value) : Option Column :=
  if i < c.size then (v.cast? c.type).map fun x => { c with data := c.data.set i x } else none

/-- Overwrites positions from `i` on; a value that has no place or does not convert is left out. -/
def setFrom (c : Column) (i : Nat) : List Value → Column
  | [] => c
  | v :: vs => ((c.set? i v).getD c).setFrom (i + 1) vs

/-- The column with one more value, if it converts. -/
def push? (c : Column) (v : Value) : Option Column :=
  (v.cast? c.type).map fun x => { c with data := c.data ++ [x] }

/-- The column with one more value; one that does not convert is left out. -/
def push (c : Column) (v : Value) : Column := (c.push? v).getD c

/-- Pushes values up to the first that does not convert; tells whether all went in. -/
def pushAll (c : Column) : List Value → Bool × Column
  | [] => (true, c)
  | v :: vs =>
    match c.push? v with
    | some c' => c'.pushAll vs
    | none => (false, c)

/-- The column of the given type holding the given values, if all convert. -/
def ofValues? (ty : AttrType) (vs : List Value) : Option Column :=
  (vs.mapM fun (v : Value) => v.cast? ty).map (⟨ty, ·⟩)

/-- The first `n` values. -/
def truncate (c : Column) (n : Nat) : Column := { c with data := c.data.take n }

def clear (c : Column) : Column := { c with data := [] }

/-- As many zeros. -/
def zeroOut (c : Column) : Column := zeroed c.type c.size

/-- The values from position `start` up to `stop`, if these are in order and in range. -/
def slice? (c : Column) (start stop : Nat) : Option Column :=
  if start ≤ stop ∧ stop ≤ c.size then
    some { c with data := (c.data.drop start).take (stop - start) }
  else
    none

/-- The tagged values from position `start` up to `stop`. -/
def range? (c : Column) (start stop : Nat) : Option (List Value) :=
  (c.slice? start stop).map values

/-- Two columns of one type, one after the other. -/
def append? (c d : Column) : Option Column :=
  if h : d.type = c.type then some { c with data := c.data ++ h ▸ d.data } else none

/-- Bytes held by the values. -/
def memory (c : Column) : Nat := c.size * c.type.width

/-- Equality of type, length and numbers. -/
def numEq (c d : Column) : Bool :=
  if h : d.type = c.type then
    c.size == d.size && (c.data.zip (h ▸ d.data)).all fun p => p.1.numEq p.2
  else
    false

end Column

end NodeStore
