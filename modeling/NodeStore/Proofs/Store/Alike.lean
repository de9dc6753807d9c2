import NodeStore.Proofs.Store.Tables
import NodeStore.Store.Call

/-!
# Stores alike

Two stores are alike (`Store.Alike`) if they have the same tables, each under a strategy of its own.
Every call answers the same on both, the name of the strategy apart, and leaves them alike
(`Store.perform_alike`).
-/

namespace NodeStore

namespace Store

/-- The same tables. -/
def Alike (s t : Store) : Prop := ∃ ts, s.Models ts ∧ t.Models ts

variable {s t : Store} {α : Type}

theorem new_alike (k k' : Kind) : (new k).Alike (new k') := ⟨[], new_models k, new_models k'⟩

/-- What does the same to a store as to its tables does the same to stores alike. -/
theorem respects_alike {x : Action Store α} {y : Action (List Table) α}
    (h : Action.Respects Models Eq x y) : Action.Respects Alike Eq x x := by
  rintro s t ⟨ts, hs, ht⟩
  obtain ⟨hres, hst⟩ := h s ts hs
  obtain ⟨hres', hst'⟩ := h t ts ht
  exact ⟨.of_eq (fun _ => rfl) (hres.eq.trans hres'.eq.symm), _, hst, hst'⟩

/-! ## Reading -/

theorem Alike.size_eq (h : s.Alike t) : s.size = t.size := by
  obtain ⟨ts, hs, ht⟩ := h
  rw [hs.size_eq, ht.size_eq]

theorem Alike.count?_eq (h : s.Alike t) : s.count? = t.count? := by
  obtain ⟨ts, hs, ht⟩ := h
  funext id
  rw [hs.count?_eq, ht.count?_eq]

theorem Alike.get_eq (h : s.Alike t) : s.get = t.get := by
  obtain ⟨ts, hs, ht⟩ := h
  funext c slot
  rw [hs.get, ht.get]

theorem Alike.getSlots_eq (h : s.Alike t) : s.getSlots = t.getSlots := by
  obtain ⟨ts, hs, ht⟩ := h
  funext c
  rw [hs.getSlots, ht.getSlots]

theorem Alike.listLength_eq (h : s.Alike t) : s.listLength = t.listLength := by
  obtain ⟨ts, hs, ht⟩ := h
  funext c
  rw [hs.listLength, ht.listLength]

theorem Alike.getList_eq (h : s.Alike t) : s.getList = t.getList := by
  obtain ⟨ts, hs, ht⟩ := h
  funext c
  rw [hs.getList, ht.getList]

/-- Images that show the same table are the same. -/
theorem Alike.capture_eq (h : s.Alike t) : s.capture = t.capture := by
  obtain ⟨ts, hs, ht⟩ := h
  funext id
  have hs := hs.capture id
  have ht := ht.capture id
  revert hs ht
  generalize s.capture id = x
  generalize t.capture id = y
  generalize Tables.pool ts id = z
  intro hs ht
  cases hs with
  | ok hp =>
    cases ht with
    | ok hq => rw [hp.unique hq]
  | error e =>
    cases ht
    rfl

theorem Alike.memory_eq (h : s.Alike t) : s.memory = t.memory := by
  obtain ⟨ts, hs, ht⟩ := h
  rw [hs.memory_eq, ht.memory_eq]

/-! ## Writing -/

theorem allocate_alike {schema : Schema} (h : schema.WellFormed) (count : Nat) :
    Action.Respects Alike Eq (allocate schema count) (allocate schema count) :=
  respects_alike (allocate_models h count)

theorem set_alike (c : Coord) (slot : Nat) (v : Value) :
    Action.Respects Alike Eq (set c slot v) (set c slot v) :=
  respects_alike (set_models c slot v)

theorem setSlots_alike (c : Coord) (vs : List Value) :
    Action.Respects Alike Eq (setSlots c vs) (setSlots c vs) :=
  respects_alike (setSlots_models c vs)

theorem append_alike (c : Coord) (v : Value) :
    Action.Respects Alike Eq (append c v) (append c v) :=
  respects_alike (append_models c v)

theorem setList_alike (c : Coord) (vs : List Value) :
    Action.Respects Alike Eq (setList c vs) (setList c vs) :=
  respects_alike (setList_models c vs)

theorem reset_alike (id : SchemaId) : Action.Respects Alike Eq (reset id) (reset id) :=
  respects_alike (reset_models id)

theorem resetAll_alike : Action.Respects Alike Eq resetAll resetAll :=
  respects_alike resetAll_models

theorem restore_alike (id : SchemaId) (image : PoolImage) :
    Action.Respects Alike Eq (restore id image) (restore id image) :=
  respects_alike (restore_models id image)

/-! ## Calls -/

/-- The schema it brings, if any, was made by declarations. -/
def Call.Declared : Call → Prop
  | .allocate schema _ => schema.Declared
  | _ => True

/-- The same answer, the name of the strategy apart. -/
inductive Answer.Alike : Answer → Answer → Prop
  | same (a : Answer) : Alike a a
  | kind (k k' : Kind) : Alike (.kind k) (.kind k')

/-- A write that answers nothing but whether it was done. -/
theorem done_alike {x : Action Store Unit} (h : Action.Respects Alike Eq x x) :
    Action.Respects Alike Answer.Alike (do x; return .done) (do x; return .done) :=
  .bind h fun _ _ _ => .pure (.same .done)

/-- A read of which both stores think the same. -/
theorem read_alike {f : Store → Except FrameError Answer} (h : ∀ s t, s.Alike t → f s = f t) :
    Action.Respects Alike Answer.Alike (Action.read f) (Action.read f) :=
  .read fun s t hst => .of_eq .same (h s t hst)

theorem perform_alike {call : Call} (h : call.Declared) :
    Action.Respects Alike Answer.Alike (perform call) (perform call) := by
  cases call with
  | kind => exact .read fun s t _ => .ok (.kind s.kind t.kind)
  | allocate schema count => exact done_alike (allocate_alike h.wellFormed count)
  | size => exact read_alike fun s t h => by rw [h.size_eq]
  | count id => exact read_alike fun s t h => by rw [h.count?_eq]
  | get c slot => exact read_alike fun s t h => by rw [h.get_eq]
  | set c slot v => exact done_alike (set_alike c slot v)
  | getSlots c out => exact read_alike fun s t h => by rw [h.getSlots_eq]
  | setSlots c vs => exact done_alike (setSlots_alike c vs)
  | listLength c => exact read_alike fun s t h => by rw [h.listLength_eq]
  | getList c out => exact read_alike fun s t h => by rw [h.getList_eq]
  | append c v => exact done_alike (append_alike c v)
  | setList c vs => exact done_alike (setList_alike c vs)
  | reset id => exact done_alike (reset_alike id)
  | resetAll => exact done_alike resetAll_alike
  | capture id => exact read_alike fun s t h => by rw [h.capture_eq]
  | restore id image => exact done_alike (restore_alike id image)
  | memory => exact read_alike fun s t h => by rw [h.memory_eq]

end Store

end NodeStore
