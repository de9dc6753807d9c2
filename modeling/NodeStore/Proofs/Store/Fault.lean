import NodeStore.Proofs.Store.CaptureRestore

/-!
# Faults of accesses

An access to a store goes through its checks in one order, whatever else is wrong with it: whether
there is a pool, then the attribute, the instance, the shape of the attribute, the slot or the
number of values, and last whether every value converts. `Store.Fault` lists the faults in this
order, each with what came before it in order; of several values that do not convert the first is
told.

* `Demand.check` makes the checks after that for the pool, and `Demand.check_error` says when they
  fail. The accesses of a table make these checks and no others (`Table.get_checks` and its like).
* `Store.Models.access_checks`: so do those of a store, under either strategy.
* `Store.Reachable.access_fails_first`: an access fails with its fault, or succeeds if it has none.
-/

namespace NodeStore

/-! ## What accesses ask for -/

/-- The part of an attribute that an access is about. -/
inductive Part where
  | slot (k : Nat)
  | slots
  | list

/-- The shape of the attributes that have the part. -/
def Part.shape : Part → Shape
  | .slot _ | .slots => .fixed
  | .list => .list

/-- What an access asks for: a part of the attribute at a coordinate, and values to be stored there
if it is a write. -/
structure Demand where
  coord : Coord
  part : Part
  values? : Option (List Value)

namespace Demand

variable {d : Demand} {schema : Schema} {n : Nat} {attr : Attribute} {e : FrameError}

/-- The values to be stored. -/
def values (d : Demand) : List Value := d.values?.getD []

/-- There is the attribute and the instance, and the attribute is of the shape asked for. -/
def Placed (d : Demand) (schema : Schema) (n : Nat) (attr : Attribute) : Prop :=
  schema.attributes[d.coord.attr]? = some attr ∧ d.coord.index < n ∧ attr.shape = d.part.shape

/-- The attribute has the slot, or as many slots as there are values for all. -/
def Sized (d : Demand) (attr : Attribute) : Prop :=
  match d.part, d.values? with
  | .slot k, _ => k < attr.slots
  | .slots, some vs => vs.length = attr.slots
  | _, _ => True

/-- What is asked for can be had in a pool of `n` instances. -/
def Met (d : Demand) (schema : Schema) (n : Nat) : Prop :=
  ∃ attr, d.Placed schema n attr ∧ d.Sized attr ∧ ∀ v ∈ d.values, ¬ v.convert? attr.type = none

/-- What cannot be had in a pool of `n` instances: the first of what is missing. -/
inductive Fault (d : Demand) (schema : Schema) (n : Nat) : FrameError → Prop
  | attr (hattr : schema.attributes[d.coord.attr]? = none) :
    Fault d schema n (.unknownAttribute schema.name (.numbered d.coord.attr))
  | index (attr : Attribute) (hattr : schema.attributes[d.coord.attr]? = some attr)
    (hindex : n ≤ d.coord.index) :
    Fault d schema n (.indexOutOfRange schema.name d.coord.index n)
  | shape (attr : Attribute) (hattr : schema.attributes[d.coord.attr]? = some attr)
    (hindex : d.coord.index < n) (hshape : attr.shape ≠ d.part.shape) :
    Fault d schema n (.shapeMismatch schema.name (.named attr.name) d.part.shape attr.shape)
  | slot (attr : Attribute) (k : Nat) (hplaced : d.Placed schema n attr) (hpart : d.part = .slot k)
    (hslot : attr.slots ≤ k) :
    Fault d schema n (.slotOutOfRange schema.name attr.name k attr.slots)
  | slotCount (attr : Attribute) (vs : List Value) (hplaced : d.Placed schema n attr)
    (hpart : d.part = .slots) (hvalues : d.values? = some vs) (hcount : vs.length ≠ attr.slots) :
    Fault d schema n (.slotCountMismatch schema.name attr.name attr.slots vs.length)
  | value (attr : Attribute) (v : Value) (hplaced : d.Placed schema n attr) (hsized : d.Sized attr)
    (hfirst : d.values.First (·.convert? attr.type = none) v) :
    Fault d schema n (.typeMismatch schema.name attr.name attr.type v)

/-- Requires what `Sized` says. -/
def requireSize (d : Demand) (schema : Schema) (attr : Attribute) : Except FrameError Unit :=
  match d.part, d.values? with
  | .slot k, _ => schema.requireSlot attr k
  | .slots, some vs => schema.requireSlotCount attr vs.length
  | _, _ => .ok ()

/-- The checks of an access to a pool of `n` instances, in the order they are made. -/
def check (d : Demand) (schema : Schema) (n : Nat) : Except FrameError Unit := do
  let attr ← schema.locate n d.coord d.part.shape
  d.requireSize schema attr
  let _ ← schema.convertAll attr d.values

/-! ## What the checks find -/

/-- Of a placed attribute the slots are looked at next. -/
theorem requireSize_ok (h : d.Placed schema n attr) :
    d.requireSize schema attr = .ok () ↔ d.Sized attr := by
  obtain ⟨c, part, values?⟩ := d
  obtain ⟨-, -, hshape⟩ := h
  cases part with
  | slot k => rw [Sized, requireSize, Schema.requireSlot_ok, Attribute.slotCount?_getD hshape]
  | slots =>
    cases values? with
    | none => exact ⟨fun _ => trivial, fun _ => rfl⟩
    | some vs =>
      rw [Sized, requireSize, Schema.requireSlotCount_ok, Attribute.slotCount?_getD hshape]
  | list => exact ⟨fun _ => trivial, fun _ => rfl⟩

theorem requireSize_error (h : d.Placed schema n attr) :
    d.requireSize schema attr = .error e ↔
      (∃ k, d.part = .slot k ∧ attr.slots ≤ k ∧
        e = .slotOutOfRange schema.name attr.name k attr.slots) ∨
      ∃ vs, d.part = .slots ∧ d.values? = some vs ∧ vs.length ≠ attr.slots ∧
        e = .slotCountMismatch schema.name attr.name attr.slots vs.length := by
  obtain ⟨c, part, values?⟩ := d
  obtain ⟨-, -, hshape⟩ := h
  cases part with
  | slot k => simp [requireSize, Schema.requireSlot_error, Attribute.slotCount?_getD hshape]
  | slots =>
    cases values? with
    | none => simp [requireSize]
    | some vs =>
      simp [requireSize, Schema.requireSlotCount_error, Attribute.slotCount?_getD hshape]
  | list => simp [requireSize]

/-- The checks fail with the fault. -/
theorem check_error : d.check schema n = .error e ↔ d.Fault schema n e := by
  unfold check
  constructor
  · intro h
    rcases Except.bind_error.1 h with hlocate | ⟨attr, hlocate, h⟩
    · rcases Schema.locate_error.1 hlocate with ⟨hnone, rfl⟩ | ⟨attr, hattr, hwrong⟩
      · exact .attr hnone
      · rcases hwrong with ⟨hindex, rfl⟩ | ⟨hindex, hshape, rfl⟩
        · exact .index attr hattr hindex
        · exact .shape attr hattr hindex hshape
    have hplaced : d.Placed schema n attr := Schema.locate_ok.1 hlocate
    rcases Except.bind_error.1 h with hsize | ⟨_, hsize, h⟩
    · rcases (requireSize_error hplaced).1 hsize with
        ⟨k, hpart, hk, rfl⟩ | ⟨vs, hpart, hvs, hne, rfl⟩
      · exact .slot attr k hplaced hpart hk
      · exact .slotCount attr vs hplaced hpart hvs hne
    rcases Except.bind_error.1 h with hconvert | ⟨_, -, ⟨⟩⟩
    obtain ⟨v, hfirst, rfl⟩ := Schema.convertAll_error.1 hconvert
    exact .value attr v hplaced ((requireSize_ok hplaced).1 hsize) hfirst
  · intro h
    cases h with
    | attr hattr => exact Except.bind_error.2 (.inl (Schema.locate_error.2 (.inl ⟨hattr, rfl⟩)))
    | index attr hattr hindex =>
      exact Except.bind_error.2
        (.inl (Schema.locate_error.2 (.inr ⟨attr, hattr, .inl ⟨hindex, rfl⟩⟩)))
    | shape attr hattr hindex hshape =>
      exact Except.bind_error.2
        (.inl (Schema.locate_error.2 (.inr ⟨attr, hattr, .inr ⟨hindex, hshape, rfl⟩⟩)))
    | slot attr k hplaced hpart hslot =>
      have hsize := (requireSize_error hplaced).2 (.inl ⟨k, hpart, hslot, rfl⟩)
      rw [Schema.locate_ok.2 hplaced, Except.ok_bind, hsize, Except.error_bind]
    | slotCount attr vs hplaced hpart hvalues hcount =>
      have hsize := (requireSize_error hplaced).2 (.inr ⟨vs, hpart, hvalues, hcount, rfl⟩)
      rw [Schema.locate_ok.2 hplaced, Except.ok_bind, hsize, Except.error_bind]
    | value attr v hplaced hsized hfirst =>
      rw [Schema.locate_ok.2 hplaced, Except.ok_bind, (requireSize_ok hplaced).2 hsized,
        Except.ok_bind, Schema.convertAll_error.2 ⟨v, hfirst, rfl⟩, Except.error_bind]

theorem check_ok : d.check schema n = .ok () ↔ d.Met schema n := by
  unfold check
  constructor
  · intro h
    obtain ⟨attr, hlocate, h⟩ := Except.bind_ok.1 h
    have hplaced : d.Placed schema n attr := Schema.locate_ok.1 hlocate
    obtain ⟨_, hsize, h⟩ := Except.bind_ok.1 h
    obtain ⟨ws, hws, -⟩ := Except.bind_ok.1 h
    refine ⟨attr, hplaced, (requireSize_ok hplaced).1 hsize, fun v hv => ?_⟩
    exact Option.isSome_iff_ne_none.1 (Schema.exists_convertAll.1 ⟨ws, hws⟩ v hv)
  · rintro ⟨attr, hplaced, hsized, hvalues⟩
    obtain ⟨ws, hws⟩ := Schema.exists_convertAll.2 fun v hv =>
      Option.isSome_iff_ne_none.2 (hvalues v hv)
    rw [Schema.locate_ok.2 hplaced, Except.ok_bind, (requireSize_ok hplaced).2 hsized,
      Except.ok_bind, hws]
    rfl

end Demand

/-! ## Accesses of tables -/

namespace Table

variable {α : Type}

/-- The access fails exactly as the checks of the demand do. -/
def Checks (t : Table) (d : Demand) (x : Except FrameError α) : Prop :=
  Except.Rel (fun _ _ => True) x (d.check t.schema t.count)

/-- One value is converted as the only one of a list. -/
theorem convert_checks (schema : Schema) (attr : Attribute) (v : Value) :
    Except.Rel (fun _ _ => True) (schema.convert attr v) (schema.convertAll attr [v]) := by
  rw [Schema.convertAll, List.mapM_cons, List.mapM_nil]
  cases schema.convert attr v with
  | ok w => exact .ok trivial
  | error e => exact .error e

theorem get_checks (t : Table) (c : Coord) (slot : Nat) :
    t.Checks ⟨c, .slot slot, none⟩ (t.get c slot) :=
  .check _ fun _ _ => .check _ fun _ _ => .ok trivial

theorem getSlots_checks (t : Table) (c : Coord) : t.Checks ⟨c, .slots, none⟩ (t.getSlots c) :=
  .check _ fun _ _ => .ok trivial

theorem listLength_checks (t : Table) (c : Coord) : t.Checks ⟨c, .list, none⟩ (t.listLength c) :=
  .check _ fun _ _ => .ok trivial

theorem getList_checks (t : Table) (c : Coord) : t.Checks ⟨c, .list, none⟩ (t.getList c) :=
  .check _ fun _ _ => .ok trivial

theorem set_checks (t : Table) (c : Coord) (slot : Nat) (v : Value) :
    t.Checks ⟨c, .slot slot, some [v]⟩ (t.set c slot v) :=
  .check _ fun attr _ => .check _ fun _ _ =>
    (convert_checks t.schema attr v).bind fun _ _ _ => .ok trivial

theorem setSlots_checks (t : Table) (c : Coord) (vs : List Value) :
    t.Checks ⟨c, .slots, some vs⟩ (t.setSlots c vs) :=
  .check _ fun _ _ => .check _ fun _ _ => .check _ fun _ _ => .ok trivial

theorem append_checks (t : Table) (c : Coord) (v : Value) :
    t.Checks ⟨c, .list, some [v]⟩ (t.append c v) :=
  .check _ fun attr _ => (convert_checks t.schema attr v).bind fun _ _ _ => .ok trivial

theorem setList_checks (t : Table) (c : Coord) (vs : List Value) :
    t.Checks ⟨c, .list, some vs⟩ (t.setList c vs) :=
  .check _ fun _ _ => .check _ fun _ _ => .ok trivial

end Table

/-! ## Accesses of stores -/

namespace Store

/-- What an access asks for. The other calls are no accesses. -/
def Call.demand? : Call → Option Demand
  | .get c slot => some ⟨c, .slot slot, none⟩
  | .set c slot v => some ⟨c, .slot slot, some [v]⟩
  | .getSlots c _ => some ⟨c, .slots, none⟩
  | .setSlots c vs => some ⟨c, .slots, some vs⟩
  | .listLength c => some ⟨c, .list, none⟩
  | .getList c _ => some ⟨c, .list, none⟩
  | .append c v => some ⟨c, .list, some [v]⟩
  | .setList c vs => some ⟨c, .list, some vs⟩
  | _ => none

/-- What cannot be had in a store: the pool, or what cannot be had in the pool. -/
inductive Fault (s : Store) (d : Demand) : FrameError → Prop
  | pool (hpool : s.shape? d.coord.schema = none) :
    Fault s d (.unknownSchema (.numbered d.coord.schema))
  | access (schema : Schema) (n : Nat) (e : FrameError)
    (hpool : s.shape? d.coord.schema = some (schema, n)) (hfault : d.Fault schema n e) : Fault s d e

variable {s : Store} {ts : List Table} {d : Demand} {call : Call} {e : FrameError} {α : Type}

/-- The checks of an access, with that for the pool. -/
def check (s : Store) (d : Demand) : Except FrameError Unit :=
  match s.shape? d.coord.schema with
  | some (schema, n) => d.check schema n
  | none => .error (noPool d.coord.schema)

theorem check_error : s.check d = .error e ↔ s.Fault d e := by
  unfold check
  cases hpool : s.shape? d.coord.schema with
  | none =>
    constructor
    · rintro ⟨⟩
      exact .pool hpool
    · rintro (_ | ⟨_, _, _, hpool'⟩)
      · rfl
      · cases hpool.symm.trans hpool'
  | some shape =>
    obtain ⟨schema, n⟩ := shape
    constructor
    · exact fun h => .access schema n e hpool (Demand.check_error.1 h)
    · rintro (hpool' | ⟨_, _, _, hpool', hfault⟩)
      · cases hpool.symm.trans hpool'
      · cases hpool.symm.trans hpool'
        exact Demand.check_error.2 hfault

/-- What is asked for can be had: there is the pool, and it can be had in that. -/
def Meets (s : Store) (d : Demand) : Prop :=
  ∃ schema n, s.shape? d.coord.schema = some (schema, n) ∧ d.Met schema n

theorem check_ok : s.check d = .ok () ↔ s.Meets d := by
  unfold check Meets
  cases s.shape? d.coord.schema with
  | none => simp
  | some shape =>
    constructor
    · exact fun h => ⟨_, _, rfl, Demand.check_ok.1 h⟩
    · rintro ⟨schema, n, hshape, h⟩
      obtain rfl := Option.some.inj hshape
      exact Demand.check_ok.2 h

theorem Models.look_checks (h : s.Models ts) {φ : Table → Except FrameError α}
    (hφ : ∀ t : Table, t.Checks d (φ t)) :
    Except.Rel (fun _ _ => True) (Tables.look φ d.coord.schema ts) (s.check d) := by
  unfold Tables.look Tables.pool check
  rw [h.shape?_eq]
  cases ts[d.coord.schema]? with
  | none => exact .error _
  | some t => exact hφ t

theorem Models.change_checks (h : s.Models ts) {x : Action Store Unit}
    {φ : Table → Except FrameError Table} (hφ : ∀ t : Table, t.Checks d (φ t))
    (hx : Action.Respects Models Eq x (Action.update (Tables.change φ d.coord.schema))) :
    Except.Rel (fun _ _ => True) ((x >>= fun _ => pure Answer.done) s).result (s.check d) := by
  have hresult : (Action.update (Tables.change φ d.coord.schema) ts).result =
      Tables.look (fun t => (φ t).map fun _ => ()) d.coord.schema ts := by
    rw [Action.update_apply]
    unfold Tables.change Tables.look
    cases Tables.pool ts d.coord.schema with
    | error e => rfl
    | ok t => cases hu : φ t <;> simp [hu]
  rw [Action.result_bind_pure, (hx s ts h).1.eq, hresult]
  exact (h.look_checks fun t => (hφ t).map _).map _

/-- An access makes the checks, and fails as they do. -/
theorem Models.access_checks (h : s.Models ts) (hd : call.demand? = some d) :
    Except.Rel (fun _ _ => True) (perform call s).result (s.check d) := by
  cases call with
  | get c slot =>
    obtain rfl := Option.some.inj hd
    exact (h.get c slot ▸ h.look_checks (·.get_checks c slot)).map _
  | getSlots c out =>
    obtain rfl := Option.some.inj hd
    exact (h.getSlots c ▸ h.look_checks (·.getSlots_checks c)).map _
  | listLength c =>
    obtain rfl := Option.some.inj hd
    exact (h.listLength c ▸ h.look_checks (·.listLength_checks c)).map _
  | getList c out =>
    obtain rfl := Option.some.inj hd
    exact (h.getList c ▸ h.look_checks (·.getList_checks c)).map _
  | set c slot v =>
    obtain rfl := Option.some.inj hd
    exact h.change_checks (·.set_checks c slot v) (set_models c slot v)
  | setSlots c vs =>
    obtain rfl := Option.some.inj hd
    exact h.change_checks (·.setSlots_checks c vs) (setSlots_models c vs)
  | append c v =>
    obtain rfl := Option.some.inj hd
    exact h.change_checks (·.append_checks c v) (append_models c v)
  | setList c vs =>
    obtain rfl := Option.some.inj hd
    exact h.change_checks (·.setList_checks c vs) (setList_models c vs)
  | _ => cases hd

/-- An access to a store in use fails exactly if it has a fault, with the first there is: for the
pool, else for the attribute, the instance, the shape, the slot or the number of values, else for
the first value that does not convert. It ends well exactly if all it asks for can be had. -/
theorem Reachable.access_fails_first (h : s.Reachable) (call : Call) (hd : call.demand? = some d) :
    (∀ e, (perform call s).result = .error e ↔ s.Fault d e) ∧
    ((∃ a, (perform call s).result = .ok a) ↔ s.Meets d) := by
  obtain ⟨ts, hts⟩ := h.models
  have hchecks := hts.access_checks hd
  refine ⟨fun e => hchecks.error_iff.trans check_error, hchecks.ok_iff.trans ?_⟩
  rw [← check_ok]
  exact ⟨fun ⟨_, hok⟩ => hok, fun hok => ⟨_, hok⟩⟩

/-- Of everything that is wrong with a write the first is told; of two values that do not convert
the first, as it was given. -/
theorem access_fails_first_of_many : ∃ s : Store, s.Reachable ∧ s.kind = .lite ∧
    s.Fault ⟨⟨0, 2, 1⟩, .slot 9, some [.int ⟨true, .two⟩ 300]⟩ (.indexOutOfRange "cell" 2 2) ∧
    s.Fault ⟨⟨0, 1, 1⟩, .slot 9, some [.int ⟨true, .two⟩ 300]⟩
      (.shapeMismatch "cell" (.named "log") .fixed .list) ∧
    s.Fault ⟨⟨0, 1, 0⟩, .slot 2, some [.int ⟨true, .two⟩ 300]⟩ (.slotOutOfRange "cell" "x" 2 2) ∧
    s.Fault ⟨⟨0, 1, 0⟩, .slots, some [.int ⟨true, .two⟩ 300, .int ⟨true, .two⟩ 400]⟩
      (.typeMismatch "cell" "x" .int8 (.int ⟨true, .two⟩ 300)) ∧
    s.Meets ⟨⟨0, 1, 0⟩, .slots, some [.int ⟨true, .two⟩ 100, .int ⟨true, .two⟩ (-100)]⟩ := by
  let schema : Schema :=
    ⟨0, "cell", [⟨0, "x", .int8, 2, false, false⟩, ⟨1, "log", .int16, 1, true, true⟩]⟩
  have hschema : schema.Declared :=
    .ofSpecs (show Schema.ofSpecs "cell"
      [⟨"x", .int8, 2, false, false⟩, ⟨"log", .int16, 1, true, true⟩] = .ok schema by rfl)
  have hs : Reachable _ :=
    ⟨.lite, [.allocate schema 2], by simpa [Call.Declared] using hschema, rfl⟩
  refine ⟨_, hs, rfl, ?_, ?_, ?_, ?_, ?_⟩
  · exact ((hs.access_fails_first (.set ⟨0, 2, 1⟩ 9 _) rfl).1 _).1 rfl
  · exact ((hs.access_fails_first (.set ⟨0, 1, 1⟩ 9 _) rfl).1 _).1 rfl
  · exact ((hs.access_fails_first (.set ⟨0, 1, 0⟩ 2 _) rfl).1 _).1 rfl
  · exact ((hs.access_fails_first (.setSlots ⟨0, 1, 0⟩ _) rfl).1 _).1 rfl
  · exact (hs.access_fails_first (.setSlots ⟨0, 1, 0⟩ _) rfl).2.1 ⟨_, rfl⟩

end Store

end NodeStore
