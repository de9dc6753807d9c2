import NodeStore.Proofs.Frame.Access

/-!
# Writes are local

A frame is a map from coordinates to lists of values. What is read at a coordinate is a look at its
values (`Frame.Reads`), a write makes new values of the old ones there (`Access.Makes`), and nothing
else in the frame changes (`Frame.AgreesExceptAt`).

* `Frame.Put`: a frame is another one with other values at one coordinate.
* `Frame.Sound.access_put`: a write that succeeds is such a change.
* `Frame.Reachable.write_is_local`: what it comes to for operations and their answers.
-/

namespace NodeStore

/-! ## Values at one coordinate -/

/-- What a write makes of the values of an attribute, which is of the shape the write is for. -/
def Access.Makes (attr : Attribute) (old new : List Value) : Access → Prop
  | .set slot v => attr.isList = false ∧ slot < old.length ∧
    ∃ w, v.convert? attr.type = some w ∧ new = old.set slot w
  | .setSlots vs => attr.isList = false ∧ vs.length = old.length ∧
    List.Forall₂ (fun v w => v.convert? attr.type = some w) vs new
  | .setSlotsAt slots vs => attr.isList = false ∧ slots.length = vs.length ∧
    (∀ slot ∈ slots, slot < old.length) ∧ new.length = old.length ∧
    -- of several values for one slot the last counts
    ∀ slot < old.length, new[slot]? =
      ((slots.zip vs).reverse.lookup slot).elim old[slot]? (·.convert? attr.type)
  | .append v => attr.isList = true ∧ ∃ w, v.convert? attr.type = some w ∧ new = old ++ [w]
  | .setList vs => attr.isList = true ∧
    List.Forall₂ (fun v w => v.convert? attr.type = some w) vs new
  | .get _ | .getSlots | .getList | .listLength => False

/-! ## Reads of other cells -/

namespace Table

variable {t : Table} {c c' : Coord} {vs : List Value}

theorem get_put_ne (vs : List Value) (slot : Nat) (h : ¬ (c'.index = c.index ∧ c'.attr = c.attr)) :
    (t.put c vs).get c' slot = t.get c' slot := by
  simp only [get, locate_put, schema_put, cell_put_ne vs h]

theorem getSlots_put_ne (vs : List Value) (h : ¬ (c'.index = c.index ∧ c'.attr = c.attr)) :
    (t.put c vs).getSlots c' = t.getSlots c' := by
  simp only [getSlots, locate_put, cell_put_ne vs h]

theorem listLength_put_ne (vs : List Value) (h : ¬ (c'.index = c.index ∧ c'.attr = c.attr)) :
    (t.put c vs).listLength c' = t.listLength c' := by
  simp only [listLength, locate_put, cell_put_ne vs h]

theorem getList_put_ne (vs : List Value) (h : ¬ (c'.index = c.index ∧ c'.attr = c.attr)) :
    (t.put c vs).getList c' = t.getList c' := by
  simp only [getList, locate_put, cell_put_ne vs h]

end Table

/-- A look at another coordinate than the one that was put. -/
theorem Tables.look_put_ne {α : Type} {ts : List Table} {t : Table} {c c' : Coord} {vs : List Value}
    {φ : Table → Except FrameError α} (ht : ts[c.schema]? = some t) (hne : c' ≠ c)
    (hφ : ¬ (c'.index = c.index ∧ c'.attr = c.attr) → φ (t.put c vs) = φ t) :
    look φ c'.schema (ts.set c.schema (t.put c vs)) = look φ c'.schema ts := by
  unfold look pool
  by_cases hs : c'.schema = c.schema
  · have hlt := (List.getElem?_eq_some_iff.1 ht).1
    rw [hs, List.getElem?_set_self hlt, ht]
    refine hφ fun ⟨hi, ha⟩ => hne ?_
    cases c
    cases c'
    simp_all
  · rw [List.getElem?_set_ne (Ne.symm hs)]

/-! ## Writes of one table -/

namespace Table

variable {t u : Table} {c : Coord} {vs : List Value}

/-- The table `u` is `t` with what the access makes of the values at the coordinate. -/
def Written (t : Table) (c : Coord) (a : Access) (u : Table) : Prop :=
  ∃ attr new, t.schema.attributes[c.attr]? = some attr ∧ c.index < t.count ∧
    a.Makes attr (t.cell c) new ∧ u = t.put c new

theorem set_written {slot : Nat} {v : Value} (ht : t.Sound) (h : t.set c slot v = .ok u) :
    t.Written c (.set slot v) u := by
  obtain ⟨attr, w, hlocate, hslot, hw, hu⟩ := set_ok.1 h
  obtain ⟨hattr, hindex, hfixed⟩ := Schema.locate_ok.1 hlocate
  rw [← ht.length_cell hlocate] at hslot
  exact ⟨attr, _, hattr, hindex, ⟨Attribute.shape_eq_fixed.1 hfixed, hslot, w, hw, rfl⟩, hu⟩

theorem setSlots_written (ht : t.Sound) (h : t.setSlots c vs = .ok u) :
    t.Written c (.setSlots vs) u := by
  obtain ⟨attr, ws, hlocate, hn, hws, hu⟩ := setSlots_ok.1 h
  obtain ⟨hattr, hindex, hfixed⟩ := Schema.locate_ok.1 hlocate
  rw [← ht.length_cell hlocate] at hn
  exact ⟨attr, ws, hattr, hindex,
    ⟨Attribute.shape_eq_fixed.1 hfixed, hn, Schema.convertAll_ok.1 hws⟩, hu⟩

theorem append_written {v : Value} (h : t.append c v = .ok u) : t.Written c (.append v) u := by
  obtain ⟨attr, w, hlocate, hw, hu⟩ := append_ok.1 h
  obtain ⟨hattr, hindex, hlist⟩ := Schema.locate_ok.1 hlocate
  exact ⟨attr, _, hattr, hindex, ⟨Attribute.shape_eq_list.1 hlist, w, hw, rfl⟩, hu⟩

theorem setList_written (h : t.setList c vs = .ok u) : t.Written c (.setList vs) u := by
  obtain ⟨attr, ws, hlocate, hws, hu⟩ := setList_ok.1 h
  obtain ⟨hattr, hindex, hlist⟩ := Schema.locate_ok.1 hlocate
  exact ⟨attr, ws, hattr, hindex,
    ⟨Attribute.shape_eq_list.1 hlist, Schema.convertAll_ok.1 hws⟩, hu⟩

/-- The values with others laid over some slots, the later over the earlier. -/
def laidOver (vs : List Value) (pairs : List (Nat × Value)) : List Value :=
  pairs.foldl (fun vs p => vs.set p.1 p.2) vs

theorem length_laidOver (vs : List Value) (pairs : List (Nat × Value)) :
    (laidOver vs pairs).length = vs.length := by
  unfold laidOver
  induction pairs generalizing vs with
  | nil => rfl
  | cons p pairs ih => rw [List.foldl_cons, ih, List.length_set]

/-- Of the values laid over a slot the last is seen. -/
theorem getElem?_laidOver (pairs : List (Nat × Value)) {i : Nat} (hi : i < vs.length) :
    (laidOver vs pairs)[i]? = (pairs.reverse.lookup i).or vs[i]? := by
  unfold laidOver
  induction pairs generalizing vs with
  | nil => rfl
  | cons p pairs ih =>
    rw [List.foldl_cons, ih (by rwa [List.length_set]), List.reverse_cons, List.lookup_append,
      Option.or_assoc, List.lookup_cons]
    congr 1
    by_cases hp : p.1 = i
    · subst hp
      simp [hi]
    · simp [hp, beq_false_of_ne (Ne.symm hp)]

theorem setSlotsAt_written {slots : List Nat} (ht : t.Sound) (hlen : slots.length = vs.length)
    (hslots : ∀ slot ∈ slots, slot < (t.cell c).length)
    (h : t.setSlots c (laidOver (t.cell c) (slots.zip vs)) = .ok u) :
    t.Written c (.setSlotsAt slots vs) u := by
  obtain ⟨attr, new, hattr, hindex, ⟨hfixed, hn, hws⟩, hu⟩ := setSlots_written ht h
  have hnew : new.length = (t.cell c).length := hws.length_eq.symm.trans hn
  refine ⟨attr, new, hattr, hindex, ⟨hfixed, hlen, hslots, hnew, ?_⟩, hu⟩
  intro slot hslot
  obtain ⟨v, hv⟩ : ∃ v, (laidOver (t.cell c) (slots.zip vs))[slot]? = some v :=
    ⟨_, List.getElem?_eq_getElem (by rwa [length_laidOver])⟩
  obtain ⟨w, hw, hvw⟩ := hws.exists_right hv
  rw [getElem?_laidOver _ hslot] at hv
  rw [hw]
  cases hlast : (slots.zip vs).reverse.lookup slot with
  | some v' =>
    rw [hlast] at hv
    cases hv
    exact hvw.symm
  | none =>
    -- a value that stays is of the declared type and converts to itself
    rw [hlast] at hv
    have htype := ht.typed _ _ _ hattr v (List.mem_of_getElem? hv)
    rw [← htype, Value.convert?_self] at hvw
    exact hvw.symm.trans hv.symm

end Table

namespace Frame

variable {f g : Frame} {shape : List (Schema × Nat)} {c : Coord} {ts : List Table} {t : Table}
  {schema : Schema} {attr : Attribute} {vs : List Value} {a : Access}

/-! ## Writing -/

/-- `g` is `f` with what the access makes of the values at the coordinate of an attribute. -/
structure Put (f g : Frame) (c : Coord) (a : Access) (ts : List Table) (t u : Table) : Prop where
  before : f.store.Models ts
  table : ts[c.schema]? = some t
  schema : f.schemas[c.schema]? = some t.schema
  written : t.Written c a u
  after : g.store.Models (ts.set c.schema u)
  rest : g = { f with store := g.store }

theorem overlay_ok {pairs : List (Nat × Value)} {current out : List Value} :
    overlay schema attr pairs current = .ok out ↔
      (∀ p ∈ pairs, p.1 < attr.slotCount?.getD 0) ∧ out = Table.laidOver current pairs := by
  induction pairs generalizing current with
  | nil => simp [overlay, Table.laidOver, eq_comm]
  | cons p pairs ih =>
    rw [overlay, Except.bind_ok, List.forall_mem_cons, and_assoc, Table.laidOver, List.foldl_cons]
    constructor
    · rintro ⟨_, hslot, h⟩
      exact ⟨Schema.requireSlot_ok.1 hslot, ih.1 h⟩
    · rintro ⟨hslot, h⟩
      exact ⟨(), Schema.requireSlot_ok.2 hslot, ih.2 h⟩

/-- Merging is laying over, once the slots and their number are checked. -/
theorem mergedSlots_ok {slots : List Nat} {merged : List Value} (hts : f.store.Models ts)
    (ht : ts[c.schema]? = some t) (hschema : f.schemas[c.schema]? = some t.schema) :
    f.mergedSlots c slots vs = .ok merged ↔ ∃ attr, t.locate c .fixed = .ok attr ∧
      slots.length = vs.length ∧ (∀ slot ∈ slots, slot < attr.slotCount?.getD 0) ∧
      merged = Table.laidOver (t.cell c) (slots.zip vs) := by
  have hcurrent : f.store.getSlots c = t.getSlots c := by
    rw [hts.getSlots, Tables.look, Tables.pool_ok.2 ht, Except.ok_bind]
  have hschemaAt : f.schemaAt c.schema = .ok t.schema := by simp only [schemaAt, schemaAt?, hschema]
  rw [mergedSlots, hcurrent, hschemaAt, Table.getSlots]
  cases hlocate : t.locate c .fixed with
  | error e => simp
  | ok attr =>
    have hattr := Schema.attributeAt_ok.2 (Schema.locate_ok.1 hlocate).1
    simp only [Except.ok_bind, Except.pure_eq_ok, hattr, Except.ok.injEq, exists_eq_left']
    by_cases hlen : slots.length = vs.length
    · have hslots : (∀ slot ∈ slots, slot < attr.slotCount?.getD 0) ↔
          ∀ p ∈ slots.zip vs, p.1 < attr.slotCount?.getD 0 := by
        conv_lhs => rw [← List.map_fst_zip hlen.le]
        exact List.forall_mem_map
      simp [hlen, hslots, overlay_ok]
    · simp [hlen]

/-- Changing the table of one schema by a write. -/
theorem Sound.change_put (h : f.Sound shape) {x : Action Store Unit}
    {φ : Table → Except FrameError Table}
    (hx : Action.Respects Store.Models Eq x (Action.update (Tables.change φ c.schema)))
    (hφ : ∀ ts t u, f.store.Models ts → ts[c.schema]? = some t →
      f.schemas[c.schema]? = some t.schema → φ t = .ok u → t.Written c a u)
    (hok : (x f.store).result = .ok ()) :
    ∃ ts t u, f.Put { f with store := (x f.store).state } c a ts t u := by
  obtain ⟨ts, hts, hshape⟩ := h.shaped
  obtain ⟨t, u, ht, hu, hafter⟩ := hts.changed hx hok
  have hschema : f.schemas[c.schema]? = some t.schema := by rw [h.getElem?_schemas hshape, ht]; rfl
  exact ⟨ts, t, u, hts, ht, hschema, hφ ts t u hts ht hschema hu, hafter, rfl⟩

/-- A write that is permitted does what it does to the table of its schema, and answers so. -/
theorem write_apply {x : Action Store Unit} {φ : Table → Except FrameError Table}
    (hx : Action.Respects Store.Models Eq x (Action.update (Tables.change φ c.schema)))
    (hts : f.store.Models ts) (ht : ts[c.schema]? = some t) (hpermit : f.permitWrite c = .ok ()) :
    ((write c x >>= fun _ => pure Answer.done) f).result = (φ t).map (fun _ => .done) ∧
    ((write c x >>= fun _ => pure Answer.done) f).state =
      { f with store := (x f.store).state } ∧
    (x f.store).state.Models (ts.set c.schema ((φ t).toOption.getD t)) := by
  obtain ⟨hresult, hafter⟩ := hx f.store ts hts
  rw [Action.update_apply, Tables.change, Tables.pool_ok.2 ht, Except.ok_bind] at hresult hafter
  have hres := hresult.eq
  have hstate : (write c x f).state = { f with store := (x f.store).state } := by
    simp [write, Action.bind_apply, hpermit, inStore]
  refine ⟨?_, (Action.state_bind_pure ..).trans hstate, ?_⟩
  · cases hφ : φ t <;> rw [hφ] at hres <;>
      simp [write, Action.bind_apply, hpermit, inStore, hres]
  · cases hφ : φ t with
    | ok u =>
      rw [hφ] at hafter
      exact hafter
    | error e =>
      rw [hφ] at hafter
      obtain ⟨hlt, rfl⟩ := List.getElem?_eq_some_iff.1 ht
      simpa [Except.toOption, List.set_getElem_self hlt] using hafter

/-- Writing through to the store. -/
theorem Sound.write_put (h : f.Sound shape) {x : Action Store Unit} {y : Answer}
    {φ : Table → Except FrameError Table}
    (hx : Action.Respects Store.Models Eq x (Action.update (Tables.change φ c.schema)))
    (hφ : ∀ t u, t.Sound → φ t = .ok u → t.Written c a u)
    (hok : ((write c x >>= fun _ => pure Answer.done) f).result = .ok y) :
    ∃ ts t u, f.Put ((write c x >>= fun _ => pure Answer.done) f).state c a ts t u := by
  obtain ⟨_, hok, -⟩ := Action.bind_ok.1 hok
  obtain ⟨_, hpermit, hres⟩ := Action.read_bind_ok.1 hok
  have hstate : ((write c x >>= fun _ => pure Answer.done) f).state =
      { f with store := (x f.store).state } := by
    rw [Action.state_bind_pure]
    simp [write, Action.bind_apply, hpermit, inStore]
  rw [hstate]
  exact h.change_put hx
    (fun ts t u hts ht _ => hφ t u (hts.sound t (List.mem_of_getElem? ht))) hres

/-- Writing the merged slots through to the store. -/
theorem Sound.merged_put (h : f.Sound shape) {slots : List Nat} {merged : List Value}
    (hmerged : f.mergedSlots c slots vs = .ok merged)
    (hok : (Store.setSlots c merged f.store).result = .ok ()) :
    ∃ ts t u, f.Put { f with store := (Store.setSlots c merged f.store).state } c
      (.setSlotsAt slots vs) ts t u := by
  refine h.change_put (Store.setSlots_models c merged) (fun ts t u hts ht hschema hu => ?_) hok
  obtain ⟨attr, hlocate, hlen, hslots, rfl⟩ := (mergedSlots_ok hts ht hschema).1 hmerged
  have hsound := hts.sound t (List.mem_of_getElem? ht)
  rw [← hsound.length_cell hlocate] at hslots
  exact Table.setSlotsAt_written hsound hlen hslots hu

/-- Writing chosen slots: the others are written again as they are. -/
theorem Sound.writeChosen_put (h : f.Sound shape) {slots : List Nat} {y : Answer}
    (hok : (Access.perform c (.setSlotsAt slots vs) f).result = .ok y) :
    ∃ ts t u, f.Put (Access.perform c (.setSlotsAt slots vs) f).state c (.setSlotsAt slots vs)
      ts t u := by
  obtain ⟨_, hok, -⟩ := Action.bind_ok.1 hok
  obtain ⟨_, hpermit, hok⟩ := Action.read_bind_ok.1 hok
  obtain ⟨merged, hmerged, hres⟩ := Action.read_bind_ok.1 hok
  have hstate : (Access.perform c (.setSlotsAt slots vs) f).state =
      { f with store := (Store.setSlots c merged f.store).state } := by
    rw [Access.perform, Action.state_bind_pure]
    simp [writeChosen, Action.bind_apply, hpermit, hmerged, inStore]
  rw [hstate]
  exact h.merged_put hmerged hres

/-- A write that succeeds puts what it makes. -/
theorem Sound.access_put (h : f.Sound shape) (hw : a.isRead = false) {y : Answer}
    (hok : (a.perform c f).result = .ok y) : ∃ ts t u, f.Put (a.perform c f).state c a ts t u := by
  cases a with
  | set slot v =>
    exact h.write_put (Store.set_models c slot v) (fun _ _ => Table.set_written) hok
  | setSlots vs =>
    exact h.write_put (Store.setSlots_models c vs) (fun _ _ => Table.setSlots_written) hok
  | setSlotsAt slots vs => exact h.writeChosen_put hok
  | append v =>
    exact h.write_put (Store.append_models c v) (fun _ _ _ => Table.append_written) hok
  | setList vs =>
    exact h.write_put (Store.setList_models c vs) (fun _ _ _ => Table.setList_written) hok
  | _ => cases hw

/-! ## What a write changes -/

/-- Nothing but the values at the coordinate differs: reads that are not of the coordinate answer
the same, in whichever way they are made. -/
structure AgreesExceptAt (f g : Frame) (c : Coord) : Prop where
  reads : ∀ (op : Op) (b : Access), op.access? = some b → b.isRead = true → op.target? f ≠ some c →
    (perform op g).result = (perform op f).result
  schemas : g.schemas = f.schemas
  counts : ∀ id, g.count id = f.count id
  seals : g.seals = f.seals
  ring : g.ring = f.ring

section
variable {u : Table}

theorem Put.read_ne (h : f.Put g c a ts t u) {c' : Coord} (hne : c' ≠ c) {b : Access}
    (hr : b.isRead = true) : (b.perform c' g).result = (b.perform c' f).result := by
  obtain ⟨attr, new, -, -, -, rfl⟩ := h.written
  cases b with
  | get slot =>
    simp only [Access.perform, Action.read_apply, h.before.get, h.after.get]
    exact congrArg _ (Tables.look_put_ne h.table hne (Table.get_put_ne new slot))
  | getSlots =>
    simp only [Access.perform, Action.read_apply, h.before.getSlots, h.after.getSlots]
    exact congrArg _ (Tables.look_put_ne h.table hne (Table.getSlots_put_ne new))
  | listLength =>
    simp only [Access.perform, Action.read_apply, h.before.listLength, h.after.listLength]
    exact congrArg _ (Tables.look_put_ne h.table hne (Table.listLength_put_ne new))
  | getList =>
    simp only [Access.perform, Action.read_apply, h.before.getList, h.after.getList]
    exact congrArg _ (Tables.look_put_ne h.table hne (Table.getList_put_ne new))
  | _ => cases hr

theorem Put.reads (h : f.Put g c a ts t u) :
    ∃ attr old new, t.schema.attributes[c.attr]? = some attr ∧
      f.Reads c t.schema attr old ∧ a.Makes attr old new ∧ g.Reads c t.schema attr new := by
  obtain ⟨attr, new, hattr, hindex, hmakes, rfl⟩ := h.written
  have hlt := (List.getElem?_eq_some_iff.1 h.table).1
  have hafter := reads_of_models h.after (List.getElem?_set_self hlt) hattr hindex
  rw [Table.cell_put_self] at hafter
  exact ⟨attr, _, new, hattr, reads_of_models h.before h.table hattr hindex, hmakes, hafter⟩

end

/-- A write that succeeds makes new values of the old ones at its coordinate, and reads of the
attribute there give the new ones. Reads at all other coordinates, seals, ring and counts stay as
they were. -/
theorem Reachable.write_is_local (h : f.Reachable) {op : Op} (ha : op.access? = some a)
    (hw : a.isRead = false) {x : Answer} (hok : (perform op f).result = .ok x) :
    ∃ c schema attr old new, op.target? f = some c ∧ f.schemas[c.schema]? = some schema ∧
      schema.attributes[c.attr]? = some attr ∧ f.Reads c schema attr old ∧ a.Makes attr old new ∧
      (perform op f).state.Reads c schema attr new ∧ f.AgreesExceptAt (perform op f).state c := by
  obtain ⟨shape, hsound⟩ := h.sound
  have hafter := perform_sound op f hsound
  obtain ⟨c, htarget, heq⟩ := perform_write ha hw hok
  rw [heq] at hok
  obtain ⟨ts, t, u, hput⟩ := hsound.access_put hw hok
  rw [← heq] at hput
  obtain ⟨attr, old, new, hattr, hold, hmakes, hnew⟩ := hput.reads
  have hschemas := hafter.schemas.trans hsound.schemas.symm
  have hcounts (id : Nat) := (hafter.count_eq id).trans (hsound.count_eq id).symm
  refine ⟨c, t.schema, attr, old, new, htarget, hput.schema, hattr, hold, hmakes, hnew,
    ⟨?_, hschemas, hcounts, ?_, ?_⟩⟩
  · intro op' b hb hr hne
    refine perform_read_congr hschemas hcounts hb hr fun c' hc' => hput.read_ne ?_ hr
    rintro rfl
    exact hne hc'
  · rw [hput.rest]
  · rw [hput.rest]

/-- One slot of two is written, with a value of another type. -/
theorem write_is_local_slot : ∃ f : Frame, f.Reachable ∧
    (Access.perform ⟨0, 1, 0⟩ .getSlots f).result =
      .ok (.values [.int ⟨true, .one⟩ 5, .int ⟨true, .one⟩ 0]) ∧
    (Access.perform ⟨0, 1, 0⟩ .getSlots (perform
      (.access "cell" 1 "x" (.set 1 (.int ⟨true, .two⟩ 7))) f).state).result =
      .ok (.values [.int ⟨true, .one⟩ 5, .int ⟨true, .one⟩ 7]) ∧
    f.AgreesExceptAt (perform (.access "cell" 1 "x" (.set 1 (.int ⟨true, .two⟩ 7))) f).state
      ⟨0, 1, 0⟩ := by
  have hsteps : ∀ step ∈ [Builder.Step.declareWith "cell" [⟨"x", .int8, 2, false, false⟩] 2],
      step.Standard := by
    simp [Builder.Step.Standard]
  have hf : Reachable _ :=
    ⟨_, [.access "cell" 1 "x" (.set 0 (.int ⟨true, .one⟩ 5))], ⟨_, hsteps, rfl⟩, rfl⟩
  obtain ⟨c, -, -, -, -, htarget, -, -, -, -, -, hagrees⟩ := hf.write_is_local (by rfl) (by rfl)
    (show (perform (.access "cell" 1 "x" (.set 1 (.int ⟨true, .two⟩ 7))) _).result =
      .ok .done by rfl)
  obtain rfl : ⟨0, 1, 0⟩ = c := Option.some.inj htarget
  exact ⟨_, hf, rfl, rfl, hagrees⟩

end Frame

end NodeStore
