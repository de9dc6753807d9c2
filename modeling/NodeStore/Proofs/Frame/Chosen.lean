import NodeStore.Proofs.Frame.Typed

/-!
# Writing chosen slots

A write of chosen slots lays the values over what the attribute holds and writes the result as a
whole. So it is right about the slots one at a time, but asks of the values only what is left of
them: of several values for one slot the last counts, and the others may be of any kind, where
writing them one at a time would fail at each that does not convert (`Attribute.Accepts` and
`Attribute.AcceptsEach`).

Either way of writing leaves the frame with other values at one coordinate (`Frame.With`), and there
is only one such frame (`Frame.With.unique`).

* `Frame.With.set`, `Frame.With.oneByOne`: writing one at a time.
* `Frame.With.setSlotsAt`: writing at once.
* `Frame.Reachable.chosen_slots_last_counts`: the two compared.
-/

namespace NodeStore

open NodeStore.Action

/-! ## Values for slots -/

namespace Attribute

variable {attr : Attribute} {slots : List Nat} {vs : List Value} {pairs : List (Nat × Value)}
  {i : Nat}

/-- There is a value for each slot given, the slots are there, and of the values for a slot the last
converts. -/
structure Accepts (attr : Attribute) (slots : List Nat) (vs : List Value) : Prop where
  length : slots.length = vs.length
  below : ∀ slot ∈ slots, slot < attr.slots
  last : ∀ slot v, (slots.zip vs).reverse.lookup slot = some v → (v.convert? attr.type).isSome

/-- The slots are there and all values convert. -/
def AcceptsEach (attr : Attribute) (pairs : List (Nat × Value)) : Prop :=
  ∀ p ∈ pairs, p.1 < attr.slots ∧ (p.2.convert? attr.type).isSome

theorem accepts_of_each (hlen : slots.length = vs.length) (h : attr.AcceptsEach (slots.zip vs)) :
    attr.Accepts slots vs where
  length := hlen
  below := by
    rw [← List.map_fst_zip hlen.le, List.forall_mem_map]
    exact fun p hp => (h p hp).1
  last slot v hv := by
    obtain ⟨before, after, hsplit, -⟩ := List.lookup_eq_some_iff.1 hv
    exact (h (slot, v) (List.mem_reverse.1 (by simp [hsplit]))).2

/-- Without a slot given twice every value is the last for its slot. -/
theorem Accepts.each (h : attr.Accepts slots vs) (hdistinct : slots.Nodup) :
    attr.AcceptsEach (slots.zip vs) := by
  intro p hp
  refine ⟨h.below p.1 (List.of_mem_zip hp).1, h.last p.1 p.2 ?_⟩
  have hkeys : ((slots.zip vs).reverse.map Prod.fst).Nodup := by
    rw [List.map_reverse, List.nodup_reverse, List.map_fst_zip h.length.le]
    exact hdistinct
  obtain ⟨before, after, hsplit⟩ := List.append_of_mem (List.mem_reverse.2 hp)
  refine List.lookup_eq_some_iff.2 ⟨before, after, hsplit, fun q hq => ?_⟩
  rw [hsplit, List.map_append, List.map_cons, List.nodup_append] at hkeys
  exact bne_iff_ne.2 (hkeys.2.2 q.1 (List.mem_map_of_mem hq) p.1 List.mem_cons_self).symm

/-- The values after one is written to its slot, if there is such a slot and the value converts. -/
def written (attr : Attribute) (vs : List Value) (p : Nat × Value) : List Value :=
  (p.2.convert? attr.type).elim vs (vs.set p.1 ·)

theorem length_written (vs : List Value) (p : Nat × Value) :
    (attr.written vs p).length = vs.length := by
  unfold written
  cases p.2.convert? attr.type with
  | none => rfl
  | some w => exact List.length_set

theorem length_foldl_written (vs : List Value) (pairs : List (Nat × Value)) :
    (pairs.foldl attr.written vs).length = vs.length := by
  induction pairs generalizing vs with
  | nil => rfl
  | cons p pairs ih => rw [List.foldl_cons, ih, length_written]

/-- Written one after another, the last value for a slot is seen, if it converts. -/
theorem getElem?_foldl_written (hi : i < vs.length)
    (hlast : ∀ v, pairs.reverse.lookup i = some v → (v.convert? attr.type).isSome) :
    (pairs.foldl attr.written vs)[i]? =
      (pairs.reverse.lookup i).elim vs[i]? (·.convert? attr.type) := by
  induction pairs using List.reverseRecOn with
  | nil => rfl
  | append_singleton pairs p ih =>
    rw [List.reverse_append, List.reverse_singleton, List.singleton_append,
      List.lookup_cons] at hlast ⊢
    rw [List.foldl_append, List.foldl_cons, List.foldl_nil]
    by_cases hp : i = p.1
    · obtain ⟨w, hw⟩ := Option.isSome_iff_exists.1 (hlast p.2 (by simp [hp]))
      have hlt : p.1 < (pairs.foldl attr.written vs).length := by
        rwa [length_foldl_written, ← hp]
      simp [hp, written, hw, hlt]
    · simp only [beq_false_of_ne hp] at hlast ⊢
      rw [← ih hlast, written]
      cases p.2.convert? attr.type with
      | none => rfl
      | some w => exact List.getElem?_set_ne (Ne.symm hp)

end Attribute

/-! ## Other values at a coordinate -/

namespace Table

variable {t u : Table} {c : Coord} {attr : Attribute} {vs : List Value}

theorem put_put (t : Table) (c : Coord) (vs ws : List Value) :
    (t.put c vs).put c ws = t.put c ws := by
  simp only [put, Table.mk.injEq, true_and]
  funext i a
  by_cases h : i = c.index ∧ a = c.attr <;> simp [h]

theorem put_cell (t : Table) (c : Coord) : t.put c (t.cell c) = t := by
  obtain ⟨schema, count, cells⟩ := t
  simp only [put, Table.mk.injEq, true_and]
  funext i a
  split
  · rename_i h
    rw [cell, h.1, h.2]
  · rfl

/-- One slot is written over values put before, or not at all. -/
theorem set_put (hlocate : t.locate c .fixed = .ok attr) (hlen : vs.length = attr.slots)
    (slot : Nat) (v : Value) :
    ((∃ u, (t.put c vs).set c slot v = .ok u) ↔
      slot < attr.slots ∧ (v.convert? attr.type).isSome) ∧
    ((t.put c vs).set c slot v).toOption.getD (t.put c vs) =
      t.put c (attr.written vs (slot, v)) := by
  have hslots := Attribute.slotCount?_getD (Schema.locate_ok.1 hlocate).2.2
  rw [set, locate_put, hlocate, Except.ok_bind, schema_put, cell_put_self, Attribute.written]
  by_cases hslot : slot < attr.slots
  · rw [Schema.requireSlot_ok.2 (hslots ▸ hslot), Except.ok_bind, Schema.convert]
    cases v.convert? attr.type with
    | none => simp [Except.toOption]
    | some w => simp [Except.toOption, put_put, hslot]
  · -- a slot there is not is refused, and setting it in the list does nothing
    have hset (w : Value) : vs.set slot w = vs := List.set_eq_of_length_le (by omega)
    simp only [Schema.requireSlot, hslots, hslot, hset]
    cases v.convert? attr.type <;> simp [Except.toOption]

/-- The values with others laid over them are accepted if the last for each slot is. -/
theorem setSlots_laidOver (ht : t.Sound) (hlocate : t.locate c .fixed = .ok attr)
    (pairs : List (Nat × Value)) (hbelow : ∀ p ∈ pairs, p.1 < (t.cell c).length) :
    (∃ u, t.setSlots c (laidOver (t.cell c) pairs) = .ok u) ↔
      ∀ slot v, pairs.reverse.lookup slot = some v → (v.convert? attr.type).isSome := by
  have hattr := (Schema.locate_ok.1 hlocate).1
  have hlen := ht.length_cell hlocate
  have hconverts : (∃ u, t.setSlots c (laidOver (t.cell c) pairs) = .ok u) ↔
      ∀ v ∈ laidOver (t.cell c) pairs, (v.convert? attr.type).isSome := by
    rw [← Schema.exists_convertAll (s := t.schema)]
    simp [setSlots, hlocate, Schema.requireSlotCount_ok.2, length_laidOver, hlen, Except.bind_ok]
  rw [hconverts]
  constructor
  · intro h slot v hv
    obtain ⟨before, after, hsplit, -⟩ := List.lookup_eq_some_iff.1 hv
    have hslot := hbelow (slot, v) (List.mem_reverse.1 (by simp [hsplit]))
    refine h v (List.mem_of_getElem? (i := slot) ?_)
    rw [getElem?_laidOver _ hslot, hv, Option.some_or]
  · intro h v hv
    obtain ⟨slot, hslot, hget⟩ := List.mem_iff_getElem.1 hv
    rw [length_laidOver] at hslot
    have hlaid := getElem?_laidOver pairs hslot
    rw [List.getElem?_eq_getElem (by rwa [length_laidOver]), hget] at hlaid
    cases hlast : pairs.reverse.lookup slot with
    | some v' =>
      rw [hlast] at hlaid
      cases hlaid
      exact h slot v hlast
    | none =>
      -- a value that stays is of the declared type
      rw [hlast, Option.none_or] at hlaid
      have htype := ht.typed _ _ _ hattr v (List.mem_of_getElem? hlaid.symm)
      rw [← htype, Value.convert?_self]
      rfl

/-- What is laid over at once is what is written one after another. -/
theorem setSlots_laidOver_eq (ht : t.Sound) (hlocate : t.locate c .fixed = .ok attr)
    {slots : List Nat} (hcount : slots.length = vs.length)
    (hbelow : ∀ slot ∈ slots, slot < (t.cell c).length)
    (hu : t.setSlots c (laidOver (t.cell c) (slots.zip vs)) = .ok u) :
    u = t.put c ((slots.zip vs).foldl attr.written (t.cell c)) := by
  have hlast := (setSlots_laidOver ht hlocate (slots.zip vs) fun p hp =>
    hbelow p.1 (List.of_mem_zip hp).1).1 ⟨u, hu⟩
  obtain ⟨attr', new, hattr, -, ⟨-, -, -, hnew, hseen⟩, rfl⟩ :=
    setSlotsAt_written ht hcount hbelow hu
  obtain rfl : attr' = attr := Option.some.inj (hattr.symm.trans (Schema.locate_ok.1 hlocate).1)
  congr 1
  refine List.ext_getElem? fun slot => ?_
  by_cases hslot : slot < (t.cell c).length
  · rw [hseen slot hslot, Attribute.getElem?_foldl_written hslot (hlast slot)]
  · rw [List.getElem?_eq_none (by omega),
      List.getElem?_eq_none (by rw [Attribute.length_foldl_written]; omega)]

end Table

namespace Frame

variable {f g : Frame} {shape : List (Schema × Nat)} {schema : Schema} {attr : Attribute}
  {c : Coord} {ts : List Table} {t : Table} {slots : List Nat} {vs ws : List Value} {index : Nat}

/-- `g` is `f` with values at a coordinate. -/
structure With (f : Frame) (c : Coord) (ts : List Table) (t : Table) (g : Frame) (vs : List Value) :
    Prop where
  store : g.store.Models (ts.set c.schema (t.put c vs))
  kind : g.store.kind = f.store.kind
  rest : g = { f with store := g.store }

theorem With.unique {g' : Frame} (h : f.With c ts t g vs) (h' : f.With c ts t g' vs) : g = g' := by
  rw [h.rest, h'.rest, h.store.ext (h.kind.trans h'.kind.symm) h'.store]

theorem With.refl (hts : f.store.Models ts) (ht : ts[c.schema]? = some t) :
    f.With c ts t f (t.cell c) := by
  refine ⟨?_, rfl, rfl⟩
  obtain ⟨hlt, rfl⟩ := List.getElem?_eq_some_iff.1 ht
  rwa [Table.put_cell, List.set_getElem_self]

/-- Writing chosen slots is writing all of them, once the values are merged. -/
theorem setSlotsAt_eq {merged : List Value} (hpermit : f.permitWrite c = .ok ())
    (hmerged : f.mergedSlots c slots vs = .ok merged) :
    Access.perform c (.setSlotsAt slots vs) f = Access.perform c (.setSlots merged) f := by
  have hchosen : writeChosen c slots vs f = write c (Store.setSlots c merged) f := by
    simp [writeChosen, write, bind_apply, hpermit, hmerged]
  simp only [Access.perform, bind_apply, hchosen]

section
variable (ht : ts[c.schema]? = some t) (hpermit : f.permitWrite c = .ok ())
include ht hpermit

/-- A write that puts values at the coordinate, or leaves those there are. -/
theorem With.write (h : f.With c ts t g vs) {x : Action Store Unit}
    {φ : Table → Except FrameError Table} (hw : Store.Write x)
    (hx : Respects Store.Models Eq x (Action.update (Tables.change φ c.schema))) :
    (((Frame.write c x >>= fun _ => pure Answer.done) g).result = .ok .done ↔
      ∃ u, φ (t.put c vs) = .ok u) ∧
    ∀ ws, (φ (t.put c vs)).toOption.getD (t.put c vs) = t.put c ws →
      f.With c ts t ((Frame.write c x >>= fun _ => pure Answer.done) g).state ws := by
  have hlt := (List.getElem?_eq_some_iff.1 ht).1
  have hpermit' : g.permitWrite c = .ok () := by
    rw [h.rest]
    exact hpermit
  obtain ⟨hresult, hstate, hafter⟩ := write_apply hx h.store (List.getElem?_set_self hlt) hpermit'
  rw [hresult, hstate]
  refine ⟨?_, fun ws hws => ⟨?_, (hw.kind_eq _).trans h.kind, by rw [h.rest]⟩⟩
  · cases φ (t.put c vs) <;> simp
  · rwa [List.set_set, hws] at hafter

/-- Writing one slot. -/
theorem With.set (h : f.With c ts t g vs) (hlocate : t.locate c .fixed = .ok attr)
    (hlen : vs.length = attr.slots) (slot : Nat) (v : Value) :
    ((Access.perform c (.set slot v) g).result = .ok .done ↔
      slot < attr.slots ∧ (v.convert? attr.type).isSome) ∧
    f.With c ts t (Access.perform c (.set slot v) g).state (attr.written vs (slot, v)) := by
  obtain ⟨hok, hput⟩ := Table.set_put hlocate hlen slot v
  obtain ⟨hresult, hwith⟩ := h.write ht hpermit (.set c slot v) (Store.set_models c slot v)
  exact ⟨hresult.trans hok, hwith _ hput⟩

/-- Writing values to slots at once leaves, if it succeeds, what writing them one after another
leaves. -/
theorem With.setSlotsAt (hts : f.store.Models ts)
    (hschema : f.schemas[c.schema]? = some t.schema) (hlocate : t.locate c .fixed = .ok attr)
    (slots : List Nat) (vs : List Value) :
    ((Access.perform c (.setSlotsAt slots vs) f).result = .ok .done ↔ attr.Accepts slots vs) ∧
    ((Access.perform c (.setSlotsAt slots vs) f).result = .ok .done →
      f.With c ts t (Access.perform c (.setSlotsAt slots vs) f).state
        ((slots.zip vs).foldl attr.written (t.cell c))) := by
  have hsound := hts.sound t (List.mem_of_getElem? ht)
  have hslots := Attribute.slotCount?_getD (Schema.locate_ok.1 hlocate).2.2
  have hlen := (hsound.length_cell hlocate).trans hslots
  have hmerging (merged : List Value) : f.mergedSlots c slots vs = .ok merged ↔
      slots.length = vs.length ∧ (∀ slot ∈ slots, slot < attr.slots) ∧
        merged = Table.laidOver (t.cell c) (slots.zip vs) := by
    rw [mergedSlots_ok hts ht hschema]
    simp [hlocate, hslots]
  cases hmerged : f.mergedSlots c slots vs with
  | error e =>
    have hresult : (Access.perform c (.setSlotsAt slots vs) f).result = .error e := by
      simp [Access.perform, writeChosen, bind_apply, hpermit, hmerged]
    refine ⟨⟨fun hok => ?_, fun h => ?_⟩, fun hok => ?_⟩
    · cases hresult.symm.trans hok
    · cases hmerged.symm.trans ((hmerging _).2 ⟨h.length, h.below, rfl⟩)
    · cases hresult.symm.trans hok
  | ok merged =>
    obtain ⟨hcount, hbelow, rfl⟩ := (hmerging merged).1 hmerged
    have hcell : ∀ slot ∈ slots, slot < (t.cell c).length := hlen ▸ hbelow
    have hlast := Table.setSlots_laidOver hsound hlocate (slots.zip vs) fun p hp =>
      hcell p.1 (List.of_mem_zip hp).1
    obtain ⟨hresult, hwith⟩ := (With.refl hts ht).write ht hpermit (.setSlots c _)
      (Store.setSlots_models c _)
    rw [Table.put_cell] at hresult hwith
    rw [setSlotsAt_eq hpermit hmerged]
    refine ⟨(hresult.trans hlast).trans ⟨fun h => ⟨hcount, hbelow, h⟩, (·.last)⟩,
      fun hok => hwith _ ?_⟩
    obtain ⟨u, hu⟩ := hresult.1 hok
    rw [hu, ← Table.setSlots_laidOver_eq hsound hlocate hcount hcell hu]
    rfl

end

/-! ## The two ways compared -/

/-- Writing values to slots of an attribute at once. -/
def Op.chosen (schema : Schema) (index : Nat) (attr : Attribute) (slots : List Nat)
    (vs : List Value) : Op :=
  .access schema.name index attr.name (.setSlotsAt slots vs)

/-- Writing values to slots of an attribute one after another. -/
def Op.oneByOne (schema : Schema) (index : Nat) (attr : Attribute) (pairs : List (Nat × Value)) :
    List Op :=
  pairs.map fun p => .access schema.name index attr.name (.set p.1 p.2)

/-- Written one after another, all values are taken if each is, and each that is taken is put. -/
theorem With.oneByOne (ht : ts[c.schema]? = some t) (hpermit : f.permitWrite c = .ok ())
    (hlocate : t.locate c .fixed = .ok attr)
    (hcoord : f.coord schema.name index attr.name = .ok c) (pairs : List (Nat × Value))
    (h : f.With c ts t g vs) (hlen : vs.length = attr.slots) :
    ((∀ r ∈ answers perform (Op.oneByOne schema index attr pairs) g, r = .ok .done) ↔
      attr.AcceptsEach pairs) ∧
    f.With c ts t (after perform (Op.oneByOne schema index attr pairs) g)
      (pairs.foldl attr.written vs) := by
  induction pairs generalizing g vs with
  | nil => exact ⟨by simp [Op.oneByOne, answers, Attribute.AcceptsEach], h⟩
  | cons p pairs ih =>
    have hschemas : g.schemas = f.schemas := by rw [h.rest]
    have hcoord' := (coord_congr hschemas ..).trans hcoord
    obtain ⟨hresult, hwith⟩ := h.set ht hpermit hlocate hlen p.1 p.2
    rw [← perform_access hcoord'] at hresult hwith
    obtain ⟨hrest, hafter⟩ := ih hwith (by rw [Attribute.length_written, hlen])
    refine ⟨?_, hafter⟩
    rw [Op.oneByOne, List.map_cons, answers, List.forall_mem_cons, Attribute.AcceptsEach,
      List.forall_mem_cons, hresult]
    exact and_congr_right fun _ => hrest

theorem Sound.permitWrite_ok (h : f.Sound shape) (hs : schema ∈ f.schemas)
    (ha : attr ∈ schema.attributes) (hindex : index < f.count schema.id)
    (hopen : ¬ (attr.isConst = true ∧ f.isSealed schema.name index = .ok true)) :
    f.permitWrite ⟨schema.id, index, attr.id⟩ = .ok () := by
  simp only [isSealed_ok h hs, hindex, true_and] at hopen
  rw [h.permitWrite_eq hs ha, if_neg fun hsealed => hopen hsealed.symm]

/-- Writing values to chosen slots of an attribute that may be written succeeds if there are as many
values as slots, the slots are there, and of the values for a slot the last converts. It leaves what
writing them one after another leaves, where the values that do not convert are refused, or else
nothing changes. If all are taken one after another they are taken at once, and the other way round
if no slot is given twice. -/
theorem Reachable.chosen_slots_last_counts (h : f.Reachable) (hs : schema ∈ f.schemas)
    (ha : attr ∈ schema.attributes) (hfixed : attr.isList = false)
    (hindex : index < f.count schema.id)
    (hopen : ¬ (attr.isConst = true ∧ f.isSealed schema.name index = .ok true))
    (slots : List Nat) (vs : List Value) :
    ((perform (.chosen schema index attr slots vs) f).result = .ok .done ↔
      attr.Accepts slots vs) ∧
    ((perform (.chosen schema index attr slots vs) f).result = .ok .done →
      (perform (.chosen schema index attr slots vs) f).state =
        after perform (Op.oneByOne schema index attr (slots.zip vs)) f) ∧
    (∀ e, (perform (.chosen schema index attr slots vs) f).result = .error e →
      (perform (.chosen schema index attr slots vs) f).state = f) ∧
    ((∀ r ∈ answers perform (Op.oneByOne schema index attr (slots.zip vs)) f, r = .ok .done) ↔
      attr.AcceptsEach (slots.zip vs)) ∧
    (slots.length = vs.length →
      (∀ r ∈ answers perform (Op.oneByOne schema index attr (slots.zip vs)) f, r = .ok .done) →
      (perform (.chosen schema index attr slots vs) f).result = .ok .done) ∧
    (slots.Nodup → slots.length = vs.length →
      ((perform (.chosen schema index attr slots vs) f).result = .ok .done ↔
        ∀ r ∈ answers perform (Op.oneByOne schema index attr (slots.zip vs)) f, r = .ok .done)) := by
  obtain ⟨shape, hintact⟩ := h.intact
  have hsound := hintact.sound
  obtain ⟨ts, hts, hshape⟩ := hsound.shaped
  obtain ⟨t, ht, htable, rfl, hcount⟩ := hsound.table hts hshape hs
  have hcoord := hsound.coord_ok hs ha index
  have hpermit := hsound.permitWrite_ok hs ha hindex hopen
  have hlocate : t.locate ⟨t.schema.id, index, attr.id⟩ .fixed = .ok attr :=
    Schema.locate_ok.2 ⟨htable.schema.mem ha, hcount ▸ hindex, Attribute.shape_eq_fixed.2 hfixed⟩
  have hlen := (htable.length_cell hlocate).trans
    (Attribute.slotCount?_getD (Schema.locate_ok.1 hlocate).2.2)
  have hschema : f.schemas[t.schema.id]? = some t.schema := hsound.schemaAt_ok hs
  obtain ⟨hresult, hwith⟩ := With.setSlotsAt ht hpermit hts hschema hlocate slots vs
  obtain ⟨heach, hafter⟩ :=
    (With.refl hts ht).oneByOne ht hpermit hlocate hcoord (slots.zip vs) hlen
  rw [← perform_access hcoord] at hresult hwith
  refine ⟨hresult, fun hok => (hwith hok).unique hafter, fun e he => ?_, heach,
    fun hlength hall => ?_, fun hdistinct hlength => ?_⟩
  · exact (hintact.effect (.chosen t.schema index attr slots vs)).of_error he
  · exact hresult.2 (Attribute.accepts_of_each hlength (heach.1 hall))
  · rw [heach]
    exact hresult.trans ⟨(·.each hdistinct), Attribute.accepts_of_each hlength⟩

/-- A slot is given twice, the first time with a value that does not convert, and the slots are
not in order. -/
theorem chosen_slots_last_counts_twice : ∃ (f : Frame) (schema : Schema) (x : Attribute),
    f.Reachable ∧ f.schema "cell" = .ok schema ∧ schema.attribute? "x" = some x ∧
    (perform (.chosen schema 1 x [2, 0, 2]
      [.int ⟨true, .two⟩ 300, .int ⟨true, .two⟩ 7, .int ⟨true, .one⟩ 5]) f).result = .ok .done ∧
    answers perform (Op.oneByOne schema 1 x [(2, .int ⟨true, .two⟩ 300), (0, .int ⟨true, .two⟩ 7),
      (2, .int ⟨true, .one⟩ 5)]) f =
        [.error (.typeMismatch "cell" "x" .int8 (.int ⟨true, .two⟩ 300)), .ok .done, .ok .done] ∧
    (perform (.chosen schema 1 x [2, 0, 2]
      [.int ⟨true, .two⟩ 300, .int ⟨true, .two⟩ 7, .int ⟨true, .one⟩ 5]) f).state =
        after perform (Op.oneByOne schema 1 x [(2, .int ⟨true, .two⟩ 300),
          (0, .int ⟨true, .two⟩ 7), (2, .int ⟨true, .one⟩ 5)]) f ∧
    (Access.perform ⟨0, 1, 0⟩ .getSlots (after perform (Op.oneByOne schema 1 x
      [(2, .int ⟨true, .two⟩ 300), (0, .int ⟨true, .two⟩ 7), (2, .int ⟨true, .one⟩ 5)]) f)).result =
        .ok (.values [.int ⟨true, .one⟩ 7, .int ⟨true, .one⟩ 4, .int ⟨true, .one⟩ 5]) := by
  have hsteps : ∀ step ∈ [Builder.Step.declareWith "cell" [⟨"x", .int8, 3, false, false⟩] 2],
      step.Standard := by
    simp [Builder.Step.Standard]
  have hf : Reachable _ :=
    ⟨_, [.access "cell" 1 "x" (.set 1 (.int ⟨true, .one⟩ 4))], ⟨_, hsteps, rfl⟩, rfl⟩
  obtain ⟨-, hstate, -⟩ := hf.chosen_slots_last_counts List.mem_cons_self List.mem_cons_self rfl
    (show 1 < _ by decide) (by rintro ⟨⟨⟩, -⟩) [2, 0, 2]
    [.int ⟨true, .two⟩ 300, .int ⟨true, .two⟩ 7, .int ⟨true, .one⟩ 5]
  exact ⟨_, _, _, hf, rfl, rfl, rfl, rfl, hstate rfl, rfl⟩

/-- Values for slots are written though one of them does not convert, and writing it by itself
fails. -/
theorem chosen_slots_unchecked : ∃ (f : Frame) (schema : Schema) (x : Attribute) (v : Value),
    f.Reachable ∧ f.schema "cell" = .ok schema ∧ schema.attribute? "x" = some x ∧
    x.isList = false ∧ x.isConst = false ∧ 0 < f.count schema.id ∧ v = .int ⟨true, .two⟩ 300 ∧
    v.convert? x.type = none ∧
    (perform (.chosen schema 0 x [0, 0] [v, .int ⟨true, .one⟩ 5]) f).result = .ok .done ∧
    answers perform (Op.oneByOne schema 0 x [(0, v), (0, .int ⟨true, .one⟩ 5)]) f =
      [.error (.typeMismatch "cell" "x" .int8 v), .ok .done] := by
  have hsteps : ∀ step ∈ [Builder.Step.declareWith "cell" [⟨"x", .int8, 1, false, false⟩] 1],
      step.Standard := by
    simp [Builder.Step.Standard]
  exact ⟨_, _, _, _, ⟨_, [], ⟨_, hsteps, rfl⟩, rfl⟩, rfl, rfl, rfl, rfl, by decide, rfl, rfl, rfl,
    rfl⟩

end Frame

end NodeStore
