import NodeStore.Proofs.Action
import NodeStore.Proofs.Store.Dense
import NodeStore.Proofs.Store.Lite
import NodeStore.Store.Basic

/-!
# Stores are lists of tables

`Store.Models s ts`: the pools of the store are valid and `ts` are their tables. Every operation on
the store does what its counterpart in `Tables` does to the tables, whichever strategy the store is
under: reads are equations, writes end as the calculation on the tables does and leave the store
alone if they fail (`Store.Models.get`, `Store.Models.set` and their like). So writes respect the
relation (`Store.set_models` and its like). From here on nothing depends on the strategy.
-/

namespace NodeStore

variable {α β : Type}

/-! ## Lists of tables -/

namespace Tables

/-- The table of a schema. -/
def pool (ts : List Table) (id : SchemaId) : Except FrameError Table :=
  match ts[id]? with
  | some t => .ok t
  | none => .error (noPool id)

/-- Looks something up in the table of a schema. -/
def look (f : Table → Except FrameError α) (id : SchemaId) (ts : List Table) :
    Except FrameError α := do
  f (← pool ts id)

/-- Replaces the table of a schema by a changed one. -/
def change (f : Table → Except FrameError Table) (id : SchemaId) (ts : List Table) :
    Except FrameError (List Table) := do
  let t ← pool ts id
  return ts.set id (← f t)

/-- Adds the table of a schema. -/
def allocate (schema : Schema) (count : Nat) (ts : List Table) : Except FrameError (List Table) :=
  if schema.id ≠ ts.length then
    .error (.invalidConfig (.allocationOrder schema.name schema.id ts.length))
  else do
    let _ ← PoolLayout.ofSchema schema count
    return ts ++ [.blank schema count]

end Tables

/-! ## Pool tables of one strategy -/

namespace Pools

/-- Putting back the pool of a schema. -/
theorem set_pool {P : Type} {ps : List P} {id : SchemaId} {p : P}
    (h : pool ps id = .ok p) : ps.set id p = ps := by
  unfold pool at h
  split at h
  · rename_i hp
    cases h
    obtain ⟨hlt, rfl⟩ := List.getElem?_eq_some_iff.1 hp
    exact List.set_getElem_self hlt
  · cases h

section
variable {P : Type} [Pool P] [LawfulPool P] {ps : List P} {ts : List Table} {S : α → β → Prop}

/-- The pools are valid and these are their tables. -/
def Models (ps : List P) (ts : List Table) : Prop :=
  List.Forall₂ (fun p t => LawfulPool.Valid p ∧ LawfulPool.table p = t) ps ts

/-- Pools have one list of tables. -/
theorem Models.unique {us : List Table} (h : Models ps ts) (h' : Models ps us) : ts = us := by
  induction h generalizing us with
  | nil =>
    cases h'
    rfl
  | cons hp _ ih =>
    cases h' with
    | cons hp' htail => rw [← hp.2, ← hp'.2, ih htail]

/-- Pools are made of their tables. -/
theorem Models.ext {qs : List P} (h : Models ps ts) (h' : Models qs ts) : ps = qs :=
  h.flip.right_ext h'.flip fun _ _ _ _ _ _ _ hp hq =>
    LawfulPool.ext hp.1 hq.1 (hp.2.trans hq.2.symm)

theorem Models.pool (h : Models ps ts) (id : SchemaId) :
    Except.Rel (fun p t => LawfulPool.Valid p ∧ LawfulPool.table p = t) (pool ps id)
      (Tables.pool ts id) := by
  unfold Pools.pool Tables.pool
  cases hp : ps[id]? with
  | none =>
    have ht : ts[id]? = none := by
      rw [List.getElem?_eq_none_iff, ← h.length_eq, ← List.getElem?_eq_none_iff]
      exact hp
    rw [ht]
    exact .error _
  | some p =>
    obtain ⟨t, ht, hpt⟩ := h.exists_right hp
    rw [ht]
    exact .ok hpt

/-- What is read off a pool of a schema. -/
theorem Models.map_getElem? (h : Models ps ts) {f : P → α} {g : Table → α}
    (hfg : ∀ p, LawfulPool.Valid p → f p = g (LawfulPool.table p)) (id : Nat) :
    ps[id]?.map f = ts[id]?.map g := by
  cases hp : ps[id]? with
  | none =>
    have ht : ts[id]? = none := by
      rw [List.getElem?_eq_none_iff, ← h.length_eq, ← List.getElem?_eq_none_iff]
      exact hp
    rw [ht]
    rfl
  | some p =>
    obtain ⟨t, ht, hv, rfl⟩ := h.exists_right hp
    rw [ht]
    exact congrArg some (hfg p hv)

theorem Models.look (h : Models ps ts) {f : P → Except FrameError α}
    {g : Table → Except FrameError β}
    (hfg : ∀ p, LawfulPool.Valid p → Except.Rel S (f p) (g (LawfulPool.table p))) (id : SchemaId) :
    Except.Rel S (do f (← Pools.pool ps id)) (Tables.look g id ts) := by
  refine (h.pool id).bind ?_
  rintro p _ ⟨hp, rfl⟩
  exact hfg p hp

theorem change_yields (h : Models ps ts) {x : Action P Unit} {g : Table → Except FrameError Table}
    (hxg : ∀ p, LawfulPool.Valid p →
      Action.Yields (fun q t => LawfulPool.Valid q ∧ LawfulPool.table q = t) x p
        (g (LawfulPool.table p))) (id : SchemaId) :
    Action.Yields Models (change id x) ps (Tables.change g id ts) := by
  rcases (h.pool id).ok_or_error with ⟨p, t, hp, ht, hvalid, rfl⟩ | ⟨e, hp, ht⟩
  · rw [Tables.change, ht]
    refine .pass hp ?_
    have hyields := hxg p hvalid
    rw [Except.ok_bind]
    revert hyields
    generalize g (LawfulPool.table p) = y
    intro hyields
    cases hyields with
    | done u hresult hstate => exact .done _ hresult (List.Forall₂.set h id hstate)
    | refused e hresult hstate =>
      refine .refused e hresult ?_
      rw [Action.on_apply, hstate]
      exact set_pool hp
  · rw [Tables.change, ht]
    exact .refuse hp

theorem allocate_models {schema : Schema} (hs : schema.WellFormed) (count : Nat) :
    Action.Respects (Models (P := P)) Eq (allocate schema count)
      (Action.update (Tables.allocate schema count)) := by
  intro ps ts h
  have hlen : ps.length = ts.length := h.length_eq
  unfold allocate Tables.allocate
  rw [Action.bind_apply, Action.get_apply, Action.update_apply]
  by_cases hid : schema.id = ts.length
  · simp only [hlen, hid, ne_eq, not_true_eq_false, ↓reduceIte]
    cases hl : PoolLayout.ofSchema schema count with
    | error e => exact ⟨.error e, h⟩
    | ok layout =>
      obtain ⟨hv, ht⟩ := LawfulPool.allocate (P := P) hs hl
      exact ⟨.ok rfl, List.rel_append h (.cons ⟨hv, ht⟩ .nil)⟩
  · simp only [hlen, hid, ne_eq, not_false_eq_true, ↓reduceIte]
    exact ⟨.error _, h⟩

theorem reset_models (id : SchemaId) :
    Action.Respects (Models (P := P)) Eq (reset id)
      (Action.update (Tables.change (fun t => .ok t.reset) id)) :=
  Action.Respects.of_yields fun _ _ h => change_yields h (fun _ => LawfulPool.reset) id

theorem memory_eq (h : Models ps ts) : memory ps = (ts.map Table.memory).sum := by
  unfold memory
  congr 1
  induction h with
  | nil => rfl
  | cons hpt _ ih =>
    obtain ⟨hp, rfl⟩ := hpt
    rw [List.map_cons, List.map_cons, LawfulPool.memory hp, ih]

end

end Pools

namespace Tables

variable {ts : List Table} {id : Nat}

theorem pool_ok {t : Table} : pool ts id = .ok t ↔ ts[id]? = some t := by
  unfold pool
  cases ts[id]? <;> simp

theorem change_ok {f : Table → Except FrameError Table} {us : List Table} :
    change f id ts = .ok us ↔ ∃ t u, ts[id]? = some t ∧ f t = .ok u ∧ us = ts.set id u := by
  unfold change
  rw [Except.bind_ok]
  simp only [Except.bind_ok, pool_ok]
  constructor
  · rintro ⟨t, ht, u, hu, hus⟩
    cases hus
    exact ⟨t, u, ht, hu, rfl⟩
  · rintro ⟨t, u, ht, hu, rfl⟩
    exact ⟨t, ht, u, hu, rfl⟩

/-- Resetting tables of some numbers, each of which there is. -/
theorem forM_reset (ts : List Table) (ids : List Nat) (hids : ∀ id ∈ ids, id < ts.length) :
    ∃ us,
      (ids.forM fun id => Action.update (change (fun t => .ok t.reset) id)) ts = ⟨.ok (), us, []⟩ ∧
      ∀ j : Nat, us[j]? = if j ∈ ids then ts[j]?.map Table.reset else ts[j]? := by
  induction ids generalizing ts with
  | nil => exact ⟨ts, rfl, by simp⟩
  | cons id ids ih =>
    have hid : id < ts.length := hids id List.mem_cons_self
    have hids' : ∀ j ∈ ids, j < (ts.set id ts[id].reset).length := fun j hj => by
      rw [List.length_set]
      exact hids j (List.mem_cons_of_mem _ hj)
    obtain ⟨us, hus, hget⟩ := ih _ hids'
    have hchange : change (fun t => .ok t.reset) id ts = .ok (ts.set id ts[id].reset) :=
      change_ok.2 ⟨_, _, List.getElem?_eq_getElem hid, rfl, rfl⟩
    refine ⟨us, ?_, fun j => ?_⟩
    · show (Action.update (change (fun t => .ok t.reset) id) >>= fun _ => ids.forM _) ts = _
      rw [Action.bind_apply, Action.update_apply, hchange]
      simp only [hus, List.nil_append]
    · rw [hget]
      by_cases hj : j = id
      · subst hj
        rw [List.getElem?_set_self hid, List.getElem?_eq_getElem hid]
        simp [Table.reset, Table.blank]
      · rw [List.getElem?_set_ne (Ne.symm hj)]
        simp [hj]

end Tables

namespace Pools

variable {P : Type} [Pool P] [LawfulPool P]

theorem resetAll_models :
    Action.Respects (Models (P := P)) Eq resetAll (Action.modify (List.map Table.reset)) := by
  intro ps ts h
  obtain ⟨us, hus, hget⟩ := Tables.forM_reset ts (List.range ts.length) fun id hid =>
    List.mem_range.1 hid
  have hmap : us = ts.map Table.reset := by
    apply List.ext_getElem?
    intro j
    rw [hget, List.getElem?_map]
    split
    · rfl
    · rename_i hj
      rw [List.getElem?_eq_none (by simpa using hj)]
      rfl
  have hforM : Action.Respects (Models (P := P)) Eq ((List.range ts.length).forM reset)
      ((List.range ts.length).forM fun id =>
        Action.update (Tables.change (fun t => .ok t.reset) id)) :=
    .forM (List.forall₂_same.2 fun id _ => reset_models id)
  obtain ⟨hres, hst⟩ := hforM ps ts h
  rw [hus] at hres hst
  unfold resetAll
  rw [Action.bind_apply, Action.get_apply]
  simp only [h.length_eq]
  refine ⟨hres, ?_⟩
  rw [Action.modify_apply, ← hmap]
  exact hst

end Pools

/-! ## Stores -/

namespace Store

/-- The pools of the store are valid and these are their tables. -/
def Models : Store → List Table → Prop
  | dense ps, ts => Pools.Models ps ts
  | lite ps, ts => Pools.Models ps ts

variable {s : Store} {ts : List Table} {S : α → β → Prop}

theorem new_models (k : Kind) : (new k).Models [] := by
  cases k <;> exact .nil

/-- A look at the pool table, whatever the strategy. -/
theorem Models.view {f : {P : Type} → [Pool P] → List P → α} {R : α → β → Prop} {b : β}
    (h : s.Models ts)
    (hf : ∀ {P : Type} [Pool P] [LawfulPool P] (ps : List P), Pools.Models ps ts → R (f ps) b) :
    R (s.view f) b := by
  cases s with
  | dense ps => exact hf ps h
  | lite ps => exact hf ps h

/-- An action on the pool table, whatever the strategy. -/
theorem act_models {x : {P : Type} → [Pool P] → Action (List P) α} {y : Action (List Table) β}
    (h : ∀ {P : Type} [Pool P] [LawfulPool P], Action.Respects (Pools.Models (P := P)) S x y) :
    Action.Respects Models S (act x) y := by
  intro s ts hs
  cases s with
  | dense ps => exact h ps ts hs
  | lite ps => exact h ps ts hs

/-- A change of the pool table, whatever the strategy. -/
theorem Models.act_yields (h : s.Models ts) {x : {P : Type} → [Pool P] → Action (List P) Unit}
    {y : Except FrameError (List Table)}
    (hxy : ∀ {P : Type} [Pool P] [LawfulPool P] (ps : List P), Pools.Models ps ts →
      Action.Yields Pools.Models x ps y) : Action.Yields Models (act x) s y := by
  cases s with
  | dense ps =>
    cases hxy ps h with
    | done us hresult hstate => exact .done us hresult hstate
    | refused e hresult hstate => exact .refused e hresult (congrArg dense hstate)
  | lite ps =>
    cases hxy ps h with
    | done us hresult hstate => exact .done us hresult hstate
    | refused e hresult hstate => exact .refused e hresult (congrArg lite hstate)

/-- An action on the pool table leaves the strategy. -/
theorem kind_act (x : {P : Type} → [Pool P] → Action (List P) α) (s : Store) :
    (act x s).state.kind = s.kind := by
  cases s <;> rfl

/-- A store has one list of tables. -/
theorem Models.unique {us : List Table} (h : s.Models ts) (h' : s.Models us) : ts = us := by
  cases s with
  | dense ps => exact Pools.Models.unique h h'
  | lite ps => exact Pools.Models.unique h h'

/-- Strategy and tables make the store. -/
theorem Models.ext {s' : Store} (hk : s.kind = s'.kind) (h : s.Models ts) (h' : s'.Models ts) :
    s = s' := by
  cases s with
  | dense ps =>
    cases s' with
    | dense qs => exact congrArg dense (Pools.Models.ext h h')
    | lite qs => cases hk
  | lite ps =>
    cases s' with
    | dense qs => cases hk
    | lite qs => exact congrArg lite (Pools.Models.ext h h')

/-! ### Reading -/

theorem Models.size_eq (h : s.Models ts) : s.size = ts.length :=
  h.view (R := Eq) fun _ hps => hps.length_eq

theorem Models.count?_eq (h : s.Models ts) (id : SchemaId) :
    s.count? id = ts[id]?.map Table.count :=
  h.view (R := Eq) fun _ hps => hps.map_getElem? (fun _ => LawfulPool.count) id

theorem Models.memory_eq (h : s.Models ts) : s.memory = (ts.map Table.memory).sum :=
  h.view (R := Eq) fun _ hps => Pools.memory_eq hps

theorem Models.sound (h : s.Models ts) : ∀ t ∈ ts, t.Sound := by
  refine h.view (R := fun _ (_ : Unit) => ∀ t ∈ ts, t.Sound) (f := fun _ => ()) (b := ()) ?_
  intro P _ _ ps hps t ht
  obtain ⟨i, hi⟩ := List.mem_iff_getElem?.1 ht
  obtain ⟨p, -, hp, rfl⟩ := hps.exists_left hi
  exact LawfulPool.sound hp

theorem Models.get (h : s.Models ts) (c : Coord) (slot : Nat) :
    s.get c slot = Tables.look (·.get c slot) c.schema ts :=
  (h.view (R := Except.Rel Eq) fun _ hps =>
    hps.look (fun _ hp => .of_eq (fun _ => rfl) (LawfulPool.get c slot hp)) c.schema).eq

theorem Models.getSlots (h : s.Models ts) (c : Coord) :
    s.getSlots c = Tables.look (·.getSlots c) c.schema ts :=
  (h.view (R := Except.Rel Eq) fun _ hps =>
    hps.look (fun _ hp => .of_eq (fun _ => rfl) (LawfulPool.getSlots c hp)) c.schema).eq

theorem Models.listLength (h : s.Models ts) (c : Coord) :
    s.listLength c = Tables.look (·.listLength c) c.schema ts :=
  (h.view (R := Except.Rel Eq) fun _ hps =>
    hps.look (fun _ hp => .of_eq (fun _ => rfl) (LawfulPool.listLength c hp)) c.schema).eq

theorem Models.getList (h : s.Models ts) (c : Coord) :
    s.getList c = Tables.look (·.getList c) c.schema ts :=
  (h.view (R := Except.Rel Eq) fun _ hps =>
    hps.look (fun _ hp => .of_eq (fun _ => rfl) (LawfulPool.getList c hp)) c.schema).eq

theorem Models.capture (h : s.Models ts) (id : SchemaId) :
    Except.Rel PoolImage.Shows (s.capture id) (Tables.pool ts id) := by
  have hpool : Tables.pool ts id = Tables.look .ok id ts := by
    unfold Tables.look
    cases Tables.pool ts id <;> rfl
  rw [hpool]
  refine h.view (R := Except.Rel PoolImage.Shows) fun _ hps => hps.look (fun p hp => ?_) id
  obtain ⟨image, himage, hshows⟩ := LawfulPool.capture hp
  rw [himage]
  exact .ok hshows

/-! ### Writing -/

theorem allocate_models {schema : Schema} (hs : schema.WellFormed) (count : Nat) :
    Action.Respects Models Eq (allocate schema count)
      (Action.update (Tables.allocate schema count)) :=
  act_models (Pools.allocate_models hs count)

protected theorem Models.set (h : s.Models ts) (c : Coord) (slot : Nat) (v : Value) :
    Action.Yields Models (set c slot v) s (Tables.change (·.set c slot v) c.schema ts) :=
  h.act_yields fun _ hps => Pools.change_yields hps (fun _ => LawfulPool.set c slot v) c.schema

protected theorem Models.setSlots (h : s.Models ts) (c : Coord) (vs : List Value) :
    Action.Yields Models (setSlots c vs) s (Tables.change (·.setSlots c vs) c.schema ts) :=
  h.act_yields fun _ hps => Pools.change_yields hps (fun _ => LawfulPool.setSlots c vs) c.schema

protected theorem Models.append (h : s.Models ts) (c : Coord) (v : Value) :
    Action.Yields Models (append c v) s (Tables.change (·.append c v) c.schema ts) :=
  h.act_yields fun _ hps => Pools.change_yields hps (fun _ => LawfulPool.append c v) c.schema

protected theorem Models.setList (h : s.Models ts) (c : Coord) (vs : List Value) :
    Action.Yields Models (setList c vs) s (Tables.change (·.setList c vs) c.schema ts) :=
  h.act_yields fun _ hps => Pools.change_yields hps (fun _ => LawfulPool.setList c vs) c.schema

protected theorem Models.restore (h : s.Models ts) (id : SchemaId) (image : PoolImage) :
    Action.Yields Models (restore id image) s (Tables.change (·.restore image) id ts) :=
  h.act_yields fun _ hps => Pools.change_yields hps (fun _ => LawfulPool.restore image) id

theorem set_models (c : Coord) (slot : Nat) (v : Value) :
    Action.Respects Models Eq (set c slot v)
      (Action.update (Tables.change (·.set c slot v) c.schema)) :=
  .of_yields fun _ _ h => h.set c slot v

theorem setSlots_models (c : Coord) (vs : List Value) :
    Action.Respects Models Eq (setSlots c vs)
      (Action.update (Tables.change (·.setSlots c vs) c.schema)) :=
  .of_yields fun _ _ h => h.setSlots c vs

theorem append_models (c : Coord) (v : Value) :
    Action.Respects Models Eq (append c v)
      (Action.update (Tables.change (·.append c v) c.schema)) :=
  .of_yields fun _ _ h => h.append c v

theorem setList_models (c : Coord) (vs : List Value) :
    Action.Respects Models Eq (setList c vs)
      (Action.update (Tables.change (·.setList c vs) c.schema)) :=
  .of_yields fun _ _ h => h.setList c vs

theorem reset_models (id : SchemaId) :
    Action.Respects Models Eq (reset id)
      (Action.update (Tables.change (fun t => .ok t.reset) id)) :=
  act_models (Pools.reset_models id)

theorem resetAll_models :
    Action.Respects Models Eq resetAll (Action.modify (List.map Table.reset)) :=
  act_models Pools.resetAll_models

theorem restore_models (id : SchemaId) (image : PoolImage) :
    Action.Respects Models Eq (restore id image)
      (Action.update (Tables.change (·.restore image) id)) :=
  .of_yields fun _ _ h => h.restore id image

/-- A store whose pool of one schema was changed. -/
theorem Models.changed {x : Action Store Unit} {id : Nat}
    {g : Table → Except FrameError Table} (hs : s.Models ts)
    (hx : Action.Respects Models Eq x (Action.update (Tables.change g id)))
    (hok : (x s).result = .ok ()) :
    ∃ t u, ts[id]? = some t ∧ g t = .ok u ∧ (x s).state.Models (ts.set id u) := by
  obtain ⟨hres, hst⟩ := hx s ts hs
  rw [hok, Action.update_apply] at hres
  rw [Action.update_apply] at hst
  cases hchange : Tables.change g id ts with
  | error e =>
    rw [hchange] at hres
    cases hres
  | ok us =>
    rw [hchange] at hst
    obtain ⟨t, u, ht, hu, rfl⟩ := Tables.change_ok.1 hchange
    exact ⟨t, u, ht, hu, hst⟩

end Store

end NodeStore
