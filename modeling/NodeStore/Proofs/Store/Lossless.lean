import NodeStore.Proofs.Store.CaptureRestore
import NodeStore.Proofs.Store.Strict

/-!
# Nothing is lost

On the pools of stores in use every operation is its strict one, so none of the results that an
operation passes over is a failure, none of its fallbacks is taken, and every position in a flat
column is in the column and can be counted. It comes down to what a valid pool keeps of its columns
or fields: their number, shapes, types and lengths.

* `DensePool.Valid.lossless`, `LitePool.Valid.lossless`: each operation on valid pools.
* `DensePool.Valid.placed`: where the slots of an instance lie in a flat column.
* `Store.Reachable.nothing_lost`: the stores in use.
-/

namespace NodeStore

/-- The one does not fail, the other has a result, and it is the same. -/
def Except.Agrees {ε α : Type} (x : Except ε α) (y : Option α) : Prop :=
  ∃ a, x = .ok a ∧ y = some a

namespace Except.Agrees

variable {ε α β : Type}

protected theorem pure (a : α) : Agrees (.ok a : Except ε α) (some a) := ⟨a, rfl, rfl⟩

protected theorem bind {x : Except ε α} {y : Option α} {f : α → Except ε β} {g : α → Option β}
    (h : Agrees x y) (hfg : ∀ a, Agrees (f a) (g a)) : Agrees (x >>= f) (y >>= g) := by
  obtain ⟨a, rfl, rfl⟩ := h
  exact hfg a

protected theorem mapM {f : α → Except ε β} {g : α → Option β} {l : List α}
    (h : ∀ a ∈ l, Agrees (f a) (g a)) : Agrees (l.mapM f) (l.mapM g) := by
  induction l with
  | nil => exact .pure []
  | cons a l ih =>
    rw [List.mapM_cons, List.mapM_cons]
    exact (h a List.mem_cons_self).bind fun b =>
      (ih fun x hx => h x (List.mem_cons_of_mem _ hx)).bind fun bs => .pure (b :: bs)

/-- Folds along which an invariant holds. -/
protected theorem foldlM {f : β → α → Except ε β} {g : β → α → Option β} {l : List α}
    (Inv : β → Prop) (h : ∀ a ∈ l, ∀ b, Inv b → ∃ b', f b a = .ok b' ∧ g b a = some b' ∧ Inv b')
    {b : β} (hb : Inv b) : Agrees (l.foldlM f b) (l.foldlM g b) := by
  induction l generalizing b with
  | nil => exact .pure b
  | cons a l ih =>
    obtain ⟨b', hf, hg, hinv⟩ := h a List.mem_cons_self b hb
    rw [List.foldlM_cons, List.foldlM_cons, hf, hg]
    exact ih (fun x hx => h x (List.mem_cons_of_mem _ hx)) hinv

end Except.Agrees

/-- A strict operation has the pool. -/
abbrev Pool.Has {P : Type} (p : P) (p? : Option P) : Prop := p? = some p

/-- Nothing is passed over in the pool. A write ends with the pool that the strict one has, or with
its error and the pool as it was. -/
structure Pool.Lossless {P : Type} [Pool P] [StrictPool P] (p : P) : Prop where
  get : ∀ c slot, StrictPool.get p c slot = (Pool.get p c slot).map some
  set : ∀ c slot v, Action.Yields Pool.Has (Pool.set c slot v) p (StrictPool.set p c slot v)
  getSlots : ∀ c, StrictPool.getSlots p c = (Pool.getSlots p c).map some
  setSlots : ∀ c vs, Action.Yields Pool.Has (Pool.setSlots c vs) p (StrictPool.setSlots p c vs)
  listLength : ∀ c, StrictPool.listLength p c = (Pool.listLength p c).map some
  getList : ∀ c, StrictPool.getList p c = (Pool.getList p c).map some
  append : ∀ c v, Action.Yields Pool.Has (Pool.append c v) p (StrictPool.append p c v)
  setList : ∀ c vs, Action.Yields Pool.Has (Pool.setList c vs) p (StrictPool.setList p c vs)
  capture : Except.Agrees (Pool.capture p) (StrictPool.capture p)
  restore : ∀ image, Action.Yields Pool.Has (Pool.restore image) p (StrictPool.restore p image)

theorem Pool.Has.eq_of_ok {P : Type} {x : Action P Unit} {p : P} {y : Except FrameError (Option P)}
    (h : Action.Yields Pool.Has x p y) (hok : (x p).result = .ok ()) :
    y = .ok (some (x p).state) := by
  cases h with
  | done _ _ hstate => rw [hstate]
  | refused _ hresult => cases hok.symm.trans hresult

theorem counted?_eq {n : Nat} (h : n < sizeLimit) : counted? n = some n := if_pos h

/-! ## Columns and images -/

namespace Column

variable {c : Column} {v : Value} {vs : List Value} {i : Nat}

theorem setFrom?_eq (hi : i + vs.length ≤ c.size) (hv : ∀ v ∈ vs, v.type = c.type) :
    c.setFrom? i vs = some (c.setFrom i vs) := by
  induction vs generalizing c i with
  | nil => rfl
  | cons v vs ih =>
    rw [List.length_cons] at hi
    obtain ⟨d, hd, hty, hvals⟩ := values_set (c := c) (i := i) (by omega) (hv v (by simp))
    have hsize : d.size = c.size := by rw [← length_values, hvals, List.length_set, length_values]
    rw [setFrom?, setFrom, hd, Option.bind_some, Option.getD_some]
    refine ih (by omega) fun w hw => ?_
    rw [hty]
    exact hv w (List.mem_cons_of_mem _ hw)

theorem set?_eq (hi : i < c.size) (hv : v.type = c.type) :
    c.set? i v = some (c.setFrom i [v]) := by
  obtain ⟨d, hd, -⟩ := values_set hi hv
  rw [setFrom, setFrom, hd, Option.getD_some]

theorem push?_eq_push (hv : v.type = c.type) : c.push? v = some (c.push v) := by
  obtain ⟨d, hd, -⟩ := push?_eq hv
  rw [push, hd, Option.getD_some]

theorem foldlM_push? (hv : ∀ v ∈ vs, v.type = c.type) :
    vs.foldlM push? c = some (vs.foldl push c) := by
  induction vs generalizing c with
  | nil => rfl
  | cons v vs ih =>
    obtain ⟨d, hd, hty, -⟩ := push?_eq (c := c) (hv v (by simp))
    rw [List.foldlM_cons, List.foldl_cons, push, hd, Option.getD_some]
    refine ih fun w hw => ?_
    rw [hty]
    exact hv w (List.mem_cons_of_mem _ hw)

end Column

namespace ImageColumn

variable {c : ImageColumn} {ty : AttrType} {L : List (List Value)}

theorem Lists.foldlM_pushColumn? (h : c.Lists ty L) {ls : List Column}
    (hls : ∀ l ∈ ls, l.type = ty) :
    ls.foldlM pushColumn? c = some (ls.foldl (fun image l => (image.pushColumn l).2) c) := by
  induction ls generalizing c L with
  | nil => rfl
  | cons l ls ih =>
    obtain ⟨hfits, hlists⟩ := h.pushColumn (hls l (by simp))
    rw [List.foldlM_cons, List.foldl_cons, pushColumn?, if_pos hfits]
    exact ih hlists fun m hm => hls m (List.mem_cons_of_mem _ hm)

theorem Lists.pushValues?_eq (h : c.Lists ty L) {vs : List Value} (hvs : ∀ v ∈ vs, v.type = ty) :
    c.pushValues? vs = some (c.pushValues vs).2 := if_pos (h.pushValues hvs).1

theorem Holds.countedRange?_eq {attr : Attribute} {n i : Nat} (h : c.Holds attr n) (hi : i < n)
    (hn : attr.isList = false → n * attr.slots < sizeLimit) : c.countedRange? i = c.range? i := by
  cases c with
  | list offsets data => rfl
  | fixed slots data =>
    obtain ⟨hslots, -⟩ := fits_fixed.1 h.fits
    obtain ⟨hfixed, rfl⟩ := Attribute.slotCount?_eq_some.1 hslots
    have hstop : i * attr.slots + attr.slots ≤ n * attr.slots :=
      Nat.succ_mul .. ▸ Nat.mul_le_mul_right _ hi
    rw [countedRange?, counted?_eq (Nat.lt_of_le_of_lt hstop (hn hfixed))]
    rfl

end ImageColumn

/-- Positions in an image that passes the check can be counted if the schema's can. -/
theorem PoolImage.countedValues?_eq {image : PoolImage} {schema : Schema} {n i a : Nat}
    {attr : Attribute} (h : image.check schema n = .ok ()) (hn : schema.Allocable n) (hi : i < n)
    (ha : schema.attributes[a]? = some attr) :
    image.countedValues? i a = image.values? i a := by
  obtain ⟨c, hc, hholds, -⟩ := values?_of_check h hi ha
  have hrange := hholds.countedRange?_eq hi (hn attr (List.mem_of_getElem? ha))
  simp only [countedValues?, values?, column?, hc, Option.bind_eq_bind, Option.bind_some, hrange]

/-! ## Dense storage -/

namespace DenseColumn

variable {attr : Attribute} {n : Nat}

theorem Matches.captureStrict_eq {c : DenseColumn} (h : c.Matches attr n) :
    c.captureStrict attr = some (c.capture attr) := by
  cases c with
  | fixed slots data => rfl
  | lists ls => exact (ImageColumn.Lists.noLists attr.type).foldlM_pushColumn? h.2.2

theorem restore_agrees (schema : String) {column : ImageColumn} (h : column.Holds attr n) :
    Except.Agrees (restore schema n column) (restoreStrict n column) := by
  cases column with
  | fixed slots data => exact .pure _
  | list offsets data =>
    refine .bind (.mapM fun index hindex => ?_) fun ls => .pure (lists ls)
    have hindex := List.mem_range.1 hindex
    have hcut : data.slice? _ _ = _ := slice?_cut h.cuts hindex
    simp only [h.cuts.range? index hindex, Option.bind_eq_bind, Option.bind_some, hcut]
    exact .pure _

end DenseColumn

namespace DensePool

variable {p : DensePool} {c : Coord} {attr : Attribute} {slots : Nat} {data : Column}

/-- The slots of the instance are in a flat column of the attribute's type, and their positions can
be counted. -/
structure Placed (p : DensePool) (c : Coord) (attr : Attribute) (slots : Nat) (data : Column) :
    Prop where
  column : p.columns[c.attr]? = some (.fixed slots data)
  slotCount : attr.slotCount? = some slots
  typed : data.type = attr.type
  stop_le : c.index * slots + slots ≤ data.size
  size_lt : data.size < sizeLimit

theorem Valid.placed (h : p.Valid) {q : Nat × Column} (hq : p.HoldsFixed c q attr) :
    p.Placed c attr q.1 q.2 := by
  refine ⟨hq.column, hq.storing.1, hq.storing.2.1, hq.run_le, ?_⟩
  obtain ⟨hfixed, hslots⟩ := Attribute.slotCount?_eq_some.1 hq.storing.1
  rw [hq.storing.2.2, ← hslots]
  exact PoolLayout.allocable_of_ok h.layout attr (List.mem_of_getElem? hq.declared) hfixed

theorem Placed.flat? (h : p.Placed c attr slots data) : p.flat? c.attr = some (slots, data) := by
  rw [DensePool.flat?, h.column]

theorem Placed.position_lt (h : p.Placed c attr slots data) {slot : Nat}
    (hslot : p.schema.requireSlot attr slot = .ok ()) : c.index * slots + slot < data.size := by
  rw [Schema.requireSlot_ok, h.slotCount, Option.getD_some] at hslot
  have := h.stop_le
  omega

theorem Placed.counted_stop (h : p.Placed c attr slots data) :
    counted? (c.index * slots + slots) = some (c.index * slots + slots) :=
  counted?_eq (Nat.lt_of_le_of_lt h.stop_le h.size_lt)

theorem HoldsList.lists? {ls : List Column} {l : Column} (h : p.HoldsList c ls l attr) :
    p.lists? c.attr = some ls := by
  rw [DensePool.lists?, h.column]

theorem Valid.get_strict (h : p.Valid) (c : Coord) (slot : Nat) :
    StrictPool.get p c slot = (Pool.get p c slot).map some := by
  refine Except.Rel.eq_map (.attribute_place (h.fixedColumn_rel c) fun q attr hq =>
    .check _ fun _ hslot => ?_)
  have hp := h.placed hq
  have hlt := hp.position_lt hslot
  have hget : q.2.get? (c.index * q.1 + slot) = some _ :=
    (q.2.get?_eq _).trans (List.getElem?_eq_getElem (q.2.length_values ▸ hlt))
  simp only [hp.flat?, counted?_eq (hlt.trans hp.size_lt), Option.bind_eq_bind, Option.bind_some,
    hget]
  exact .ok rfl

theorem Valid.set_strict (h : p.Valid) (c : Coord) (slot : Nat) (v : Value) :
    Action.Yields Pool.Has (Pool.set c slot v) p (StrictPool.set p c slot v) := by
  refine .attribute_place (h.fixedColumn_rel c) rfl fun q attr hplace hq =>
    .check fun _ hslot => .check fun w hw => .pass hplace (.modify ?_)
  have hp := h.placed hq
  have hlt := hp.position_lt hslot
  have hset := Column.set?_eq hlt ((Schema.type_convert hw).trans hp.typed.symm)
  simp only [Pool.Has, hp.flat?, counted?_eq (hlt.trans hp.size_lt), Option.bind_eq_bind,
    Option.bind_some, hset]
  rfl

theorem Valid.getSlots_strict (h : p.Valid) (c : Coord) :
    StrictPool.getSlots p c = (Pool.getSlots p c).map some := by
  refine Except.Rel.eq_map (.bind (h.fixedColumn_rel c) fun q attr hq => ?_)
  have hp := h.placed hq
  have hrange := Column.range?_eq (Nat.le_add_right (c.index * q.1) q.1) hp.stop_le
  simp only [hp.flat?, hp.counted_stop, Option.bind_eq_bind, Option.bind_some, hrange]
  exact .ok rfl

theorem Valid.setSlots_strict (h : p.Valid) (c : Coord) (vs : List Value) :
    Action.Yields Pool.Has (Pool.setSlots c vs) p (StrictPool.setSlots p c vs) := by
  refine .attribute_place (h.fixedColumn_rel c) rfl fun q attr hplace hq =>
    .check fun _ hlen => .check fun ws hws => .pass hplace (.modify ?_)
  have hp := h.placed hq
  rw [Schema.requireSlotCount_ok, hp.slotCount, Option.getD_some] at hlen
  have hstop : c.index * q.1 + ws.length ≤ q.2.size := by
    rw [Schema.length_convertAll hws, hlen]
    exact hp.stop_le
  have hset := Column.setFrom?_eq hstop fun w hw =>
    (Schema.type_convertAll hws w hw).trans hp.typed.symm
  simp only [Pool.Has, hp.flat?, hp.counted_stop, Option.bind_eq_bind, Option.bind_some, hset]
  rfl

theorem Valid.listLength_strict (h : p.Valid) (c : Coord) :
    StrictPool.listLength p c = (Pool.listLength p c).map some := by
  refine Except.Rel.eq_map (.bind (h.listColumn_rel c) ?_)
  rintro l attr ⟨ls, hl⟩
  simp only [hl.lists?, hl.list, Option.bind_eq_bind, Option.bind_some]
  exact .ok rfl

theorem Valid.getList_strict (h : p.Valid) (c : Coord) :
    StrictPool.getList p c = (Pool.getList p c).map some := by
  refine Except.Rel.eq_map (.bind (h.listColumn_rel c) ?_)
  rintro l attr ⟨ls, hl⟩
  have hrange : l.range? 0 l.size = some l.values := by
    rw [Column.range?_eq (Nat.zero_le _) (Nat.le_refl _), List.drop_zero, Nat.sub_zero,
      ← Column.length_values, List.take_length]
  simp only [hl.lists?, hl.list, Option.bind_eq_bind, Option.bind_some, hrange]
  exact .ok rfl

theorem Valid.append_strict (h : p.Valid) (c : Coord) (v : Value) :
    Action.Yields Pool.Has (Pool.append c v) p (StrictPool.append p c v) := by
  refine .place_attribute (h.listColumn_rel c) rfl fun l attr hplace hl =>
    .check fun w hw => .pass hplace (.modify ?_)
  obtain ⟨ls, hl⟩ := hl
  have hpush := Column.push?_eq_push ((Schema.type_convert hw).trans hl.type.symm)
  simp only [Pool.Has, putList_eq hl.column, hl.lists?, hl.list, Option.bind_eq_bind,
    Option.bind_some, hpush]
  rfl

theorem Valid.setList_strict (h : p.Valid) (c : Coord) (vs : List Value) :
    Action.Yields Pool.Has (Pool.setList c vs) p (StrictPool.setList p c vs) := by
  refine .place_attribute (h.listColumn_rel c) rfl fun l attr hplace hl =>
    .check fun ws hws => .pass hplace (.modify ?_)
  obtain ⟨ls, hl⟩ := hl
  have hpush := Column.foldlM_push? (c := l.clear) fun w hw =>
    (Schema.type_convertAll hws w hw).trans hl.type.symm
  simp only [Pool.Has, putList_eq hl.column, hl.lists?, hl.list, Option.bind_eq_bind,
    Option.bind_some, hpush]
  rfl

theorem Valid.capture_strict (h : p.Valid) :
    Except.Agrees (Pool.capture p) (StrictPool.capture p) := by
  have hcolumns : Except.Agrees (ε := FrameError)
      (.ok ((p.columns.zip p.schema.attributes).map fun e => e.1.capture e.2))
      ((p.columns.zip p.schema.attributes).mapM fun e => e.1.captureStrict e.2) := by
    rw [← Except.mapM_eq_map fun _ _ => rfl]
    refine .mapM fun e he => ?_
    obtain ⟨a, ha⟩ := List.mem_iff_getElem?.1 he
    obtain ⟨hcol, hattr⟩ := List.getElem?_zip_eq_some.1 ha
    rw [(h.columns.at_pos hattr hcol).captureStrict_eq]
    exact .pure _
  exact hcolumns.bind fun columns => .pure (PoolImage.mk p.layout.count columns)

/-- What passes the check can be restored into any pool. -/
theorem restore_strict (p : DensePool) (image : PoolImage) :
    Action.Yields Pool.Has (Pool.restore image) p (StrictPool.restore p image) := by
  refine .check fun _ hcheck => ?_
  have hagrees : Except.Agrees
      (image.columns.mapM (DenseColumn.restore p.schema.name p.layout.count))
      (image.columns.mapM (DenseColumn.restoreStrict p.layout.count)) := by
    refine .mapM fun column hcolumn => ?_
    obtain ⟨a, ha⟩ := List.mem_iff_getElem?.1 hcolumn
    obtain ⟨attr, -, hholds⟩ := (PoolImage.check_ok.1 hcheck).2.exists_left ha
    exact DenseColumn.restore_agrees _ hholds
  obtain ⟨columns, hcolumns, hstrict⟩ := hagrees
  refine .pass hcolumns (.modify ?_)
  rw [Pool.Has, hstrict]
  rfl

theorem Valid.lossless (h : p.Valid) : Pool.Lossless p where
  get := h.get_strict
  set := h.set_strict
  getSlots := h.getSlots_strict
  setSlots := h.setSlots_strict
  listLength := h.listLength_strict
  getList := h.getList_strict
  append := h.append_strict
  setList := h.setList_strict
  capture := h.capture_strict
  restore := restore_strict p

end DensePool

/-! ## Record storage -/

namespace LitePool

variable {p : LitePool} {c : Coord} {attr : Attribute} {a : Nat} {vs : List Value}

theorem HoldsField.fixed? (h : p.HoldsField c (.fixed vs) attr) : p.fixed? c = some vs := by
  rw [LitePool.fixed?, h.field]

theorem HoldsField.list? (h : p.HoldsField c (.list vs) attr) : p.list? c = some vs := by
  rw [LitePool.list?, h.field]

theorem Valid.get_strict (h : p.Valid) (c : Coord) (slot : Nat) :
    StrictPool.get p c slot = (Pool.get p c slot).map some := by
  refine Except.Rel.eq_map (.place_attribute (h.fixed_rel c) ?_)
  rintro _ attr ⟨hf, rfl, hslots⟩
  refine .check _ fun _ hslot => ?_
  rw [Schema.requireSlot_ok, hslots, Option.getD_some] at hslot
  simp only [hf.fixed?, Option.bind_eq_bind, Option.bind_some, List.getElem?_eq_getElem hslot]
  exact .ok rfl

theorem Valid.set_strict (h : p.Valid) (c : Coord) (slot : Nat) (v : Value) :
    Action.Yields Pool.Has (Pool.set c slot v) p (StrictPool.set p c slot v) := by
  refine .place_attribute (h.fixed_rel c) rfl fun f attr hplace hf =>
    .check fun _ hslot => .check fun w _ => .pass hplace (.modify ?_)
  obtain ⟨hf, rfl, hslots⟩ := hf
  rw [Schema.requireSlot_ok, hslots, Option.getD_some] at hslot
  simp only [Pool.Has, hf.fixed?, Option.bind_eq_bind, Option.bind_some, hslot, ↓reduceIte]

theorem Valid.getSlots_strict (h : p.Valid) (c : Coord) :
    StrictPool.getSlots p c = (Pool.getSlots p c).map some := by
  refine Except.Rel.eq_map (.bind (h.fixed_rel c) ?_)
  rintro _ attr ⟨hf, rfl, -⟩
  exact .ok hf.fixed?

theorem Valid.setSlots_strict (h : p.Valid) (c : Coord) (vs : List Value) :
    Action.Yields Pool.Has (Pool.setSlots c vs) p (StrictPool.setSlots p c vs) := by
  refine .place_attribute (h.fixed_rel c) rfl fun f attr hplace hf =>
    .check fun _ _ => .check fun ws _ => .pass hplace (.modify ?_)
  obtain ⟨hf, rfl, -⟩ := hf
  rw [Pool.Has, hf.fixed?]
  rfl

theorem Valid.listLength_strict (h : p.Valid) (c : Coord) :
    StrictPool.listLength p c = (Pool.listLength p c).map some := by
  refine Except.Rel.eq_map (.bind (h.list_rel c) ?_)
  rintro _ attr ⟨hf, rfl, -⟩
  rw [hf.list?]
  exact .ok rfl

theorem Valid.getList_strict (h : p.Valid) (c : Coord) :
    StrictPool.getList p c = (Pool.getList p c).map some := by
  refine Except.Rel.eq_map (.bind (h.list_rel c) ?_)
  rintro _ attr ⟨hf, rfl, -⟩
  exact .ok hf.list?

theorem Valid.append_strict (h : p.Valid) (c : Coord) (v : Value) :
    Action.Yields Pool.Has (Pool.append c v) p (StrictPool.append p c v) := by
  refine .place_attribute (h.list_rel c) rfl fun f attr hplace hf =>
    .check fun w _ => .pass hplace (.modify ?_)
  obtain ⟨hf, rfl, -⟩ := hf
  rw [Pool.Has, hf.list?]
  rfl

theorem Valid.setList_strict (h : p.Valid) (c : Coord) (vs : List Value) :
    Action.Yields Pool.Has (Pool.setList c vs) p (StrictPool.setList p c vs) := by
  refine .place_attribute (h.list_rel c) rfl fun f attr hplace hf =>
    .check fun ws _ => .pass hplace (.modify ?_)
  obtain ⟨hf, rfl, -⟩ := hf
  rw [Pool.Has, hf.list?]
  rfl

theorem Valid.captureColumn_strict (h : p.Valid) (ha : p.schema.attributes[a]? = some attr)
    {l : AttrLayout} (hl : AttrLayout.ofAttribute p.schema.name p.layout.count attr = .ok l) :
    Except.Agrees (p.captureColumn (l, a)) (p.captureColumnStrict (l, a)) := by
  rcases AttrLayout.ofAttribute_ok.1 hl with ⟨hslots, rfl⟩ | ⟨slots, hslots, -, rfl⟩
  · refine .foldlM (fun image => ∃ L, image.Lists attr.type L) (fun r hr image hinv => ?_)
      ⟨[], .noLists attr.type⟩
    obtain ⟨f, hf, hm⟩ := (h.records r hr).exists_right ha
    obtain ⟨L, hL⟩ := hinv
    rw [hf, hm.eq_list (Attribute.slotCount?_eq_none.1 hslots)]
    exact ⟨_, rfl, hL.pushValues?_eq hm.type, _, (hL.pushValues hm.type).2⟩
  · refine .bind (.foldlM (fun data => data.type = attr.type) (fun r hr data ht => ?_) rfl)
      fun data => .pure (ImageColumn.fixed slots data)
    obtain ⟨f, hf, hm⟩ := (h.records r hr).exists_right ha
    have hvs : ∀ v ∈ f.values, v.type = data.type := fun v hv => (hm.type v hv).trans ht.symm
    rw [hf, (hm.eq_fixed hslots).1]
    exact ⟨_, rfl, Column.foldlM_push? hvs, (Column.foldl_push hvs).1.trans ht⟩

theorem Valid.capture_strict (h : p.Valid) :
    Except.Agrees (Pool.capture p) (StrictPool.capture p) := by
  refine .bind (.mapM fun e he => ?_) fun columns => .pure (PoolImage.mk p.records.length columns)
  have hl : p.layout.entries[e.2]? = some e.1 := by simpa using List.mem_zipIdx_iff_getElem?.1 he
  obtain ⟨attr, ha, hattr⟩ := (PoolLayout.ofSchema_ok.1 h.layout).2.exists_left hl
  exact h.captureColumn_strict ha hattr

theorem Valid.restore_strict (h : p.Valid) (image : PoolImage) :
    Action.Yields Pool.Has (Pool.restore image) p (StrictPool.restore p image) := by
  refine .check fun _ hcheck => ?_
  have hfits : p.schema.Allocable p.records.length :=
    h.count ▸ PoolLayout.allocable_of_ok h.layout
  have hagrees : Except.Agrees
      ((List.range p.records.length).mapM fun index =>
        p.schema.attributes.mapM (p.restoreField image index))
      ((List.range p.records.length).mapM fun index =>
        p.schema.attributes.mapM (restoreFieldStrict image index)) :=
    .mapM fun i hi => .mapM fun attr ha => by
      have hi := List.mem_range.1 hi
      have hattr := h.schema.mem ha
      obtain ⟨column, -, -, hvalues⟩ := PoolImage.values?_of_check hcheck hi hattr
      have hcounted := (PoolImage.countedValues?_eq hcheck hfits hi hattr).trans hvalues
      rw [restoreField, restoreFieldStrict, hvalues, hcounted]
      exact .pure _
  obtain ⟨records, hrecords, hstrict⟩ := hagrees
  refine .pass hrecords (.modify ?_)
  rw [Pool.Has, hstrict]
  rfl

theorem Valid.lossless (h : p.Valid) : Pool.Lossless p where
  get := h.get_strict
  set := h.set_strict
  getSlots := h.getSlots_strict
  setSlots := h.setSlots_strict
  listLength := h.listLength_strict
  getList := h.getList_strict
  append := h.append_strict
  setList := h.setList_strict
  capture := h.capture_strict
  restore := h.restore_strict

end LitePool

/-! ## Stores in use -/

theorem Pools.Models.valid {P : Type} [Pool P] [LawfulPool P] {ps : List P} {ts : List Table}
    (h : Models ps ts) {p : P} (hp : p ∈ ps) : LawfulPool.Valid p := by
  obtain ⟨i, hi⟩ := List.mem_iff_getElem?.1 hp
  obtain ⟨t, -, hvalid, -⟩ := List.Forall₂.exists_right h hi
  exact hvalid

namespace Store

/-- Nothing is passed over in any pool, and every slot of a flat column has its place there. -/
def Lossless : Store → Prop
  | dense ps => ∀ p ∈ ps, Pool.Lossless p ∧
      ∀ c attr, p.schema.locate p.layout.count c .fixed = .ok attr →
        ∃ slots data, p.Placed c attr slots data ∧
          ∀ slot, p.schema.requireSlot attr slot = .ok () →
            c.index * slots + slot < data.size
  | lite ps => ∀ p ∈ ps, Pool.Lossless p

/-- Whatever calls were made on a store, and however they ended, each operation on a pool of it is
the strict one: what it passes over are successes, and the errors and answers it falls back on are
never given. -/
theorem Reachable.nothing_lost {s : Store} (h : s.Reachable) : s.Lossless := by
  obtain ⟨ts, hts⟩ := h.models
  cases s with
  | dense ps =>
    intro p hp
    have hvalid : p.Valid := Pools.Models.valid hts hp
    refine ⟨hvalid.lossless, fun c attr hl => ?_⟩
    rcases (hvalid.fixedColumn_rel c).ok_or_error with ⟨q, attr', -, hl', hq⟩ | ⟨e, -, hl'⟩
    · obtain rfl := Except.ok.inj (hl.symm.trans hl')
      have hplaced := hvalid.placed hq
      exact ⟨q.1, q.2, hplaced, fun _ hslot => hplaced.position_lt hslot⟩
    · cases hl.symm.trans hl'
  | lite ps =>
    intro p hp
    have hvalid : p.Valid := Pools.Models.valid hts hp
    exact hvalid.lossless

/-- A list is captured under one strategy and restored under the other, where a slot was written
before; the strict operations read what is there. -/
theorem nothing_lost_moved : ∃ (p : DensePool) (q : LitePool) (image : PoolImage),
    (dense [p]).Reachable ∧ (lite [q]).Reachable ∧
    StrictPool.capture p = some image ∧ Pool.restore image q = ⟨.ok (), q, []⟩ ∧
    StrictPool.restore q image = .ok (some q) ∧
    StrictPool.getSlots p ⟨0, 1, 0⟩ = .ok (some [.int ⟨true, .one⟩ 0, .int ⟨true, .one⟩ 7]) ∧
    StrictPool.getList q ⟨0, 1, 1⟩ = .ok (some [.int ⟨true, .two⟩ 9]) ∧
    ∃ slots data, p.Placed ⟨0, 1, 0⟩ ⟨0, "x", .int8, 2, false, false⟩ slots data := by
  let schema : Schema :=
    ⟨0, "cell", [⟨0, "x", .int8, 2, false, false⟩, ⟨1, "log", .int16, 1, true, true⟩]⟩
  have hschema : schema.Declared :=
    .ofSpecs (show Schema.ofSpecs "cell"
      [⟨"x", .int8, 2, false, false⟩, ⟨"log", .int16, 1, true, true⟩] = .ok schema by rfl)
  have hcalls (call : Call) (hcall : call ∈ [.allocate schema 2,
      .set ⟨0, 1, 0⟩ 1 (.int ⟨true, .one⟩ 7), .append ⟨0, 1, 1⟩ (.int ⟨true, .two⟩ 9)]) :
      call.Declared := by
    simp only [List.mem_cons, List.not_mem_nil, or_false] at hcall
    rcases hcall with rfl | rfl | rfl
    · exact hschema
    · trivial
    · trivial
  let layout : PoolLayout := ⟨2, [⟨0, "x", .int8, .fixed 2 4⟩, ⟨1, "log", .int16, .list⟩]⟩
  let p : DensePool := ⟨schema, layout,
    [.fixed 2 ((Column.zeroed .int8 4).setFrom 3 [.int ⟨true, .one⟩ 7]),
      .lists [.empty .int16, (Column.empty .int16).push (.int ⟨true, .two⟩ 9)]]⟩
  let q : LitePool := ⟨schema, layout,
    [[.fixed [.int ⟨true, .one⟩ 0, .int ⟨true, .one⟩ 0], .list []],
      [.fixed [.int ⟨true, .one⟩ 0, .int ⟨true, .one⟩ 7], .list [.int ⟨true, .two⟩ 9]]]⟩
  have hp : Reachable (dense [p]) := ⟨.dense, _, hcalls, rfl⟩
  have hq : Reachable (lite [q]) := ⟨.lite, _, hcalls, rfl⟩
  obtain ⟨hstrict, hplaced⟩ := hp.nothing_lost p List.mem_cons_self
  have hstrict' := hq.nothing_lost q List.mem_cons_self
  obtain ⟨slots, data, hx, -⟩ := hplaced ⟨0, 1, 0⟩ ⟨0, "x", .int8, 2, false, false⟩ rfl
  obtain ⟨image, hcapture, himage⟩ := hstrict.capture
  obtain rfl : p.capture = image := Except.ok.inj hcapture
  have hrestore : Pool.restore p.capture q = ⟨.ok (), q, []⟩ := rfl
  have hresult : (Pool.restore p.capture q).result = .ok () := by rw [hrestore]
  have hrestored := Pool.Has.eq_of_ok (hstrict'.restore p.capture) hresult
  rw [hrestore] at hrestored
  exact ⟨p, q, p.capture, hp, hq, himage, hrestore, hrestored, (hstrict.getSlots _).trans rfl,
    (hstrict'.getList _).trans rfl, slots, data, hx⟩

end Store

end NodeStore
