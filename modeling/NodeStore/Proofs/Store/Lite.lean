import NodeStore.Proofs.LawfulPool
import NodeStore.Proofs.Layout
import NodeStore.Proofs.ListColumn
import NodeStore.Store.Lite

/-!
# Record pools are tables

The cell of an instance and an attribute is the field there. `Field.Matches` is what every field of
a pool keeps: the shape its attribute has, and as many values of the declared type as it asks for.
The pool finds a field exactly when the table finds the attribute (`LitePool.Valid.field_rel`).

A capture goes the other way round than the records lie, attribute by attribute; its columns are put
together of the fields at one position of every record (`LitePool.Valid.capture_shows`).
-/

namespace NodeStore

/-! ## Fields -/

namespace Field

/-- The values, whatever the shape. -/
def values : Field → List Value
  | fixed vs => vs
  | list vs => vs

/-- The field holds values of an attribute. -/
def Matches (attr : Attribute) : Field → Prop
  | fixed vs => attr.slotCount? = some vs.length ∧ ∀ v ∈ vs, v.type = attr.type
  | list vs => attr.isList = true ∧ ∀ v ∈ vs, v.type = attr.type

variable {attr : Attribute} {f : Field}

theorem size_eq (f : Field) : f.size = f.values.length := by
  cases f <;> rfl

theorem Matches.type (h : f.Matches attr) : ∀ v ∈ f.values, v.type = attr.type := by
  cases f with
  | fixed vs => exact h.2
  | list vs => exact h.2

theorem Matches.eq_fixed (h : f.Matches attr) {n : Nat} (hn : attr.slotCount? = some n) :
    f = .fixed f.values ∧ f.values.length = n := by
  cases f with
  | fixed vs =>
    have hlen := h.1
    rw [hn] at hlen
    exact ⟨rfl, (Option.some.inj hlen).symm⟩
  | list vs =>
    rw [Attribute.slotCount?_eq_none.2 h.1] at hn
    cases hn

theorem Matches.eq_list (h : f.Matches attr) (hl : attr.isList = true) : f = .list f.values := by
  cases f with
  | fixed vs =>
    have hs := h.1
    rw [Attribute.slotCount?_eq_none.2 hl] at hs
    cases hs
  | list vs => rfl

/-- A field is made of its values. -/
theorem Matches.ext {g : Field} (hf : f.Matches attr) (hg : g.Matches attr)
    (h : f.values = g.values) : f = g := by
  cases hlist : attr.isList with
  | true => rw [hf.eq_list hlist, hg.eq_list hlist, h]
  | false =>
    have hs := Attribute.slotCount?_eq_some.2 ⟨hlist, rfl⟩
    rw [(hf.eq_fixed hs).1, (hg.eq_fixed hs).1, h]

theorem blank_matches {schema : String} {n : Nat} {l : AttrLayout}
    (h : AttrLayout.ofAttribute schema n attr = .ok l) :
    (blank l).Matches attr ∧ (blank l).values = Table.initial attr := by
  rcases AttrLayout.ofAttribute_ok.1 h with ⟨hs, rfl⟩ | ⟨slots, hs, -, rfl⟩
  · refine ⟨⟨Attribute.slotCount?_eq_none.1 hs, by simp⟩, ?_⟩
    simp [blank, values, Table.initial, hs]
  · refine ⟨⟨by simp [hs], fun v hv => ?_⟩, ?_⟩
    · rw [List.eq_of_mem_replicate hv]
      rfl
    · simp [blank, values, Table.initial, hs]

end Field

namespace LitePool

/-- Every field of every record holds values of its attribute, and the layout is the one that was
accepted for the schema. -/
structure Valid (p : LitePool) : Prop where
  schema : p.schema.WellFormed
  layout : PoolLayout.ofSchema p.schema p.layout.count = .ok p.layout
  count : p.records.length = p.layout.count
  records : ∀ r ∈ p.records, List.Forall₂ Field.Matches p.schema.attributes r

/-- The table of the fields' values. -/
def table (p : LitePool) : Table where
  schema := p.schema
  count := p.layout.count
  cells i a := ((p.records[i]?.bind (·[a]?)).map Field.values).getD []

variable {p : LitePool} {c : Coord} {attr : Attribute} {i a : Nat} {f : Field}

theorem cells_eq (h : p.records[i]?.bind (·[a]?) = some f) : p.table.cells i a = f.values := by
  show ((p.records[i]?.bind (·[a]?)).map Field.values).getD [] = f.values
  rw [h]
  rfl

theorem Valid.exists_field (h : p.Valid) (hi : i < p.layout.count)
    (ha : p.schema.attributes[a]? = some attr) :
    ∃ f, p.records[i]?.bind (·[a]?) = some f ∧ f.Matches attr ∧ p.table.cells i a = f.values := by
  have hi' : i < p.records.length := by rw [h.count]; exact hi
  obtain ⟨f, hf, hm⟩ := (h.records _ (List.getElem_mem hi')).exists_right ha
  have hget : p.records[i]?.bind (·[a]?) = some f := by
    rw [List.getElem?_eq_getElem hi']
    exact hf
  exact ⟨f, hget, hm, cells_eq hget⟩

theorem Valid.sound (h : p.Valid) : p.table.Sound where
  schema := h.schema
  slots i a attr n hi ha hn := by
    obtain ⟨f, -, hm, hcell⟩ := h.exists_field hi ha
    rw [hcell]
    exact (hm.eq_fixed hn).2
  typed i a attr ha v hv := by
    by_cases hi : i < p.layout.count
    · obtain ⟨f, -, hm, hcell⟩ := h.exists_field hi ha
      rw [hcell] at hv
      exact hm.type v hv
    · have hi' : p.records.length ≤ i := by rw [h.count]; omega
      simp [table, List.getElem?_eq_none hi'] at hv
  outside i a hia := by
    cases hr : p.records[i]? with
    | none => simp [table, hr]
    | some r =>
      have hi : i < p.layout.count := by
        rw [← h.count]
        exact (List.getElem?_eq_some_iff.1 hr).1
      have ha : r.length ≤ a := by
        rw [← (h.records r (List.mem_of_getElem? hr)).length_eq]
        exact Nat.le_of_not_lt fun ha => hia ⟨hi, ha⟩
      simp [table, hr, List.getElem?_eq_none ha]

/-- A pool is made of its table. -/
theorem Valid.ext {q : LitePool} (hp : p.Valid) (hq : q.Valid) (h : p.table = q.table) :
    p = q := by
  have hs : p.schema = q.schema := congrArg Table.schema h
  have hn : p.layout.count = q.layout.count := congrArg Table.count h
  have hlayout : p.layout = q.layout := by
    have hl := hp.layout
    rw [hs, hn, hq.layout] at hl
    exact (Except.ok.inj hl).symm
  have hlen : p.records.length = q.records.length := by rw [hp.count, hq.count, hn]
  have hrecords : p.records = q.records := by
    refine List.ext_getElem hlen fun i hi hi' => ?_
    have hr' := hq.records _ (List.getElem_mem hi')
    rw [← hs] at hr'
    refine (hp.records _ (List.getElem_mem hi)).right_ext hr' fun a attr f g _ hf hg hfm hgm => ?_
    have hfield : p.records[i]?.bind (·[a]?) = some f := by rwa [List.getElem?_eq_getElem hi]
    have hfield' : q.records[i]?.bind (·[a]?) = some g := by rwa [List.getElem?_eq_getElem hi']
    exact hfm.ext hgm (by rw [← cells_eq hfield, h, cells_eq hfield'])
  obtain ⟨schema, layout, records⟩ := p
  obtain ⟨schema', layout', records'⟩ := q
  cases hs
  cases hlayout
  cases hrecords
  rfl

/-- A pool whose fields hold values of their attributes and read as a table does. -/
theorem valid_of_records {t : Table} (hs : p.schema = t.schema) (hn : p.layout.count = t.count)
    (hwf : t.schema.WellFormed) (hl : PoolLayout.ofSchema t.schema t.count = .ok p.layout)
    (ht : t.Bounded) (hcount : p.records.length = t.count)
    (hrecords : ∀ (i : Nat) r, p.records[i]? = some r →
      List.Forall₂ Field.Matches t.schema.attributes r ∧
        ∀ (a : Nat) attr f, t.schema.attributes[a]? = some attr → r[a]? = some f →
          f.values = t.cells i a) : p.Valid ∧ p.table = t := by
  have hv : p.Valid := by
    refine ⟨by rwa [hs], by rw [hs, hn]; exact hl, by rw [hn]; exact hcount, ?_⟩
    intro r hr
    obtain ⟨i, hi⟩ := List.mem_iff_getElem?.1 hr
    rw [hs]
    exact (hrecords i r hi).1
  refine ⟨hv, hv.sound.outside.ext ht hs hn fun i hi a ha => ?_⟩
  have hattr : p.schema.attributes[a]? = some t.schema.attributes[a] := by
    rw [hs]
    exact List.getElem?_eq_getElem ha
  obtain ⟨f, hf, -, hcell⟩ := hv.exists_field (by rw [hn]; exact hi) hattr
  obtain ⟨r, hr, hf⟩ := Option.bind_eq_some_iff.1 hf
  rw [hcell]
  rw [hs] at hattr
  exact (hrecords i r hr).2 a _ f hattr hf

theorem blank_records {schema : Schema} {n : Nat} {layout : PoolLayout}
    (hl : PoolLayout.ofSchema schema n = .ok layout) {r : Record} (hr : r = Record.blank layout)
    (hi : i < n) : List.Forall₂ Field.Matches schema.attributes r ∧
      ∀ (a : Nat) attr f, schema.attributes[a]? = some attr → r[a]? = some f →
        f.values = (Table.blank schema n).cells i a := by
  subst hr
  obtain ⟨-, hentries⟩ := PoolLayout.ofSchema_ok.1 hl
  refine ⟨List.forall₂_map_right_iff.2 (hentries.imp fun _ _ h => (Field.blank_matches h).1), ?_⟩
  intro a attr f ha hf
  rw [Record.blank, List.getElem?_map] at hf
  obtain ⟨l, hl, rfl⟩ := Option.map_eq_some_iff.1 hf
  rw [(Field.blank_matches (hentries.at_pos ha hl)).2, Table.cells_blank hi ha]

theorem allocate_valid {schema : Schema} {n : Nat} {layout : PoolLayout} (hwf : schema.WellFormed)
    (hl : PoolLayout.ofSchema schema n = .ok layout) :
    (allocate schema layout).Valid ∧ (allocate schema layout).table = .blank schema n := by
  obtain ⟨rfl, -⟩ := PoolLayout.ofSchema_ok.1 hl
  refine valid_of_records rfl rfl hwf hl (Table.blank_bounded _ _) (by simp [allocate, Table.blank])
    fun i r hr => ?_
  rw [allocate, List.getElem?_replicate] at hr
  split at hr
  · rename_i hi
    exact blank_records hl (Option.some.inj hr).symm hi
  · cases hr

/-- The pool is valid and this is its table. -/
abbrev Models (p : LitePool) (t : Table) : Prop := p.Valid ∧ p.table = t

theorem Valid.reset_yields (h : p.Valid) : Action.Yields Models reset p (.ok p.table.reset) := by
  refine .modify (valid_of_records rfl rfl h.schema h.layout (Table.blank_bounded _ _)
    ((List.length_map _).trans h.count) fun i r hr => ?_)
  rw [List.getElem?_map] at hr
  obtain ⟨r', hr', rfl⟩ := Option.map_eq_some_iff.1 hr
  refine blank_records h.layout rfl ?_
  rw [← h.count]
  exact (List.getElem?_eq_some_iff.1 hr').1

/-! ## Finding a field -/

/-- The field that the pool has for an attribute of an instance. -/
structure HoldsField (p : LitePool) (c : Coord) (f : Field) (attr : Attribute) : Prop where
  field : p.records[c.index]?.bind (·[c.attr]?) = some f
  declared : p.schema.attributes[c.attr]? = some attr
  index_lt : c.index < p.layout.count
  storing : f.Matches attr

theorem Valid.field_rel (h : p.Valid) (c : Coord) (shape : Shape) :
    Except.Rel (fun f attr => p.HoldsField c f attr ∧ attr.shape = shape) (p.field c shape)
      (p.schema.locate p.layout.count c shape) := by
  unfold field
  cases hl : p.schema.locate p.layout.count c shape with
  | error e => exact .error e
  | ok attr =>
    obtain ⟨ha, hi, hsh⟩ := Schema.locate_ok.1 hl
    obtain ⟨f, hf, hm, -⟩ := h.exists_field hi ha
    rw [Except.ok_bind, hf]
    exact .ok ⟨⟨hf, ha, hi, hm⟩, hsh⟩

/-- The slots of a fixed attribute. -/
theorem Valid.fixed_rel (h : p.Valid) (c : Coord) :
    Except.Rel (fun f attr => p.HoldsField c f attr ∧ f = .fixed (p.table.cell c) ∧
      attr.slotCount? = some (p.table.cell c).length) (p.field c .fixed)
      (p.schema.locate p.layout.count c .fixed) := by
  refine (h.field_rel c .fixed).imp ?_
  rintro f attr ⟨hf, hsh⟩
  have hs := Attribute.slotCount?_eq_some.2 ⟨Attribute.shape_eq_fixed.1 hsh, rfl⟩
  obtain ⟨heq, hlen⟩ := hf.storing.eq_fixed hs
  rw [Table.cell, cells_eq hf.field, hlen]
  exact ⟨hf, heq, hs⟩

/-- The elements of a list attribute. -/
theorem Valid.list_rel (h : p.Valid) (c : Coord) :
    Except.Rel (fun f attr => p.HoldsField c f attr ∧ f = .list (p.table.cell c) ∧
      attr.isList = true) (p.field c .list) (p.schema.locate p.layout.count c .list) := by
  refine (h.field_rel c .list).imp ?_
  rintro f attr ⟨hf, hsh⟩
  have hlist := Attribute.shape_eq_list.1 hsh
  rw [Table.cell, cells_eq hf.field]
  exact ⟨hf, hf.storing.eq_list hlist, hlist⟩

/-! ## Reading -/

theorem Valid.get_eq (h : p.Valid) (c : Coord) (slot : Nat) :
    p.get c slot = p.table.get c slot := by
  refine Except.Rel.eq (.place_attribute (h.fixed_rel c) ?_)
  rintro _ attr ⟨-, rfl, hs⟩
  refine .check _ fun _ hslot => ?_
  rw [Schema.requireSlot_ok, hs, Option.getD_some] at hslot
  simp only [List.getElem?_eq_getElem hslot]
  exact .ok rfl

theorem Valid.getSlots_eq (h : p.Valid) (c : Coord) : p.getSlots c = p.table.getSlots c := by
  refine Except.Rel.eq (.bind (h.fixed_rel c) ?_)
  rintro _ attr ⟨-, rfl, -⟩
  exact .ok rfl

theorem Valid.listLength_eq (h : p.Valid) (c : Coord) :
    p.listLength c = p.table.listLength c := by
  refine Except.Rel.eq (.bind (h.list_rel c) ?_)
  rintro _ attr ⟨-, rfl, -⟩
  exact .ok rfl

theorem Valid.getList_eq (h : p.Valid) (c : Coord) : p.getList c = p.table.getList c := by
  refine Except.Rel.eq (.bind (h.list_rel c) ?_)
  rintro _ attr ⟨-, rfl, -⟩
  exact .ok rfl

/-! ## Writing -/

/-- Putting one field. -/
theorem Valid.put (h : p.Valid) {old : Field} (hold : p.HoldsField c old attr)
    (hm : f.Matches attr) : (p.put c f).Models (p.table.put c f.values) := by
  have ha := hold.declared
  have hi' : c.index < p.records.length := by rw [h.count]; exact hold.index_lt
  have hrecords := h.records _ (List.getElem_mem hi')
  have hput : ∀ j, (p.put c f).records[j]? =
      if c.index = j then p.records[j]?.map (·.set c.attr f) else p.records[j]? := fun j => by
    rw [LitePool.put, List.getElem?_modify]
    split <;> simp
  refine ⟨⟨h.schema, h.layout, (List.length_modify ..).trans h.count, fun r hr => ?_⟩, ?_⟩
  · obtain ⟨j, hj⟩ := List.mem_iff_getElem?.1 hr
    rw [hput] at hj
    split at hj
    · obtain ⟨r', hr', rfl⟩ := Option.map_eq_some_iff.1 hj
      refine (h.records r' (List.mem_of_getElem? hr')).set_right c.attr ?_
      intro attr' ha'
      rw [ha] at ha'
      cases ha'
      exact hm
    · exact h.records r (List.mem_of_getElem? hj)
  · simp only [table, Table.put, Table.mk.injEq]
    refine ⟨rfl, rfl, ?_⟩
    funext i a
    rw [hput]
    by_cases hci : c.index = i
    · subst hci
      rw [if_pos rfl, List.getElem?_eq_getElem hi']
      by_cases hca : a = c.attr
      · subst hca
        have hlt : c.attr < p.records[c.index].length := by
          rw [← hrecords.length_eq]
          exact (List.getElem?_eq_some_iff.1 ha).1
        simp [hlt]
      · simp [hca, List.getElem?_set_ne (Ne.symm hca)]
    · rw [if_neg hci, if_neg fun h => hci h.1.symm]

theorem Valid.set_yields (h : p.Valid) (c : Coord) (slot : Nat) (v : Value) :
    Action.Yields Models (set c slot v) p (p.table.set c slot v) := by
  refine .place_attribute (h.fixed_rel c) rfl fun f attr hplace hf =>
    .check fun _ _ => .check fun w hw => .pass hplace (.modify ?_)
  obtain ⟨hf, rfl, hs⟩ := hf
  refine h.put hf ⟨by simpa using hs, fun x hx => ?_⟩
  rcases List.mem_or_eq_of_mem_set hx with hx | rfl
  · exact h.sound.typed _ _ _ hf.declared x hx
  · exact Schema.type_convert hw

theorem Valid.setSlots_yields (h : p.Valid) (c : Coord) (vs : List Value) :
    Action.Yields Models (setSlots c vs) p (p.table.setSlots c vs) := by
  refine .place_attribute (h.fixed_rel c) rfl fun f attr hplace hf =>
    .check fun _ hn => .check fun ws hws => .pass hplace (.modify ?_)
  obtain ⟨hf, rfl, hs⟩ := hf
  refine h.put hf ⟨?_, Schema.type_convertAll hws⟩
  rw [Schema.requireSlotCount_ok, hs, Option.getD_some] at hn
  rw [hs, Schema.length_convertAll hws, hn]

theorem Valid.append_yields (h : p.Valid) (c : Coord) (v : Value) :
    Action.Yields Models (append c v) p (p.table.append c v) := by
  refine .place_attribute (h.list_rel c) rfl fun f attr hplace hf =>
    .check fun w hw => .pass hplace (.modify ?_)
  obtain ⟨hf, rfl, hlist⟩ := hf
  refine h.put hf ⟨hlist, fun x hx => ?_⟩
  rcases List.mem_append.1 hx with hx | hx
  · exact h.sound.typed _ _ _ hf.declared x hx
  · rw [List.mem_singleton.1 hx]
    exact Schema.type_convert hw

theorem Valid.setList_yields (h : p.Valid) (c : Coord) (vs : List Value) :
    Action.Yields Models (setList c vs) p (p.table.setList c vs) := by
  refine .place_attribute (h.list_rel c) rfl fun f attr hplace hf =>
    .check fun ws hws => .pass hplace (.modify ?_)
  obtain ⟨hf, rfl, hlist⟩ := hf
  exact h.put hf ⟨hlist, Schema.type_convertAll hws⟩

/-! ## Capture -/

/-- The cells of one attribute, instance by instance. -/
def cellsAt (p : LitePool) (a : Nat) : List (List Value) :=
  (List.range p.layout.count).map fun i => p.table.cells i a

/-- The fields at one position of every record. -/
theorem Valid.fields (h : p.Valid) (ha : p.schema.attributes[a]? = some attr) :
    List.Forall₂ (fun r vs => ∃ f, r[a]? = some f ∧ f.Matches attr ∧ vs = f.values) p.records
      (p.cellsAt a) := by
  refine .of_pos (by simp [cellsAt, h.count]) ?_
  intro i r vs hr hvs
  rw [cellsAt, List.getElem?_map] at hvs
  obtain ⟨j, hj, rfl⟩ := Option.map_eq_some_iff.1 hvs
  obtain ⟨hlt, rfl⟩ := List.getElem?_eq_some_iff.1 hj
  obtain ⟨f, hf, hm, hcell⟩ := h.exists_field (i := i) (by simpa using hlt) ha
  rw [hr] at hf
  exact ⟨f, hf, hm, by simpa using hcell⟩

theorem Valid.captureFixed_ok (h : p.Valid) (ha : p.schema.attributes[a]? = some attr)
    {l : AttrLayout} (hl : l.type = attr.type) {slots : Nat} (hs : attr.slotCount? = some slots) :
    ∃ d, p.captureFixed a l = .ok d ∧ d.type = attr.type ∧ d.values = (p.cellsAt a).flatten := by
  refine Except.exists_foldlM (M := [])
    (fun L (d : Column) => d.type = attr.type ∧ d.values = L.flatten) ?_ (h.fields ha) ⟨hl, rfl⟩
  rintro r vs M d ⟨f, hf, hm, rfl⟩ ⟨ht, hv⟩
  obtain ⟨hty, hvals⟩ := Column.foldl_push fun v hv => (hm.type v hv).trans ht.symm
  rw [hf, (hm.eq_fixed hs).1]
  exact ⟨_, rfl, hty.trans ht, by rw [Field.values, hvals, hv]; simp⟩

theorem Valid.captureLists_ok (h : p.Valid) (ha : p.schema.attributes[a]? = some attr)
    {l : AttrLayout} (hl : l.type = attr.type) (hlist : attr.isList = true) :
    ∃ d, p.captureLists a l = .ok d ∧ d.Lists attr.type (p.cellsAt a) := by
  refine Except.exists_foldlM (M := []) (fun L (d : ImageColumn) => d.Lists attr.type L) ?_
    (h.fields ha) (hl ▸ ImageColumn.Lists.noLists l.type)
  rintro r vs M d ⟨f, hf, hm, rfl⟩ hd
  rw [hf, hm.eq_list hlist]
  exact ⟨_, rfl, (hd.pushValues hm.type).2⟩

theorem length_cellsAt (p : LitePool) (a : Nat) : (p.cellsAt a).length = p.layout.count := by
  simp [cellsAt]

theorem getElem_cellsAt {p : LitePool} {a i : Nat} (hi : i < (p.cellsAt a).length) :
    (p.cellsAt a)[i] = p.table.cells i a := by
  simp [cellsAt]

/-- The column captured for the attribute at a position of the layout. -/
def captureColumn (p : LitePool) : AttrLayout × Nat → Except FrameError ImageColumn
  | (attr, position) =>
    match attr.storage with
    | .fixed slots _ => do return .fixed slots (← p.captureFixed position attr)
    | .list => p.captureLists position attr

theorem capture_eq (p : LitePool) : p.capture = do
    let columns ← p.layout.entries.zipIdx.mapM p.captureColumn
    return ⟨p.records.length, columns⟩ := rfl

theorem Valid.captureColumn_ok (h : p.Valid) (ha : p.schema.attributes[a]? = some attr)
    {l : AttrLayout} (hl : AttrLayout.ofAttribute p.schema.name p.layout.count attr = .ok l) :
    ∃ ic, p.captureColumn (l, a) = .ok ic ∧ ic.Holds attr p.layout.count ∧
      ∀ i < p.layout.count, ic.piece i = p.table.cells i a := by
  rcases AttrLayout.ofAttribute_ok.1 hl with ⟨hs, rfl⟩ | ⟨slots, hs, -, rfl⟩
  · have hlist := Attribute.slotCount?_eq_none.1 hs
    obtain ⟨ic, hic, hL⟩ :=
      h.captureLists_ok ha (l := ⟨attr.id, attr.name, attr.type, .list⟩) rfl hlist
    refine ⟨ic, hic, p.length_cellsAt a ▸ hL.holds hlist, ?_⟩
    intro i hi
    rw [hL.piece (by rwa [length_cellsAt]), getElem_cellsAt]
  · obtain ⟨d, hd, ht, hv⟩ := h.captureFixed_ok ha
      (l := ⟨attr.id, attr.name, attr.type, .fixed slots (p.layout.count * slots)⟩) rfl hs
    have hlen : ∀ vs ∈ p.cellsAt a, vs.length = slots := fun vs hvs => by
      obtain ⟨i, hi, rfl⟩ := List.mem_map.1 hvs
      exact h.sound.slots i a attr slots (List.mem_range.1 hi) ha hs
    obtain ⟨hholds, hpiece⟩ := ImageColumn.fixed_holds hs ht hv hlen
    refine ⟨.fixed slots d, ?_, p.length_cellsAt a ▸ hholds, fun i hi => ?_⟩
    · rw [captureColumn, hd]
      rfl
    · rw [hpiece i (by rwa [length_cellsAt]), getElem_cellsAt]

theorem Valid.capture_ok (h : p.Valid) : ∃ image, p.capture = .ok image ∧ image.Shows p.table := by
  obtain ⟨-, hentries⟩ := PoolLayout.ofSchema_ok.1 h.layout
  have hcolumn : ∀ e ∈ p.layout.entries.zipIdx, ∃ ic, p.captureColumn e = .ok ic ∧
      ∃ attr, p.schema.attributes[e.2]? = some attr ∧ ic.Holds attr p.layout.count ∧
        ∀ i < p.layout.count, ic.piece i = p.table.cells i e.2 := by
    rintro ⟨l, a⟩ hla
    have hl : p.layout.entries[a]? = some l := by simpa using List.mem_zipIdx_iff_getElem?.1 hla
    obtain ⟨attr, ha, hattr⟩ := hentries.exists_left hl
    obtain ⟨ic, hic, hholds, hpiece⟩ := h.captureColumn_ok ha hattr
    exact ⟨ic, hic, attr, ha, hholds, hpiece⟩
  obtain ⟨ics, hics, hrel⟩ := Except.exists_mapM hcolumn
  have hcapture : p.capture = .ok ⟨p.layout.count, ics⟩ := by
    rw [capture_eq, hics, h.count]
    rfl
  have hat {a : Nat} {attr : Attribute} (ha : p.schema.attributes[a]? = some attr) :
      ∃ ic, ics[a]? = some ic ∧ ic.Holds attr p.layout.count ∧
        ∀ i < p.layout.count, ic.piece i = p.table.cells i a := by
    obtain ⟨l, hl, -⟩ := hentries.exists_right ha
    obtain ⟨ic, hic, attr', ha', hholds⟩ :=
      hrel.exists_right (show p.layout.entries.zipIdx[a]? = some (l, a) by simp [hl])
    rw [ha] at ha'
    cases ha'
    exact ⟨ic, hic, hholds⟩
  have hcheck : PoolImage.check ⟨p.layout.count, ics⟩ p.schema p.layout.count = .ok () := by
    refine PoolImage.check_ok.2 ⟨rfl, .of_pos ?_ fun a attr ic ha hic => ?_⟩
    · rw [hentries.length_eq, ← hrel.length_eq, List.length_zipIdx]
    · obtain ⟨ic', hic', hholds, -⟩ := hat ha
      rw [hic] at hic'
      cases hic'
      exact hholds
  refine ⟨_, hcapture, hcheck, ?_⟩
  intro i hi a ha
  have hattr : p.schema.attributes[a]? = some p.schema.attributes[a] := List.getElem?_eq_getElem ha
  obtain ⟨ic, hic, -, hpiece⟩ := hat hattr
  obtain ⟨ic', hic', -, hv⟩ := PoolImage.values?_of_check hcheck hi hattr
  rw [hic] at hic'
  cases hic'
  rw [hv, hpiece i hi]

/-! ## Restore -/

theorem restoreField_ok {image : PoolImage} {vs : List Value}
    (hv : image.values? i attr.id = some vs) (ht : ∀ v ∈ vs, v.type = attr.type)
    (hlen : ∀ n, attr.slotCount? = some n → vs.length = n) :
    ∃ f, p.restoreField image i attr = .ok f ∧ f.Matches attr ∧ f.values = vs := by
  rw [restoreField, hv]
  cases hlist : attr.isList with
  | true => exact ⟨.list vs, rfl, ⟨hlist, ht⟩, rfl⟩
  | false =>
    have hs := Attribute.slotCount?_eq_some.2 ⟨hlist, rfl⟩
    exact ⟨.fixed vs, rfl, ⟨by rw [hlen _ hs, hs], ht⟩, rfl⟩

theorem Valid.restore_yields (h : p.Valid) (image : PoolImage) :
    Action.Yields Models (restore image) p (p.table.restore image) := by
  have htable : p.table.restore image = image.check p.schema p.records.length >>= fun _ =>
      .ok (.ofImage p.schema p.layout.count image) := by
    rw [h.count]
    rfl
  rw [htable]
  refine .check fun _ hcheck => ?_
  rw [h.count] at hcheck
  have hfield : ∀ i < p.layout.count, ∀ attr ∈ p.schema.attributes, ∃ f,
      p.restoreField image i attr = .ok f ∧ f.Matches attr ∧
        image.values? i attr.id = some f.values := fun i hi attr ha => by
    obtain ⟨ic, -, hholds, hv⟩ := PoolImage.values?_of_check hcheck hi (h.schema.mem ha)
    obtain ⟨f, hf, hm, hvals⟩ := restoreField_ok (p := p) hv
      (fun v hv => hholds.type_of_mem_piece hv) fun n hn => hholds.length_piece hi hn
    exact ⟨f, hf, hm, by rw [hv, hvals]⟩
  have hrecord : ∀ i ∈ List.range p.records.length, ∃ r,
      p.schema.attributes.mapM (p.restoreField image i) = .ok r ∧
        List.Forall₂ (fun attr f => Field.Matches attr f ∧
          image.values? i attr.id = some f.values) p.schema.attributes r :=
    fun i hi => Except.exists_mapM fun attr ha =>
      hfield i (h.count ▸ List.mem_range.1 hi) attr ha
  obtain ⟨rs, hrs, hrel⟩ := Except.exists_mapM hrecord
  refine .pass hrs (.modify (valid_of_records rfl rfl h.schema h.layout
    (PoolImage.bounded_of_check hcheck) ?_ fun i r hr => ?_))
  · rw [← hrel.length_eq, List.length_range]
    exact h.count
  obtain ⟨j, hj, hfields⟩ := hrel.exists_left hr
  obtain ⟨hi, hij⟩ := List.getElem?_eq_some_iff.1 hj
  obtain rfl : i = j := List.getElem_range hi ▸ hij
  refine ⟨hfields.imp fun _ _ h => h.1, fun a attr f ha hf => ?_⟩
  obtain ⟨-, hv⟩ := hfields.at_pos ha hf
  rw [h.schema.numbered a attr ha] at hv
  exact (Table.cells_ofImage hv).symm

/-! ## Memory -/

theorem sum_exchange {α β : Type} (l : List α) (m : List β) (w : α → β → Nat) :
    (l.map fun a => (m.map (w a)).sum).sum = (m.map fun b => (l.map fun a => w a b).sum).sum := by
  induction l with
  | nil => simp
  | cons a l ih => simp [ih, List.sum_map_add]

theorem Valid.record_memory (h : p.Valid) {r : Record} (hr : p.records[i]? = some r) :
    (r.zip p.layout.entries).map (fun (f, l) => f.size * l.type.width) =
      p.schema.attributes.zipIdx.map fun (attr, a) =>
        (p.table.cells i a).length * attr.type.width := by
  obtain ⟨-, hentries⟩ := PoolLayout.ofSchema_ok.1 h.layout
  have hfields := h.records r (List.mem_of_getElem? hr)
  apply List.ext_getElem?
  intro a
  rw [List.getElem?_map, List.getElem?_map, List.getElem?_zipIdx]
  cases ha : p.schema.attributes[a]? with
  | none =>
    have hle : r.length ≤ a := by
      rw [← hfields.length_eq]
      exact List.getElem?_eq_none_iff.1 ha
    have hzip : (r.zip p.layout.entries).length ≤ a := by
      rw [List.length_zip]
      exact Nat.le_trans (Nat.min_le_left _ _) hle
    rw [List.getElem?_eq_none hzip]
    rfl
  | some attr =>
    obtain ⟨f, hf, -⟩ := hfields.exists_right ha
    obtain ⟨l, hl, hattr⟩ := hentries.exists_right ha
    have htype : l.type = attr.type := by
      rcases AttrLayout.ofAttribute_ok.1 hattr with ⟨-, rfl⟩ | ⟨_, -, -, rfl⟩ <;> rfl
    have hz : (r.zip p.layout.entries)[a]? = some (f, l) := List.getElem?_zip_eq_some.2 ⟨hf, hl⟩
    have hcell : p.table.cells i a = f.values := cells_eq (by rw [hr]; exact hf)
    simp [hz, hcell, f.size_eq, htype]

theorem Valid.memory_eq (h : p.Valid) : p.memory = p.table.memory := by
  obtain ⟨-, hentries⟩ := PoolLayout.ofSchema_ok.1 h.layout
  have hrecords : p.records.map (fun record =>
      ((record.zip p.layout.entries).map fun (f, l) => f.size * l.type.width).sum) =
      (List.range p.layout.count).map fun i => (p.schema.attributes.zipIdx.map fun (attr, a) =>
        (p.table.cells i a).length * attr.type.width).sum := by
    apply List.ext_getElem?
    intro i
    rw [List.getElem?_map, List.getElem?_map]
    cases hr : p.records[i]? with
    | none =>
      have hi : p.layout.count ≤ i := by
        rw [← h.count]
        exact List.getElem?_eq_none_iff.1 hr
      simp [hi]
    | some r =>
      have hi : i < p.layout.count := by
        rw [← h.count]
        exact (List.getElem?_eq_some_iff.1 hr).1
      rw [List.getElem?_range hi, Option.map_some, Option.map_some, h.record_memory hr]
  rw [LitePool.memory, hrecords, sum_exchange]
  rfl

instance : LawfulPool LitePool where
  Valid := Valid
  table := table
  ext := Valid.ext
  sound := Valid.sound
  allocate := allocate_valid
  count h := h.count
  get c slot h := h.get_eq c slot
  getSlots c h := h.getSlots_eq c
  listLength c h := h.listLength_eq c
  getList c h := h.getList_eq c
  set c slot v h := h.set_yields c slot v
  setSlots c vs h := h.setSlots_yields c vs
  append c v h := h.append_yields c v
  setList c vs h := h.setList_yields c vs
  reset := Valid.reset_yields
  capture := Valid.capture_ok
  restore image h := h.restore_yields image
  memory := Valid.memory_eq

end LitePool

end NodeStore
