import NodeStore.Proofs.Frame.AsDeclared
import NodeStore.Proofs.Frame.Decode
import NodeStore.Proofs.Frame.Effect

/-!
# Frames stay typed

Whatever is done with a frame, its values keep the declared types and fixed attributes their slots,
live and in every snapshot held; for the tables of a frame in use are sound and its snapshots fit
(`Frame.Intact`). And no instance is reached that was not declared: only instances there are get
sealed (`Frame.SealsInRange`), so a write beyond the count is not mistaken for one of a sealed
attribute, and every access there is refused for its index.

* `Frame.Intact.typed`: the values of an instance.
* `Frame.Intact.query_typed`: the values a query finds.
* `Frame.Sound.beyond`: accesses where there is no instance.
* `Session.run_is_typed`: all of it, for what the builder was told.
-/

namespace NodeStore

open NodeStore.Action

/-! ## Seals -/

namespace Frame

variable {f g : Frame} {shape : List (Schema × Nat)} {op : Op} {schema : Schema}
  {attr : Attribute} {c : Coord} {ts : List Table} {t : Table} {index : Nat} {e : FrameError}

/-- Only instances there are get sealed. -/
def SealsInRange (f : Frame) : Prop :=
  ∀ id index, f.isSealedAt id index = true → index < f.count id

theorem Effect.sealsInRange {result : Except FrameError Answer} (he : Effect shape f op result g)
    (hcount : ∀ id, g.count id = f.count id) (h : f.SealsInRange) : g.SealsInRange := by
  intro id index hsealed
  rw [hcount]
  rcases he.seals_cases with hsame | ⟨-, hcleared⟩ | ⟨-, -, hnew⟩
  · rw [isSealedAt_congr hsame] at hsealed
    exact h id index hsealed
  · rw [isSealedAt_cleared hcleared] at hsealed
    cases hsealed
  · exact (hnew id index hsealed).elim (h id index) fun hlt => hlt

theorem perform_sealsInRange (op : Op) :
    Keeps (fun f => f.Intact shape ∧ f.SealsInRange) (perform op) := by
  rintro f ⟨hf, hseals⟩
  have hg := perform_intact op f hf
  exact ⟨hg, (hf.effect op).sealsInRange (hf.sound.count_same hg.sound) hseals⟩

theorem Blank.sealsInRange (h : f.Blank shape) : f.SealsInRange := by
  intro id index hsealed
  rw [h.isSealedAt_eq] at hsealed
  cases hsealed

/-! ## Ways to an attribute -/

/-- The operations that make an access to an attribute of an instance: by name, by handle, and
through the opened instance. -/
def Op.routes (schema : Schema) (index : Nat) (attr : Attribute) (a : Access) : List Op :=
  [.access schema.name index attr.name a, .accessBy ⟨schema.id, attr.id⟩ index a,
    .node schema.name index (.access attr.name a)]

theorem Sound.schemaAt_ok (h : f.Sound shape) (hs : schema ∈ f.schemas) :
    f.schemaAt? schema.id = some schema := by
  obtain ⟨i, hi⟩ := List.mem_iff_getElem?.1 hs
  rw [schemaAt?, h.numbered i schema hi, hi]

/-- Only a const attribute of a sealed instance may not be written. -/
theorem Sound.permitWrite_eq (h : f.Sound shape) (hs : schema ∈ f.schemas)
    (ha : attr ∈ schema.attributes) (index : Nat) :
    f.permitWrite ⟨schema.id, index, attr.id⟩ =
      if f.isSealedAt schema.id index = true ∧ attr.isConst = true then
        .error (.constAttributeWrite schema.name attr.name index)
      else .ok () := by
  have hattr := (h.schema_mem (h.schema_ok hs)).2.2.mem ha
  simp only [permitWrite, h.schemaAt_ok hs, Schema.attributeAt?, hattr]
  cases f.isSealedAt schema.id index <;> cases attr.isConst <;> rfl

/-- The entry of a schema. -/
theorem Sound.shape_at (h : f.Sound shape) (hs : schema ∈ f.schemas) :
    shape[schema.id]? = some (schema, f.count schema.id) := by
  obtain ⟨ts, hts, rfl⟩ := h.shaped
  obtain ⟨t, ht, -, rfl, hcount⟩ := h.table hts rfl hs
  rw [List.getElem?_map, ht, ← hcount]
  rfl

theorem Sound.node_eq (h : f.Sound shape) (hs : schema ∈ f.schemas) (index : Nat) :
    f.node schema.name index = if index < f.count schema.id then .ok ⟨schema.id, index⟩
      else .error (.indexOutOfRange schema.name index (f.count schema.id)) := by
  rw [node, h.schema_ok hs, Except.ok_bind, requireIndex, h.schemaAt_ok hs]
  split <;> rfl

/-- All ways lead to the access at the coordinate. -/
theorem Sound.perform_route (h : f.Sound shape) (hs : schema ∈ f.schemas)
    (ha : attr ∈ schema.attributes) (hindex : index < f.count schema.id) {a : Access}
    (hop : op ∈ Op.routes schema index attr a) :
    perform op f = a.perform ⟨schema.id, index, attr.id⟩ f := by
  have hcoord := h.coord_ok hs ha index
  have hnode : f.node schema.name index = .ok ⟨schema.id, index⟩ := by
    rw [h.node_eq hs, if_pos hindex]
  have hnodeCoord : Node.coord ⟨schema.id, index⟩ attr.name f =
      .ok ⟨schema.id, index, attr.id⟩ := by
    have hnamed := (h.schema_mem (h.schema_ok hs)).2.2.attributeNamed_of_mem ha
    simp [Node.coord, schemaAt, h.schemaAt_ok hs, hnamed]
  rcases hop with _ | ⟨_, _ | ⟨_, _ | ⟨_, ⟨⟩⟩⟩⟩
  · exact perform_access hcoord a
  · rfl
  · simp [perform, bind_apply, hnode, Node.perform, hnodeCoord]

/-! ## Accesses where there is no instance -/

end Frame

theorem Table.locate_beyond {t : Table} {c : Coord} {attr : Attribute}
    (hattr : t.schema.attributes[c.attr]? = some attr) (hindex : t.count ≤ c.index)
    (shape : Shape) :
    t.locate c shape = .error (.indexOutOfRange t.schema.name c.index t.count) := by
  rw [locate, Schema.locate, Schema.attributeAt_ok.2 hattr, Except.ok_bind, if_pos hindex]
  rfl

namespace Frame

variable {f g : Frame} {shape : List (Schema × Nat)} {op : Op} {schema : Schema}
  {attr : Attribute} {c : Coord} {ts : List Table} {t : Table} {index : Nat} {e : FrameError}

theorem access_beyond (hts : f.store.Models ts) (ht : ts[c.schema]? = some t)
    (hattr : t.schema.attributes[c.attr]? = some attr) (hindex : t.count ≤ c.index)
    (hopen : f.isSealedAt c.schema c.index = false) (a : Access) :
    (a.perform c f).result = .error (.indexOutOfRange t.schema.name c.index t.count) := by
  have hlocate := Table.locate_beyond hattr hindex
  have hpool := Tables.pool_ok.2 ht
  have hpermit : f.permitWrite c = .ok () := by simp [permitWrite, hopen]
  cases a with
  | get slot =>
    simp [Access.perform, hts.get, Tables.look, hpool, Table.get, hlocate]
  | getSlots =>
    simp [Access.perform, hts.getSlots, Tables.look, hpool, Table.getSlots, hlocate]
  | getList =>
    simp [Access.perform, hts.getList, Tables.look, hpool, Table.getList, hlocate]
  | listLength =>
    simp [Access.perform, hts.listLength, Tables.look, hpool, Table.listLength, hlocate]
  | set slot v =>
    refine (write_apply (Store.set_models c slot v) hts ht hpermit).1.trans ?_
    simp [Table.set, hlocate]
  | setSlots vs =>
    refine (write_apply (Store.setSlots_models c vs) hts ht hpermit).1.trans ?_
    simp [Table.setSlots, hlocate]
  | append v =>
    refine (write_apply (Store.append_models c v) hts ht hpermit).1.trans ?_
    simp [Table.append, hlocate]
  | setList vs =>
    refine (write_apply (Store.setList_models c vs) hts ht hpermit).1.trans ?_
    simp [Table.setList, hlocate]
  | setSlotsAt slots vs =>
    -- the slots are read before any of them is written
    have hmerged : f.mergedSlots c slots vs =
        .error (.indexOutOfRange t.schema.name c.index t.count) := by
      simp [mergedSlots, hts.getSlots, Tables.look, hpool, Table.getSlots, hlocate]
    simp [Access.perform, writeChosen, bind_apply, hpermit, hmerged]

/-- Every access to a declared attribute is refused for the index, if there is no such instance. -/
structure Beyond (f : Frame) (schema : Schema) (index : Nat) (attr : Attribute) (count : Nat) :
    Prop where
  access : ∀ a, ∀ op ∈ Op.routes schema index attr a,
    (perform op f).result = .error (.indexOutOfRange schema.name index count)
  gather : ∀ output, (gatherList ⟨schema.id, attr.id⟩ index (f, output)).result =
    .error (.indexOutOfRange schema.name index count)

theorem Sound.beyond (h : f.Sound shape) (hseals : f.SealsInRange) (hs : schema ∈ f.schemas)
    (ha : attr ∈ schema.attributes) (hindex : f.count schema.id ≤ index) :
    f.Beyond schema index attr (f.count schema.id) := by
  obtain ⟨ts, hts, hshape⟩ := h.shaped
  obtain ⟨t, ht, hsound, rfl, hcount⟩ := h.table hts hshape hs
  have hattr := hsound.schema.mem ha
  have hopen : f.isSealedAt t.schema.id index = false := by
    rw [Bool.eq_false_iff]
    exact fun hsealed => Nat.not_lt.2 hindex (hseals _ _ hsealed)
  have haccess := access_beyond (c := ⟨t.schema.id, index, attr.id⟩) hts ht hattr
    (hcount ▸ hindex) hopen
  rw [hcount] at haccess
  have hcoord := h.coord_ok hs ha index
  have hnode : f.node t.schema.name index =
      .error (.indexOutOfRange t.schema.name index (f.count t.schema.id)) := by
    rw [h.node_eq hs, if_neg (Nat.not_lt.2 hindex)]
  refine ⟨fun a op hop => ?_, fun output => ?_⟩
  · rcases hop with _ | ⟨_, _ | ⟨_, _ | ⟨_, ⟨⟩⟩⟩⟩
    · rw [perform_access hcoord]
      exact haccess a
    · exact haccess a
    · simp [perform, bind_apply, hnode]
  · have hread : f.store.getList ⟨t.schema.id, index, attr.id⟩ = .error _ :=
      Except.map_injective (fun _ _ => Answer.values.inj) (haccess .getList)
    simp [gatherList, bind_apply, Handle.coord, hread]

end Frame

/-! ## Values of the declared types -/

/-- The values are of the declared type, with one for each slot of a fixed attribute. -/
structure Attribute.Admits (attr : Attribute) (vs : List Value) : Prop where
  typed : ∀ v ∈ vs, v.type = attr.type
  slots : attr.isList = false → vs.length = attr.slots

theorem Table.Sound.admits {t : Table} (h : t.Sound) {attr : Attribute} {i a : Nat}
    (hi : i < t.count) (ha : t.schema.attributes[a]? = some attr) : attr.Admits (t.cells i a) where
  typed := h.typed i a attr ha
  slots hfixed := h.slots i a attr attr.slots hi ha (Attribute.slotCount?_eq_some.2 ⟨hfixed, rfl⟩)

/-- An image that passes the check holds values of the declared types. -/
theorem PoolImage.admits_of_check {p : PoolImage} {schema : Schema} {n i a : Nat} {attr : Attribute}
    (h : p.check schema n = .ok ()) (hi : i < n) (ha : schema.attributes[a]? = some attr) :
    ∃ vs, p.values? i a = some vs ∧ attr.Admits vs := by
  obtain ⟨c, -, hholds, hvalues⟩ := values?_of_check h hi ha
  exact ⟨c.piece i, hvalues, fun v hv => hholds.type_of_mem_piece hv, fun hfixed =>
    hholds.length_piece hi (Attribute.slotCount?_eq_some.2 ⟨hfixed, rfl⟩)⟩

/-- A snapshot that fits holds values of the declared types. -/
theorem Snapshot.Fits.admits {s : Snapshot} {shape : List (Schema × Nat)} {schema : Schema}
    {id n i a : Nat} {attr : Attribute} (h : s.Fits shape) (hid : shape[id]? = some (schema, n))
    (hi : i < n) (ha : schema.attributes[a]? = some attr) :
    ∃ vs, s.values? id i a = some vs ∧ attr.Admits vs := by
  obtain ⟨p, hp, hcheck⟩ := List.Forall₂.exists_left h hid
  rw [values?, pool?, hp]
  exact p.admits_of_check hcheck hi ha

namespace Frame

variable {f : Frame} {shape : List (Schema × Nat)} {schema : Schema} {attr : Attribute}
  {index : Nat} {q : Query} {r : QueryResult}

/-- Reads of the attribute give values of the declared type, and every way to it is the same. -/
structure Typed (f : Frame) (schema : Schema) (index : Nat) (attr : Attribute) (vs : List Value) :
    Prop where
  admitted : attr.Admits vs
  reads : f.Reads ⟨schema.id, index, attr.id⟩ schema attr vs
  access : ∀ a, ∀ op ∈ Op.routes schema index attr a,
    perform op f = a.perform ⟨schema.id, index, attr.id⟩ f

theorem Sound.typed (h : f.Sound shape) (hs : schema ∈ f.schemas) (ha : attr ∈ schema.attributes)
    (hindex : index < f.count schema.id) : ∃ vs, f.Typed schema index attr vs := by
  obtain ⟨ts, hts, hshape⟩ := h.shaped
  obtain ⟨t, ht, hsound, rfl, hcount⟩ := h.table hts hshape hs
  have hattr := hsound.schema.mem ha
  exact ⟨t.cells index attr.id, hsound.admits (hcount ▸ hindex) hattr,
    reads_of_models (c := ⟨t.schema.id, index, attr.id⟩) hts ht hattr (hcount ▸ hindex),
    fun a op hop => h.perform_route hs ha hindex hop⟩

/-! ### Queries -/

/-- What a query found is what the snapshots in the ring have, of instances and attributes there
are. -/
theorem Sound.query_ok (h : f.Sound shape) (hq : f.query q = .ok r) :
    ∃ ring schema, f.ring = some ring ∧ f.schema q.schema = .ok schema ∧
      r.Decodes (ring.captured schema) ∧ (∀ t ∈ r.ticks, ∃ s, ring.get? t = some s) ∧
      (∀ i ∈ r.indices, i < f.count schema.id) ∧
      ∀ a ∈ r.attrs, ∃ attr, schema.attribute? a = some attr := by
  obtain ⟨ring, hring, hq⟩ := Except.bind_ok.1 hq
  obtain ⟨schema, hschema, hq⟩ := Except.bind_ok.1 hq
  obtain ⟨plan, hplan, hexecute⟩ := Except.bind_ok.1 hq
  obtain ⟨-, -, hwf⟩ := h.schema_mem hschema
  obtain ⟨hid, -, -, hbelow, -, hnamed⟩ := Query.compile_ok hwf hplan
  have hpiece (t : Tick) (s : Snapshot) (hget : ring.get? t = some s) (i : Nat)
      (a : AttrId × String) (ha : a ∈ plan.attrs) :
      ring.captured schema t i a.2 = (s.values? plan.schema i a.1).getD [] := by
    obtain ⟨attr, hattr, hattrId⟩ := hnamed a ha
    rw [Ring.captured_eq hget hattr, hid, hattrId]
  obtain ⟨-, hindices, hattrs, hheld, hdecodes⟩ := QueryPlan.execute_decodes hexecute hpiece
  refine ⟨ring, schema, snapshots_ok.1 hring, hschema, hdecodes, hheld, ?_, ?_⟩
  · rw [hindices]
    exact hbelow
  · rw [hattrs]
    intro a ha
    obtain ⟨p, hp, rfl⟩ := List.mem_map.1 ha
    obtain ⟨attr, hattr, -⟩ := hnamed p hp
    exact ⟨attr, hattr⟩

/-- The result of a query is made of values of the declared types. -/
def QueryTyped (schema : Schema) (r : QueryResult) : Prop :=
  ∃ piece, r.Decodes piece ∧ ∀ t ∈ r.ticks, ∀ i ∈ r.indices, ∀ a ∈ r.attrs,
    ∃ attr ∈ schema.attributes, attr.name = a ∧ attr.Admits (piece t i a)

theorem Intact.query_typed (h : f.Intact shape) (hq : f.query q = .ok r) :
    ∃ schema, f.schema q.schema = .ok schema ∧ QueryTyped schema r := by
  obtain ⟨ring, schema, hr, hschema, hdecodes, hheld, hbelow, hnamed⟩ := h.sound.query_ok hq
  refine ⟨schema, hschema, ring.captured schema, hdecodes, fun t ht i hi a ha => ?_⟩
  obtain ⟨hs, -, hwf⟩ := h.sound.schema_mem hschema
  obtain ⟨s, hget⟩ := hheld t ht
  obtain ⟨attr, hattr⟩ := hnamed a ha
  have hmem : attr ∈ schema.attributes := List.mem_of_find?_eq_some hattr
  have hfits := h.fits (snapshot_ok.2 ⟨ring, hr, hget⟩)
  obtain ⟨vs, hvs, hadmits⟩ := hfits.admits (h.sound.shape_at hs) (hbelow i hi) (hwf.mem hmem)
  refine ⟨attr, hmem, by simpa using List.find?_some hattr, ?_⟩
  rwa [Ring.captured_eq hget hattr, hvs, Option.getD_some]

end Frame

/-- After any run of operations on a frame that was built, a schema has the count that was declared.
In every instance reads of an attribute succeed, with values of the declared type, and one for each
slot if it is fixed; beyond the count every access is refused for its index. Queries that succeed
find values of the declared types too. -/
theorem Session.run_is_typed {steps : List Builder.Step} (hsteps : ∀ step ∈ steps, step.Standard)
    {f₀ f : Frame} (hf₀ : (buildBy steps {}).result = .ok f₀) (ops : List Frame.Op)
    (hf : f = after Frame.perform ops f₀) {k : Nat} {d : Declaration}
    (hd : (Builder.declarations (Builder.accepted steps {}))[k]? = some d) :
    f.instanceCount d.name = .ok d.count ∧
    (∀ attr ∈ (d.schema k).attributes,
      (∀ index < d.count, ∃ vs, f.Typed (d.schema k) index attr vs) ∧
      ∀ index, d.count ≤ index → f.Beyond (d.schema k) index attr d.count) ∧
    ∀ q r, (Frame.perform (.query q) f).result = .ok (.result r) → q.schema = d.name →
      Frame.QueryTyped (d.schema k) r := by
  have hblank := built_blank hsteps hf₀
  obtain ⟨hintact, hseals⟩ : f.Intact _ ∧ f.SealsInRange := by
    rw [hf]
    exact Keeps.after (fun op _ => Frame.perform_sealsInRange op)
      ⟨hblank.intact, hblank.sealsInRange⟩
  have hsound := hintact.sound
  obtain ⟨hschema, hnamed, hcount, hcounts⟩ := hsound.declared hd
  have hs := List.mem_of_getElem? hschema
  refine ⟨hcounts, fun attr ha => ⟨fun index hindex => ?_, fun index hindex => ?_⟩,
    fun q r hq hname => ?_⟩
  · exact hsound.typed hs ha (hcount ▸ hindex)
  · rw [← hcount] at hindex ⊢
    exact hsound.beyond hseals hs ha hindex
  · obtain ⟨schema, hasked, htyped⟩ :=
      hintact.query_typed (Except.map_injective (fun _ _ => Frame.Answer.result.inj) hq)
    rw [hname, hnamed] at hasked
    cases hasked
    exact htyped

/-- Values of another type are written, one of which does not fit, a tick is captured and restored,
and everything is sealed; a write of the const attribute beyond the count is still refused for the
index. -/
theorem Session.run_is_typed_mixed : ∃ (f₀ f : Frame) (ops : List Frame.Op) (schema : Schema)
    (x : Attribute) (r : QueryResult), f₀.Built ∧ f = after Frame.perform ops f₀ ∧
    ops = [.access "cell" 1 "x" (.set 0 (.int ⟨true, .two⟩ 7)),
      .access "cell" 1 "x" (.set 1 (.int ⟨true, .two⟩ 300)), .capture 4, .sealAll,
      .access "cell" 1 "tags" (.append (.int ⟨true, .two⟩ 9)), .restore 4] ∧
    f.schema "cell" = .ok schema ∧ schema.attribute? "x" = some x ∧ x.isConst = true ∧
    f.instanceCount "cell" = .ok 2 ∧
    f.Typed schema 1 x [.int ⟨true, .one⟩ 7, .int ⟨true, .one⟩ 0] ∧ f.Beyond schema 2 x 2 ∧
    (Frame.perform (.query ⟨"cell", .one 4, .all, ["x", "tags"]⟩) f).result = .ok (.result r) ∧
    r.values.length = 4 ∧ Frame.QueryTyped schema r := by
  have hsteps : ∀ step ∈ [Builder.Step.declareWith "cell"
      [⟨"x", .int8, 2, false, true⟩, ⟨"tags", .uint8, 1, true, false⟩] 2, .setSnapshots 2],
      step.Standard := by
    simp [Builder.Step.Standard]
  obtain ⟨hcount, hattrs, hqueries⟩ := run_is_typed hsteps rfl
    [.access "cell" 1 "x" (.set 0 (.int ⟨true, .two⟩ 7)),
      .access "cell" 1 "x" (.set 1 (.int ⟨true, .two⟩ 300)), .capture 4, .sealAll,
      .access "cell" 1 "tags" (.append (.int ⟨true, .two⟩ 9)), .restore 4] rfl
    (show (Builder.declarations _)[0]? = some _ from rfl)
  obtain ⟨htyped, hbeyond⟩ := hattrs ⟨0, "x", .int8, 2, false, true⟩ List.mem_cons_self
  obtain ⟨vs, hvs⟩ := htyped 1 (by decide)
  obtain rfl : [.int ⟨true, .one⟩ 7, .int ⟨true, .one⟩ 0] = vs :=
    Frame.Answer.values.inj (Except.ok.inj (hvs.reads.getSlots rfl))
  exact ⟨_, _, _, _, _, _, ⟨_, hsteps, rfl⟩, rfl, rfl, rfl, rfl, rfl, hcount, hvs,
    hbeyond 2 (by decide), rfl, rfl, hqueries ⟨"cell", .one 4, .all, ["x", "tags"]⟩ _ rfl rfl⟩

end NodeStore
