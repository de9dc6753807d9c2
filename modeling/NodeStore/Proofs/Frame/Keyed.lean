import NodeStore.Proofs.Conversion
import NodeStore.Proofs.Frame.Locality
import NodeStore.Proofs.Frame.Ways

/-!
# Typed access

A key has its own type, which need not be the declared one, so what is written by a key is converted
twice: to the declared type and, when it is read, back. The way back leads to the values that were
written (`Value.convert?_back`), save that no integer is read from a floating-point attribute
(`Key.ReadsBack`).

* `Node.typed_back`, `Node.mapM_typed_back`: the conversion back, of one value and of many.
* `Key.Names`: in a frame a key leads to a coordinate, and goes on to after any write.
* `Frame.Sound.after_pushes`: what pushes by a key leave of a list.
* `Frame.Reachable.typed_access_round_trips`: what it comes to for the calls of a view.
-/

namespace NodeStore

open NodeStore.Action

variable {α β : Type} {k : Key} {schema : Schema} {attr : Attribute} {v w : Value}
  {vs ws : List Value} {n : Node}

/-- What is read of the values `vs`, in the type of a key, after they were written by this key:
`whole`, but if the key is of an integer type and the attribute is floating-point the first value
is refused. -/
structure Key.ReadsBack (k : Key) (schema : Schema) (attr : Attribute) (vs : List Value)
    (whole : α) (result : Except FrameError α) : Prop where
  kept : (k.type.isFloat = false → attr.type.isFloat = false) ∨ vs = [] → result = .ok whole
  lost : k.type.isFloat = false → attr.type.isFloat = true → ∀ v ∈ vs.head?,
    ∃ w, v.convert? attr.type = some w ∧
      result = .error (.typeMismatch schema.name k.attr k.type w)

theorem Key.ReadsBack.map {whole : α} {result : Except FrameError α}
    (h : k.ReadsBack schema attr vs whole result) (f : α → β) :
    k.ReadsBack schema attr vs (f whole) (result.map f) where
  kept hkept := by rw [h.kept hkept, Except.map_ok]
  lost hk hattr v hv := by
    obtain ⟨w, hw, hresult⟩ := h.lost hk hattr v hv
    exact ⟨w, hw, by rw [hresult, Except.map_error]⟩

namespace Node

/-! ## Conversion back -/

theorem typed_back (hv : v.type = k.type) (hw : v.convert? attr.type = some w) :
    k.ReadsBack schema attr [v] v (typed schema k w) where
  kept hkept := by
    have hfloat := hkept.resolve_right (List.cons_ne_nil v [])
    rw [← hv] at hfloat
    rw [typed, ← hv, Value.convert?_back hw hfloat]
  lost hk hattr u hu := by
    obtain rfl := Option.some.inj hu
    rw [← Value.type_convert? hw] at hattr
    exact ⟨w, hw, by rw [typed, Value.convert?_eq_none hattr hk]⟩

theorem mapM_typed_back (hvs : ∀ v ∈ vs, v.type = k.type)
    (hws : List.Forall₂ (fun v w => v.convert? attr.type = some w) vs ws) :
    k.ReadsBack schema attr vs vs (ws.mapM (typed schema k)) := by
  induction hws with
  | nil => exact ⟨fun _ => rfl, fun _ _ v hv => by cases hv⟩
  | @cons v w vs ws hw hws ih =>
    have hback : k.ReadsBack schema attr [v] v (typed schema k w) :=
      typed_back (hvs v List.mem_cons_self) hw
    refine ⟨fun hkept => ?_, fun hk hattr u hu => ?_⟩
    · have hfloat := hkept.resolve_right (List.cons_ne_nil v vs)
      have hrest := (ih fun v hv => hvs v (List.mem_cons_of_mem _ hv)).kept (.inl hfloat)
      rw [List.mapM_cons, hback.kept (.inl hfloat), Except.ok_bind, hrest]
      rfl
    · obtain ⟨u', hu', herror⟩ := hback.lost hk hattr u hu
      exact ⟨u', hu', by rw [List.mapM_cons, herror]; rfl⟩

end Node

/-! ## Where a key leads -/

/-- The key of a typed access. -/
def Node.Call.key? : Node.Call → Option Key
  | .read k | .readSlots k | .readList k | .write k _ | .writeSlots k _ | .push k _ => some k
  | .schema | .index | .isSealed | .describe | .describeNamed | .seal | .key _ | .access _ _ => none

/-- The key names an attribute of the schema of the view. -/
structure Key.Names (k : Key) (n : Node) (f : Frame) (schema : Schema) (attr : Attribute) :
    Prop where
  key : n.requireKey k f = .ok schema
  coord : n.coord k.attr f = .ok ⟨schema.id, n.index, attr.id⟩

namespace Frame

variable {f g : Frame} {shape : List (Schema × Nat)} {a : Access} {y : Answer} {index : Nat}
  {call : Node.Call} {e : FrameError}

theorem Sound.names (h : f.Sound shape) (hs : schema ∈ f.schemas) (hk : k.schema = schema.name)
    (ha : schema.attributeNamed k.attr = .ok attr) (index : Nat) :
    k.Names ⟨schema.id, index⟩ f schema attr where
  key := by simp [Node.requireKey, schemaAt, h.schemaAt_ok hs, hk]
  coord := by simp [Node.coord, schemaAt, h.schemaAt_ok hs, ha]

/-- A key of another schema, which is all that a typed access looks at then. -/
theorem Sound.requireKey_error (h : f.Sound shape) (hs : schema ∈ f.schemas)
    (hk : k.schema ≠ schema.name) (index : Nat) :
    Node.requireKey ⟨schema.id, index⟩ k f =
      .error (.unknownAttribute schema.name (.keyed k.schema k.attr)) := by
  simp [Node.requireKey, schemaAt, h.schemaAt_ok hs, hk]

theorem perform_of_requireKey_error (hkey : n.requireKey k f = .error e)
    (hcall : call.key? = some k) : n.perform call f = ⟨.error e, f, []⟩ := by
  cases call with
  | read k => cases hcall; simp [Node.perform, Node.read, hkey]
  | readSlots k => cases hcall; simp [Node.perform, Node.readSlots, hkey]
  | readList k => cases hcall; simp [Node.perform, Node.readList, hkey]
  | write k x => cases hcall; simp [Node.perform, Node.write, bind_apply, hkey]
  | writeSlots k xs => cases hcall; simp [Node.perform, Node.writeSlots, bind_apply, hkey]
  | push k x => cases hcall; simp [Node.perform, Node.push, bind_apply, hkey]
  | _ => cases hcall

end Frame

namespace Key.Names

variable {f g : Frame} {a : Access} (h : k.Names n f schema attr)
include h

theorem congr (hschemas : g.schemas = f.schemas) : k.Names n g schema attr where
  key := (Frame.requireKey_congr hschemas n k).trans h.key
  coord := (Frame.nodeCoord_congr hschemas n k.attr).trans h.coord

theorem access (a : Access) :
    n.perform (.access k.attr a) f = a.perform ⟨schema.id, n.index, attr.id⟩ f := by
  simp [Node.perform, bind_apply, h.coord]

/-! ### Writes -/

theorem write (x : Scalar k.type) :
    n.perform (.write k x) f = n.perform (.access k.attr (.set 0 ⟨k.type, x⟩)) f :=
  Frame.keyed_eq h.key (Store.set · 0 ⟨k.type, x⟩) rfl fun _ => rfl

theorem writeSlots (xs : List (Scalar k.type)) :
    n.perform (.writeSlots k xs) f =
      n.perform (.access k.attr (.setSlots (xs.map (⟨k.type, ·⟩)))) f :=
  Frame.keyed_eq h.key (Store.setSlots · (xs.map (⟨k.type, ·⟩))) rfl fun _ => rfl

theorem push (x : Scalar k.type) :
    n.perform (.push k x) f = n.perform (.access k.attr (.append ⟨k.type, x⟩)) f :=
  Frame.keyed_eq h.key (Store.append · ⟨k.type, x⟩) rfl fun _ => rfl

/-! ### Reads -/

theorem read (hw : (Access.perform ⟨schema.id, n.index, attr.id⟩ (.get 0) f).result =
    .ok (.value w)) :
    (n.perform (.read k) f).result = (Node.typed schema k w).map .value := by
  have hget : f.store.get ⟨schema.id, n.index, attr.id⟩ 0 = .ok w :=
    Except.map_injective (fun _ _ => Frame.Answer.value.inj) hw
  simp [Node.perform, Node.read, h.key, h.coord, hget]

theorem readSlots (hws : (Access.perform ⟨schema.id, n.index, attr.id⟩ .getSlots f).result =
    .ok (.values ws)) :
    (n.perform (.readSlots k) f).result = (ws.mapM (Node.typed schema k)).map .values := by
  have hget : f.store.getSlots ⟨schema.id, n.index, attr.id⟩ = .ok ws :=
    Except.map_injective (fun _ _ => Frame.Answer.values.inj) hws
  simp [Node.perform, Node.readSlots, h.key, h.coord, hget]

theorem readList (hws : (Access.perform ⟨schema.id, n.index, attr.id⟩ .getList f).result =
    .ok (.values ws)) :
    (n.perform (.readList k) f).result = (ws.mapM (Node.typed schema k)).map .values := by
  have hget : f.store.getList ⟨schema.id, n.index, attr.id⟩ = .ok ws :=
    Except.map_injective (fun _ _ => Frame.Answer.values.inj) hws
  simp [Node.perform, Node.readList, h.key, h.coord, hget]

end Key.Names

/-! ## Reading what was written -/

namespace Frame

variable {f g : Frame} {shape : List (Schema × Nat)} {a : Access} {y : Answer} {index : Nat}
  {old : List Value}

/-- What a write that succeeds makes of the values of an attribute. -/
theorem Sound.access_makes (h : f.Sound shape) (hs : schema ∈ f.schemas)
    (ha : attr ∈ schema.attributes) (hw : a.isRead = false)
    (hok : (a.perform ⟨schema.id, index, attr.id⟩ f).result = .ok y) :
    ∃ old new, f.Reads ⟨schema.id, index, attr.id⟩ schema attr old ∧ a.Makes attr old new ∧
      (a.perform ⟨schema.id, index, attr.id⟩ f).state.Reads ⟨schema.id, index, attr.id⟩ schema attr
        new := by
  obtain ⟨ts, t, u, hput⟩ := h.access_put hw hok
  obtain ⟨attr', old, new, hattr, hold, hmakes, hnew⟩ := hput.reads
  obtain rfl : t.schema = schema := Option.some.inj (hput.schema.symm.trans (h.schemaAt_ok hs))
  have hmem := (h.schema_mem (h.schema_ok hs)).2.2.mem ha
  obtain rfl : attr' = attr := Option.some.inj (hattr.symm.trans hmem)
  exact ⟨old, new, hold, hmakes, hnew⟩

theorem Sound.names_after (h : f.Sound shape) (hnames : k.Names n f schema attr) (a : Access) :
    k.Names n (a.perform ⟨schema.id, n.index, attr.id⟩ f).state schema attr :=
  hnames.congr (h.schemas_same (access_sound _ a f h))

section
variable (h : f.Sound shape) (hs : schema ∈ f.schemas) (ha : attr ∈ schema.attributes)
  (hnames : k.Names n f schema attr)
include h hs ha hnames

theorem Sound.read_back {x : Scalar k.type} (hok : (n.perform (.write k x) f).result = .ok y) :
    k.ReadsBack schema attr [⟨k.type, x⟩] (.value ⟨k.type, x⟩)
      (n.perform (.read k) (n.perform (.write k x) f).state).result := by
  rw [hnames.write, hnames.access] at hok ⊢
  obtain ⟨old, _, -, ⟨hfixed, hslot, w, hw, rfl⟩, hnew⟩ := h.access_makes hs ha rfl hok
  have hread := hnew.get hfixed 0
  rw [List.getElem?_set_self hslot] at hread
  rw [(h.names_after hnames _).read hread]
  exact (Node.typed_back rfl hw).map _

theorem Sound.readSlots_back {xs : List (Scalar k.type)}
    (hok : (n.perform (.writeSlots k xs) f).result = .ok y) :
    k.ReadsBack schema attr (xs.map (⟨k.type, ·⟩)) (.values (xs.map (⟨k.type, ·⟩)))
      (n.perform (.readSlots k) (n.perform (.writeSlots k xs) f).state).result := by
  rw [hnames.writeSlots, hnames.access] at hok ⊢
  obtain ⟨old, new, -, ⟨hfixed, -, hws⟩, hnew⟩ := h.access_makes hs ha rfl hok
  rw [(h.names_after hnames _).readSlots (hnew.getSlots hfixed)]
  exact (Node.mapM_typed_back (List.forall_mem_map.2 fun _ _ => rfl) hws).map _

/-- Pushes that succeed leave what the list had and the converted values, in order. -/
theorem Sound.after_pushes
    (hold : (Access.perform ⟨schema.id, n.index, attr.id⟩ .getList f).result = .ok (.values old))
    {xs : List (Scalar k.type)}
    (hok : ∀ r ∈ answers n.perform (xs.map (.push k)) f, ∃ y, r = .ok y) :
    ∃ ws, List.Forall₂ (fun (v w : Value) => v.convert? attr.type = some w)
        (xs.map (⟨k.type, ·⟩)) ws ∧
      k.Names n (Action.after n.perform (xs.map (.push k)) f) schema attr ∧
      (Access.perform ⟨schema.id, n.index, attr.id⟩ .getList
        (Action.after n.perform (xs.map (.push k)) f)).result = .ok (.values (old ++ ws)) := by
  induction xs generalizing f old with
  | nil => exact ⟨[], .nil, hnames, by simpa using hold⟩
  | cons x xs ih =>
    rw [List.map_cons, answers, List.forall_mem_cons] at hok
    obtain ⟨⟨y, hok⟩, hrest⟩ := hok
    simp only [List.map_cons, after_cons]
    rw [hnames.push, hnames.access] at hok hrest ⊢
    obtain ⟨old', _, hreads, ⟨hlist, w, hw, rfl⟩, hnew⟩ := h.access_makes hs ha rfl hok
    -- a push that succeeds finds a list, which is the one that was read
    obtain rfl : old' = old :=
      Answer.values.inj (Except.ok.inj ((hreads.getList hlist).symm.trans hold))
    have hafter := access_sound ⟨schema.id, n.index, attr.id⟩ (.append ⟨k.type, x⟩) f h
    obtain ⟨ws, hws, hnames', hlast⟩ := ih hafter (h.schemas_same hafter ▸ hs)
      (h.names_after hnames _) (hnew.getList hlist) hrest
    exact ⟨w :: ws, .cons hw hws, hnames', by simpa using hlast⟩

theorem Sound.readList_back
    (hempty : (n.perform (.access k.attr .getList) f).result = .ok (.values []))
    {xs : List (Scalar k.type)}
    (hok : ∀ r ∈ answers n.perform (xs.map (.push k)) f, ∃ y, r = .ok y) :
    k.ReadsBack schema attr (xs.map (⟨k.type, ·⟩)) (.values (xs.map (⟨k.type, ·⟩)))
      (n.perform (.readList k) (Action.after n.perform (xs.map (.push k)) f)).result := by
  rw [hnames.access] at hempty
  obtain ⟨ws, hws, hnames', hlast⟩ := h.after_pushes hs ha hnames hempty hok
  rw [hnames'.readList hlast]
  exact (Node.mapM_typed_back (List.forall_mem_map.2 fun _ _ => rfl) hws).map _

end

/-! ## Frames in use -/

/-- The calls by a key that names an attribute do what the untyped ones do, and what they wrote is
read back by the same key. -/
structure RoundTrips (f : Frame) (n : Node) (k : Key) (schema : Schema) (attr : Attribute) :
    Prop where
  write : ∀ x, n.perform (.write k x) f = n.perform (.access k.attr (.set 0 ⟨k.type, x⟩)) f
  writeSlots : ∀ xs : List (Scalar k.type), n.perform (.writeSlots k xs) f =
    n.perform (.access k.attr (.setSlots (xs.map (⟨k.type, ·⟩)))) f
  push : ∀ x, n.perform (.push k x) f = n.perform (.access k.attr (.append ⟨k.type, x⟩)) f
  read : ∀ x y, (n.perform (.write k x) f).result = .ok y →
    k.ReadsBack schema attr [⟨k.type, x⟩] (.value ⟨k.type, x⟩)
      (n.perform (.read k) (n.perform (.write k x) f).state).result
  readSlots : ∀ (xs : List (Scalar k.type)) y, (n.perform (.writeSlots k xs) f).result = .ok y →
    k.ReadsBack schema attr (xs.map (⟨k.type, ·⟩)) (.values (xs.map (⟨k.type, ·⟩)))
      (n.perform (.readSlots k) (n.perform (.writeSlots k xs) f).state).result
  readList : ∀ xs : List (Scalar k.type),
    (n.perform (.access k.attr .getList) f).result = .ok (.values []) →
    (∀ r ∈ answers n.perform (xs.map (.push k)) f, ∃ y, r = .ok y) →
    k.ReadsBack schema attr (xs.map (⟨k.type, ·⟩)) (.values (xs.map (⟨k.type, ·⟩)))
      (n.perform (.readList k) (after n.perform (xs.map (.push k)) f)).result

/-- In a frame in use a key of the schema of a view makes the untyped accesses, and what is written
by it is read back, but for integers in a floating-point attribute. A key of another schema is
refused by every typed access, whatever values the frame has, and nothing changes. -/
theorem Reachable.typed_access_round_trips (h : f.Reachable) {name : String}
    (hn : f.node name index = .ok n) (k : Key) :
    ∃ schema, f.schema name = .ok schema ∧
      (∀ attr, k.schema = name → schema.attributeNamed k.attr = .ok attr →
        f.RoundTrips n k schema attr) ∧
      (k.schema ≠ name → ∀ call : Node.Call, call.key? = some k → ∀ g : Frame,
        g.schemas = f.schemas → n.perform call g =
          ⟨.error (.unknownAttribute name (.keyed k.schema k.attr)), g, []⟩) := by
  obtain ⟨shape, hsound⟩ := h.sound
  obtain ⟨s, hs, -, rfl⟩ := node_ok hn
  obtain ⟨hmem, rfl, hwf⟩ := hsound.schema_mem hs
  refine ⟨s, hs, fun attr hk hattr => ?_, fun hk call hcall g hg => ?_⟩
  · have hnames := hsound.names hmem hk hattr index
    have ha := List.mem_of_getElem? (hwf.attributeNamed_ok.1 hattr).1
    exact ⟨hnames.write, hnames.writeSlots, hnames.push,
      fun x y hok => hsound.read_back hmem ha hnames hok,
      fun xs y hok => hsound.readSlots_back hmem ha hnames hok,
      fun xs hempty hok => hsound.readList_back hmem ha hnames hempty hok⟩
  · refine perform_of_requireKey_error ?_ hcall
    rw [requireKey_congr hg]
    exact hsound.requireKey_error hmem hk index

/-- Integers are written by keys of other types than the declared ones. They are read back from a
list of a shorter type, but not from a floating-point attribute. -/
theorem typed_access_round_trips_widths : ∃ (f : Frame) (n : Node) (schema : Schema)
    (heat log : Attribute), f.Reachable ∧ f.node "cell" 1 = .ok n ∧ f.schema "cell" = .ok schema ∧
    heat.type = .float32 ∧ f.RoundTrips n ⟨"cell", "heat", .int32⟩ schema heat ∧
    log.type = .int8 ∧ f.RoundTrips n ⟨"cell", "log", .int16⟩ schema log ∧
    (∃ w, (n.perform (.read ⟨"cell", "heat", .int32⟩)
      (n.perform (.write ⟨"cell", "heat", .int32⟩ ⟨5, by decide⟩) f).state).result =
        .error (.typeMismatch "cell" "heat" .int32 w)) ∧
    (n.perform (.readList ⟨"cell", "log", .int16⟩)
      (after n.perform [.push ⟨"cell", "log", .int16⟩ ⟨7, by decide⟩,
        .push ⟨"cell", "log", .int16⟩ ⟨-7, by decide⟩] f)).result =
        .ok (.values [.int ⟨true, .two⟩ 7, .int ⟨true, .two⟩ (-7)]) ∧
    n.perform (.read ⟨"stock", "heat", .float32⟩) f =
      ⟨.error (.unknownAttribute "cell" (.keyed "stock" "heat")), f, []⟩ := by
  have hsteps : ∀ step ∈ [Builder.Step.declareWith "cell"
      [⟨"heat", .float32, 1, false, false⟩, ⟨"log", .int8, 1, true, false⟩] 2],
      step.Standard := by
    simp [Builder.Step.Standard]
  have hf : Reachable _ := ⟨_, [], ⟨_, hsteps, rfl⟩, rfl⟩
  let heat : Attribute := ⟨0, "heat", .float32, 1, false, false⟩
  let log : Attribute := ⟨1, "log", .int8, 1, true, false⟩
  obtain ⟨schema, hschema, hheat, -⟩ := hf.typed_access_round_trips
    (show Frame.node _ "cell" 1 = .ok _ from rfl) ⟨"cell", "heat", .int32⟩
  obtain ⟨schema', hschema', hlog, -⟩ := hf.typed_access_round_trips
    (show Frame.node _ "cell" 1 = .ok _ from rfl) ⟨"cell", "log", .int16⟩
  obtain ⟨-, -, -, hother⟩ := hf.typed_access_round_trips
    (show Frame.node _ "cell" 1 = .ok _ from rfl) ⟨"stock", "heat", .float32⟩
  obtain rfl : ⟨0, "cell", [heat, log]⟩ = schema := Except.ok.inj hschema
  obtain rfl : ⟨0, "cell", [heat, log]⟩ = schema' := Except.ok.inj hschema'
  have htrips := hheat heat rfl rfl
  have htrips' := hlog log rfl rfl
  refine ⟨_, _, _, heat, log, hf, rfl, rfl, rfl, htrips, rfl, htrips', ?_, ?_,
    hother (by decide) _ rfl _ rfl⟩
  · obtain ⟨w, -, hlost⟩ := (htrips.read ⟨5, by decide⟩ .done rfl).lost rfl rfl _ rfl
    exact ⟨w, hlost⟩
  · refine (htrips'.readList [⟨7, by decide⟩, ⟨-7, by decide⟩] rfl fun r hr => ?_).kept
      (.inl fun _ => rfl)
    exact ⟨.done, List.eq_of_mem_replicate (show r ∈ List.replicate 2 (.ok .done) from hr)⟩

end Frame

end NodeStore
