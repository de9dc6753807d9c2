import NodeStore.Coord
import NodeStore.Proofs.Action
import NodeStore.Proofs.Value

/-!
# Well-formed schemas

Declarations keep a schema well formed: names are not empty and do not repeat, an attribute's number
is its position, and a fixed attribute has a slot (`Schema.Declared.wellFormed`). In such a schema a
name and the number of what it names lead to the same attribute
(`Schema.WellFormed.attributeNamed_ok`).

`Schema.locate_ok` says when a coordinate is in range and of the shape an access needs.
-/

/-- Where keys do not repeat, an element is found by its key. -/
theorem List.find?_of_nodup {α β : Type} [BEq β] [LawfulBEq β] {g : α → β} {l : List α} {a : α}
    (h : (l.map g).Nodup) (ha : a ∈ l) : l.find? (g · == g a) = some a := by
  cases hf : l.find? (g · == g a) with
  | none => simpa using List.find?_eq_none.1 hf a ha
  | some b =>
    have hb : g b = g a := by simpa using List.find?_some hf
    rw [List.inj_on_of_nodup_map h (List.mem_of_find?_eq_some hf) ha hb]

/-- Where every element has its position for a number, one more may have the next. -/
theorem List.numbered_concat {α : Type} {num : α → Nat} {l : List α} {a : α}
    (h : ∀ (i : Nat) b, l[i]? = some b → num b = i) (ha : num a = l.length) (i : Nat) (b : α)
    (hb : (l ++ [a])[i]? = some b) : num b = i := by
  rcases Nat.lt_or_ge i l.length with hlt | hge
  · rw [List.getElem?_append_left hlt] at hb
    exact h i b hb
  · rw [List.getElem?_append_right hge, List.getElem?_singleton] at hb
    split at hb
    · cases hb
      omega
    · cases hb

namespace NodeStore

namespace Attribute

theorem slotCount?_eq_none {a : Attribute} : a.slotCount? = none ↔ a.isList = true := by
  cases h : a.isList <;> simp [slotCount?, h]

theorem slotCount?_eq_some {a : Attribute} {n : Nat} :
    a.slotCount? = some n ↔ a.isList = false ∧ a.slots = n := by
  cases h : a.isList <;> simp [slotCount?, h]

theorem shape_eq_fixed {a : Attribute} : a.shape = .fixed ↔ a.isList = false := by
  cases h : a.isList <;> simp [shape, h]

/-- A fixed attribute has the declared number of slots. -/
theorem slotCount?_getD {a : Attribute} (h : a.shape = .fixed) : a.slotCount?.getD 0 = a.slots := by
  rw [slotCount?_eq_some.2 ⟨shape_eq_fixed.1 h, rfl⟩, Option.getD_some]

theorem shape_eq_list {a : Attribute} : a.shape = .list ↔ a.isList = true := by
  cases h : a.isList <;> simp [shape, h]

end Attribute

namespace Schema

/-- What declarations guarantee. -/
structure WellFormed (s : Schema) : Prop where
  named : s.name ≠ ""
  attrNamed : ∀ a ∈ s.attributes, a.name ≠ ""
  distinct : (s.attributes.map Attribute.name).Nodup
  numbered : ∀ (i : Nat) (a : Attribute), s.attributes[i]? = some a → a.id = i
  slotted : ∀ a ∈ s.attributes, a.isList = false → 0 < a.slots

/-- The schemas that declarations make. Registering a schema gives it its number. -/
inductive Declared : Schema → Prop
  | new {name : String} {s : Schema} : new name = .ok s → Declared s
  | extend {s s' : Schema} {spec : AttrSpec} : Declared s → s.extend spec = .ok s' → Declared s'
  | register {s : Schema} (id : SchemaId) : Declared s → Declared { s with id }

variable {s s' : Schema} {spec : AttrSpec} {a : Attribute}

theorem attribute?_isSome {name : String} :
    (s.attribute? name).isSome = true ↔ ∃ a ∈ s.attributes, a.name = name := by
  simp [attribute?]

theorem declare_of_accepted (h : s.requireNew spec = .ok ()) :
    declare spec s = ⟨.ok s.size, s.add spec, []⟩ := Action.read_bind_of_ok h

theorem declare_of_refused {e : FrameError} (h : s.requireNew spec = .error e) :
    declare spec s = ⟨.error e, s, []⟩ := Action.read_bind_of_error h

theorem extend_eq (s : Schema) (spec : AttrSpec) :
    s.extend spec = s.requireNew spec >>= fun _ => .ok (s.add spec) := by
  cases hnew : s.requireNew spec with
  | ok _ =>
    rw [Schema.extend, declare_of_accepted hnew]
    rfl
  | error e =>
    rw [Schema.extend, declare_of_refused hnew]
    rfl

/-- A declaration that is refused leaves the schema as it was. -/
theorem declare_eq (spec : AttrSpec) (s : Schema) :
    declare spec s = match s.extend spec with
      | .ok s' => ⟨.ok s.size, s', []⟩
      | .error e => ⟨.error e, s, []⟩ := by
  rw [extend_eq]
  cases hnew : s.requireNew spec with
  | ok _ => exact declare_of_accepted hnew
  | error e => exact declare_of_refused hnew

/-- A new attribute has a name of its own, and a slot if it is fixed; it comes after the others. -/
theorem extend_ok (he : s.extend spec = .ok s') :
    spec.name ≠ "" ∧ spec.name ∉ s.attributes.map Attribute.name ∧
      (spec.isList = false → 0 < spec.slots) ∧ s' = { s with attributes := s.attributes ++
        [⟨s.size, spec.name, spec.type, spec.slots, spec.isList, spec.isConst⟩] } := by
  rw [extend_eq, requireNew, Except.bind_ok] at he
  obtain ⟨_, hchecks, he⟩ := he
  cases he
  split at hchecks
  · cases hchecks
  split at hchecks
  · cases hchecks
  split at hchecks
  · cases hchecks
  rename_i hname hnew hslots
  rw [attribute?_isSome] at hnew
  refine ⟨hname, fun hmem => hnew (List.mem_map.1 hmem), fun hfixed => ?_, rfl⟩
  simp only [hfixed, Bool.not_false, Bool.true_and, beq_iff_eq] at hslots
  exact Nat.pos_of_ne_zero hslots

theorem WellFormed.extend (h : s.WellFormed) (he : s.extend spec = .ok s') : s'.WellFormed := by
  obtain ⟨hname, hnew, hslots, rfl⟩ := extend_ok he
  refine ⟨h.named, ?_, ?_, ?_, ?_⟩
  · intro a ha
    rcases List.mem_append.1 ha with ha | ha
    · exact h.attrNamed a ha
    · obtain rfl := List.mem_singleton.1 ha
      exact hname
  · rw [List.map_append, List.map_singleton, ← List.concat_eq_append]
    exact h.distinct.concat hnew
  · exact List.numbered_concat h.numbered rfl
  · intro a ha hfix
    rcases List.mem_append.1 ha with ha | ha
    · exact h.slotted a ha hfix
    · obtain rfl := List.mem_singleton.1 ha
      exact hslots hfix

theorem Declared.wellFormed (h : s.Declared) : s.WellFormed := by
  induction h with
  | new h =>
    unfold Schema.new at h
    split at h
    · cases h
    · rename_i hname
      cases h
      exact ⟨hname, by simp, by simp, by simp, by simp⟩
  | extend _ he ih => exact ih.extend he
  | register id _ ih => exact ⟨ih.named, ih.attrNamed, ih.distinct, ih.numbered, ih.slotted⟩

theorem Declared.foldlM {specs : List AttrSpec} (hs : s.Declared)
    (h : specs.foldlM Schema.extend s = .ok s') : s'.Declared := by
  induction specs generalizing s with
  | nil =>
    cases h
    exact hs
  | cons spec specs ih =>
    obtain ⟨s₁, hs₁, h⟩ := Except.bind_ok.1 h
    exact ih (hs.extend hs₁) h

theorem Declared.ofSpecs {name : String} {specs : List AttrSpec} (h : ofSpecs name specs = .ok s) :
    s.Declared := by
  obtain ⟨s₀, hs₀, h⟩ := Except.bind_ok.1 h
  exact Declared.foldlM (.new hs₀) h

theorem WellFormed.mem (h : s.WellFormed) (ha : a ∈ s.attributes) :
    s.attributes[a.id]? = some a := by
  obtain ⟨i, hi⟩ := List.mem_iff_getElem?.1 ha
  rw [h.numbered i a hi, hi]

theorem WellFormed.attributeNamed_ok (h : s.WellFormed) {name : String} :
    s.attributeNamed name = .ok a ↔ s.attributes[a.id]? = some a ∧ a.name = name := by
  unfold attributeNamed attribute?
  constructor
  · intro ha
    split at ha
    · rename_i b hb
      cases ha
      exact ⟨h.mem (List.mem_of_find?_eq_some hb), by simpa using List.find?_some hb⟩
    · cases ha
  · rintro ⟨ha, rfl⟩
    rw [List.find?_of_nodup h.distinct (List.mem_of_getElem? ha)]

theorem WellFormed.attributeNamed_of_mem (h : s.WellFormed) (ha : a ∈ s.attributes) :
    s.attributeNamed a.name = .ok a := h.attributeNamed_ok.2 ⟨h.mem ha, rfl⟩

theorem attributeAt_ok {id : AttrId} : s.attributeAt id = .ok a ↔ s.attributes[id]? = some a := by
  unfold attributeAt attributeAt?
  cases s.attributes[id]? <;> simp

/-! ## Checks -/

theorem locate_ok {count : Nat} {c : Coord} {shape : Shape} :
    s.locate count c shape = .ok a ↔
      s.attributes[c.attr]? = some a ∧ c.index < count ∧ a.shape = shape := by
  unfold locate
  rw [Except.bind_ok]
  constructor
  · rintro ⟨b, hb, h⟩
    by_cases hlt : count ≤ c.index
    · simp [hlt] at h
    by_cases hsh : b.shape = shape
    · simp only [hlt, hsh, ne_eq, not_true_eq_false, ↓reduceIte] at h
      cases h
      exact ⟨attributeAt_ok.1 hb, by omega, hsh⟩
    · simp [hlt, hsh] at h
  · rintro ⟨ha, hlt, hsh⟩
    exact ⟨a, attributeAt_ok.2 ha, by simp [hsh, Nat.not_le.2 hlt]⟩

theorem attributeAt_of_locate {count : Nat} {c : Coord} {shape : Shape}
    (h : s.locate count c shape = .ok a) : s.attributeAt c.attr = .ok a :=
  attributeAt_ok.2 (locate_ok.1 h).1

theorem locate_of_attributeAt {count : Nat} {c : Coord} {shape : Shape} {e : FrameError}
    (h : s.attributeAt c.attr = .error e) : s.locate count c shape = .error e := by
  rw [locate, h]
  rfl

/-- Of an attribute, an index and a shape that are wrong the first is told. -/
theorem locate_error {count : Nat} {c : Coord} {shape : Shape} {e : FrameError} :
    s.locate count c shape = .error e ↔
      s.attributes[c.attr]? = none ∧ e = .unknownAttribute s.name (.numbered c.attr) ∨
      ∃ a, s.attributes[c.attr]? = some a ∧
        (count ≤ c.index ∧ e = .indexOutOfRange s.name c.index count ∨
          c.index < count ∧ a.shape ≠ shape ∧
            e = .shapeMismatch s.name (.named a.name) shape a.shape) := by
  unfold locate attributeAt attributeAt?
  cases s.attributes[c.attr]? with
  | none => simp [eq_comm]
  | some a =>
    rcases Nat.lt_or_ge c.index count with hlt | hge
    · by_cases hsh : a.shape = shape
      · simp [hlt, hsh, Nat.not_le.2 hlt]
      · simp [hlt, hsh, Nat.not_le.2 hlt, eq_comm (a := e)]
    · simp [hge, Nat.not_lt.2 hge, eq_comm]

theorem requireSlot_ok {slot : Nat} :
    s.requireSlot a slot = .ok () ↔ slot < a.slotCount?.getD 0 := by
  by_cases h : slot < a.slotCount?.getD 0 <;> simp [requireSlot, h]

theorem requireSlot_error {slot : Nat} {e : FrameError} : s.requireSlot a slot = .error e ↔
    a.slotCount?.getD 0 ≤ slot ∧
      e = .slotOutOfRange s.name a.name slot (a.slotCount?.getD 0) := by
  rcases Nat.lt_or_ge slot (a.slotCount?.getD 0) with h | h
  · simp [requireSlot, h, Nat.not_le.2 h]
  · simp [requireSlot, h, Nat.not_lt.2 h, eq_comm]

theorem requireSlotCount_ok {n : Nat} :
    s.requireSlotCount a n = .ok () ↔ n = a.slotCount?.getD 0 := by
  by_cases h : n = a.slotCount?.getD 0 <;> simp [requireSlotCount, h]

theorem requireSlotCount_error {n : Nat} {e : FrameError} : s.requireSlotCount a n = .error e ↔
    n ≠ a.slotCount?.getD 0 ∧
      e = .slotCountMismatch s.name a.name (a.slotCount?.getD 0) n := by
  by_cases h : n = a.slotCount?.getD 0 <;> simp [requireSlotCount, h, eq_comm]

theorem convert_ok {v w : Value} : s.convert a v = .ok w ↔ v.convert? a.type = some w := by
  unfold convert
  cases v.convert? a.type <;> simp

theorem type_convert {v w : Value} (h : s.convert a v = .ok w) : w.type = a.type :=
  Value.type_convert? (convert_ok.1 h)

theorem convertAll_ok {vs ws : List Value} :
    s.convertAll a vs = .ok ws ↔ List.Forall₂ (fun v w => v.convert? a.type = some w) vs ws := by
  simp only [convertAll, Except.mapM_ok, convert_ok]

theorem exists_convertAll {vs : List Value} :
    (∃ ws, s.convertAll a vs = .ok ws) ↔ ∀ v ∈ vs, (v.convert? a.type).isSome := by
  constructor
  · rintro ⟨ws, hws⟩ v hv
    obtain ⟨i, hi⟩ := List.mem_iff_getElem?.1 hv
    obtain ⟨w, -, hw⟩ := (convertAll_ok.1 hws).exists_right hi
    exact Option.isSome_iff_exists.2 ⟨w, hw⟩
  · intro h
    obtain ⟨ws, hws, -⟩ := Except.exists_mapM (f := s.convert a) (R := fun _ _ => True) fun v hv =>
      have ⟨w, hw⟩ := Option.isSome_iff_exists.1 (h v hv)
      ⟨w, convert_ok.2 hw, trivial⟩
    exact ⟨ws, hws⟩

/-- The first value that does not convert is told. -/
theorem convertAll_error {vs : List Value} {e : FrameError} : s.convertAll a vs = .error e ↔
    ∃ v, vs.First (·.convert? a.type = none) v ∧ e = .typeMismatch s.name a.name a.type v := by
  refine Except.mapM_eq_error_first fun v => ?_
  unfold convert
  cases v.convert? a.type <;> simp

theorem length_convertAll {vs ws : List Value} (h : s.convertAll a vs = .ok ws) :
    ws.length = vs.length := (convertAll_ok.1 h).length_eq.symm

theorem type_convertAll {vs ws : List Value} (h : s.convertAll a vs = .ok ws) :
    ∀ w ∈ ws, w.type = a.type := by
  intro w hw
  obtain ⟨i, hi⟩ := List.mem_iff_getElem?.1 hw
  obtain ⟨v, -, hv⟩ := (convertAll_ok.1 h).exists_left hi
  exact Value.type_convert? hv

end Schema

end NodeStore
