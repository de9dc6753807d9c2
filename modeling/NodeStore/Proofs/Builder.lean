import NodeStore.Proofs.Frame.Alike
import NodeStore.Session

/-!
# Built frames

Whatever is declared, the schema table holds schemas made by declarations, numbered by their
positions and under distinct names (`Registry.Sound`).

Builders that take the same steps but for the kind of storage (`Builder.Step.Alike`) stay the same
but for the kind (`Builder.Alike`), and build frames alike or fail alike (`Session.buildBy_alike`).
-/

namespace NodeStore

/-! ## The schema table -/

/-- What registration guarantees. -/
structure Registry.Sound (r : Registry) : Prop where
  declared : ∀ s ∈ r.schemas, s.Declared
  numbered : ∀ (i : Nat) s, r.schemas[i]? = some s → s.id = i
  distinct : (r.schemas.map Schema.name).Nodup

namespace Registry

variable {r : Registry} {schema : Schema} {id : Nat}

theorem sound_empty : Sound {} := ⟨by simp, by simp, by simp⟩

theorem named?_isSome {name : String} :
    (r.named? name).isSome = true ↔ ∃ s ∈ r.schemas, s.name = name := by
  simp [named?]

theorem Sound.snoc (h : r.Sound) (hs : schema.Declared) (hnew : ¬ (r.named? schema.name).isSome) :
    Sound ⟨r.schemas ++ [{ schema with id := r.size }]⟩ := by
  rw [named?_isSome] at hnew
  refine ⟨?_, List.numbered_concat h.numbered rfl, ?_⟩
  · intro s hs'
    rcases List.mem_append.1 hs' with hs' | hs'
    · exact h.declared s hs'
    · rw [List.mem_singleton.1 hs']
      exact hs.register r.size
  · rw [List.map_append, List.map_singleton, ← List.concat_eq_append]
    exact h.distinct.concat fun hmem => hnew (List.mem_map.1 hmem)

theorem Sound.set (h : r.Sound) {s' : Schema} (hs : r.schemas[id]? = some schema)
    (hs' : s'.Declared) (hid : s'.id = schema.id) (hname : s'.name = schema.name) :
    Sound ⟨r.schemas.set id s'⟩ := by
  refine ⟨?_, ?_, ?_⟩
  · intro s hmem
    rcases List.mem_or_eq_of_mem_set hmem with hmem | rfl
    · exact h.declared s hmem
    · exact hs'
  · intro i s hi
    by_cases hij : id = i
    · subst hij
      rw [List.getElem?_set_self (List.getElem?_eq_some_iff.1 hs).1] at hi
      cases hi
      rw [hid, h.numbered id schema hs]
    · rw [List.getElem?_set_ne hij] at hi
      exact h.numbered i s hi
  · have hmap : (r.schemas.set id s').map Schema.name = r.schemas.map Schema.name :=
      List.map_set_of_eq hs hname
    rw [hmap]
    exact h.distinct

theorem register_keeps (hs : schema.Declared) : Action.Keeps Sound (register schema) := by
  intro r h
  unfold register
  rw [Action.bind_apply, Action.get_apply]
  by_cases hnew : (r.named? schema.name).isSome
  · simp only [hnew, ↓reduceIte]
    exact h
  · simp only [hnew]
    exact h.snoc hs hnew

theorem declare_keeps (name : String) : Action.Keeps Sound (declare name) :=
  .bind' (.read _) fun _ _ _ h => register_keeps (.new h)

theorem declareWith_keeps (name : String) (specs : List AttrSpec) :
    Action.Keeps Sound (declareWith name specs) :=
  .bind' (.read _) fun _ _ _ h => register_keeps (.ofSpecs h)

theorem declared_declare (h : schema.Declared) (spec : AttrSpec) :
    (Schema.declare spec schema).state.Declared ∧
      (Schema.declare spec schema).state.id = schema.id ∧
      (Schema.declare spec schema).state.name = schema.name := by
  rw [Schema.declare_eq]
  cases hext : schema.extend spec with
  | error e => exact ⟨h, rfl, rfl⟩
  | ok s' =>
    obtain ⟨-, -, -, rfl⟩ := Schema.extend_ok hext
    exact ⟨h.extend hext, rfl, rfl⟩

theorem addAttribute_keeps (id : SchemaId) (spec : AttrSpec) :
    Action.Keeps Sound (addAttribute id spec) := by
  intro r h
  unfold addAttribute
  rw [Action.bind_apply, Action.get_apply]
  cases hs : r.get? id with
  | none =>
    simp only [hs]
    exact h
  | some schema =>
    have hget : r.schemas[id]? = some schema := hs
    simp only [hs, Action.on_apply]
    obtain ⟨hdecl, hid, hname⟩ :=
      declared_declare (h.declared schema (List.mem_of_getElem? hget)) spec
    exact h.set hget hdecl hid hname

end Registry

/-! ## Builders alike -/

namespace Builder

/-- The same builder but for the kind of storage, with stores of the callers' own, if any, related
by `Q`. -/
inductive Alike (Q : Store → Store → Prop) : Builder → Builder → Prop
  | mk {registry : Registry} (hr : registry.Sound) (counts : List Nat) (capacity : Option Nat)
      (k k' : Kind) {x y : Option Store} (h : Option.Rel Q x y) :
      Alike Q ⟨registry, counts, ⟨k, capacity⟩, x⟩ ⟨registry, counts, ⟨k', capacity⟩, y⟩

variable {Q : Store → Store → Prop} {α β γ : Type}

theorem Alike.empty (Q : Store → Store → Prop) : Alike Q {} {} :=
  .mk Registry.sound_empty [] none _ _ .none

theorem inRegistry_alike {x : Action Registry α} (h : Action.Keeps Registry.Sound x) :
    Action.Respects (Alike Q) Eq (inRegistry x) (inRegistry x) := by
  rintro b c ⟨hr, counts, capacity, k, k', hst⟩
  exact ⟨.of_eq (fun _ => rfl) rfl, .mk (h _ hr) counts capacity k k' hst⟩

theorem setCount_alike (id : SchemaId) (count : Nat) :
    Action.Respects (Alike Q) Eq (setCount id count) (setCount id count) := by
  refine .bind .get ?_
  intro b c hbc
  obtain ⟨hr, counts, capacity, k, k', hst⟩ := hbc
  rename_i registry _ _
  simp only
  cases registry.get? id with
  | none => exact .fail _
  | some schema =>
    refine .modify ?_
    intro b c hbc
    obtain ⟨hr, counts, capacity, k, k', hst⟩ := hbc
    exact .mk hr _ capacity k k' hst

theorem withCount_alike {x : Action Registry SchemaId} (h : Action.Keeps Registry.Sound x)
    (count : Nat) : Action.Respects (Alike Q) Eq (withCount x count) (withCount x count) := by
  refine .bind (inRegistry_alike h) ?_
  intro id _ hid
  subst hid
  exact .bind (setCount_alike id count) fun _ _ _ => .pure rfl

theorem setSnapshots_alike (capacity : Nat) :
    Action.Respects (Alike Q) Eq (setSnapshots capacity) (setSnapshots capacity) := by
  refine .modify ?_
  intro b c hbc
  obtain ⟨hr, counts, _, k, k', hst⟩ := hbc
  exact .mk hr counts _ k k' hst

theorem setKind_alike (k k' : Kind) :
    Action.Respects (Alike Q) Eq (setKind k) (setKind k') := by
  refine .modify ?_
  intro b c hbc
  obtain ⟨hr, counts, capacity, _, _, hst⟩ := hbc
  exact .mk hr counts capacity k k' hst

theorem setConfig_alike (c : Config) (k : Kind) :
    Action.Respects (Alike Q) Eq (setConfig c) (setConfig { c with kind := k }) := by
  refine .modify ?_
  intro b b' hbc
  obtain ⟨hr, counts, _, _, _, hst⟩ := hbc
  exact .mk hr counts c.capacity c.kind k hst

theorem usePreloaded_alike {k k' : Kind} {schemas : List Schema} (hnew : Q (.new k) (.new k'))
    (h : ∀ s ∈ schemas, Action.Respects Q Eq (Store.allocate s 1) (Store.allocate s 1)) :
    Action.Respects (Alike Q) Eq (usePreloaded k schemas) (usePreloaded k' schemas) := by
  refine .bind (.within (.bind (.forM (List.forall₂_same.2 h)) fun _ _ _ => .get) hnew)
    fun s t hst => .modify fun b c hbc => ?_
  obtain ⟨hr, counts, capacity, k, k', _⟩ := hbc
  exact .mk hr counts capacity k k' (.some hst)

/-! ### Steps -/

/-- The schemas it brings, if any, were made by declarations. -/
def Step.Declared : Step → Prop
  | .add schema _ => schema.Declared
  | .usePreloaded _ schemas => ∀ s ∈ schemas, s.Declared
  | _ => True

/-- The same step, the kind of storage apart. -/
inductive Step.Alike : Step → Step → Prop
  | same {step : Step} : step.Declared → Alike step step
  | kind (k k' : Kind) : Alike (.setKind k) (.setKind k')
  | config (c : Config) (k : Kind) : Alike (.setConfig c) (.setConfig { c with kind := k })
  | preloaded (k k' : Kind) {schemas : List Schema} : (∀ s ∈ schemas, s.Declared) →
      Alike (.usePreloaded k schemas) (.usePreloaded k' schemas)

variable {step step' : Step}

theorem Step.Alike.isFinal_eq (h : step.Alike step') : step.isFinal = step'.isFinal := by
  cases h <;> rfl

/-- An action whose answer is dropped. -/
theorem quiet_alike {x : Action Builder α} {y : Action Builder β} {S : α → β → Prop}
    (h : Action.Respects (Alike Q) S x y) {a : γ} :
    Action.Respects (Alike Q) Eq (do let _ ← x; return a) (do let _ ← y; return a) :=
  .bind h fun _ _ _ => .pure rfl

/-- What a step does to builders alike, if stores of the callers' own come related. -/
theorem perform_alike (h : step.Alike step')
    (hown : ∀ k k' schemas, step = .usePreloaded k schemas → (∀ s ∈ schemas, s.Declared) →
      Action.Respects (Alike Q) Eq (usePreloaded k schemas) (usePreloaded k' schemas)) :
    Action.Respects (Alike Q) Eq (perform step) (perform step') := by
  cases h with
  | kind k k' => exact quiet_alike (setKind_alike k k')
  | config c k => exact quiet_alike (setConfig_alike c k)
  | preloaded k k' hs => exact quiet_alike (hown k k' _ rfl hs)
  | same hstep =>
    cases step with
    | declare name count =>
      exact .bind (withCount_alike (Registry.declare_keeps name) count) fun _ _ h => .pure (h ▸ rfl)
    | addAttribute id spec =>
      exact quiet_alike (quiet_alike (inRegistry_alike (Registry.addAttribute_keeps id spec)))
    | declareUncounted name =>
      exact .bind (inRegistry_alike (Registry.declare_keeps name)) fun _ _ h => .pure (h ▸ rfl)
    | setCount id count => exact quiet_alike (setCount_alike id count)
    | setConfig c => exact quiet_alike (setConfig_alike c c.kind)
    | setKind k => exact quiet_alike (setKind_alike k k)
    | usePreloaded k schemas => exact quiet_alike (hown k k schemas rfl hstep)
    | setSnapshots capacity => exact quiet_alike (setSnapshots_alike capacity)
    | declareWith name specs count =>
      exact quiet_alike
        (quiet_alike (withCount_alike (Registry.declareWith_keeps name specs) count))
    | add schema count =>
      exact quiet_alike (quiet_alike (withCount_alike (Registry.register_keeps hstep) count))
    | addNode n count =>
      exact quiet_alike
        (quiet_alike (withCount_alike (Registry.declareWith_keeps n.name n.attributes) count))

/-! ### Building -/

theorem ofSchemas_alike {schemas : List (Schema × Nat)} (h : ∀ p ∈ schemas, p.1.WellFormed)
    (ring : Option Ring) :
    Action.Respects Store.Alike Frame.Alike (Frame.ofSchemas schemas ring)
      (Frame.ofSchemas schemas ring) := by
  refine .bind (.forM (List.forall₂_same.2 ?_)) fun _ _ _ => .bind .get fun s t hst => .pure ?_
  · rintro ⟨schema, count⟩ hp
    exact Store.allocate_alike (h _ hp) count
  · exact .mk hst _ _ ring

theorem startStore_alike {b c : Builder} (h : Alike Store.Alike b c) :
    b.startStore.Alike c.startStore := by
  obtain ⟨_, _, _, k, k', hst⟩ := h
  cases hst with
  | some hst => exact hst
  | none => exact Store.new_alike k k'

theorem build_alike : Action.Respects (Alike Store.Alike) Frame.Alike build build := by
  refine .bind (.read (S := Eq) fun b c hbc => ?_) fun _ _ _ => .bind .get fun b c hbc => ?_
  · cases hbc
    exact .of_eq (fun _ => rfl) rfl
  have hstart := startStore_alike hbc
  obtain ⟨hr, counts, capacity, k, k', hst⟩ := hbc
  refine .bind (.read (S := Eq) fun b c hbc => ?_) fun ring _ h => ?_
  · cases hbc
    exact .of_eq (fun _ => rfl) rfl
  subst h
  refine .bind (.within (ofSchemas_alike (fun p hp => ?_) ring) hstart) fun f g hfg =>
    .bind (.emit _ _) fun _ _ _ => .pure hfg
  exact (hr.declared p.1 (List.of_mem_zip hp).1).wellFormed

end Builder

namespace Session

/-- Takes one step of building. -/
def takeStep (step : Builder.Step) : Action Builder Unit := do
  if step.isFinal then
    let _ ← Builder.perform step
  else
    let _ ← (Builder.perform step).attempt

theorem buildBy_eq (steps : List Builder.Step) :
    buildBy steps = (steps.forM takeStep >>= fun _ => Builder.build) := rfl

theorem takeStep_alike {Q : Store → Store → Prop} {step step' : Builder.Step}
    (hfinal : step.isFinal = step'.isFinal)
    (h : Action.Respects (Builder.Alike Q) Eq (Builder.perform step) (Builder.perform step')) :
    Action.Respects (Builder.Alike Q) Eq (takeStep step) (takeStep step') := by
  rw [takeStep, hfinal]
  exact .ite (fun _ => .bind h fun _ _ _ => .pure rfl)
    fun _ => .bind h.attempt fun _ _ _ => .pure rfl

/-- Builders that take the same steps but for the kind of storage build frames alike, or fail
alike. -/
theorem buildBy_alike {steps steps' : List Builder.Step}
    (h : List.Forall₂ Builder.Step.Alike steps steps') :
    Action.Respects (Builder.Alike Store.Alike) Frame.Alike (buildBy steps) (buildBy steps') := by
  rw [buildBy_eq, buildBy_eq]
  refine .bind (.forM (h.imp fun step step' hstep => ?_)) fun _ _ _ => Builder.build_alike
  exact takeStep_alike hstep.isFinal_eq <| Builder.perform_alike hstep fun k k' schemas _ hs =>
    Builder.usePreloaded_alike (Store.new_alike k k') fun s hs' =>
      Store.allocate_alike (hs s hs').wellFormed 1

end Session

end NodeStore
