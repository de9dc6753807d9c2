import NodeStore.Proofs.Builder.Declarations

/-!
# What the schema table keeps

A declaration is refused and changes nothing, or the table has one more schema at its end, or one of
its schemas one more attribute at its end (`Registry.Grows`). So what a number denotes it denotes
for good (`Registry.Extends`), and the table is the list of what was declared
(`Registry.Tracks`).

* `Registry.perform_grows`: what becomes of the table by one declaration.
* `Registry.Grows.extends`, `Registry.Grows.denotes`, `Registry.Tracks.grows`: what a declaration
  that ends well keeps.
* `Registry.run_stays_coherent`: what the table is like after any declarations, refused ones
  included.
-/

namespace NodeStore

open NodeStore.Action

namespace Registry

/-! ## Declarations -/

/-- The schema a call brings, if any, was made by declarations. -/
def Call.Declared : Call → Prop
  | .register schema => schema.Declared
  | _ => True

/-- The step of a builder that makes the call and gives no count. -/
def Call.step : Call → Builder.Step
  | .declare name => .declareUncounted name
  | .declareWith name specs => .declareWith name specs 0
  | .register schema => .add schema 0
  | .addAttribute id spec => .addAttribute id spec

/-- The schemas the calls declare, each with the attributes added to it later. -/
def declared (made : List Call) : List Declaration := Builder.declarations (made.map Call.step)

/-- What becomes of the table by a call that ends well, and what the call answers. -/
inductive Grows (r : Registry) (call : Call) : Nat → Registry → Prop
  | newSchema (d : Declaration) (hd : call.step.declares? = some d) :
    Grows r call r.size ⟨r.schemas ++ [d.schema r.size]⟩
  | newAttribute (id : SchemaId) (spec : AttrSpec) (s s' : Schema)
    (hcall : call = .addAttribute id spec) (hs : r.schemas[id]? = some s)
    (hext : s.extend spec = .ok s') : Grows r call s.size ⟨r.schemas.set id s'⟩

variable {r r' r'' : Registry} {call : Call} {made : List Call} {n : Nat}

theorem Registers.grows {x : Action Registry SchemaId} {d : Declaration} (hx : Registers x d)
    (hd : call.step.declares? = some d) (r : Registry) : x.Ends r (Grows r call) := by
  refine (hx r).imp ?_
  rintro _ _ ⟨rfl, rfl⟩
  exact .newSchema d hd

/-- A call is refused and leaves the table as it is, or the table grows. -/
theorem perform_grows (hcall : call.Declared) (r : Registry) :
    (perform call).Ends r (Grows r call) := by
  cases call with
  | declare name => exact (declare_registers name 0).grows rfl r
  | declareWith name specs => exact (declareWith_registers name specs 0).grows rfl r
  | register schema =>
    have hwf : schema.WellFormed := Schema.Declared.wellFormed hcall
    exact (register_registers (d := ⟨schema.name, _, 0⟩) rfl hwf.attributes_eq).grows rfl r
  | addAttribute id spec =>
    refine (addAttribute_ends id spec r).imp ?_
    rintro _ _ ⟨s, s', hs, hext, rfl, rfl⟩
    exact .newAttribute id spec s s' rfl hs hext

/-- A call that is refused changes nothing. -/
theorem perform_atomic (hcall : call.Declared) : Atomic (perform call) := by
  intro r e he
  cases perform_grows hcall r with
  | refused _ _ hstate => exact hstate
  | done _ hresult _ =>
    rw [he] at hresult
    cases hresult

/-! ## Numbers that stay -/

/-- What a number denotes in the first table it denotes in the second, where a schema may have more
attributes. -/
def Extends (r r' : Registry) : Prop :=
  ∀ k s, r.get? k = some s → ∃ s', r'.get? k = some s' ∧ s'.id = s.id ∧ s'.name = s.name ∧
    ∀ j a, s.attributeAt? j = some a → s'.attributeAt? j = some a

theorem Extends.refl (r : Registry) : r.Extends r :=
  fun _ s hs => ⟨s, hs, rfl, rfl, fun _ _ ha => ha⟩

theorem Extends.trans (h : r.Extends r') (h' : r'.Extends r'') : r.Extends r'' := by
  intro k s hs
  obtain ⟨s', hs', hid, hname, hattrs⟩ := h k s hs
  obtain ⟨s'', hs'', hid', hname', hattrs'⟩ := h' k s' hs'
  exact ⟨s'', hs'', hid'.trans hid, hname'.trans hname, fun j a ha => hattrs' j a (hattrs j a ha)⟩

theorem Grows.extends (h : Grows r call n r') : r.Extends r' := by
  intro k s hs
  cases h with
  | newSchema d hd =>
    have hlt : k < r.schemas.length := (List.getElem?_eq_some_iff.1 hs).1
    exact ⟨s, (List.getElem?_append_left hlt).trans hs, rfl, rfl, fun _ _ ha => ha⟩
  | newAttribute id spec t t' hcall ht hext =>
    by_cases hk : id = k
    · subst hk
      obtain rfl : t = s := Option.some.inj (ht.symm.trans hs)
      obtain ⟨-, -, -, rfl⟩ := Schema.extend_ok hext
      have hlt := (List.getElem?_eq_some_iff.1 ht).1
      refine ⟨_, List.getElem?_set_self hlt, rfl, rfl, fun j a ha => ?_⟩
      exact (List.getElem?_append_left (List.getElem?_eq_some_iff.1 ha).1).trans ha
    · exact ⟨s, (List.getElem?_set_ne hk).trans hs, rfl, rfl, fun _ _ ha => ha⟩

/-- Calls, refused ones included, only extend the table. -/
theorem after_extends {calls : List Call} (hcalls : ∀ call ∈ calls, call.Declared) (r : Registry) :
    r.Extends (after perform calls r) := by
  have hkeeps : ∀ call ∈ calls, Keeps r.Extends (perform call) := by
    intro call hmem s hs
    cases perform_grows (hcalls call hmem) s with
    | refused _ _ hstate => rwa [hstate]
    | done n _ hgrows => exact hs.trans hgrows.extends
  exact Keeps.after hkeeps (.refl r)

/-- The schema of the number has the name and, at their positions, the attributes. -/
def HasSchema (r : Registry) (id : SchemaId) (name : String) (specs : List AttrSpec) : Prop :=
  ∃ s, r.get? id = some s ∧ s.id = id ∧ s.name = name ∧
    ∀ j spec, specs[j]? = some spec → s.attributeAt? j = some (.ofSpec j spec)

/-- The number the call answered denotes what the call declared. -/
def Denotes (r : Registry) (n : Nat) : Call → Prop
  | .declare name => r.HasSchema n name []
  | .declareWith name specs => r.HasSchema n name specs
  | .register schema => r.HasSchema n schema.name (schema.attributes.map Attribute.spec)
  | .addAttribute id spec =>
    ∃ s, r.get? id = some s ∧ s.id = id ∧ s.attributeAt? n = some (.ofSpec n spec)

theorem Extends.hasSchema (h : r.Extends r') {name : String} {specs : List AttrSpec}
    (hs : r.HasSchema n name specs) : r'.HasSchema n name specs := by
  obtain ⟨s, hs, hid, hname, hattrs⟩ := hs
  obtain ⟨s', hs', hid', hname', hattrs'⟩ := h n s hs
  exact ⟨s', hs', hid'.trans hid, hname'.trans hname,
    fun j spec hj => hattrs' j _ (hattrs j spec hj)⟩

theorem Extends.denotes (h : r.Extends r') (hn : r.Denotes n call) : r'.Denotes n call := by
  cases call with
  | declare name => exact h.hasSchema hn
  | declareWith name specs => exact h.hasSchema hn
  | register schema => exact h.hasSchema hn
  | addAttribute id spec =>
    obtain ⟨s, hs, hid, ha⟩ := hn
    obtain ⟨s', hs', hid', -, hattrs⟩ := h id s hs
    exact ⟨s', hs', hid'.trans hid, hattrs n _ ha⟩

theorem hasSchema_concat (r : Registry) (d : Declaration) :
    HasSchema ⟨r.schemas ++ [d.schema r.size]⟩ r.size d.name d.attrs := by
  refine ⟨d.schema r.size, List.getElem?_concat_length, rfl, rfl, fun j spec hj => ?_⟩
  rw [Schema.attributeAt?, Declaration.schema, List.getElem?_mapIdx, hj, Option.map_some]

theorem Grows.denotes (hr : r.Sound) (h : Grows r call n r') : r'.Denotes n call := by
  cases h with
  | newSchema d hd =>
    cases call with
    | addAttribute id spec => cases hd
    | _ =>
      cases hd
      exact hasSchema_concat r _
  | newAttribute id spec s s' hcall hs hext =>
    subst hcall
    obtain ⟨-, -, -, rfl⟩ := Schema.extend_ok hext
    refine ⟨_, List.getElem?_set_self (List.getElem?_eq_some_iff.1 hs).1, hr.numbered id s hs, ?_⟩
    exact List.getElem?_concat_length

/-! ## The table as declared -/

/-- The table holds what was declared. -/
structure Tracks (r : Registry) (made : List Call) : Prop where
  schemas : r.schemas = (declared made).mapIdx Declaration.schema
  /-- Only schemas declared before are added to. -/
  adds : ∀ id, (declared made).length ≤ id →
    (made.map Call.step).filterMap (Builder.Step.adds? id) = []

theorem Call.sets?_step (call : Call) (id : SchemaId) : call.step.sets? id = none := by
  cases call <;> rfl

namespace Tracks

theorem empty : Tracks {} [] := ⟨rfl, fun _ _ => rfl⟩

theorem size_eq (h : r.Tracks made) : r.size = (declared made).length := by
  rw [size, h.schemas, List.length_mapIdx]

/-- A call that declares a schema. -/
theorem gains (h : r.Tracks made) {d : Declaration} (hd : call.step.declares? = some d) :
    Tracks ⟨r.schemas ++ [d.schema r.size]⟩ (made ++ [call]) := by
  have hsets : (made.map Call.step).filterMap (Builder.Step.sets? (declared made).length) = [] := by
    simp [List.filterMap_map, Call.sets?_step]
  have hdeclared : declared (made ++ [call]) = declared made ++ [d] := by
    rw [declared, List.map_append]
    exact Builder.declarations_concat hd (h.adds _ (Nat.le_refl _)) hsets
  refine ⟨?_, fun id hid => ?_⟩
  · rw [hdeclared, List.mapIdx_concat, ← h.schemas, h.size_eq]
  · rw [hdeclared, List.length_append] at hid
    rw [List.map_append, List.map_singleton, Builder.filterMap_concat, h.adds id (by omega),
      (Builder.Step.declares_only hd).1 id]
    rfl

/-- A call that adds an attribute. -/
theorem addsAttribute (h : r.Tracks made) {id : SchemaId} {spec : AttrSpec} {s s' : Schema}
    (hs : r.schemas[id]? = some s) (hext : s.extend spec = .ok s') :
    Tracks ⟨r.schemas.set id s'⟩ (made ++ [.addAttribute id spec]) := by
  have hlt : id < r.size := (List.getElem?_eq_some_iff.1 hs).1
  have hdeclared : declared (made ++ [.addAttribute id spec]) = (declared made).mapIdx fun i d =>
      ⟨d.name, d.attrs ++ (if id = i then some spec else none).toList, d.count⟩ := by
    rw [declared, List.map_append]
    exact Builder.declarations_revised rfl
  refine ⟨List.ext_getElem? fun k => ?_, fun k hk => ?_⟩
  · have hk (i : Nat) : r.schemas[i]? = (declared made)[i]?.map (·.schema i) := by
      rw [h.schemas, List.getElem?_mapIdx]
    rw [hdeclared, List.getElem?_mapIdx, List.getElem?_mapIdx, Option.map_map]
    by_cases hid : id = k
    · subst hid
      rw [hk] at hs
      obtain ⟨d, hd, rfl⟩ := Option.map_eq_some_iff.1 hs
      rw [List.getElem?_set_self hlt, hd, Schema.extend_declared hext]
      simp
    · rw [List.getElem?_set_ne hid, hk]
      simp [hid, Function.comp_def]
  · rw [hdeclared, List.length_mapIdx] at hk
    have hne : id ≠ k := Nat.ne_of_lt (Nat.lt_of_lt_of_le (h.size_eq ▸ hlt) hk)
    rw [List.map_append, List.map_singleton, Builder.filterMap_concat, h.adds k hk]
    simp [Call.step, Builder.Step.adds?, hne]

theorem grows (h : r.Tracks made) (hgrows : Grows r call n r') : r'.Tracks (made ++ [call]) := by
  cases hgrows with
  | newSchema d hd => exact h.gains hd
  | newAttribute id spec s s' hcall hs hext =>
    subst hcall
    exact h.addsAttribute hs hext

/-- After calls the table holds what those declared that ended well. -/
theorem after {calls : List Call} (h : r.Tracks made) (hcalls : ∀ call ∈ calls, call.Declared) :
    (Action.after perform calls r).Tracks (made ++ succeeded perform calls r) := by
  induction calls generalizing r made with
  | nil =>
    rw [succeeded, List.append_nil]
    exact h
  | cons call calls ih =>
    obtain ⟨hcall, hcalls⟩ := List.forall_mem_cons.1 hcalls
    rw [after_cons, succeeded]
    cases perform_grows hcall r with
    | refused e hresult hstate =>
      rw [hresult, hstate]
      exact ih h hcalls
    | done n hresult hgrows =>
      rw [hresult, List.append_cons]
      exact ih (h.grows hgrows) hcalls

end Tracks

/-! ## Tables in use -/

/-- Numbers are positions and names are keys, in the table and in each of its schemas. -/
structure Coherent (r : Registry) : Prop where
  named : ∀ s ∈ r.schemas, s.name ≠ ""
  distinct : (r.schemas.map Schema.name).Nodup
  ordered : r.schemas.map Schema.id = List.range r.size
  found : ∀ k s, r.get? k = some s → s.id = k ∧ r.named? s.name = some s
  attrNamed : ∀ s ∈ r.schemas, ∀ a ∈ s.attributes, a.name ≠ ""
  attrDistinct : ∀ s ∈ r.schemas, (s.attributes.map Attribute.name).Nodup
  attrFound : ∀ s ∈ r.schemas, ∀ j a, s.attributeAt? j = some a →
    a.id = j ∧ s.attribute? a.name = some a
  slotted : ∀ s ∈ r.schemas, ∀ a ∈ s.attributes, a.isList = false → 0 < a.slots

theorem Sound.coherent (h : r.Sound) : r.Coherent where
  named s hs := (h.declared s hs).wellFormed.named
  distinct := h.distinct
  ordered := List.ext_getElem (by simp [size]) fun k hk _ => by
    rw [List.getElem_map, List.getElem_range]
    exact h.numbered k _ (List.getElem?_eq_getElem (by simpa using hk))
  found k s hs := ⟨h.numbered k s hs, List.find?_of_nodup h.distinct (List.mem_of_getElem? hs)⟩
  attrNamed s hs := (h.declared s hs).wellFormed.attrNamed
  attrDistinct s hs := (h.declared s hs).wellFormed.distinct
  attrFound s hs j a ha :=
    ⟨(h.declared s hs).wellFormed.numbered j a ha,
      List.find?_of_nodup (h.declared s hs).wellFormed.distinct (List.mem_of_getElem? ha)⟩
  slotted s hs := (h.declared s hs).wellFormed.slotted

theorem perform_keeps (hcall : call.Declared) : Keeps Sound (perform call) := by
  cases call with
  | declare name => exact declare_keeps name
  | declareWith name specs => exact declareWith_keeps name specs
  | register schema => exact register_keeps hcall
  | addAttribute id spec => exact addAttribute_keeps id spec

theorem Sound.after {calls : List Call} (h : r.Sound) (hcalls : ∀ call ∈ calls, call.Declared) :
    (Action.after perform calls r).Sound :=
  Keeps.after (fun call hmem => perform_keeps (hcalls call hmem)) h

/-- After any declarations, refused ones included, the table is coherent and holds what was
declared, in order: the schema of number `k` is the `k`-th that was declared, and so with its
attributes. Every number that was ever answered denotes what it was answered for, and what a number
denoted at some time it denotes ever after. A declaration that is refused changes nothing. -/
theorem run_stays_coherent {calls : List Call} (hcalls : ∀ call ∈ calls, call.Declared) :
    (after perform calls {}).Coherent ∧
    (after perform calls {}).schemas =
      (declared (succeeded perform calls {})).mapIdx Declaration.schema ∧
    (∀ before call later n, calls = before ++ call :: later →
      (perform call (after perform before {})).result = .ok n →
      (after perform calls {}).Denotes n call) ∧
    (∀ before later, calls = before ++ later →
      (after perform before {}).Extends (after perform calls {})) ∧
    ∀ call ∈ calls, Atomic (perform call) := by
  have hsound : ∀ before later, calls = before ++ later → (after perform before {}).Sound :=
    fun before later h => sound_empty.after fun call hmem =>
      hcalls call (h ▸ List.mem_append_left later hmem)
  have hextends : ∀ before later, calls = before ++ later →
      (after perform before {}).Extends (after perform calls {}) := by
    rintro before later rfl
    rw [after_append]
    exact after_extends (fun call hmem => hcalls call (List.mem_append_right before hmem)) _
  refine ⟨(hsound calls [] (List.append_nil calls).symm).coherent,
    (Tracks.empty.after hcalls).schemas, fun before call later n heq hresult => ?_, hextends,
    fun call hmem => perform_atomic (hcalls call hmem)⟩
  have hcall : call.Declared := hcalls call (by simp [heq])
  have hthen : (after perform (before ++ [call]) {}).Denotes n call := by
    rw [after_append, after_cons, after_nil]
    cases perform_grows hcall (after perform before {}) with
    | refused e herror _ =>
      rw [herror] at hresult
      cases hresult
    | done m hm hgrows =>
      rw [hm] at hresult
      cases hresult
      exact hgrows.denotes (hsound before _ heq)
  exact (hextends (before ++ [call]) later (by simp [heq])).denotes hthen

/-- A declaration that fails at its second attribute, a schema that comes with a number of its own,
an attribute added between, a name that is taken, and a number that there is not. -/
theorem run_stays_coherent_refused : ∃ (calls : List Call) (r : Registry),
    calls = [.declareWith "cell" [⟨"x", .int8, 2, false, false⟩, ⟨"x", .int16, 1, false, false⟩],
      .declare "cell", .register ⟨7, "log", [⟨0, "at", .int64, 1, true, true⟩]⟩,
      .addAttribute 0 ⟨"x", .int8, 2, false, false⟩, .declare "log",
      .addAttribute 2 ⟨"y", .int8, 1, false, false⟩] ∧
    (∀ call ∈ calls, call.Declared) ∧ r = after perform calls {} ∧
    answers perform calls {} = [.error (.duplicateAttribute "cell" "x"), .ok 0, .ok 1, .ok 0,
      .error (.duplicateSchema "log"), .error (.unknownSchema (.numbered 2))] ∧
    r.Coherent ∧ r.schemas = [⟨0, "cell", [⟨0, "x", .int8, 2, false, false⟩]⟩,
      ⟨1, "log", [⟨0, "at", .int64, 1, true, true⟩]⟩] ∧
    r.Denotes 1 (.register ⟨7, "log", [⟨0, "at", .int64, 1, true, true⟩]⟩) ∧
    Extends ⟨[⟨0, "cell", []⟩]⟩ r := by
  have hlog : Schema.Declared ⟨7, "log", [⟨0, "at", .int64, 1, true, true⟩]⟩ :=
    .register 7 (.ofSpecs (show Schema.ofSpecs "log" [⟨"at", .int64, 1, true, true⟩] = _ from rfl))
  have hcalls : ∀ call ∈ [Call.declareWith "cell" [⟨"x", .int8, 2, false, false⟩,
      ⟨"x", .int16, 1, false, false⟩], .declare "cell",
      .register ⟨7, "log", [⟨0, "at", .int64, 1, true, true⟩]⟩,
      .addAttribute 0 ⟨"x", .int8, 2, false, false⟩, .declare "log",
      .addAttribute 2 ⟨"y", .int8, 1, false, false⟩], call.Declared := by
    simp [Call.Declared, hlog]
  obtain ⟨hcoherent, hschemas, hdenotes, hextends, -⟩ := run_stays_coherent hcalls
  exact ⟨_, _, rfl, hcalls, rfl, rfl, hcoherent, hschemas.trans rfl,
    hdenotes [_, _] _ [_, _, _] 1 rfl rfl, hextends [_, _] [_, _, _, _] rfl⟩

end Registry

end NodeStore
