import NodeStore.Episode.Scripted
import NodeStore.Proofs.Episode.Basic
import NodeStore.Proofs.Frame.Frozen
import NodeStore.Proofs.Frame.Rebuild

/-!
# Runners and seals

A runner that is set up faces a frame all of whose instances are sealed: setting up ends in sealing
them, no operation but a reset opens one again (`Frame.allSealed_leads`), and a reset of the runner
that ends well leaves it to be set up anew.

A reset that fails does not. It resets the frame first and stops at the first entity that fails,
with the runner still counting as set up: `Runner.started_unsealed`. So the statement of
`Runner.started_faces_sealed` is about runs whose last reset ended well.
-/

namespace NodeStore

open NodeStore.Action

/-! ## Frames whose instances are sealed -/

namespace Frame

variable {f g : Frame} {shape : List (Schema × Nat)} {op : Op} {id index : Nat}

/-- Every instance of every schema is sealed. -/
def AllSealed (f : Frame) : Prop :=
  ∀ schema ∈ f.schemas, ∀ index < f.count schema.id, f.isSealed schema.name index = .ok true

/-- No operation but a reset opens a sealed instance. -/
theorem Effect.isSealedAt_mono {result : Except FrameError Answer}
    (he : Effect shape f op result g) (hop : op ≠ .reset)
    (hsealed : f.isSealedAt id index = true) : g.isSealedAt id index = true := by
  rcases he.seals_cases with hsame | ⟨hreset, -⟩ | ⟨-, hgrow, -⟩
  · rwa [isSealedAt_congr hsame]
  · exact absurd hreset hop
  · exact hgrow id index hsealed

theorem allSealed_perform (hop : op ≠ .reset) :
    Keeps (fun f => f.Intact shape ∧ f.AllSealed) (perform op) := by
  rintro f ⟨hf, hsealed⟩
  have hg := perform_intact op f hf
  refine ⟨hg, fun schema hschema index hindex => ?_⟩
  have hschema' : schema ∈ f.schemas := by
    rwa [hg.sound.schemas_same hf.sound]
  have hindex' : index < f.count schema.id := by
    rwa [hg.sound.count_same hf.sound]
  obtain ⟨-, hat⟩ := (isSealed_ok hf.sound hschema').1 (hsealed schema hschema' index hindex')
  exact (isSealed_ok hg.sound hschema).2 ⟨hindex, (hf.effect op).isSealedAt_mono hop hat⟩

/-- Operations without a reset lead from sealed frames to sealed ones. -/
theorem allSealed_leads (hf : f.Intact shape) (hleads : f.Leads (· ≠ .reset) g)
    (h : f.AllSealed) : g.AllSealed :=
  (hleads.keeps (fun _ hop => allSealed_perform hop) ⟨hf, h⟩).2

/-- Sealing everything seals every instance, given a seal set for each schema. -/
theorem allSealed_sealAll (hf : f.Sound shape) (hseals : f.seals.length = f.schemas.length) :
    (sealAll f).state.AllSealed := by
  have hg : (sealAll f).state.Sound shape :=
    (Leads.of_perform (P := fun _ => True) .sealAll rfl trivial f).keeps
      (fun op _ => perform_sound op) hf
  intro schema hschema index hindex
  refine (isSealed_ok hg hschema).2 ⟨hindex, ?_⟩
  have hschema' : schema ∈ f.schemas := hschema
  obtain ⟨i, hi⟩ := List.mem_iff_getElem?.1 hschema'
  obtain rfl : schema.id = i := hf.numbered i schema hi
  have hlt : schema.id < f.seals.length := by
    rw [hseals]
    exact (List.getElem?_eq_some_iff.1 hi).1
  have hcount : index < f.count schema.id := by
    rwa [hg.count_same hf]
  change ((f.seals.mapIdx fun id set => set.insertBelow (f.count id))[schema.id]?).any
    (·.contains index) = true
  simp [hlt, InstanceSet.contains_insertBelow, hcount]

/-- What operations lead to from a built frame is intact, with a seal set for each schema. -/
theorem Blank.leads {f₀ : Frame} (h : f₀.Blank shape) (hleads : f₀.Leads (fun _ => True) f) :
    f.Intact shape ∧ f.seals.length = f.schemas.length := by
  have hf : f.Intact shape := hleads.keeps (fun op _ => perform_intact op) h.intact
  have hsame : f₀.SameBuild f := hleads.keeps (fun op _ => perform_sameBuild op) (.refl f₀)
  refine ⟨hf, ?_⟩
  rw [hsame.seals, h.seals, hf.sound.schemas, List.length_map, List.length_map]

end Frame

namespace Runner

variable {ε W : Type} [HoldsFrame W] [LawfulWorld W] [Entity ε W] {r₀ : Runner ε} {f₀ : Frame}
  {shape : List (Schema × Nat)} {s : Runner ε × W}

/-! ## Runners that are set up -/

/-- The runner is in use, and if it is set up, its frame is sealed. -/
structure Ready (r₀ : Runner ε) (f₀ : Frame) (s : Runner ε × W) : Prop where
  uses : Uses r₀ f₀ s
  faces : s.1.started = true → (HoldsFrame.frame s.2).AllSealed

omit [LawfulWorld W] in
/-- What setting up leaves: where it stopped, or a sealed frame and a runner that is set up. -/
theorem start_state (s : Runner ε × W) :
    (start s).state = (callAll .start s).state ∨
      (start s).state.2 = (inWorld (inFrame Frame.sealAll) (callAll .start s).state).state.2 := by
  cases hres : (callAll .start s).result with
  | error e => exact .inl (bind_of_error hres).2
  | ok _ =>
    have hstate : (start s).state = _ := (bind_of_ok hres).2
    right
    rw [hstate]
    rfl

omit [LawfulWorld W] in
/-- A reset that ends well leaves the runner to be set up anew. -/
theorem started_reset (h : (reset s).result = .ok ()) : (reset s).state.1.started = false := by
  obtain ⟨_, hframe, hrest⟩ := bind_ok.1 h
  obtain ⟨_, hcalls, -⟩ := bind_ok.1 hrest
  have hstate : (reset s).state = _ := (bind_of_ok hframe).2.trans (bind_of_ok hcalls).2
  rw [hstate]
  rfl

theorem capture_ready (hf₀ : f₀.Blank shape) (t : Tick) :
    Keeps (Ready (W := W) r₀ f₀) (inWorld (inFrame (Frame.capture t))) := by
  refine fun s h =>
    ⟨inFrame_uses (.of_perform (.capture t) rfl trivial) s h.uses, fun hstarted => ?_⟩
  rw [frame_inFrame]
  exact Frame.allSealed_leads (hf₀.leads h.uses.leads).1 (.of_perform (.capture t) rfl nofun _)
    (h.faces hstarted)

section
variable (hf₀ : f₀.Blank shape) (hacts : ∀ e₀ ∈ r₀.entities, Entity.Acts W (· ≠ .reset) e₀)
include hf₀ hacts

omit [LawfulWorld W] in
theorem callAll_ready (phase : Phase) :
    Keeps (Ready (W := W) r₀ f₀) (callAll phase) := by
  refine fun s h => ⟨?_, fun hstarted => ?_⟩
  · exact callAll_uses (fun e he => (hacts e he).mono fun _ _ => trivial) phase s h.uses
  · exact Frame.allSealed_leads (hf₀.leads h.uses.leads).1 (callEach_leads hacts h.uses.grown s.2)
      (h.faces hstarted)

theorem start_ready : Keeps (Ready (W := W) r₀ f₀) (start) := by
  intro s h
  have hcalled := callAll_ready hf₀ hacts .start s h
  refine ⟨perform_uses (fun e he => (hacts e he).mono fun _ _ => trivial) .start s h.uses, ?_⟩
  rcases start_state s with hstate | hframe
  · rw [hstate]
    exact hcalled.faces
  · intro _
    obtain ⟨hf, hseals⟩ := hf₀.leads hcalled.uses.leads
    rw [hframe, frame_inFrame]
    exact Frame.allSealed_sealAll hf.sound hseals

/-- Every call but a reset keeps a runner so. -/
theorem perform_ready {call : Call} (hcall : call ≠ .reset) :
    Keeps (Ready (W := W) r₀ f₀) (perform call) := by
  have hcalls := callAll_ready hf₀ hacts
  have hstart := start_ready hf₀ hacts
  have hcapture (t : Tick) : Keeps (Ready (W := W) r₀ f₀) (inWorld (inFrame (Frame.capture t))) :=
    capture_ready hf₀ t
  cases call with
  | start => exact hstart
  | tick t => exact tick_keeps hcalls hstart hcapture t
  | episode first stop => exact episode_keeps hcalls hstart hcapture first stop
  | reset => exact absurd rfl hcall

end

variable {calls : List Call}

/-- In any use of a new runner over entities that do not reset the frame, whatever calls failed, if
the runner counts as set up then every instance is sealed, given that its last reset, if there was
one, ended well. A reset that ends well leaves the runner to be set up anew. -/
theorem started_faces_sealed {w : W} (hw : (HoldsFrame.frame w).Reachable) {es : List ε}
    (hacts : ∀ e ∈ es, Entity.Acts W (· ≠ .reset) e) (capture : Bool)
    (hs : s = after perform calls (⟨es, capture, false⟩, w))
    (hlast : ∀ pre post, calls = pre ++ .reset :: post → .reset ∉ post →
      (perform .reset (after perform pre (⟨es, capture, false⟩, w))).result = .ok ()) :
    (s.1.started = true → (HoldsFrame.frame s.2).AllSealed) ∧
      ((perform .reset s).result = .ok () → (perform .reset s).state.1.started = false) := by
  obtain ⟨f₀, ops, hbuilt, hframe⟩ := hw
  obtain ⟨shape, hblank⟩ := hbuilt.blank
  have hnew : Uses ⟨es, capture, false⟩ f₀ (⟨es, capture, false⟩, w) :=
    uses_new _ ⟨ops, fun _ _ => trivial, hframe⟩
  suffices hready : Ready ⟨es, capture, false⟩ f₀ s from ⟨hready.faces, started_reset⟩
  -- On the calls: a reset that ended well leaves the runner not set up, other calls keep it ready.
  induction calls using List.reverseRecOn generalizing s with
  | nil =>
    subst hs
    exact ⟨hnew, nofun⟩
  | append_singleton calls call ih =>
    rw [after_append, after_cons, after_nil] at hs
    by_cases hreset : call = .reset
    · subst hreset hs
      have hok := hlast calls [] rfl List.not_mem_nil
      refine ⟨?_, fun hstarted => absurd hstarted (Bool.eq_false_iff.1 (started_reset hok))⟩
      have hacts' : ∀ e ∈ es, Entity.Acts W (fun _ => True) e :=
        fun e he => (hacts e he).mono fun _ _ => trivial
      exact perform_uses hacts' .reset _ (hnew.after hacts' calls)
    · subst hs
      refine perform_ready hblank hacts hreset _ (ih rfl fun pre post hcalls hpost => ?_)
      refine hlast pre (post ++ [call]) (by rw [hcalls, List.append_assoc, List.cons_append]) ?_
      intro hmem
      rcases List.mem_append.1 hmem with hmem | hmem
      · exact hpost hmem
      · exact hreset (List.mem_singleton.1 hmem).symm

/-- An entity that numbers the counter when it is set up, and in one phase reads an attribute that
there is not. -/
def failingIn (bad : Phase) : Scripted Frame Frame.Answer where
  name := "counter"
  program phase :=
    if phase = bad then [Frame.perform (.access "counter" 0 "gone" (.get 0))]
    else if phase = .start then
      [Frame.perform (.access "counter" 0 "id" (.set 0 (.int ⟨false, .four⟩ 9)))]
    else []

theorem failingIn_acts (bad : Phase) :
    Entity.Acts (Noted Frame Frame.Answer) (· ≠ .reset) (failingIn bad) := by
  refine Scripted.acts fun phase x hx => ?_
  simp only [failingIn] at hx
  split at hx
  · exact ⟨.access "counter" 0 "gone" (.get 0), nofun, List.mem_singleton.1 hx⟩
  · split at hx
    · exact ⟨.access "counter" 0 "id" _, nofun, List.mem_singleton.1 hx⟩
    · exact absurd hx List.not_mem_nil

/-- A runner whose first tick fails half-way and that is reset and fails again. -/
theorem started_faces_sealed_failing : ∃ (f : Frame)
    (s : Runner (Scripted Frame Frame.Answer) × Noted Frame Frame.Answer), f.Built ∧
    s = after perform [.tick 0, .reset, .tick 0] (⟨[failingIn (.step 0)], false, false⟩, ⟨f, []⟩) ∧
    (perform (.tick 0) s).result =
      .error (.unknownAttribute "counter" (.named "gone")) ∧
    s.1.started = true ∧ s.2.world.AllSealed ∧ s.2.world.isSealed "counter" 0 = .ok true := by
  have hsteps : ∀ step ∈ [Builder.Step.declareWith "counter"
      [⟨"id", .uint32, 1, false, true⟩] 1], step.Standard := by
    simp [Builder.Step.Standard]
  have hcounter : Frame.Built _ := ⟨_, hsteps, rfl⟩
  have hresets (pre post : List Call)
      (h : [.tick 0, .reset, .tick 0] = pre ++ Call.reset :: post) : pre = [.tick 0] := by
    rcases pre with _ | ⟨_, _ | ⟨_, _ | ⟨_, pre⟩⟩⟩ <;> simp_all
  have hacts : ∀ e ∈ [failingIn (.step 0)],
      Entity.Acts (Noted Frame Frame.Answer) (· ≠ .reset) e := by
    intro e he
    rw [List.mem_singleton.1 he]
    exact failingIn_acts (.step 0)
  obtain ⟨hsealed, -⟩ := started_faces_sealed
    (w := (⟨_, []⟩ : Noted Frame Frame.Answer)) ⟨_, [], hcounter, rfl⟩ hacts false
    (show _ = after perform [.tick 0, .reset, .tick 0] _ from rfl) fun pre post hcalls _ => by
      rw [hresets pre post hcalls]
      rfl
  exact ⟨_, _, hcounter, rfl, rfl, rfl, hsealed rfl, rfl⟩

/-- Where an entity cannot be reset, the runner counts as set up before a frame that is not sealed,
and the next tick does not set it up. -/
theorem started_unsealed : ∃ (f : Frame)
    (s : Runner (Scripted Frame Frame.Answer) × Noted Frame Frame.Answer), f.Built ∧
    s = after perform [.start, .reset] (⟨[failingIn .reset], false, false⟩, ⟨f, []⟩) ∧
    Entity.Acts (Noted Frame Frame.Answer) (· ≠ .reset) (failingIn .reset) ∧
    s.1.started = true ∧ s.2.world.isSealed "counter" 0 = .ok false ∧
    (perform (.tick 0) s).result = .ok () ∧
    (perform (.tick 0) s).state.2.world.isSealed "counter" 0 = .ok false := by
  have hsteps : ∀ step ∈ [Builder.Step.declareWith "counter"
      [⟨"id", .uint32, 1, false, true⟩] 1], step.Standard := by
    simp [Builder.Step.Standard]
  exact ⟨_, _, ⟨_, hsteps, rfl⟩, rfl, failingIn_acts .reset, rfl, rfl, rfl, rfl⟩

end Runner

end NodeStore
