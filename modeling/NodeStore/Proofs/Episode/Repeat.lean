import NodeStore.Proofs.Episode.Basic
import NodeStore.Proofs.Frame.Rebuild

/-!
# Episodes repeat

A reset of a runner resets the frame, which is then the frame that was built, and every entity. If
that takes the entities back to what they were at first, the runner and its frame are as they were
before any use (`Runner.reset_returns`), so that whatever is run next goes as it would have gone
then.
-/

namespace NodeStore

open NodeStore.Action

namespace Entity

/-- Whatever becomes of the entity by phases, a reset on the frame `f₀`, if it ends well, takes it
back to what it was and leaves the frame alone. -/
def Resets {ε : Type} [Entity ε Frame] (f₀ : Frame) (e₀ : ε) : Prop :=
  ∀ e, Grown Frame e₀ e → (Entity.act .reset (e, f₀)).result = .ok () →
    (Entity.act .reset (e, f₀)).state = (e₀, f₀)

end Entity

/-- Resetting entities one after another. -/
theorem callEach_reset {ε : Type} [Entity ε Frame] {es₀ es : List ε} {f₀ : Frame}
    (hreset : ∀ e₀ ∈ es₀, Entity.Resets f₀ e₀) (h : List.Forall₂ (Entity.Grown Frame) es₀ es)
    (hok : (callEach .reset es f₀).result = .ok ()) :
    (callEach .reset es f₀).state = (es₀, f₀) := by
  induction h with
  | nil => rfl
  | @cons e₀ e es₀ es he _ ih =>
    cases hres : (Entity.act .reset (e, f₀)).result with
    | error err =>
      simp only [callEach, hres] at hok
      cases hok
    | ok _ =>
      have hact := hreset e₀ List.mem_cons_self e he hres
      simp only [callEach, hres, hact] at hok ⊢
      rw [ih (fun e' he' => hreset e' (List.mem_cons_of_mem _ he')) hok]

namespace Runner

variable {ε : Type} [Entity ε Frame] {r₀ : Runner ε} {f₀ : Frame} {s : Runner ε × Frame}

/-- A runner in use on a built frame is reset to what it was, not yet set up, and so is the
frame. -/
theorem reset_returns (hf₀ : f₀.Built) (hreset : ∀ e₀ ∈ r₀.entities, Entity.Resets f₀ e₀)
    (hs : Uses r₀ f₀ s) (hok : (reset s).result = .ok ()) :
    (reset s).state = ({ r₀ with started := false }, f₀) := by
  obtain ⟨r, f⟩ := s
  obtain ⟨ops, -, rfl⟩ : f₀.Leads (fun _ => True) f := hs.leads
  obtain ⟨-, hback⟩ := hf₀.reset_eq ops
  rw [after_append, after_cons, after_nil, Frame.perform, state_bind_pure] at hback
  obtain ⟨_, hframe, hrest⟩ := bind_ok.1 hok
  -- the entities find the frame as it was built
  have hworld : (inWorld (inFrame Frame.reset) (r, after Frame.perform ops f₀)).state = (r, f₀) :=
    congrArg (Prod.mk r) hback
  rw [hworld] at hrest
  obtain ⟨_, hcalls, -⟩ := bind_ok.1 hrest
  have hleft : (callAll .reset (r, f₀)).state = ({ r with entities := r₀.entities }, f₀) := by
    change ({ r with entities := (callEach .reset r.entities f₀).state.1 },
      (callEach .reset r.entities f₀).state.2) = _
    rw [callEach_reset hreset hs.grown hcalls]
  have hstate : (reset (r, after Frame.perform ops f₀)).state = _ := (bind_of_ok hframe).2
  rw [hstate, hworld, (bind_of_ok hcalls).2, hleft, ← show r.capture = r₀.capture from hs.capture]
  rfl

/-- Episodes repeat: after any use of a runner on a built frame, whatever failed in it, and a reset
that ends well, an episode over any ticks goes, in result, events, entities and the whole of the
frame, as with the entities as they were at first on a frame built afresh of the same steps. -/
theorem episodes_repeat {steps : List Builder.Step} (hsteps : ∀ step ∈ steps, step.Standard)
    {used fresh : Frame} (hused : (Session.buildBy steps {}).result = .ok used)
    (hfresh : (Session.buildBy steps {}).result = .ok fresh) {es : List ε}
    (hacts : ∀ e ∈ es, Entity.Acts Frame (fun _ => True) e)
    (hreset : ∀ e ∈ es, Entity.Resets used e) (capture : Bool) {calls : List Call}
    (hok : (perform .reset (after perform calls (⟨es, capture, false⟩, used))).result = .ok ())
    (first stop : Tick) :
    perform (.episode first stop) (after perform (calls ++ [.reset]) (⟨es, capture, false⟩, used)) =
      perform (.episode first stop) (⟨es, capture, false⟩, fresh) := by
  obtain rfl : used = fresh := Except.ok.inj (hused.symm.trans hfresh)
  have huses : Uses ⟨es, capture, false⟩ used
      (after perform calls (⟨es, capture, false⟩, used)) :=
    (uses_new _ (.refl used)).after hacts calls
  rw [after_append, after_cons, after_nil]
  exact congrArg (perform (.episode first stop))
    (reset_returns ⟨steps, hsteps, hused⟩ hreset huses hok)

end Runner

/-! ## A counter -/

/-- An entity that numbers the counter when it is set up and counts its steps, up to a limit. -/
structure Tally where
  limit : Nat
  count : Nat := 0

namespace Tally

/-- Acts on the frame alone. -/
def onFrame (x : Action Frame Unit) : Action (Tally × Frame) Unit :=
  x.on Prod.snd fun f s => (s.1, f)

/-- Sets the count. -/
def setCount (n : Nat) : Action (Tally × Frame) Unit :=
  Action.modify fun s => ({ s.1 with count := n }, s.2)

instance : Entity Tally Frame where
  act phase := do
    let (e, _) ← Action.get
    match phase with
    | .start => onFrame (Frame.apply "counter" 0 "id" (.set 0 (.int ⟨false, .four⟩ 9)))
    | .step t =>
      if e.count = e.limit then
        Action.fail (.tickNotFound t)
      else
        setCount (e.count + 1)
        onFrame (Frame.apply "counter" 0 "value" (.set 0 (.int ⟨true, .eight⟩ (e.count + 1 : Nat))))
    | .reset => setCount 0
    | _ => return

/-- In every phase the counter keeps its limit and acts on the frame by operations. -/
theorem act_keeps (n : Nat) (f₀ : Frame) (phase : Phase) :
    Keeps (fun s : Tally × Frame => s.1.limit = n ∧ f₀.Leads (fun _ => True) s.2)
      (Entity.act phase) := by
  have hframe (attr : String) (a : Access) :
      Keeps (fun s : Tally × Frame => s.1.limit = n ∧ f₀.Leads (fun _ => True) s.2)
        (onFrame (Frame.apply "counter" 0 attr a)) := by
    rintro s ⟨hn, hs⟩
    refine ⟨hn, hs.trans ?_⟩
    rw [show (onFrame (Frame.apply "counter" 0 attr a) s).state.2 = _ from
      state_bind_pure (Frame.perform (.access "counter" 0 attr a)) () s.2]
    exact .perform trivial s.2
  have hcount (k : Nat) :
      Keeps (fun s : Tally × Frame => s.1.limit = n ∧ f₀.Leads (fun _ => True) s.2)
        (setCount k) := .modify fun _ h => h
  refine .bind .get fun s => ?_
  obtain ⟨e, f⟩ := s
  cases phase with
  | start => exact hframe _ _
  | step t => exact .ite (fun _ _ h => h) fun _ => .bind (hcount _) fun _ => hframe _ _
  | flush => exact .pure _
  | finish t => exact .pure _
  | reset => exact hcount 0

theorem acts (e₀ : Tally) : Entity.Acts Frame (fun _ => True) e₀ :=
  fun e _ phase f => (act_keeps e.limit f phase (e, f) ⟨rfl, .refl f⟩).2

theorem grown_limit {e₀ e : Tally} (h : Entity.Grown Frame e₀ e) : e.limit = e₀.limit := by
  induction h with
  | refl => rfl
  | act phase g _ ih => exact (act_keeps e₀.limit g phase _ ⟨ih, .refl g⟩).1

theorem resets (f₀ : Frame) (limit : Nat) : Entity.Resets f₀ (⟨limit, 0⟩ : Tally) := by
  intro e he _
  rw [← show e.limit = limit from grown_limit he]
  rfl

end Tally

/-- A first episode stops in its third tick; the same episode, run after the reset as far as it
went, finds the count, the seals and the ring as on a fresh frame. -/
theorem Runner.episodes_repeat_stopped : ∃ (f : Frame) (s : Runner Tally × Frame), f.Built ∧
    (perform (.episode 0 5) (⟨[Tally.mk 2 0], true, false⟩, f)).result = .error (.tickNotFound 2) ∧
    s = after perform [.episode 0 5, .reset] (⟨[Tally.mk 2 0], true, false⟩, f) ∧
    (perform (.episode 7 9) s).result = .ok () ∧
    (perform (.episode 7 9) s).state.1.entities.map Tally.count = [2] ∧
    ((perform (.episode 7 9) s).state.2.ring.map Ring.ticks) = some [7, 8] ∧
    (Frame.perform (.query ⟨"counter", .all, .all, ["value"]⟩)
      (perform (.episode 7 9) s).state.2).result =
        .ok (.result ⟨[7, 8], [0], ["value"], [0, 1, 2],
          [.int ⟨true, .eight⟩ 1, .int ⟨true, .eight⟩ 2]⟩) := by
  have hsteps : ∀ step ∈ [Builder.Step.declareWith "counter"
      [⟨"value", .int64, 1, false, false⟩, ⟨"id", .uint32, 1, false, true⟩] 1, .setSnapshots 4],
      step.Standard := by
    simp [Builder.Step.Standard]
  have htallies (f : Frame) : ∀ e ∈ [Tally.mk 2 0], Entity.Resets f e := by
    intro e he
    rw [List.mem_singleton.1 he]
    exact Tally.resets f 2
  have hrepeat := episodes_repeat hsteps rfl rfl (fun e _ => Tally.acts e) (htallies _) true
    (show (perform .reset (after perform [.episode 0 5] _)).result = .ok () from rfl) 7 9
  refine ⟨_, _, ⟨_, hsteps, rfl⟩, rfl, rfl, ?_⟩
  rw [show [Call.episode 0 5, .reset] = [.episode 0 5] ++ [.reset] from rfl, hrepeat]
  exact ⟨rfl, rfl, rfl, rfl⟩

end NodeStore
