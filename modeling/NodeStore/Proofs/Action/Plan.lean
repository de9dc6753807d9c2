import NodeStore.Proofs.Action

/-!
# Carrying out a plan

`plan.forM f` carries out what is in the plan, one thing after another up to the first that fails.
What it carries out is the beginning `performed f plan s` of the plan, and what it comes to is what
that beginning comes to, `Action.Performed`.
-/

namespace NodeStore.Action

variable {σ ι α β : Type} {s : σ}

/-- Actions are a lawful monad. This is no instance: with it `simp` would write `<$>` where the
lemmas about actions are about `>>=`. -/
theorem lawfulMonad : LawfulMonad (Action σ) :=
  LawfulMonad.mk' (Action σ)
    (fun x => by
      funext s
      change (x >>= fun a => pure (id a)) s = x s
      rw [bind_apply]
      rcases x s with ⟨_ | _, t, events⟩ <;> simp)
    (fun _ _ => rfl)
    (fun x g h => by
      funext s
      simp only [bind_apply]
      rcases x s with ⟨_ | a, t, events⟩
      · rfl
      · simp only
        cases (g a t).result <;> simp)

/-- Parts that go alike make wholes that go alike. -/
theorem bind_congr_at {x y : Action σ α} {g h : α → Action σ β} (hxy : x s = y s)
    (hgh : ∀ a, (x s).result = .ok a → g a (x s).state = h a (x s).state) :
    (x >>= g) s = (y >>= h) s := by
  rw [bind_apply, bind_apply, ← hxy]
  cases hx : (x s).result with
  | error e => rfl
  | ok a => simp only [hgh a hx]

/-- What is carried out of a plan: everything up to the first that fails, and that as well. -/
def performed (f : ι → Action σ α) : List ι → σ → List ι
  | [], _ => []
  | op :: ops, s =>
    match (f op s).result with
    | .ok _ => op :: performed f ops (f op s).state
    | .error _ => [op]

/-- The events of a run. -/
def emitted (f : ι → Action σ α) : List ι → σ → List Event
  | [], _ => []
  | op :: ops, s => (f op s).events ++ emitted f ops (f op s).state

/-- Of the plan just `done` was carried out, with the outcome `o`: either all of it, and nothing
failed, or as much as there is up to the first that failed, whose error is the outcome's. -/
structure Performed (f : ι → Action σ Unit) (plan : List ι) (s : σ) (done : List ι)
    (o : Outcome σ Unit) : Prop where
  begins : done <+: plan
  state : o.state = after f done s
  events : o.events = emitted f done s
  ends : (done = plan ∧ (∀ x ∈ answers f done s, x = .ok ()) ∧ o.result = .ok ()) ∨
    ∃ pre last e, done = pre ++ [last] ∧ (∀ x ∈ answers f pre s, x = .ok ()) ∧
      (f last (after f pre s)).result = .error e ∧ o.result = .error e

theorem forM_performed (f : ι → Action σ Unit) (plan : List ι) (s : σ) :
    Performed f plan s (performed f plan s) (plan.forM f s) := by
  induction plan generalizing s with
  | nil =>
    exact ⟨List.nil_prefix, rfl, rfl, .inl ⟨rfl, fun x hx => absurd hx List.not_mem_nil, rfl⟩⟩
  | cons op ops ih =>
    change Performed f (op :: ops) s _ ((f op >>= fun _ => ops.forM f) s)
    rw [bind_apply, performed]
    cases hop : (f op s).result with
    | error e =>
      refine ⟨⟨ops, rfl⟩, rfl, (List.append_nil _).symm, .inr ⟨[], op, e, rfl, ?_, hop, rfl⟩⟩
      exact fun x hx => absurd hx List.not_mem_nil
    | ok u =>
      obtain ⟨hbegins, hstate, hevents, hends⟩ := ih (f op s).state
      refine ⟨List.cons_prefix_cons.2 ⟨rfl, hbegins⟩, hstate, congrArg _ hevents, ?_⟩
      have hall {l : List ι} (hl : ∀ x ∈ answers f l (f op s).state, x = .ok ()) :
          ∀ x ∈ answers f (op :: l) s, x = .ok () := List.forall_mem_cons.2 ⟨hop, hl⟩
      rcases hends with ⟨hdone, hok, hresult⟩ | ⟨pre, last, e, hdone, hok, hlast, hresult⟩
      · exact .inl ⟨by rw [hdone], hall hok, hresult⟩
      · exact .inr ⟨op :: pre, last, e, by rw [hdone]; rfl, hall hok, hlast, hresult⟩

end NodeStore.Action
