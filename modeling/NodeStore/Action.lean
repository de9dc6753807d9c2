import NodeStore.Error
import NodeStore.Event

/-!
# Actions

An `Action σ α` works on a state `σ` and ends with an answer of type `α` or an error. Either way it
leaves a state behind, so "a failing call changes nothing" is a statement about an action and not a
matter of its type, and it tells the events it emitted on the way.

Changes are made in place: a check is an `Action.read`, which may fail, and a change an
`Action.modify`, which may not, so an action that fails after a change leaves that change behind.
`Action.on` lets an action on a part work on the whole.
-/

namespace NodeStore

/-- What an action leaves behind. -/
structure Outcome (σ α : Type) where
  result : Except FrameError α
  state : σ
  events : List Event

/-- A computation on a state that may fail. -/
def Action (σ α : Type) : Type := σ → Outcome σ α

namespace Action

variable {σ τ α β : Type}

/-- Goes on with the answer of `x`, or stops at its error. -/
protected def bind (x : Action σ α) (f : α → Action σ β) : Action σ β := fun s =>
  let o := x s
  match o.result with
  | .ok a =>
    let p := f a o.state
    { p with events := o.events ++ p.events }
  | .error e => ⟨.error e, o.state, o.events⟩

instance : Monad (Action σ) where
  pure a := fun s => ⟨.ok a, s, []⟩
  bind := Action.bind

/-- Stops with an error. -/
def fail (e : FrameError) : Action σ α := fun s => ⟨.error e, s, []⟩

/-- The current state. -/
def get : Action σ σ := fun s => ⟨.ok s, s, []⟩

/-- Looks something up in the state. -/
def read (f : σ → Except FrameError α) : Action σ α := fun s => ⟨f s, s, []⟩

/-- Changes the state. -/
def modify (f : σ → σ) : Action σ Unit := fun s => ⟨.ok (), f s, []⟩

/-- Tells an event. -/
def emit (e : Event) : Action σ Unit := fun s => ⟨.ok (), s, [e]⟩

/-- Lets an action on a part of the state work on the whole. -/
def on (part : σ → τ) (put : τ → σ → σ) (x : Action τ α) : Action σ α := fun s =>
  let o := x (part s)
  ⟨o.result, put o.state s, o.events⟩

/-- Lets an action work on a state of its own. -/
def within (t : τ) (x : Action τ α) : Action σ α := x.on (fun _ => t) fun _ s => s

/-- Turns an error into an answer. -/
def attempt (x : Action σ α) : Action σ (Except FrameError α) := fun s =>
  let o := x s
  ⟨.ok o.result, o.state, o.events⟩

/-! ## How actions run -/

@[simp] theorem pure_apply (a : α) (s : σ) : (pure a : Action σ α) s = ⟨.ok a, s, []⟩ := rfl

theorem bind_apply (x : Action σ α) (f : α → Action σ β) (s : σ) :
    (x >>= f) s = match (x s).result with
      | .ok a => { f a (x s).state with events := (x s).events ++ (f a (x s).state).events }
      | .error e => ⟨.error e, (x s).state, (x s).events⟩ := rfl

@[simp] theorem fail_apply (e : FrameError) (s : σ) :
    (fail e : Action σ α) s = ⟨.error e, s, []⟩ := rfl

@[simp] theorem get_apply (s : σ) : (get : Action σ σ) s = ⟨.ok s, s, []⟩ := rfl

@[simp] theorem read_apply (f : σ → Except FrameError α) (s : σ) :
    read f s = ⟨f s, s, []⟩ := rfl

@[simp] theorem modify_apply (f : σ → σ) (s : σ) : modify f s = ⟨.ok (), f s, []⟩ := rfl

@[simp] theorem emit_apply (e : Event) (s : σ) : emit e s = ⟨.ok (), s, [e]⟩ := rfl

@[simp] theorem on_apply (part : σ → τ) (put : τ → σ → σ) (x : Action τ α) (s : σ) :
    on part put x s = ⟨(x (part s)).result, put (x (part s)).state s, (x (part s)).events⟩ := rfl

@[simp] theorem within_apply (t : τ) (x : Action τ α) (s : σ) :
    within t x s = ⟨(x t).result, s, (x t).events⟩ := rfl

@[simp] theorem attempt_apply (x : Action σ α) (s : σ) :
    attempt x s = ⟨.ok (x s).result, (x s).state, (x s).events⟩ := rfl

end Action

end NodeStore
