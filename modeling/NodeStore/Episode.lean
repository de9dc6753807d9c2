import NodeStore.Frame.Basic

/-!
# Episodes

Entities take part in an episode in phases: each sets itself up, whereupon every instance is sealed;
then in every tick all step, all flush, the tick is captured if the runner captures, and all finish
it; between episodes all are reset, after the frame. `Runner` calls the phases in that order and
stops at the first error.

Entities act on a world that holds the frame, which may be the frame alone. A `Runner.Call` is one
call of a runner, so that whole uses of a runner can be spoken of.
-/

namespace NodeStore

/-- A world that holds a frame. -/
class HoldsFrame (W : Type) where
  frame : W → Frame
  setFrame : Frame → W → W

instance : HoldsFrame Frame where
  frame := id
  setFrame f _ := f

/-- Acts on the frame of a world. -/
def inFrame {W α : Type} [HoldsFrame W] (x : Action Frame α) : Action W α :=
  x.on HoldsFrame.frame HoldsFrame.setFrame

/-- What an entity is called for. -/
inductive Phase where
  | start
  | step (tick : Tick)
  | flush
  | finish (tick : Tick)
  | reset
deriving DecidableEq

/-- A participant in episodes of a world. -/
class Entity (ε : Type) (W : Type) where
  act : Phase → Action (ε × W) Unit

/-- Calls entities in order for one phase, up to the first that fails. -/
def callEach {ε W : Type} [Entity ε W] (phase : Phase) : List ε → W → Outcome (List ε × W) Unit
  | [], w => ⟨.ok (), ([], w), []⟩
  | e :: es, w =>
    let o := Entity.act phase (e, w)
    match o.result with
    | .error err => ⟨.error err, (o.state.1 :: es, o.state.2), o.events⟩
    | .ok () =>
      let p := callEach phase es o.state.2
      ⟨p.result, (o.state.1 :: p.state.1, p.state.2), o.events ++ p.events⟩

/-- Entities in call order, and how far their episode is. -/
structure Runner (ε : Type) where
  entities : List ε
  /-- Whether each tick is captured after its flush. -/
  capture : Bool := false
  /-- Whether the entities were set up since the runner was made or last reset. -/
  started : Bool := false

namespace Runner

variable {ε W α : Type}

/-- Acts on the world. -/
def inWorld (x : Action W α) : Action (Runner ε × W) α :=
  x.on Prod.snd fun w s => (s.1, w)

/-- Acts on the runner alone. -/
def inRunner (x : Action (Runner ε) α) : Action (Runner ε × W) α :=
  x.on Prod.fst fun r s => (r, s.2)

/-- Calls every entity for one phase. -/
def callAll [Entity ε W] (phase : Phase) : Action (Runner ε × W) Unit := fun (r, w) =>
  let o := callEach phase r.entities w
  ⟨o.result, ({ r with entities := o.state.1 }, o.state.2), o.events⟩

variable [HoldsFrame W] [Entity ε W]

/-- Sets every entity up, then seals every instance. -/
def start : Action (Runner ε × W) Unit := do
  callAll .start
  inWorld (inFrame Frame.sealAll)
  inRunner (Action.modify fun r => { r with started := true })
  let (r, _) ← Action.get
  Action.emit (.episodeStarted r.entities.length)

/-- Runs one tick, after setting up if that is still to do. -/
def tick (tick : Tick) : Action (Runner ε × W) Unit := do
  let (r, _) ← Action.get
  if !r.started then start
  callAll (.step tick)
  callAll .flush
  if r.capture then inWorld (inFrame (Frame.capture tick))
  callAll (.finish tick)

/-- Runs `n` ticks from `first` on, up to the first that fails. -/
def ticks (first : Tick) : Nat → Action (Runner ε × W) Unit
  | 0 => return
  | n + 1 => do
    tick first
    ticks (first + 1) n

/-- Runs the ticks from `first` up to, but not with, `stop`. -/
def episode (first stop : Tick) : Action (Runner ε × W) Unit := ticks first (stop - first)

/-- Resets the frame and then every entity; the next tick sets up anew. -/
def reset : Action (Runner ε × W) Unit := do
  inWorld (inFrame Frame.reset)
  callAll .reset
  inRunner (Action.modify fun r => { r with started := false })

/-! ## Calls as data -/

/-- A call of a runner. -/
inductive Call where
  | start
  | tick (tick : Tick)
  | episode (first stop : Tick)
  | reset
deriving DecidableEq

/-- Carries a call out. -/
def perform : Call → Action (Runner ε × W) Unit
  | .start => start
  | .tick t => tick t
  | .episode first stop => episode first stop
  | .reset => reset

end Runner

end NodeStore
