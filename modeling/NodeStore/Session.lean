import NodeStore.Builder
import NodeStore.Episode
import NodeStore.Frame.Op

/-!
# Sessions

A `Session` is a frame in use: handles and snapshots kept by name, and one vector that list reads
append to. A `Session.Step` is an operation on the frame or on what is kept; steps that name what
was never kept answer `unknownName`.
-/

namespace NodeStore

/-- A frame in use. -/
structure Session where
  frame : Frame
  handles : List (String × Handle) := []
  kept : List (String × Snapshot) := []
  output : List Value := []

instance : HoldsFrame Session where
  frame := Session.frame
  setFrame f s := { s with frame := f }

namespace Session

/-- An operation on a session. -/
inductive Step where
  | op (o : Frame.Op)
  /-- Keeps a handle. -/
  | keepHandle (name schema attr : String)
  /-- Keeps a handle that another frame gave, built for the purpose. -/
  | keepForeign (name : String) (build : List Builder.Step) (schema attr : String)
  | accessBy (name : String) (index : Nat) (a : Access)
  /-- Appends a list to the output vector. -/
  | gather (name : String) (index : Nat)
  /-- Keeps a snapshot. -/
  | keepSnapshot (name : String) (tick : Tick)
  | kept (name : String)
  /-- Opens an instance and makes calls on it; one that fails does not stop the others. -/
  | visit (schema : String) (index : Nat) (calls : List Node.Call)
  /-- The instance count of a schema and the type of an attribute, as reported. -/
  | lookUp (schema attr : String)
  | dump

/-- What a step answers. -/
inductive Answer where
  | frame (a : Frame.Answer)
  | visited (answers : List (Except FrameError Frame.Answer))
  | found (x : Option (Nat × Option AttrType))
  | whole (f : Frame)
  | unknownName

/-- Keeps a handle under a name. -/
def keep (name : String) (h : Handle) : Action Session Answer := do
  Action.modify fun s => { s with handles := (name, h) :: s.handles }
  return .frame (.handle h)

/-- Takes builder steps and builds. Only a final step that fails stops the building. -/
def buildBy (steps : List Builder.Step) : Action Builder Frame := do
  steps.forM fun step => do
    if step.isFinal then
      let _ ← Builder.perform step
    else
      let _ ← (Builder.perform step).attempt
  Builder.build

/-- What a frame's report says of a schema and an attribute. -/
def find (f : Frame) (schema attr : String) : Option (Nat × Option AttrType) :=
  (f.summary.schema? schema).map fun s => (s.count, (s.attribute? attr).map AttrSpec.type)

/-- Takes a step. -/
def perform : Step → Action Session Answer
  | .op o => do return .frame (← inFrame (Frame.perform o))
  | .keepHandle name schema attr => do
    keep name (← Action.read fun s => s.frame.handle schema attr)
  | .keepForeign name build schema attr => do
    let f ← (buildBy build).within {}
    keep name (← Action.read fun _ => f.handle schema attr)
  | .accessBy name index a => do
    match (← Action.get).handles.lookup name with
    | some h => return .frame (← inFrame (Frame.perform (.accessBy h index a)))
    | none => return .unknownName
  | .gather name index => do
    match (← Action.get).handles.lookup name with
    | some h =>
      (Frame.gatherList h index).on (fun s => (s.frame, s.output))
        fun (f, output) s => { s with frame := f, output }
      return .frame (.values (← Action.get).output)
    | none => return .unknownName
  | .keepSnapshot name tick => do
    let x ← Action.read fun s => s.frame.snapshot tick
    Action.modify fun s => { s with kept := (name, x) :: s.kept }
    return .frame (.snapshot x)
  | .kept name => do
    match (← Action.get).kept.lookup name with
    | some x => return .frame (.snapshot x)
    | none => return .unknownName
  | .visit schema index calls => do
    let n ← Action.read fun s => s.frame.node schema index
    return .visited (← calls.mapM fun call => (inFrame (n.perform call)).attempt)
  | .lookUp schema attr => do return .found (find (← Action.get).frame schema attr)
  | .dump => do return .whole (← Action.get).frame

end Session

end NodeStore
