import NodeStore.Episode

/-!
# Scripted entities

A `Scripted` entity carries out a list of actions in each phase and keeps a notebook of the phases
it entered and of what its actions answered. An action that fails ends the phase and leaves no note.
-/

namespace NodeStore

/-- An entry of the notebook. -/
inductive Note (α : Type) where
  | entered (entity : String) (phase : Phase)
  | answer (a : α)

/-- A world with a notebook. -/
structure Noted (W α : Type) where
  world : W
  notes : List (Note α) := []

/-- An entity that follows a script. -/
structure Scripted (W α : Type) where
  name : String
  /-- Whether it takes part only in setting up and stepping. -/
  minimal : Bool := false
  program : Phase → List (Action W α)

variable {W α : Type}

instance [HoldsFrame W] : HoldsFrame (Noted W α) where
  frame w := HoldsFrame.frame w.world
  setFrame f w := { w with world := HoldsFrame.setFrame f w.world }

namespace Noted

/-- Writes into the notebook. -/
def note (n : Note α) : Action (Noted W α) Unit :=
  Action.modify fun w => { w with notes := w.notes ++ [n] }

/-- Acts on the world and notes the answer. -/
def record (x : Action W α) : Action (Noted W α) Unit := do
  note (.answer (← x.on Noted.world fun w s => { s with world := w }))

end Noted

namespace Scripted

/-- Whether the entity takes part in a phase. -/
def takesPart (e : Scripted W α) : Phase → Bool
  | .start | .step _ => true
  | _ => !e.minimal

/-- Carries out the script of a phase. -/
def follow (e : Scripted W α) (phase : Phase) : Action (Noted W α) Unit :=
  if e.takesPart phase then do
    Noted.note (.entered e.name phase)
    (e.program phase).forM Noted.record
  else
    return

instance : Entity (Scripted W α) (Noted W α) where
  act phase := do
    let (e, _) ← Action.get
    (e.follow phase).on Prod.snd fun w s => (s.1, w)

end Scripted

end NodeStore
