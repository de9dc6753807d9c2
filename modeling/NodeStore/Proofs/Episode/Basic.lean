import NodeStore.Episode.Scripted
import NodeStore.Proofs.Frame.Effect

/-!
# What runners keep

A runner calls its entities, seals, captures and resets, and nothing else. So what entities keep in
every phase and what these operations keep is kept by whole calls of the runner, however they end:
`Runner.tick_keeps`, `Runner.episode_keeps`.

An entity has no way to a frame but by operations (`Entity.Acts`), and none to itself but by its
phases (`Entity.Grown`). Hence a frame in the hands of a runner is always one that operations lead
to (`Frame.Leads`).
-/

namespace NodeStore

open NodeStore.Action

/-- A frame that is put into a world is there. -/
class LawfulWorld (W : Type) [HoldsFrame W] : Prop where
  frame_setFrame (f : Frame) (w : W) : HoldsFrame.frame (HoldsFrame.setFrame f w) = f

instance : LawfulWorld Frame := ⟨fun _ _ => rfl⟩

/-! ## Frames that operations lead to -/

namespace Frame

variable {P : Op → Prop} {f g h : Frame}

/-- Operations of some kind, carried out one after another, lead from `f` to `g`. -/
def Leads (P : Op → Prop) (f g : Frame) : Prop :=
  ∃ ops, (∀ op ∈ ops, P op) ∧ g = after perform ops f

namespace Leads

theorem refl (f : Frame) : f.Leads P f := ⟨[], fun _ h => absurd h List.not_mem_nil, rfl⟩

theorem perform {op : Op} (hop : P op) (f : Frame) : f.Leads P (Frame.perform op f).state :=
  ⟨[op], fun op' h => by rw [List.mem_singleton.1 h]; exact hop, rfl⟩

theorem trans (hfg : f.Leads P g) (hgh : g.Leads P h) : f.Leads P h := by
  obtain ⟨ops, hops, rfl⟩ := hfg
  obtain ⟨ops', hops', rfl⟩ := hgh
  refine ⟨ops ++ ops', fun op hop => ?_, (after_append ..).symm⟩
  rcases List.mem_append.1 hop with hop | hop
  · exact hops op hop
  · exact hops' op hop

theorem mono {Q : Op → Prop} (hPQ : ∀ op, P op → Q op) (h : f.Leads P g) : f.Leads Q g := by
  obtain ⟨ops, hops, rfl⟩ := h
  exact ⟨ops, fun op hop => hPQ op (hops op hop), rfl⟩

/-- What the operations keep is found where they lead. -/
theorem keeps {Inv : Frame → Prop} (h : f.Leads P g)
    (hInv : ∀ op, P op → Keeps Inv (Frame.perform op)) (hf : Inv f) : Inv g := by
  obtain ⟨ops, hops, rfl⟩ := h
  exact Keeps.after (fun op hop => hInv op (hops op hop)) hf

/-- What an operation carries out leads where the operation does. -/
theorem of_perform (op : Op) {x : Action Frame Unit}
    (hx : Frame.perform op = (x >>= fun _ => pure .done)) (hop : P op) (f : Frame) :
    f.Leads P (x f).state := by
  rw [← state_bind_pure x Answer.done f, ← hx]
  exact .perform hop f

end Leads

end Frame

/-! ## Entities -/

namespace Entity

variable {ε W : Type} [Entity ε W]

/-- The entity `e` has become of `e₀` by phases, in whatever worlds. -/
inductive Grown (W : Type) [Entity ε W] (e₀ : ε) : ε → Prop
  | refl : Grown W e₀ e₀
  | act {e : ε} (phase : Phase) (w : W) :
    Grown W e₀ e → Grown W e₀ (Entity.act phase (e, w)).state.1

/-- Whatever the entity becomes, it changes the frame of a world by operations of some kind only. -/
def Acts (W : Type) [HoldsFrame W] [Entity ε W] (P : Frame.Op → Prop) (e₀ : ε) : Prop :=
  ∀ e, Grown W e₀ e → ∀ phase (w : W),
    (HoldsFrame.frame w).Leads P (HoldsFrame.frame (Entity.act phase (e, w)).state.2)

theorem Acts.mono [HoldsFrame W] {P Q : Frame.Op → Prop} {e₀ : ε} (hPQ : ∀ op, P op → Q op)
    (h : Acts W P e₀) : Acts W Q e₀ :=
  fun e he phase w => (h e he phase w).mono hPQ

end Entity

/-! ## Scripted entities -/

namespace Scripted

variable {W α : Type} [HoldsFrame W]

instance [LawfulWorld W] : LawfulWorld (Noted W α) :=
  ⟨fun f w => LawfulWorld.frame_setFrame f w.world⟩

omit [HoldsFrame W] in
/-- A scripted entity stays what it is. -/
theorem grown_eq {e₀ e : Scripted W α} (h : Entity.Grown (Noted W α) e₀ e) : e = e₀ := by
  induction h with
  | refl => rfl
  | act phase w _ ih => exact ih

/-- An entity scripted with operations acts by them. -/
theorem acts {P : Frame.Op → Prop} {e₀ : Scripted Frame Frame.Answer}
    (h : ∀ phase, ∀ x ∈ e₀.program phase, ∃ op, P op ∧ x = Frame.perform op) :
    Entity.Acts (Noted Frame Frame.Answer) P e₀ := by
  intro e he phase w
  obtain rfl := grown_eq he
  have hnote (n : Note Frame.Answer) :
      Keeps (fun v => w.world.Leads P v.world) (Noted.note (W := Frame) n) :=
    .modify fun _ hv => hv
  have hrecord : ∀ x ∈ e.program phase,
      Keeps (fun v => w.world.Leads P v.world) (Noted.record x) := by
    intro x hx
    obtain ⟨op, hop, rfl⟩ := h phase x hx
    refine .bind ?_ fun a => hnote _
    exact fun v hv => hv.trans (.perform hop v.world)
  have hfollow : Keeps (fun v => w.world.Leads P v.world) (e.follow phase) :=
    .ite (fun _ => .bind (hnote _) fun _ => .forM hrecord) fun _ => .pure _
  exact hfollow w (.refl _)

end Scripted

/-! ## Calls of all entities -/

section
variable {ε W : Type} [Entity ε W] {es₀ es : List ε} {phase : Phase}

/-- The entities become what they become by phases. -/
theorem callEach_grown (h : List.Forall₂ (Entity.Grown W) es₀ es) (w : W) :
    List.Forall₂ (Entity.Grown W) es₀ (callEach phase es w).state.1 := by
  induction h generalizing w with
  | nil => exact .nil
  | @cons e₀ e es₀ es he htail ih =>
    have hact := he.act phase w
    unfold callEach
    cases hres : (Entity.act phase (e, w)).result with
    | error err =>
      simp only [hres]
      exact .cons hact htail
    | ok _ =>
      simp only [hres]
      exact .cons hact (ih _)

/-- What every entity keeps of the world, calling all of them keeps. -/
theorem callEach_keeps {Inv : W → Prop}
    (h : ∀ e ∈ es, ∀ w, Inv w → Inv (Entity.act phase (e, w)).state.2) {w : W} (hw : Inv w) :
    Inv (callEach phase es w).state.2 := by
  induction es generalizing w with
  | nil => exact hw
  | cons e es ih =>
    have hact := h e List.mem_cons_self w hw
    unfold callEach
    cases hres : (Entity.act phase (e, w)).result with
    | error err =>
      simp only [hres]
      exact hact
    | ok _ =>
      simp only [hres]
      exact ih (fun e' he' => h e' (List.mem_cons_of_mem _ he')) hact

/-- Calling entities that act by operations of some kind changes the frame by such operations. -/
theorem callEach_leads [HoldsFrame W] {P : Frame.Op → Prop}
    (hacts : ∀ e₀ ∈ es₀, Entity.Acts W P e₀) (h : List.Forall₂ (Entity.Grown W) es₀ es) (w : W) :
    (HoldsFrame.frame w).Leads P (HoldsFrame.frame (callEach phase es w).state.2) := by
  have hstep : ∀ e ∈ es, ∀ w' : W, (HoldsFrame.frame w).Leads P (HoldsFrame.frame w') →
      (HoldsFrame.frame w).Leads P (HoldsFrame.frame (Entity.act phase (e, w')).state.2) := by
    intro e he w' hw'
    obtain ⟨i, hi⟩ := List.mem_iff_getElem?.1 he
    obtain ⟨e₀, he₀, hgrown⟩ := h.exists_left hi
    exact hw'.trans (hacts e₀ (List.mem_of_getElem? he₀) e hgrown phase w')
  exact callEach_keeps hstep (.refl _)

end

namespace Runner

variable {ε W : Type} [HoldsFrame W] [Entity ε W] {Inv : Runner ε × W → Prop}

/-! ## Whole calls -/

section
variable (hcall : ∀ phase, Keeps Inv (callAll phase)) (hstart : Keeps Inv start)
  (hcapture : ∀ t, Keeps Inv (inWorld (inFrame (Frame.capture t))))
include hcall hstart hcapture

theorem tick_keeps (t : Tick) : Keeps Inv (tick t) := by
  have hrest (r : Runner ε) : Keeps Inv (callAll (.step t) >>= fun _ => callAll .flush >>= fun _ =>
      if r.capture = true then
        (inWorld (inFrame (Frame.capture t)) >>= fun _ => callAll (.finish t)) else
        callAll (.finish t)) :=
    .bind (hcall _) fun _ => .bind (hcall _) fun _ =>
      .ite (fun _ => .bind (hcapture t) fun _ => hcall _) fun _ => hcall _
  refine .bind .get fun s => ?_
  obtain ⟨r, w⟩ := s
  exact .ite (fun _ => .bind hstart fun _ => hrest r) fun _ => hrest r

theorem ticks_keeps (first : Tick) (n : Nat) : Keeps Inv (ticks first n) := by
  induction n generalizing first with
  | zero => exact .pure _
  | succ n ih => exact .bind (tick_keeps hcall hstart hcapture first) fun _ => ih (first + 1)

theorem episode_keeps (first stop : Tick) :
    Keeps Inv (episode first stop) :=
  ticks_keeps hcall hstart hcapture first (stop - first)

end

/-! ## A runner in use -/

/-- The entities of the runner have become of those of `r₀` by phases, and its frame of `f₀` by
operations; whether it captures has not changed. -/
structure Uses (r₀ : Runner ε) (f₀ : Frame) (s : Runner ε × W) : Prop where
  grown : List.Forall₂ (Entity.Grown W) r₀.entities s.1.entities
  capture : s.1.capture = r₀.capture
  leads : f₀.Leads (fun _ => True) (HoldsFrame.frame s.2)

variable {r₀ : Runner ε} {f₀ : Frame}

theorem uses_new (r₀ : Runner ε) {w : W}
    (hleads : f₀.Leads (fun _ => True) (HoldsFrame.frame w)) : Uses r₀ f₀ (r₀, w) :=
  ⟨List.forall₂_same.2 fun _ _ => .refl, rfl, hleads⟩

theorem callAll_uses (hacts : ∀ e₀ ∈ r₀.entities, Entity.Acts W (fun _ => True) e₀)
    (phase : Phase) : Keeps (Uses (W := W) r₀ f₀) (callAll phase) :=
  fun s h =>
    ⟨callEach_grown h.grown s.2, h.capture, h.leads.trans (callEach_leads hacts h.grown s.2)⟩

section
variable [LawfulWorld W]

omit [Entity ε W] in
/-- What an action on the frame leaves of a runner and its world. -/
theorem frame_inFrame {α : Type} (x : Action Frame α) (s : Runner ε × W) :
    HoldsFrame.frame (inWorld (inFrame x) s).state.2 = (x (HoldsFrame.frame s.2)).state :=
  LawfulWorld.frame_setFrame _ _

theorem inFrame_uses {α : Type} {x : Action Frame α}
    (hx : ∀ f : Frame, f.Leads (fun _ => True) (x f).state) :
    Keeps (Uses (W := W) r₀ f₀) (inWorld (inFrame x)) := by
  refine fun s h => ⟨h.grown, h.capture, ?_⟩
  rw [frame_inFrame]
  exact h.leads.trans (hx _)

/-- Every call keeps a runner in use. -/
theorem perform_uses (hacts : ∀ e₀ ∈ r₀.entities, Entity.Acts W (fun _ => True) e₀) (call : Call) :
    Keeps (Uses (W := W) r₀ f₀) (perform call) := by
  have hcall (phase : Phase) : Keeps (Uses (W := W) r₀ f₀) (callAll phase) :=
    callAll_uses hacts phase
  have hstarted (b : Bool) : Keeps (Uses (W := W) r₀ f₀)
      (inRunner (Action.modify fun r => { r with started := b })) :=
    fun s h => ⟨h.grown, h.capture, h.leads⟩
  have hstart : Keeps (Uses (W := W) r₀ f₀) (start) :=
    .bind (hcall _) fun _ => .bind (inFrame_uses (.of_perform .sealAll rfl trivial)) fun _ =>
      .bind (hstarted true) fun _ => .bind .get fun _ => .emit _
  have hcapture (t : Tick) : Keeps (Uses (W := W) r₀ f₀)
      (inWorld (inFrame (Frame.capture t))) :=
    inFrame_uses (.of_perform (.capture t) rfl trivial)
  cases call with
  | start => exact hstart
  | tick t => exact tick_keeps hcall hstart hcapture t
  | episode first stop => exact episode_keeps hcall hstart hcapture first stop
  | reset =>
    exact .bind (inFrame_uses (.of_perform .reset rfl trivial)) fun _ => .bind (hcall _) fun _ =>
      hstarted false

theorem Uses.after (hacts : ∀ e₀ ∈ r₀.entities, Entity.Acts W (fun _ => True) e₀) {s : Runner ε × W}
    (h : Uses r₀ f₀ s) (calls : List Call) : Uses r₀ f₀ (after perform calls s) :=
  Keeps.after (fun call _ => perform_uses hacts call) h

end

end Runner

end NodeStore
