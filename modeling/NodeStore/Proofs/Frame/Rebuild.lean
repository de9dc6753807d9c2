import NodeStore.Proofs.Frame.History

/-!
# Reset frames are built frames

What a reset brings back is the very frame that was built, not one that is merely like it. A store
is made of its strategy and its tables (`Store.Models.ext`): resetting makes the tables blank, and
no operation changes the strategy, the number of seal sets or the capacity of the ring
(`Frame.SameBuild`). A ring is cleared to what it was when new (`Frame.Blank`).

* `Frame.perform_sameBuild`: what no operation changes.
* `Frame.Built.reset_eq`: after any run, a reset ends well and leaves the frame that was built.
* `Frame.reset_is_rebuild`: so whatever is done next is answered as by a fresh frame.
-/

namespace NodeStore.Frame

open NodeStore.Action

variable {f₀ f : Frame} {shape : List (Schema × Nat)} {α : Type}

/-! ## What no operation changes -/

/-- The frames have one strategy, as many seal sets, and rings of one capacity. -/
structure SameBuild (f₀ f : Frame) : Prop where
  kind : f.store.kind = f₀.store.kind
  seals : f.seals.length = f₀.seals.length
  capacity : f.ring.map Ring.capacity = f₀.ring.map Ring.capacity

theorem SameBuild.refl (f : Frame) : f.SameBuild f := ⟨rfl, rfl, rfl⟩

theorem inStore_sameBuild {x : Action Store α} (hx : ∀ s, (x s).state.kind = s.kind) :
    Keeps (SameBuild f₀) (inStore x) :=
  fun f hf => ⟨(hx f.store).trans hf.kind, hf.seals, hf.capacity⟩

theorem reset_sameBuild : Keeps (SameBuild f₀) reset := by
  refine .bind (inStore_sameBuild fun s => Store.kind_act _ s) fun _ =>
    .bind (.modify fun f hf => ⟨hf.kind, ?_, ?_⟩) fun _ => .bind .get fun _ => .emit _
  · rw [List.length_map]
    exact hf.seals
  · rw [Option.map_map, ← hf.capacity]
    cases f.ring with
    | none => rfl
    | some r => exact congrArg some List.length_replicate

theorem capture_sameBuild (tick : Tick) : Keeps (SameBuild f₀) (capture tick) := by
  refine .bind' (.read _) fun f ring hf hring => .bind (.read _) fun pools => ?_
  have hcapacity : f₀.ring.map Ring.capacity = some ring.capacity := by
    rw [← hf.capacity, snapshots_ok.1 hring, Option.map_some]
  have hpush := ring.capacity_push ⟨tick, pools⟩
  generalize ring.push ⟨tick, pools⟩ = out at hpush
  obtain ⟨displaced, ring'⟩ := out
  refine .bind (.modify fun g hg => ⟨hg.kind, hg.seals, ?_⟩) fun _ => .bind (.emit _) fun _ => ?_
  · rw [hcapacity]
    exact congrArg some hpush
  · cases displaced with
    | none => exact .pure _
    | some old => exact .ite (fun _ => .emit _) fun _ => .pure _

theorem perform_sameBuild (op : Op) : Keeps (SameBuild f₀) (perform op) := by
  by_cases hreset : op = .reset
  · subst hreset
    exact .bind reset_sameBuild fun _ => .pure _
  by_cases hcapture : ∃ tick, op = .capture tick
  · obtain ⟨tick, rfl⟩ := hcapture
    exact .bind (capture_sameBuild tick) fun _ => .pure _
  · refine perform_keeps (fun x hx => inStore_sameBuild hx.kind_eq) (fun _ f seals hlen hf => ?_)
      hreset fun tick h => hcapture ⟨tick, h⟩
    exact ⟨hf.kind, hlen.trans hf.seals, hf.capacity⟩

theorem SameBuild.after (h : f₀.SameBuild f) (ops : List Op) :
    f₀.SameBuild (after perform ops f) := Keeps.after (fun op _ => perform_sameBuild op) h

/-! ## What a reset brings back -/

theorem Blank.reset_store (h₀ : f₀.Blank shape) (hf : f.Sound shape) (hsame : f₀.SameBuild f) :
    (Store.resetAll f.store).state = f₀.store := by
  obtain ⟨ts, hts, hshape⟩ := hf.shaped
  have hreset : (Store.resetAll f.store).state.Models (ts.map Table.reset) :=
    (Store.resetAll_models f.store ts hts).2
  have hblank : ts.map Table.reset = shape.map fun p => .blank p.1 p.2 := by
    rw [← hshape, List.map_map]
    rfl
  rw [hblank] at hreset
  exact hreset.ext ((Store.kind_act _ f.store).trans hsame.kind) h₀.store

theorem Blank.reset_seals (h₀ : f₀.Blank shape) (hsame : f₀.SameBuild f) :
    f.seals.map InstanceSet.clear = f₀.seals := by
  have hclear (sets : List InstanceSet) :
      sets.map InstanceSet.clear = List.replicate sets.length .empty := List.map_const' ..
  rw [hclear, hsame.seals, ← hclear, h₀.seals, List.map_map]
  rfl

theorem Blank.reset_ring (h₀ : f₀.Blank shape) (hsame : f₀.SameBuild f) :
    f.ring.map Ring.clear = f₀.ring := by
  have hcapacity := hsame.capacity
  cases hr : f.ring with
  | none =>
    rw [hr] at hcapacity
    exact (Option.map_eq_none_iff.1 hcapacity.symm).symm
  | some r =>
    rw [hr] at hcapacity
    obtain ⟨r₀, hr₀, hcap⟩ := Option.map_eq_some_iff.1 hcapacity.symm
    -- A cleared ring is made of its capacity alone.
    have hclear : r.clear = r₀.clear := by rw [Ring.clear, Ring.clear, hcap]
    rw [Option.map_some, hclear, (h₀.ring r₀ hr₀).2, hr₀]

/-- Resetting a frame of the shape and build of a blank one makes it the blank one. -/
theorem Blank.reset_eq (h₀ : f₀.Blank shape) (hf : f.Sound shape) (hsame : f₀.SameBuild f) :
    (perform .reset f).state = f₀ := by
  have hschemas : f.schemas = f₀.schemas := h₀.sound.schemas_same hf
  rw [hf.reset_apply.2, h₀.reset_store hf hsame, h₀.reset_seals hsame, h₀.reset_ring hsame,
    hschemas]

/-- After any run on a frame that was built, a reset ends well and leaves the frame as it was
built. -/
theorem Built.reset_eq (h : f₀.Built) (ops : List Op) :
    (perform .reset (after perform ops f₀)).result = .ok .done ∧
      after perform (ops ++ [.reset]) f₀ = f₀ := by
  obtain ⟨shape, hblank⟩ := h.blank
  have hsound := hblank.sound.after ops
  rw [after_append, after_cons, after_nil]
  exact ⟨hsound.reset_apply.1, hblank.reset_eq hsound ((SameBuild.refl f₀).after ops)⟩

/-- Resetting is rebuilding: any run may be ended by a reset, and then there is the frame that the
same steps build afresh, and every run of operations is answered as by that one. Hence a second
reset changes nothing; and schemas with their numbers, instance counts and the capacity of the ring
come through the reset as they were. -/
theorem reset_is_rebuild {steps : List Builder.Step} (hsteps : ∀ step ∈ steps, step.Standard)
    {used fresh : Frame} (hused : (Session.buildBy steps {}).result = .ok used)
    (hfresh : (Session.buildBy steps {}).result = .ok fresh) (run : List Op) :
    (perform .reset (after perform run used)).result = .ok .done ∧
    after perform (run ++ [.reset]) used = fresh ∧
    (∀ ops, answers perform ops (after perform (run ++ [.reset]) used) =
      answers perform ops fresh) ∧
    after perform (run ++ [.reset, .reset]) used = after perform (run ++ [.reset]) used ∧
    (after perform (run ++ [.reset]) used).schemas = (after perform run used).schemas ∧
    (∀ id, (after perform (run ++ [.reset]) used).count id = (after perform run used).count id) ∧
    (after perform (run ++ [.reset]) used).ring.map Ring.capacity =
      (after perform run used).ring.map Ring.capacity := by
  obtain rfl : used = fresh := Except.ok.inj (hused.symm.trans hfresh)
  have hbuilt : used.Built := ⟨steps, hsteps, hused⟩
  obtain ⟨shape, hsound, -⟩ := hbuilt.sound
  have hrun := hsound.after run
  obtain ⟨hresult, hback⟩ := hbuilt.reset_eq run
  obtain ⟨-, hagain⟩ := hbuilt.reset_eq (run ++ [.reset])
  rw [List.append_assoc] at hagain
  rw [hback]
  refine ⟨hresult, rfl, fun ops => rfl, hagain, hrun.schemas_same hsound,
    hrun.count_same hsound, ?_⟩
  exact ((SameBuild.refl used).after run).capacity.symm

/-- A run leaves a sealed instance with values and a full ring; after the reset the const attribute
is zero and open to writes again, the list is empty, and the ring starts over. -/
theorem reset_is_rebuild_sealed : ∃ (f : Frame) (run ops : List Op), f.Built ∧
    run = [.access "cell" 1 "x" (.set 0 (.int ⟨true, .one⟩ 7)),
      .access "cell" 1 "tags" (.append (.int ⟨false, .one⟩ 3)), .sealAll,
      .capture 4, .capture 2, .capture 9] ∧
    ops = [.access "cell" 1 "x" .getSlots, .access "cell" 1 "tags" .getList,
      .access "cell" 1 "x" (.set 0 (.int ⟨true, .one⟩ 5)), .holdsTick 2, .capture 6,
      .query ⟨"cell", .all, .one 1, ["x"]⟩] ∧
    answers perform ops (after perform run f) =
      [.ok (.values [.int ⟨true, .one⟩ 7]), .ok (.values [.int ⟨false, .one⟩ 3]),
        .error (.constAttributeWrite "cell" "x" 1), .ok (.flag true), .ok .done,
        .ok (.result ⟨[9, 6], [1], ["x"], [0, 1, 2],
          [.int ⟨true, .one⟩ 7, .int ⟨true, .one⟩ 7]⟩)] ∧
    (perform .reset (after perform run f)).result = .ok .done ∧
    answers perform ops (after perform (run ++ [.reset]) f) =
      [.ok (.values [.int ⟨true, .one⟩ 0]), .ok (.values []), .ok .done, .ok (.flag false),
        .ok .done, .ok (.result ⟨[6], [1], ["x"], [0, 1], [.int ⟨true, .one⟩ 5]⟩)] := by
  have hsteps : ∀ step ∈ [Builder.Step.declareWith "cell"
      [⟨"x", .int8, 1, false, true⟩, ⟨"tags", .uint8, 1, true, false⟩] 2, .setSnapshots 2],
      step.Standard := by
    simp [Builder.Step.Standard]
  obtain ⟨hresult, -, hanswers, -⟩ := reset_is_rebuild hsteps rfl rfl
    [.access "cell" 1 "x" (.set 0 (.int ⟨true, .one⟩ 7)),
      .access "cell" 1 "tags" (.append (.int ⟨false, .one⟩ 3)), .sealAll,
      .capture 4, .capture 2, .capture 9]
  exact ⟨_, _, _, ⟨_, hsteps, rfl⟩, rfl, rfl, rfl, hresult, hanswers _⟩

end NodeStore.Frame
