import NodeStore.Proofs.Builder

/-!
# The strategies cannot be told apart

From empty stores of either strategy, any sequence of calls gets the same answers, and frames built
by the same steps but for the kind of storage answer any sequence of operations alike
(`strategies_indistinguishable`). What may differ is the name of the strategy, where it is asked
for.
-/

namespace NodeStore

/-- Every call on a dense and a lite store answers the same, failures and images included, and so
does every operation on two frames whose builders took the same steps but for the kind. -/
theorem strategies_indistinguishable :
    (∀ calls : List Store.Call, (∀ call ∈ calls, call.Declared) →
      List.Forall₂ (Except.Rel Store.Answer.Alike)
        (Action.answers Store.perform calls (.new .dense))
        (Action.answers Store.perform calls (.new .lite))) ∧
    ∀ steps steps' : List Builder.Step, List.Forall₂ Builder.Step.Alike steps steps' →
      Except.Rel
        (fun f g => ∀ ops : List Frame.Op, List.Forall₂ (Except.Rel Frame.Answer.Alike)
          (Action.answers Frame.perform ops f) (Action.answers Frame.perform ops g))
        (Session.buildBy steps {}).result (Session.buildBy steps' {}).result := by
  refine ⟨?_, ?_⟩
  · intro calls hcalls
    exact Action.Respects.answers (fun call hcall => Store.perform_alike (hcalls call hcall))
      (Store.new_alike .dense .lite)
  · intro steps steps' hsteps
    obtain ⟨hbuilt, -⟩ := Session.buildBy_alike hsteps _ _ (Builder.Alike.empty _)
    refine hbuilt.imp ?_
    intro f g hfg ops
    exact Action.Respects.answers (fun op _ => Frame.perform_alike op) hfg

/-- A pool of two instances written and captured, and a frame built for it. -/
theorem strategies_indistinguishable_cells :
    List.Forall₂ (Except.Rel Store.Answer.Alike)
      (Action.answers Store.perform
        [.allocate ⟨0, "cell", [⟨0, "x", .int8, 2, false, false⟩]⟩ 2,
          .set ⟨0, 1, 0⟩ 1 (.int ⟨true, .two⟩ 7), .capture 0] (.new .dense))
      (Action.answers Store.perform
        [.allocate ⟨0, "cell", [⟨0, "x", .int8, 2, false, false⟩]⟩ 2,
          .set ⟨0, 1, 0⟩ 1 (.int ⟨true, .two⟩ 7), .capture 0] (.new .lite)) ∧
    Except.Rel
      (fun f g => ∀ ops : List Frame.Op, List.Forall₂ (Except.Rel Frame.Answer.Alike)
        (Action.answers Frame.perform ops f) (Action.answers Frame.perform ops g))
      (Session.buildBy [.setKind .dense, .declare "cell" 2] {}).result
      (Session.buildBy [.setKind .lite, .declare "cell" 2] {}).result := by
  have hcell : (Schema.mk 0 "cell" [⟨0, "x", .int8, 2, false, false⟩]).Declared :=
    .ofSpecs (show Schema.ofSpecs "cell" [⟨"x", .int8, 2, false, false⟩] = .ok _ by rfl)
  refine ⟨strategies_indistinguishable.1 _ fun call hcall => ?_,
    strategies_indistinguishable.2 _ _ (.cons (.kind .dense .lite) (.cons (.same trivial) .nil))⟩
  simp only [List.mem_cons, List.not_mem_nil, or_false] at hcall
  rcases hcall with rfl | rfl | rfl
  · exact hcell
  · trivial
  · trivial

end NodeStore
