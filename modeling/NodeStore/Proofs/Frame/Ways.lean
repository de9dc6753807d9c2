import NodeStore.Proofs.Frame.Typed

/-!
# By name, by handle, through a view

An attribute can be reached by its names, by a handle they were looked up for, and through a view of
the instance. All of it comes down to numbers, and these say the same for as long as the frame is
in use: schemas and counts stay, and a schema's number is its place (`Frame.Sound`). So handles and
views stand for the names they were got by, at any later time and for every access:

* `Frame.handle_standsFor`: handles, also where there is no instance.
* `Frame.Sound.view_standsFor`: views.
* `Frame.Op.Way.run`: so a run goes the same, whichever way its operations are made.
* `Frame.Reachable.ways_interchangeable`: all of it, for frames in use.
-/

namespace NodeStore

open NodeStore.Action

/-- What is done by the handle ends as it does by the names, with the same answer, frame and events.
Elements are gathered if and only if a read by the names gives them. -/
structure Handle.StandsFor (k : Handle) (f : Frame) (schema attr : String) : Prop where
  access : ∀ index a, Frame.perform (.accessBy k index a) f =
    Frame.perform (.access schema index attr a) f
  gathered : ∀ index vs output,
    (Frame.perform (.access schema index attr .getList) f).result = .ok (.values vs) →
      Frame.gatherList k index (f, output) = ⟨.ok (), (f, output ++ vs), []⟩
  refused : ∀ index e output,
    (Frame.perform (.access schema index attr .getList) f).result = .error e →
      Frame.gatherList k index (f, output) = ⟨.error e, (f, output), []⟩

/-- What is done through the view ends as it does by the names, with the same answer, frame and
events. -/
structure Node.StandsFor (n : Node) (f : Frame) (schema : String) (index : Nat) : Prop where
  access : ∀ attr a, n.perform (.access attr a) f = Frame.perform (.access schema index attr a) f
  sealing : n.perform .seal f = Frame.perform (.seal schema index) f
  isSealed : n.perform .isSealed f = Frame.perform (.isSealed schema index) f

namespace Frame

variable {f f₁ g : Frame} {shape : List (Schema × Nat)} {op op' : Op} {ops ops' : List Op}
  {schema attr : String} {index : Nat} {k : Handle} {n : Node}

/-! ## Handles -/

theorem handle_congr (hschemas : g.schemas = f.schemas) (schema attr : String) :
    g.handle schema attr = f.handle schema attr := by
  simp only [handle, Frame.schema, schema?, hschemas]

theorem coord_of_handle (hk : f.handle schema attr = .ok k) (index : Nat) :
    f.coord schema index attr = .ok (k.coord index) := by
  rw [coord, hk]
  rfl

theorem handle_standsFor (hk : f.handle schema attr = .ok k) : k.StandsFor f schema attr := by
  have haccess (index : Nat) (a : Access) :
      perform (.accessBy k index a) f = perform (.access schema index attr a) f :=
    (perform_access (coord_of_handle hk index) a).symm
  refine ⟨haccess, fun index vs output hread => ?_, fun index e output hread => ?_⟩
  · rw [← haccess] at hread
    have hlist : f.store.getList (k.coord index) = .ok vs :=
      Except.map_injective (fun _ _ => Answer.values.inj) hread
    simp [gatherList, bind_apply, hlist]
  · rw [← haccess] at hread
    have hlist : f.store.getList (k.coord index) = .error e :=
      Except.map_injective (fun _ _ => Answer.values.inj) hread
    simp [gatherList, bind_apply, hlist]

/-! ## Views -/

theorem node_ok (hn : f.node schema index = .ok n) :
    ∃ s, f.schema schema = .ok s ∧ f.requireIndex s.id index = .ok () ∧ n = ⟨s.id, index⟩ := by
  obtain ⟨s, hs, hn⟩ := Except.bind_ok.1 hn
  obtain ⟨_, hindex, hn⟩ := Except.bind_ok.1 hn
  exact ⟨s, hs, hindex, (Except.ok.inj hn).symm⟩

/-- The schema that a view looks up by its number is the one it was opened by. -/
theorem Sound.view_standsFor (h : f.Sound shape) (hn : f.node schema index = .ok n) :
    n.StandsFor f schema index := by
  obtain ⟨s, hs, hindex, rfl⟩ := node_ok hn
  have hat : f.schemaAt? s.id = some s := h.schemaAt_ok (h.schema_mem hs).1
  have hcoord (attr : String) : Node.coord ⟨s.id, index⟩ attr f = f.coord schema index attr := by
    simp only [Node.coord, schemaAt, hat, coord, handle, hs, Except.ok_bind]
    cases s.attributeNamed attr <;> rfl
  refine ⟨fun attr a => ?_, ?_, ?_⟩
  · simp only [Node.perform, perform, bind_apply, read_apply, hcoord]
  · simp [Node.perform, perform, sealInstance, bind_apply, hs, Node.sealNode]
  · simp [Node.perform, perform, isSealed, hs, hindex]

/-! ## Runs -/

/-- The ways to make an operation, with handles and views that were got in the frame `f₁`. -/
inductive Op.Way (f₁ : Frame) : Op → Op → Prop
  | same (op : Op) : Way f₁ op op
  | handle {schema attr : String} {k : Handle} (hk : f₁.handle schema attr = .ok k) (index : Nat)
      (a : Access) : Way f₁ (.access schema index attr a) (.accessBy k index a)
  | view {schema : String} {index : Nat} {n : Node} (hn : f₁.node schema index = .ok n)
      (attr : String) (a : Access) :
      Way f₁ (.access schema index attr a) (.node schema index (.access attr a))
  | sealing {schema : String} {index : Nat} {n : Node} (hn : f₁.node schema index = .ok n) :
      Way f₁ (.seal schema index) (.node schema index .seal)
  | isSealed {schema : String} {index : Nat} {n : Node} (hn : f₁.node schema index = .ok n) :
      Way f₁ (.isSealed schema index) (.node schema index .isSealed)

theorem perform_node (hn : f.node schema index = .ok n) (call : Node.Call) :
    perform (.node schema index call) f = n.perform call f := by
  simp [perform, bind_apply, hn]

/-- One operation made another way. -/
theorem Op.Way.perform (hw : Op.Way f₁ op op') (h₁ : f₁.Sound shape) (h : f.Sound shape) :
    Frame.perform op' f = Frame.perform op f := by
  have hschemas := h₁.schemas_same h
  have hopen (schema : String) (index : Nat) : f.node schema index = f₁.node schema index :=
    node_congr hschemas (h₁.count_same h) schema index
  cases hw with
  | same op => rfl
  | handle hk index a =>
    rw [← handle_congr hschemas] at hk
    exact (handle_standsFor hk).access index a
  | view hn attr a =>
    rw [← hopen] at hn
    rw [perform_node hn]
    exact (h.view_standsFor hn).access attr a
  | sealing hn =>
    rw [← hopen] at hn
    rw [perform_node hn]
    exact (h.view_standsFor hn).sealing
  | isSealed hn =>
    rw [← hopen] at hn
    rw [perform_node hn]
    exact (h.view_standsFor hn).isSealed

/-- A run of operations each of which is made another way. -/
theorem Op.Way.run (h₁ : f₁.Sound shape) (h : f.Sound shape)
    (hways : List.Forall₂ (Op.Way f₁) ops ops') :
    answers Frame.perform ops' f = answers Frame.perform ops f ∧
      after Frame.perform ops' f = after Frame.perform ops f := by
  induction hways generalizing f with
  | nil => exact ⟨rfl, rfl⟩
  | cons hw _ ih =>
    rw [answers, answers, after_cons, after_cons, hw.perform h₁ h]
    obtain ⟨hanswers, hafter⟩ := ih (perform_sound _ f h)
    exact ⟨by rw [hanswers], hafter⟩

/-! ## Frames in use -/

theorem handle_ok (hk : f.handle schema attr = .ok k) :
    ∃ s a, f.schema schema = .ok s ∧ s.attributeNamed attr = .ok a ∧ k = ⟨s.id, a.id⟩ := by
  obtain ⟨s, hs, hk⟩ := Except.bind_ok.1 hk
  obtain ⟨a, ha, hk⟩ := Except.bind_ok.1 hk
  exact ⟨s, a, hs, ha, (Except.ok.inj hk).symm⟩

theorem Reachable.sealsInRange (h : f.Reachable) :
    ∃ shape, f.Sound shape ∧ f.SealsInRange := by
  obtain ⟨f₀, ops, hf₀, rfl⟩ := h
  obtain ⟨shape, hblank⟩ := hf₀.blank
  obtain ⟨hintact, hseals⟩ := Keeps.after (fun op _ => perform_sealsInRange op)
    (⟨hblank.intact, hblank.sealsInRange⟩ : f₀.Intact shape ∧ f₀.SealsInRange)
  exact ⟨shape, hintact.sound, hseals⟩

/-- A handle stands for its names ever after, and so does a view of any instance there is. Where
there is none the view cannot be opened, and every access is refused for the index. Runs of the same
operations made in different ways answer alike and leave the same frame. -/
theorem Reachable.ways_interchangeable (h₁ : f₁.Reachable) (hk : f₁.handle schema attr = .ok k)
    (past : List Op) (hf : f = after perform past f₁) :
    k.StandsFor f schema attr ∧
    (∃ count, f.instanceCount schema = .ok count ∧
      (∀ index < count, ∃ n, f₁.node schema index = .ok n ∧ n.StandsFor f schema index) ∧
      ∀ index, count ≤ index →
        f.node schema index = .error (.indexOutOfRange schema index count) ∧
        ∀ a, (perform (.access schema index attr a) f).result =
          .error (.indexOutOfRange schema index count)) ∧
    ∀ ops ops', List.Forall₂ (Op.Way f₁) ops ops' →
      answers perform ops' f = answers perform ops f ∧
        after perform ops' f = after perform ops f := by
  have hreach : f.Reachable := by
    obtain ⟨f₀, ops, hf₀, rfl⟩ := h₁
    exact ⟨f₀, ops ++ past, hf₀, by rw [hf, after_append]⟩
  obtain ⟨shape, hsound₁⟩ := h₁.sound
  have hsound : f.Sound shape := hf ▸ hsound₁.after past
  obtain ⟨shape', hsound', hseals⟩ := hreach.sealsInRange
  have hschemas := hsound₁.schemas_same hsound
  have hcounts := hsound₁.count_same hsound
  obtain ⟨s, a, hs, ha, -⟩ := handle_ok ((handle_congr hschemas schema attr).trans hk)
  obtain ⟨hmem, rfl, hwf⟩ := hsound.schema_mem hs
  obtain ⟨hat, rfl⟩ := hwf.attributeNamed_ok.1 ha
  refine ⟨handle_standsFor ((handle_congr hschemas _ _).trans hk), ⟨f.count s.id, ?_, ?_, ?_⟩,
    fun ops ops' hways => Op.Way.run hsound₁ hsound hways⟩
  · rw [instanceCount, hs]
    rfl
  · intro index hindex
    have hn : f.node s.name index = .ok ⟨s.id, index⟩ := by
      rw [hsound.node_eq hmem, if_pos hindex]
    exact ⟨_, node_congr hschemas hcounts s.name index ▸ hn, hsound.view_standsFor hn⟩
  · intro index hindex
    have hbeyond := hsound'.beyond hseals hmem (List.mem_of_getElem? hat) hindex
    refine ⟨by rw [hsound.node_eq hmem, if_neg (Nat.not_lt.2 hindex)], fun access => ?_⟩
    exact hbeyond.access access _ List.mem_cons_self

/-- A handle is got before values are written, captured and restored and the instance is sealed. A
run in which it is used, and a view too, goes as the one by names. -/
theorem ways_interchangeable_sealed : ∃ (f₁ f : Frame) (k : Handle) (n : Node), f₁.Reachable ∧
    f = after perform [.access "cell" 1 "x" (.set 0 (.int ⟨true, .one⟩ 4)), .capture 2,
      .access "cell" 1 "log" (.append (.int ⟨true, .one⟩ 9)), .restore 2, .seal "cell" 1] f₁ ∧
    f₁.handle "cell" "log" = .ok k ∧ k.StandsFor f "cell" "log" ∧
    f₁.node "cell" 1 = .ok n ∧ n.StandsFor f "cell" 1 ∧
    f.node "cell" 2 = .error (.indexOutOfRange "cell" 2 2) ∧
    answers perform [.accessBy k 1 (.append (.int ⟨true, .one⟩ 5)), .node "cell" 1 .isSealed,
      .node "cell" 1 (.access "x" (.set 0 (.int ⟨true, .one⟩ 6))), .accessBy k 1 .getList] f =
      [.ok .done, .ok (.flag true), .error (.constAttributeWrite "cell" "x" 1),
        .ok (.values [.int ⟨true, .one⟩ 5])] := by
  have hsteps : ∀ step ∈ [Builder.Step.declareWith "cell"
      [⟨"x", .int8, 1, false, true⟩, ⟨"log", .int8, 1, true, false⟩] 2, .setSnapshots 2],
      step.Standard := by
    simp [Builder.Step.Standard]
  have hf₁ : Reachable _ := ⟨_, [], ⟨_, hsteps, rfl⟩, rfl⟩
  obtain ⟨hhandle, ⟨count, hcount, hview, hbeyond⟩, hruns⟩ :=
    hf₁.ways_interchangeable (show handle _ "cell" "log" = .ok _ from rfl)
      [.access "cell" 1 "x" (.set 0 (.int ⟨true, .one⟩ 4)), .capture 2,
      .access "cell" 1 "log" (.append (.int ⟨true, .one⟩ 9)), .restore 2, .seal "cell" 1] rfl
  obtain rfl : 2 = count := Except.ok.inj hcount
  obtain ⟨n, hn, hstands⟩ := hview 1 (by decide)
  refine ⟨_, _, _, n, hf₁, rfl, rfl, hhandle, hn, hstands, (hbeyond 2 (by decide)).1, ?_⟩
  obtain ⟨hanswers, -⟩ := hruns
    [.access "cell" 1 "log" (.append (.int ⟨true, .one⟩ 5)), .isSealed "cell" 1,
      .access "cell" 1 "x" (.set 0 (.int ⟨true, .one⟩ 6)), .access "cell" 1 "log" .getList] _
    (.cons (.handle rfl _ _) (.cons (.isSealed hn) (.cons (.view hn _ _)
      (.cons (.handle rfl _ _) .nil))))
  exact hanswers.trans rfl

end Frame

end NodeStore
