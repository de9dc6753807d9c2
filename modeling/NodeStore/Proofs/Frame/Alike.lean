import NodeStore.Frame.Op
import NodeStore.Proofs.Store.Alike

/-!
# Frames alike

Two frames are alike (`Frame.Alike`) if they differ in nothing but the strategy of their stores.
Every operation answers the same on both, the name of the strategy apart, and leaves them alike
(`Frame.perform_alike`).
-/

namespace NodeStore

namespace Frame

/-- The same frame over stores alike. -/
inductive Alike : Frame → Frame → Prop
  | mk {s t : Store} (h : s.Alike t) (schemas : List Schema) (seals : List InstanceSet)
      (ring : Option Ring) : Alike ⟨schemas, s, seals, ring⟩ ⟨schemas, t, seals, ring⟩

variable {f g : Frame} {α β : Type}

/-! ## Looking up -/

theorem Alike.store (h : f.Alike g) : f.store.Alike g.store := by
  cases h with
  | mk h => exact h

theorem Alike.count_eq (h : f.Alike g) : f.count = g.count := by
  funext id
  rw [count, count, h.store.count?_eq]

theorem Alike.instanceCount_eq (h : f.Alike g) : f.instanceCount = g.instanceCount := by
  have hcount := h.count_eq
  cases h
  funext schema
  simp only [instanceCount, hcount]
  rfl

theorem Alike.requireIndex_eq (h : f.Alike g) : f.requireIndex = g.requireIndex := by
  have hcount := h.count_eq
  cases h
  funext id index
  simp only [requireIndex, hcount]
  rfl

theorem Alike.memory_eq (h : f.Alike g) : f.memory = g.memory := by
  have hmemory := h.store.memory_eq
  cases h
  simp only [memory, hmemory]

theorem Alike.permitWrite_eq (h : f.Alike g) : f.permitWrite = g.permitWrite := by
  cases h
  rfl

theorem Alike.coord_eq (h : f.Alike g) : f.coord = g.coord := by
  cases h
  rfl

theorem Alike.handle_eq (h : f.Alike g) : f.handle = g.handle := by
  cases h
  rfl

theorem Alike.schema_eq (h : f.Alike g) : f.schema = g.schema := by
  cases h
  rfl

theorem Alike.isSealed_eq (h : f.Alike g) : f.isSealed = g.isSealed := by
  have hindex := h.requireIndex_eq
  cases h
  funext schema index
  simp only [isSealed, hindex]
  rfl

theorem Alike.mergedSlots_eq (h : f.Alike g) : f.mergedSlots = g.mergedSlots := by
  have hslots := h.store.getSlots_eq
  cases h
  funext c slots vs
  simp only [mergedSlots] at hslots ⊢
  rw [hslots]
  rfl

theorem Alike.images_eq (h : f.Alike g) : f.images = g.images := by
  have hcapture := h.store.capture_eq
  cases h
  simp only [images] at hcapture ⊢
  rw [hcapture]

theorem Alike.query_eq (h : f.Alike g) : f.query = g.query := by
  have hcount := h.count_eq
  cases h
  funext q
  simp only [query, hcount]
  rfl

/-! ## Actions -/

/-- A read of which both frames think the same. -/
theorem read_alike {x : Frame → Except FrameError α} (h : ∀ f g, f.Alike g → x f = x g) :
    Action.Respects Alike Eq (Action.read x) (Action.read x) :=
  .read fun f g hfg => .of_eq (fun _ => rfl) (h f g hfg)

theorem inStore_alike {S : α → β → Prop} {x : Action Store α} {y : Action Store β}
    (h : Action.Respects Store.Alike S x y) : Action.Respects Alike S (inStore x) (inStore y) := by
  refine .on h (fun f g hfg => hfg.store) fun s t f g hst hfg => ?_
  cases hfg
  exact .mk hst _ _ _

theorem write_alike (c : Coord) {x : Action Store Unit}
    (h : Action.Respects Store.Alike Eq x x) : Action.Respects Alike Eq (write c x) (write c x) :=
  .bind (read_alike fun f g hfg => by rw [hfg.permitWrite_eq]) fun _ _ _ => inStore_alike h

theorem writeChosen_alike (c : Coord) (slots : List Nat) (vs : List Value) :
    Action.Respects Alike Eq (writeChosen c slots vs) (writeChosen c slots vs) := by
  refine .bind (read_alike fun f g hfg => by rw [hfg.permitWrite_eq]) fun _ _ _ => ?_
  refine .bind (read_alike fun f g hfg => by rw [hfg.mergedSlots_eq]) fun merged _ h => ?_
  subst h
  exact inStore_alike (Store.setSlots_alike c merged)

/-- An action that goes on with the whole frame. -/
theorem get_alike {S : α → β → Prop} {x : Frame → Action Frame α} {y : Frame → Action Frame β}
    (h : ∀ f g, f.Alike g → Action.Respects Alike S (x f) (y g)) :
    Action.Respects Alike S (do x (← Action.get)) (do y (← Action.get)) :=
  .bind .get h

theorem sealAt_alike (id : SchemaId) (index : Nat) :
    Action.Respects Alike Eq (sealAt id index) (sealAt id index) := by
  refine .bind (read_alike fun f g hfg => by rw [hfg.requireIndex_eq]) fun _ _ _ => ?_
  refine get_alike ?_
  intro f g hfg
  cases hfg with
  | mk h schemas seals ring =>
    cases seals[id]? with
    | none => exact .pure rfl
    | some set =>
      refine .bind (.modify fun f g hfg => ?_) fun _ _ _ =>
        .ite (fun _ => .emit _ _) fun _ => .pure rfl
      cases hfg
      exact .mk ‹_› _ _ _

theorem sealInstance_alike (schema : String) (index : Nat) :
    Action.Respects Alike Eq (sealInstance schema index) (sealInstance schema index) := by
  refine .bind (read_alike fun f g hfg => by rw [hfg.schema_eq]) fun s _ h => ?_
  subst h
  exact sealAt_alike s.id index

theorem sealSchema_alike (name : String) :
    Action.Respects Alike Eq (sealSchema name) (sealSchema name) := by
  refine .bind (read_alike fun f g hfg => by rw [hfg.schema_eq]) fun s _ h => ?_
  subst h
  refine get_alike ?_
  intro f g hfg
  rw [hfg.count_eq]
  refine .bind (.modify fun f g hfg => ?_) fun _ _ _ => .emit _ _
  cases hfg
  exact .mk ‹_› _ _ _

theorem sealAll_alike : Action.Respects Alike Eq sealAll sealAll := by
  refine get_alike fun f g _ => .bind (.modify fun f g hfg => ?_) fun _ _ _ => .emit _ _
  rw [hfg.count_eq]
  cases hfg
  exact .mk ‹_› _ _ _

theorem reset_alike : Action.Respects Alike Eq reset reset := by
  refine .bind (inStore_alike Store.resetAll_alike) ?_
  intro _ _ _
  refine .bind (.modify fun f g hfg => ?_) fun _ _ _ => get_alike fun f g _ => .emit _ _
  cases hfg
  exact .mk ‹_› _ _ _

theorem capture_alike (tick : Tick) : Action.Respects Alike Eq (capture tick) (capture tick) := by
  refine .bind (read_alike fun f g hfg => by cases hfg; rfl) fun ring _ h => ?_
  subst h
  refine .bind (read_alike fun f g hfg => hfg.images_eq) fun pools _ h => ?_
  subst h
  generalize ring.push ⟨tick, pools⟩ = out
  obtain ⟨displaced, ring'⟩ := out
  refine .bind (.modify fun f g hfg => ?_) fun _ _ _ => .bind (.emit _ _) fun _ _ _ => ?_
  · cases hfg
    exact .mk ‹_› _ _ _
  · cases displaced with
    | none => exact .pure rfl
    | some old => exact .ite (fun _ => .emit _ _) fun _ => .pure rfl

theorem restore_alike (tick : Tick) : Action.Respects Alike Eq (restore tick) (restore tick) := by
  refine .bind (read_alike fun f g hfg => by cases hfg; rfl) fun s _ h => ?_
  subst h
  refine .bind (.forM (List.forall₂_same.2 ?_)) fun _ _ _ => .emit _ _
  rintro ⟨image, id⟩ _
  exact inStore_alike (Store.restore_alike id image)

/-! ## Answers -/

/-- The same answer, the name of the strategy apart. -/
inductive Answer.Alike : Answer → Answer → Prop
  | same (a : Answer) : Alike a a
  | kind (k k' : Kind) : Alike (.kind k) (.kind k')
  | summary (i : FrameSummary) (k : Kind) : Alike (.summary i) (.summary { i with kind := k })
  | text (k k' : Kind) (fields : List (String × String)) :
      Alike (.text (describeFields "Frame" (("backend", Text.quoted k.name) :: fields)))
        (.text (describeFields "Frame" (("backend", Text.quoted k'.name) :: fields)))

theorem answer_alike {x : Frame → Except FrameError Answer} (h : ∀ f g, f.Alike g → x f = x g) :
    Action.Respects Alike Answer.Alike (Action.read x) (Action.read x) :=
  .read fun f g hfg => .of_eq .same (h f g hfg)

theorem done_alike {x : Action Frame Unit} (h : Action.Respects Alike Eq x x) :
    Action.Respects Alike Answer.Alike (do x; return .done) (do x; return .done) :=
  .bind h fun _ _ _ => .pure (.same .done)

/-- An action at a place that is looked up first. -/
theorem at_alike {S : β → β → Prop} {place : Frame → Except FrameError α} {x : α → Action Frame β}
    (hplace : ∀ f g, f.Alike g → place f = place g)
    (hx : ∀ a, Action.Respects Alike S (x a) (x a)) :
    Action.Respects Alike S (do x (← Action.read place)) (do x (← Action.read place)) := by
  refine .bind (read_alike hplace) ?_
  intro a _ h
  subst h
  exact hx a

/-! ## Operations -/

theorem access_alike (c : Coord) (a : Access) :
    Action.Respects Alike Answer.Alike (a.perform c) (a.perform c) := by
  cases a with
  | get slot => exact answer_alike fun f g h => by rw [h.store.get_eq]
  | getSlots => exact answer_alike fun f g h => by rw [h.store.getSlots_eq]
  | set slot v => exact done_alike (write_alike c (Store.set_alike c slot v))
  | setSlots vs => exact done_alike (write_alike c (Store.setSlots_alike c vs))
  | setSlotsAt slots vs => exact done_alike (writeChosen_alike c slots vs)
  | getList => exact answer_alike fun f g h => by rw [h.store.getList_eq]
  | listLength => exact answer_alike fun f g h => by rw [h.store.listLength_eq]
  | append v => exact done_alike (write_alike c (Store.append_alike c v))
  | setList vs => exact done_alike (write_alike c (Store.setList_alike c vs))

theorem nodeCoord_alike (n : Node) (attr : String) (h : f.Alike g) :
    n.coord attr f = n.coord attr g := by
  cases h
  rfl

theorem requireKey_alike (n : Node) (k : Key) (h : f.Alike g) :
    n.requireKey k f = n.requireKey k g := by
  cases h
  rfl

/-- A write by a key, at the coordinate it is looked up at. -/
theorem keyed_alike (n : Node) (k : Key) {x : Coord → Action Store Unit}
    (h : ∀ c, Action.Respects Store.Alike Eq (x c) (x c)) :
    Action.Respects Alike Eq
      (do
        let _ ← Action.read (n.requireKey k)
        let c ← Action.read (n.coord k.attr)
        write c (x c))
      (do
        let _ ← Action.read (n.requireKey k)
        let c ← Action.read (n.coord k.attr)
        write c (x c)) :=
  .bind (read_alike fun _ _ hfg => requireKey_alike n k hfg) fun _ _ _ =>
    at_alike (fun _ _ hfg => nodeCoord_alike n k.attr hfg) fun c => write_alike c (h c)

theorem call_alike (n : Node) (call : Node.Call) :
    Action.Respects Alike Answer.Alike (n.perform call) (n.perform call) := by
  cases call with
  | schema => exact .pure (.same _)
  | index => exact .pure (.same _)
  | isSealed => exact answer_alike fun f g h => by cases h; rfl
  | describe => exact .pure (.same _)
  | describeNamed => exact answer_alike fun f g h => by cases h; rfl
  | «seal» => exact done_alike (sealAt_alike n.schema n.index)
  | key k => exact .pure (.same _)
  | access attr a =>
    exact at_alike (fun _ _ h => nodeCoord_alike n attr h) fun c => access_alike c a
  | read k =>
    refine answer_alike ?_
    intro f g h
    simp only [Node.read, requireKey_alike n k h, nodeCoord_alike n k.attr h, h.store.get_eq]
  | readSlots k =>
    refine answer_alike ?_
    intro f g h
    simp only [Node.readSlots, requireKey_alike n k h, nodeCoord_alike n k.attr h,
      h.store.getSlots_eq]
  | readList k =>
    refine answer_alike ?_
    intro f g h
    simp only [Node.readList, requireKey_alike n k h, nodeCoord_alike n k.attr h,
      h.store.getList_eq]
  | write k x => exact done_alike (keyed_alike n k fun c => Store.set_alike c 0 _)
  | writeSlots k xs => exact done_alike (keyed_alike n k fun c => Store.setSlots_alike c _)
  | push k x => exact done_alike (keyed_alike n k fun c => Store.append_alike c _)

theorem node_alike (schema : String) (index : Nat) (h : f.Alike g) :
    f.node schema index = g.node schema index := by
  have hindex := h.requireIndex_eq
  cases h
  simp only [node, hindex]
  rfl

theorem summary_alike (h : f.Alike g) : (Answer.summary f.summary).Alike (.summary g.summary) := by
  have hsummary : g.summary = { f.summary with kind := g.store.kind } := by
    have hcount := h.count_eq
    cases h
    simp only [summary, hcount]
  rw [hsummary]
  exact .summary _ _

theorem describe_alike (h : f.Alike g) : (Answer.text f.describe).Alike (.text g.describe) := by
  cases h
  exact .text _ _ _

theorem perform_alike (op : Op) : Action.Respects Alike Answer.Alike (perform op) (perform op) := by
  cases op with
  | kind => exact .read fun f g _ => .ok (.kind f.store.kind g.store.kind)
  | schema? name => exact answer_alike fun f g h => by cases h; rfl
  | schemaAt? id => exact answer_alike fun f g h => by cases h; rfl
  | schemas => exact answer_alike fun f g h => by cases h; rfl
  | instanceCount schema => exact answer_alike fun f g h => by rw [h.instanceCount_eq]
  | hasSnapshots => exact answer_alike fun f g h => by cases h; rfl
  | summary => exact .read fun f g h => .ok (summary_alike h)
  | memory => exact answer_alike fun f g h => by rw [h.memory_eq]
  | describe => exact .read fun f g h => .ok (describe_alike h)
  | handle schema attr => exact answer_alike fun f g h => by rw [h.handle_eq]
  | access schema index attr a =>
    exact at_alike (fun _ _ h => by rw [h.coord_eq]) fun c => access_alike c a
  | accessBy hd index a => exact access_alike (hd.coord index) a
  | node schema index call =>
    exact at_alike (fun _ _ h => node_alike schema index h) fun n => call_alike n call
  | «seal» schema index => exact done_alike (sealInstance_alike schema index)
  | sealSchema schema => exact done_alike (sealSchema_alike schema)
  | sealAll => exact done_alike sealAll_alike
  | isSealed schema index => exact answer_alike fun f g h => by rw [h.isSealed_eq]
  | reset => exact done_alike reset_alike
  | capture tick => exact done_alike (capture_alike tick)
  | restore tick => exact done_alike (restore_alike tick)
  | snapshot tick => exact answer_alike fun f g h => by cases h; rfl
  | ring => exact answer_alike fun f g h => by cases h; rfl
  | holdsTick tick => exact answer_alike fun f g h => by cases h; rfl
  | query q => exact answer_alike fun f g h => by rw [h.query_eq]

end Frame

end NodeStore
