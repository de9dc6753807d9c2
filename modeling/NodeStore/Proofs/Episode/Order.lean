import NodeStore.Proofs.Action.Plan
import NodeStore.Proofs.Episode.Repeat

/-!
# The order of an episode

An episode is a plan, carried out up to the first deed that fails: `Runner.plan` lists the calls of
single entities, the sealing and the captures one after another, and the nested loops of a runner
carry out just that list. In it the capture of a tick stands between the last flush of the tick and
the first finish, so what is captured is the frame as the flushes left it.

* `Runner.callAll_does`, `Runner.tick_does`, `Runner.ticks_does`: the loops, from the inside out.
* `Runner.episode_eq`: the whole of it.
* `Runner.plan_capture`: where a capture stands.
* `Runner.episode_in_order`: what is carried out, what comes of it, and what the captures hold.
-/

namespace NodeStore

open NodeStore.Action

/-! ## What a capture holds -/

namespace Frame

variable {f g : Frame} {t : Tick}

theorem Reachable.leads {P : Op → Prop} (h : f.Reachable) (hleads : f.Leads P g) : g.Reachable := by
  obtain ⟨f₀, ops, hf₀, rfl⟩ := h
  obtain ⟨ops', -, rfl⟩ := hleads
  exact ⟨f₀, ops ++ ops', hf₀, (after_append ..).symm⟩

/-- The frame `g` is `f` with a snapshot of its live values for the tick. -/
def CapturedAs (f : Frame) (t : Tick) (g : Frame) : Prop :=
  ∃ ring pools, f.ring = some ring ∧ f.images = .ok pools ∧
    g = { f with ring := some (ring.push ⟨t, pools⟩).2 }

theorem capturedAs_of_ok (h : (capture t f).result = .ok ()) :
    f.CapturedAs t (capture t f).state := by
  obtain ⟨ring, hring, hrest⟩ := read_bind_ok.1 h
  obtain ⟨pools, hpools, -⟩ := read_bind_ok.1 hrest
  have hr := snapshots_ok.1 hring
  refine ⟨ring, pools, hr, hpools, ?_⟩
  rw [← state_bind_pure (capture t) Answer.done f]
  exact (capture_apply hr hpools).2

/-- A query for the tick gives what reading `f` gives, for every attribute of every instance. -/
def QueriesAs (f : Frame) (t : Tick) (g : Frame) : Prop :=
  ∀ schema ∈ f.schemas, ∀ index < f.count schema.id, ∀ attr ∈ schema.attributes, ∃ vs,
    (perform (.access schema.name index attr.name (.whole attr)) f).result = .ok (.values vs) ∧
    (perform (.query (.cell t schema index attr)) g).result =
      .ok (.result (.ofCell t index attr vs))

theorem CapturedAs.queriesAs (h : f.CapturedAs t g) (hf : f.Reachable) : f.QueriesAs t g := by
  obtain ⟨ring, pools, hr, hpools, rfl⟩ := h
  obtain ⟨shape, hintact⟩ := hf.intact
  intro schema hs index hindex attr ha
  obtain ⟨vs, hvs, hread⟩ := hintact.sound.captures hpools hs ha hindex t
  have hg : Sound { f with ring := some (ring.push ⟨t, pools⟩).2 } shape :=
    ⟨hintact.sound.shaped, hintact.sound.schemas, hintact.sound.numbered, hintact.sound.distinct⟩
  exact ⟨vs, hread,
    hg.query_cell rfl ((hintact.ring ring hr).get?_push ⟨t, pools⟩) hs ha hindex hvs⟩

end Frame

/-- Whatever becomes of the entity, it leaves a frame in use a frame in use. -/
def Entity.KeepsReachable {ε : Type} (W : Type) [HoldsFrame W] [Entity ε W] (e₀ : ε) : Prop :=
  ∀ e, Grown W e₀ e → ∀ phase (w : W), (HoldsFrame.frame w).Reachable →
    (HoldsFrame.frame (Entity.act phase (e, w)).state.2).Reachable

theorem Entity.Acts.keepsReachable {ε W : Type} [HoldsFrame W] [Entity ε W] {P : Frame.Op → Prop}
    {e₀ : ε} (h : Acts W P e₀) : KeepsReachable W e₀ :=
  fun e he phase w hw => hw.leads (h e he phase w)

namespace Runner

/-- The smallest things a runner does. -/
inductive Deed where
  | call (phase : Phase) (position : Nat)
  | sealAll
  | capture (tick : Tick)
deriving DecidableEq

variable {ε W : Type} [HoldsFrame W] [Entity ε W]

omit [HoldsFrame W] in
/-- Calls the entity at a position for a phase. -/
def callAt (phase : Phase) (position : Nat) : Action (Runner ε × W) Unit := fun (r, w) =>
  match r.entities[position]? with
  | some e =>
    let o := Entity.act phase (e, w)
    ⟨o.result, ({ r with entities := r.entities.set position o.state.1 }, o.state.2), o.events⟩
  | none => ⟨.ok (), (r, w), []⟩

/-- Seals every instance, and with that the runner is set up. -/
def finishStart : Action (Runner ε × W) Unit := do
  inWorld (inFrame Frame.sealAll)
  inRunner (Action.modify fun r => { r with started := true })
  let (r, _) ← Action.get
  Action.emit (.episodeStarted r.entities.length)

/-- Does a deed. -/
def Deed.perform : Deed → Action (Runner ε × W) Unit
  | .call phase position => callAt phase position
  | .sealAll => finishStart
  | .capture tick => inWorld (inFrame (Frame.capture tick))

/-! ## Plans -/

/-- The calls of `n` entities in order. -/
def calls (n : Nat) (phase : Phase) : List Deed := (List.range n).map (.call phase)

/-- Setting `n` entities up, unless that is done. -/
def setUp (n : Nat) (started : Bool) : List Deed :=
  if started then [] else calls n .start ++ [.sealAll]

/-- A tick of `n` entities that are set up. -/
def tickPlan (n : Nat) (capturing : Bool) (t : Tick) : List Deed :=
  calls n (.step t) ++ calls n .flush ++ (if capturing then [.capture t] else []) ++
    calls n (.finish t)

/-- The ticks from `first` up to `stop`. -/
def plan (r : Runner ε) (first stop : Tick) : List Deed :=
  (if first < stop then setUp r.entities.length r.started else []) ++
    (List.range' first (stop - first)).flatMap (tickPlan r.entities.length r.capture)

/-! ## Loops are plans -/

omit [HoldsFrame W] in
theorem callEach_eq (phase : Phase) (r : Runner ε) (pre es : List ε) (w : W) :
    ((List.range' pre.length es.length).forM (callAt phase)) ({ r with entities := pre ++ es }, w) =
      let o := callEach phase es w
      ⟨o.result, ({ r with entities := pre ++ o.state.1 }, o.state.2), o.events⟩ := by
  induction es generalizing pre w with
  | nil => rfl
  | cons e es ih =>
    rw [List.length_cons, List.range'_succ]
    change (callAt phase pre.length >>= fun _ =>
      (List.range' (pre.length + 1) es.length).forM (callAt phase)) _ = _
    have hcall : callAt phase pre.length ({ r with entities := pre ++ e :: es }, w) =
        let o := Entity.act phase (e, w)
        ⟨o.result, ({ r with entities := pre ++ o.state.1 :: es }, o.state.2), o.events⟩ := by
      simp [callAt]
    rw [bind_apply, hcall, callEach]
    cases hres : (Entity.act phase (e, w)).result with
    | error err => rfl
    | ok u =>
      have hrest :=
        ih (pre ++ [(Entity.act phase (e, w)).state.1]) (Entity.act phase (e, w)).state.2
      rw [List.length_append, List.length_singleton, List.append_assoc, List.singleton_append]
        at hrest
      simp only [hrest, List.append_assoc, List.singleton_append]

/-- A call of all entities is the calls of each. -/
theorem callAll_eq (phase : Phase) (s : Runner ε × W) :
    callAll phase s = (calls s.1.entities.length phase).forM Deed.perform s := by
  have heach := callEach_eq phase s.1 [] s.1.entities s.2
  rw [List.length_nil, ← List.range_eq_range', List.nil_append] at heach
  have : LawfulMonad (Action (Runner ε × W)) := lawfulMonad
  have hmap : (calls s.1.entities.length phase).forM Deed.perform =
      (List.range s.1.entities.length).forM (callAt (ε := ε) (W := W) phase) := List.forM_map
  rw [hmap, heach]
  rfl

/-- The runner has `n` entities, captures or not, and is set up or not. -/
structure Fixed (n : Nat) (capturing started : Bool) (s : Runner ε × W) : Prop where
  entities : s.1.entities.length = n
  capture : s.1.capture = capturing
  started : s.1.started = started

/-- With `n` entities the action carries out the deeds, and if it ends well the runner is set up if
`started'` says so. -/
def Does (n : Nat) (capturing started : Bool) (x : Action (Runner ε × W) Unit) (deeds : List Deed)
    (started' : Bool) : Prop :=
  ∀ s, Fixed n capturing started s → x s = deeds.forM Deed.perform s ∧
    ((x s).result = .ok () → Fixed n capturing started' (x s).state)

variable {n : Nat} {capturing b b' b'' : Bool} {x y : Action (Runner ε × W) Unit}
  {deeds deeds' : List Deed}

theorem Does.bind (hx : Does n capturing b x deeds b') (hy : Does n capturing b' y deeds' b'') :
    Does n capturing b (x >>= fun _ => y) (deeds ++ deeds') b'' := by
  intro s hs
  obtain ⟨heq, hfixed⟩ := hx s hs
  have : LawfulMonad (Action (Runner ε × W)) := lawfulMonad
  have happend : (deeds ++ deeds').forM (Deed.perform (ε := ε) (W := W)) =
      deeds.forM Deed.perform >>= fun _ => deeds'.forM Deed.perform := List.forM_append
  rw [happend]
  refine ⟨bind_congr_at heq fun _ hok => (hy _ (hfixed hok)).1, fun hok => ?_⟩
  obtain ⟨_, hok, hrest⟩ := bind_ok.1 hok
  rw [(bind_of_ok hok).2]
  exact (hy _ (hfixed hok)).2 hrest

/-- A single deed. -/
theorem does_single {d : Deed}
    (h : ∀ s : Runner ε × W, Fixed n capturing b s → Fixed n capturing b' (d.perform s).state) :
    Does n capturing b (d.perform : Action (Runner ε × W) Unit) [d] b' := by
  have : LawfulMonad (Action (Runner ε × W)) := lawfulMonad
  refine fun s hs => ⟨?_, fun _ => h s hs⟩
  change d.perform s = (d.perform >>= fun _ => pure ()) s
  rw [bind_pure]

theorem callAll_does (phase : Phase) :
    Does (ε := ε) (W := W) n capturing b (callAll phase) (calls n phase) b := by
  intro s hs
  rw [← hs.entities]
  refine ⟨callAll_eq phase s, fun _ => ⟨?_, hs.capture, hs.started⟩⟩
  exact (callEach_grown (List.forall₂_same.2 fun _ _ => .refl) s.2).length_eq.symm

theorem start_does : Does (ε := ε) (W := W) n capturing b start (setUp n false) true :=
  (callAll_does .start).bind
    (does_single (d := .sealAll) fun _ hs => ⟨hs.entities, hs.capture, rfl⟩)

/-- A tick of a runner that is set up. -/
theorem tickPlan_does (t : Tick) : Does (ε := ε) (W := W) n capturing true
    (callAll (.step t) >>= fun _ => callAll .flush >>= fun _ =>
      if capturing = true then
        (inWorld (inFrame (Frame.capture t)) >>= fun _ => callAll (.finish t))
      else callAll (.finish t)) (tickPlan n capturing t) true := by
  rw [tickPlan, List.append_assoc, List.append_assoc]
  refine (callAll_does _).bind ((callAll_does _).bind ?_)
  cases capturing with
  | false => exact callAll_does _
  | true =>
    have hcapture : Does (ε := ε) (W := W) n true true (inWorld (inFrame (Frame.capture t)))
        [.capture t] true :=
      does_single (d := .capture t) fun _ hs => ⟨hs.entities, hs.capture, hs.started⟩
    exact hcapture.bind (callAll_does _)

theorem tick_does (t : Tick) : Does (ε := ε) (W := W) n capturing b (tick t)
    (setUp n b ++ tickPlan n capturing t) true := by
  rintro ⟨⟨es, capturing', b'⟩, w⟩ hs
  obtain rfl : capturing' = capturing := hs.capture
  obtain rfl : b' = b := hs.started
  cases b' with
  | true => exact tickPlan_does t _ hs
  | false => exact start_does.bind (tickPlan_does t) _ hs

theorem ticks_does (first : Tick) (k : Nat) : Does (ε := ε) (W := W) n capturing true
    (ticks first k) ((List.range' first k).flatMap (tickPlan n capturing)) true := by
  induction k generalizing first with
  | zero => exact fun s hs => ⟨rfl, fun _ => hs⟩
  | succ k ih =>
    rw [List.range'_succ, List.flatMap_cons]
    exact (tick_does first).bind (ih (first + 1))

/-- An episode carries out its plan. -/
theorem episode_eq (r : Runner ε) (w : W) (first stop : Tick) :
    episode first stop (r, w) = (plan r first stop).forM Deed.perform (r, w) := by
  have hs : Fixed r.entities.length r.capture r.started (r, w) := ⟨rfl, rfl, rfl⟩
  rw [episode, plan]
  by_cases hlt : first < stop
  · obtain ⟨k, hk⟩ := Nat.exists_eq_succ_of_ne_zero (Nat.sub_ne_zero_of_lt hlt)
    rw [hk, if_pos hlt, List.range'_succ, List.flatMap_cons, ← List.append_assoc]
    exact ((tick_does first).bind (ticks_does (first + 1) k) _ hs).1
  · rw [Nat.sub_eq_zero_of_le (Nat.le_of_not_lt hlt), if_neg hlt]
    rfl

/-! ## Where captures stand -/

theorem capture_notMem_calls {t : Tick} {phase : Phase} : Deed.capture t ∉ calls n phase := by
  simp [calls]

theorem tickPlan_capture {t u : Tick} {pre post : List Deed}
    (h : tickPlan n capturing u = pre ++ .capture t :: post) :
    u = t ∧ pre = calls n (.step t) ++ calls n .flush ∧ post = calls n (.finish t) := by
  have hbefore : Deed.capture t ∉ calls n (.step u) ++ calls n .flush := by
    simp [capture_notMem_calls]
  cases capturing with
  | false =>
    have hmem : Deed.capture t ∈ tickPlan n false u := by
      rw [h]
      simp
    simp [tickPlan, capture_notMem_calls] at hmem
  | true =>
    rw [tickPlan, if_pos rfl, List.append_assoc _ [_], List.singleton_append] at h
    obtain ⟨rfl, hdeed, rfl⟩ :=
      (List.append_cons_inj_of_notMem hbefore capture_notMem_calls).1 h
    obtain rfl := Deed.capture.inj hdeed
    exact ⟨rfl, rfl, rfl⟩

/-- In a list put together of two, an element stands in the first or in the second. -/
theorem append_eq_append_cons {α : Type} {l l' pre post : List α} {a : α}
    (h : l ++ l' = pre ++ a :: post) : (∃ mid, l = pre ++ a :: mid ∧ post = mid ++ l') ∨
      ∃ mid, pre = l ++ mid ∧ l' = mid ++ a :: post := by
  rcases List.append_eq_append_iff.1 h with hright | ⟨mid, hl, hmid⟩
  · exact .inr hright
  · cases mid with
    | nil => exact .inr ⟨[], by simpa using hl.symm, hmid.symm⟩
    | cons b mid =>
      obtain ⟨rfl, hpost⟩ := List.cons.inj hmid
      exact .inl ⟨mid, hl, hpost⟩

theorem ticksPlan_capture {t : Tick} {ts : List Tick} {pre post : List Deed}
    (h : ts.flatMap (tickPlan n capturing) = pre ++ .capture t :: post) : ∃ before rest,
      pre = before ++ (calls n (.step t) ++ calls n .flush) ∧
      post = calls n (.finish t) ++ rest := by
  induction ts generalizing pre with
  | nil => exact absurd h (by simp)
  | cons u ts ih =>
    rw [List.flatMap_cons] at h
    rcases append_eq_append_cons h with ⟨mid, hmid, rfl⟩ | ⟨mid, rfl, hmid⟩
    · obtain ⟨rfl, rfl, rfl⟩ := tickPlan_capture hmid
      exact ⟨[], _, rfl, rfl⟩
    · obtain ⟨before, rest, rfl, rfl⟩ := ih hmid
      exact ⟨_, rest, (List.append_assoc ..).symm, rfl⟩

omit [HoldsFrame W] [Entity ε W] in
/-- In a plan the capture of a tick comes right after the flushes of the tick and right before what
finishes it. -/
theorem plan_capture {r : Runner ε} {first stop t : Tick} {pre post : List Deed}
    (h : plan r first stop = pre ++ .capture t :: post) : ∃ before rest,
      pre = before ++ (calls r.entities.length (.step t) ++ calls r.entities.length .flush) ∧
      post = calls r.entities.length (.finish t) ++ rest := by
  have hsetUp : Deed.capture t ∉
      if first < stop then setUp r.entities.length r.started else [] := by
    split
    · unfold setUp
      split <;> simp [capture_notMem_calls]
    · exact List.not_mem_nil
  rcases append_eq_append_cons h with ⟨mid, hmid, -⟩ | ⟨mid, rfl, hmid⟩
  · exact absurd (hmid ▸ List.mem_append_right pre List.mem_cons_self) hsetUp
  · obtain ⟨before, rest, rfl, rfl⟩ := ticksPlan_capture hmid
    exact ⟨_, rest, (List.append_assoc ..).symm, rfl⟩

/-! ## Episodes in order -/

section
variable [LawfulWorld W] {r₀ : Runner ε}

/-- The entities have become of those of `r₀` by phases, and the frame is one in use. -/
structure UsesReachable (r₀ : Runner ε) (s : Runner ε × W) : Prop where
  grown : List.Forall₂ (Entity.Grown W) r₀.entities s.1.entities
  frame : (HoldsFrame.frame s.2).Reachable

theorem deed_usesReachable (hentities : ∀ e ∈ r₀.entities, Entity.KeepsReachable W e) (d : Deed) :
    Keeps (UsesReachable (W := W) r₀) d.perform := by
  rintro s ⟨hgrown, hw⟩
  have hframe {x : Action Frame Unit} (op : Frame.Op)
      (hx : Frame.perform op = (x >>= fun _ => pure .done)) :
      (HoldsFrame.frame (inWorld (inFrame x) s).state.2).Reachable := by
    rw [frame_inFrame]
    exact hw.leads (.of_perform (P := fun _ => True) op hx trivial _)
  cases d with
  | call phase position =>
    obtain ⟨r, w⟩ := s
    have hgrown : List.Forall₂ (Entity.Grown W) r₀.entities r.entities := hgrown
    simp only [Deed.perform, callAt]
    cases he : r.entities[position]? with
    | none => exact ⟨hgrown, hw⟩
    | some e =>
      obtain ⟨e₀, he₀, hbecome⟩ := hgrown.exists_left he
      refine ⟨hgrown.set_right position fun e' he' => ?_, ?_⟩
      · obtain rfl : e₀ = e' := Option.some.inj (he₀.symm.trans he')
        exact hbecome.act phase w
      · exact hentities e₀ (List.mem_of_getElem? he₀) e hbecome phase w hw
  | sealAll => exact ⟨hgrown, hframe .sealAll rfl⟩
  | capture t => exact ⟨hgrown, hframe (.capture t) rfl⟩

/-- An episode carries out its plan as far as nothing fails, the first failure included, and answers
with that failure or, if there is none, well. A tick that is captured on the way is captured between
its last flush and its first finish, as the frame is then; and if the entities leave a frame in use,
asking for the tick right after gives what reading would have given right before. -/
theorem episode_in_order (r : Runner ε) (w : W) (first stop : Tick) {done : List Deed}
    (hdone : done = performed Deed.perform (plan r first stop) (r, w)) :
    Performed Deed.perform (plan r first stop) (r, w) done (episode first stop (r, w)) ∧
    ∀ pre t post, done = pre ++ .capture t :: post →
      (Deed.perform (.capture t) (after Deed.perform pre (r, w))).result = .ok () →
      (∃ before rest,
        pre = before ++ (calls r.entities.length (.step t) ++ calls r.entities.length .flush) ∧
        plan r first stop = pre ++ .capture t :: (calls r.entities.length (.finish t) ++ rest)) ∧
      (HoldsFrame.frame (after Deed.perform pre (r, w)).2).CapturedAs t
        (HoldsFrame.frame (after Deed.perform (pre ++ [.capture t]) (r, w)).2) ∧
      ((HoldsFrame.frame w).Reachable → (∀ e ∈ r.entities, Entity.KeepsReachable W e) →
        (HoldsFrame.frame (after Deed.perform pre (r, w)).2).QueriesAs t
          (HoldsFrame.frame (after Deed.perform (pre ++ [.capture t]) (r, w)).2)) := by
  have hperformed := forM_performed Deed.perform (plan r first stop) (r, w)
  rw [← episode_eq, ← hdone] at hperformed
  refine ⟨hperformed, fun pre t post hpre hok => ?_⟩
  obtain ⟨rest, hplan⟩ := hperformed.begins
  rw [hpre, List.append_assoc, List.cons_append] at hplan
  obtain ⟨before, rest', hbefore, hrest⟩ := plan_capture hplan.symm
  have hcaptured : (HoldsFrame.frame (after Deed.perform pre (r, w)).2).CapturedAs t
      (HoldsFrame.frame (after Deed.perform (pre ++ [.capture t]) (r, w)).2) := by
    rw [after_append, after_cons, after_nil, Deed.perform, frame_inFrame]
    exact Frame.capturedAs_of_ok hok
  refine ⟨⟨before, rest', hbefore, by rw [← hplan, hrest]⟩, hcaptured, fun hw hentities => ?_⟩
  have hnew : UsesReachable r (r, w) := ⟨List.forall₂_same.2 fun _ _ => .refl, hw⟩
  have huses := Keeps.after (fun d (_ : d ∈ pre) => deed_usesReachable hentities d) hnew
  exact hcaptured.queriesAs huses.frame

end

/-- Of two counters the second fails in the second tick. The first has stepped by then, but the tick
captured before is as it was. -/
theorem episode_in_order_failing : ∃ (r : Runner Tally) (f : Frame) (pre post : List Deed),
    r = ⟨[⟨9, 0⟩, ⟨1, 0⟩], true, false⟩ ∧ f.Built ∧
    pre = [.call .start 0, .call .start 1, .sealAll, .call (.step 0) 0, .call (.step 0) 1,
      .call .flush 0, .call .flush 1] ∧
    post = [.call (.finish 0) 0, .call (.finish 0) 1, .call (.step 1) 0, .call (.step 1) 1] ∧
    Performed Deed.perform (plan r 0 3) (r, f) (pre ++ .capture 0 :: post) (episode 0 3 (r, f)) ∧
    (HoldsFrame.frame (after Deed.perform pre (r, f)).2).QueriesAs 0
      (HoldsFrame.frame (after Deed.perform (pre ++ [.capture 0]) (r, f)).2) ∧
    (episode 0 3 (r, f)).result = .error (.tickNotFound 1) ∧
    (Frame.perform (.query ⟨"counter", .one 0, .all, ["value"]⟩)
      (episode 0 3 (r, f)).state.2).result =
        .ok (.result ⟨[0], [0], ["value"], [0, 1], [.int ⟨true, .eight⟩ 1]⟩) ∧
    (Frame.perform (.access "counter" 0 "value" (.get 0)) (episode 0 3 (r, f)).state.2).result =
      .ok (.value (.int ⟨true, .eight⟩ 2)) := by
  have hsteps : ∀ step ∈ [Builder.Step.declareWith "counter"
      [⟨"value", .int64, 1, false, false⟩, ⟨"id", .uint32, 1, false, true⟩] 1, .setSnapshots 4],
      step.Standard := by
    simp [Builder.Step.Standard]
  have hkeeps : ∀ e ∈ [Tally.mk 9 0, ⟨1, 0⟩], Entity.KeepsReachable Frame e :=
    fun e _ => (Tally.acts e).keepsReachable
  let pre : List Deed := [.call .start 0, .call .start 1, .sealAll, .call (.step 0) 0,
    .call (.step 0) 1, .call .flush 0, .call .flush 1]
  let post : List Deed := [.call (.finish 0) 0, .call (.finish 0) 1, .call (.step 1) 0,
    .call (.step 1) 1]
  have horder (f : Frame) (hdone : pre ++ .capture 0 :: post = performed Deed.perform _ (_, f)) :=
    episode_in_order (⟨[⟨9, 0⟩, ⟨1, 0⟩], true, false⟩ : Runner Tally) f 0 3 hdone
  refine ⟨_, _, pre, post, rfl, ⟨_, hsteps, rfl⟩, rfl, rfl, (horder _ rfl).1, ?_, rfl, rfl, rfl⟩
  refine ((horder _ rfl).2 pre 0 post rfl ?_).2.2 ⟨_, [], ⟨_, hsteps, rfl⟩, rfl⟩ hkeeps
  decide +kernel

end Runner

end NodeStore
