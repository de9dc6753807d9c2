import NodeStore.Proofs.Frame.Typed
import NodeStore.Proofs.Memory

/-!
# What a frame weighs

The bytes of a frame are those of its tables and of every snapshot it holds, so they follow from the
declarations and from the lengths of lists, live and captured. Only what makes a list longer or
shorter changes them, and captures, restores and resets.

* `Frame.Intact.memory_eq`: the bytes of a frame.
* `Frame.Sound.perform_memory`: operations that do not resize leave them.
* `Frame.Intact.recapture_memory`: a held tick that is captured again.
* `Frame.Reachable.memory_accounted`: what it comes to for frames in use.
-/

namespace NodeStore

/-! ## Accesses that resize -/

/-- Whether the access may change the length of a list. -/
def Access.resizes : Access → Bool
  | .append _ | .setList _ => true
  | .get _ | .getSlots | .set .. | .setSlots _ | .setSlotsAt .. | .getList | .listLength => false

/-- Whether the call may change the length of a list. -/
def Node.Call.resizes (call : Node.Call) : Bool := call.access?.any (·.2.resizes)

/-- What does not resize makes as many values as there were. -/
theorem Access.Makes.length_eq {a : Access} {attr : Attribute} {old new : List Value}
    (h : a.Makes attr old new) (ha : a.resizes = false) : new.length = old.length := by
  cases a with
  | set slot v =>
    obtain ⟨-, -, w, -, rfl⟩ := h
    exact List.length_set
  | setSlots vs =>
    obtain ⟨-, hlen, hconvert⟩ := h
    exact hconvert.length_eq.symm.trans hlen
  | setSlotsAt slots vs => exact h.2.2.2.1
  | append v => cases ha
  | setList vs => cases ha
  | _ => exact h.elim

namespace Frame

open NodeStore.Action

variable {f g : Frame} {shape : List (Schema × Nat)} {a : Access} {c : Coord} {op : Op}
  {schema : Schema} {attr : Attribute} {ts : List Table} {tick : Tick} {s : Snapshot} {m : Nat}

/-- Whether the operation may change the length of a list, of a live one or of a captured one. -/
def Op.resizes (op : Op) : Bool := op.isGlobal || op.access?.any (·.resizes)

/-! ## Bytes of a frame -/

/-- Bytes of the declared footprints. -/
def fixedBytes (f : Frame) : Nat := (f.schemas.map fun s => s.footprint * f.count s.id).sum

/-- Bytes of the elements of lists, given the length at each coordinate. -/
def listBytes (f : Frame) (length : Coord → Nat) : Nat :=
  (f.schemas.map fun s => s.listBytes (f.count s.id) fun i a => length ⟨s.id, i, a⟩).sum

/-- Bytes of the offsets in one snapshot. -/
def offsetBytes (f : Frame) : Nat := (f.schemas.map fun s => s.offsetBytes (f.count s.id)).sum

/-- The length of a live list. -/
def liveLength (f : Frame) (c : Coord) : Nat := (f.store.listLength c).toOption.getD 0

/-- How many values were captured at a coordinate. -/
def heldLength (f : Frame) (tick : Tick) (c : Coord) : Nat :=
  (((f.snapshot tick).toOption.bind (·.values? c.schema c.index c.attr)).map List.length).getD 0

/-- The ticks the ring holds. -/
def heldTicks (f : Frame) : List Tick := (f.ring.map Ring.ticks).getD []

/-- A sum over the schemas is one over tables of the frame's shape. -/
theorem Sound.sum_schemas (h : f.Sound shape) (hshape : ts.map Table.shape = shape)
    {v : Schema → Nat → Nat} {w : Table → Nat}
    (hvw : ∀ t : Table, ts[t.schema.id]? = some t → v t.schema t.count = w t) :
    (f.schemas.map fun s => v s (f.count s.id)).sum = (ts.map w).sum := by
  congr 1
  apply List.ext_getElem?
  intro id
  rw [List.getElem?_map, List.getElem?_map, h.getElem?_schemas hshape]
  cases ht : ts[id]? with
  | none => rfl
  | some t =>
    have hid : t.schema.id = id :=
      h.numbered id t.schema (by rw [h.getElem?_schemas hshape, ht]; rfl)
    have hcount : f.count id = t.count := by
      rw [h.count_eq, ← hshape, List.getElem?_map, ht]
      rfl
    simp only [Option.map_some, hid, hcount]
    rw [hvw t (hid ▸ ht)]

theorem Sound.offsetBytes_eq (h : f.Sound shape) (hshape : ts.map Table.shape = shape) :
    f.offsetBytes = (ts.map fun t => t.schema.offsetBytes t.count).sum :=
  h.sum_schemas hshape (v := Schema.offsetBytes) fun _ _ => rfl

/-- The bytes of tables of the frame's shape. -/
theorem Sound.memory_tables (h : f.Sound shape) (hshape : ts.map Table.shape = shape)
    (hsound : ∀ t ∈ ts, t.Sound) {length : Coord → Nat}
    (hlength : ∀ t : Table, ts[t.schema.id]? = some t → ∀ i < t.count, ∀ attr ∈ t.schema.lists,
      length ⟨t.schema.id, i, attr.id⟩ = (t.cells i attr.id).length) :
    (ts.map Table.memory).sum = f.fixedBytes + f.listBytes length := by
  have hmemory : ts.map Table.memory = ts.map fun t => t.schema.footprint * t.count +
      t.schema.listBytes t.count fun i a => (t.cells i a).length :=
    List.map_congr_left fun t ht => (hsound t ht).memory_eq
  have hfixed : f.fixedBytes = (ts.map fun t => t.schema.footprint * t.count).sum :=
    h.sum_schemas hshape (v := fun s n => s.footprint * n) fun _ _ => rfl
  have hlists : f.listBytes length = (ts.map fun t =>
      t.schema.listBytes t.count fun i a => (t.cells i a).length).sum := by
    refine h.sum_schemas hshape
      (v := fun s n => s.listBytes n fun i a => length ⟨s.id, i, a⟩) fun t ht => ?_
    exact Schema.listBytes_congr (hlength t ht)
  rw [hmemory, List.sum_map_add, hfixed, hlists]

theorem liveLength_eq (hts : f.store.Models ts) {t : Table} {i : Nat}
    (ht : ts[t.schema.id]? = some t) (hi : i < t.count) (hattr : attr ∈ t.schema.lists) :
    f.liveLength ⟨t.schema.id, i, attr.id⟩ = (t.cells i attr.id).length := by
  obtain ⟨ha, hlist⟩ := Schema.mem_lists.1 hattr
  have hlocate : t.locate ⟨t.schema.id, i, attr.id⟩ .list = .ok attr :=
    Schema.locate_ok.2 ⟨(hts.sound t (List.mem_of_getElem? ht)).schema.mem ha, hi,
      Attribute.shape_eq_list.2 hlist⟩
  simp only [liveLength, hts.listLength, Tables.look, Tables.pool_ok.2 ht, Table.listLength,
    hlocate, Except.ok_bind]
  rfl

/-- The bytes of the live values. -/
theorem Sound.store_memory (h : f.Sound shape) :
    f.store.memory = f.fixedBytes + f.listBytes f.liveLength := by
  obtain ⟨ts, hts, hshape⟩ := h.shaped
  rw [hts.memory_eq]
  exact h.memory_tables hshape hts.sound fun t ht i hi attr ha => liveLength_eq hts ht hi ha

/-- The bytes of a held snapshot. -/
theorem Intact.snapshot_memory (h : f.Intact shape) (hs : f.snapshot tick = .ok s) :
    s.memory = f.fixedBytes + f.listBytes (f.heldLength tick) + f.offsetBytes := by
  have hfits := h.fits hs
  have hshape := hfits.shape_tables
  obtain ⟨store, hmodels, -⟩ := h.sound.restore_apply hs hfits
  have hsound := hmodels.sound
  have hlength : ∀ t : Table, (s.tables shape)[t.schema.id]? = some t → ∀ i < t.count,
      ∀ attr ∈ t.schema.lists,
        f.heldLength tick ⟨t.schema.id, i, attr.id⟩ = (t.cells i attr.id).length := by
    intro t ht i hi attr hattr
    have ha := (hsound t (List.mem_of_getElem? ht)).schema.mem (Schema.mem_lists.1 hattr).1
    have hvalues := Snapshot.values?_of_shows hfits.shows ht hi (List.getElem?_eq_some_iff.1 ha).1
    simp [heldLength, hs, Except.toOption, hvalues]
  rw [Snapshot.memory_of_shows hfits.shows hsound, h.sound.offsetBytes_eq hshape,
    h.sound.memory_tables hshape hsound hlength]

theorem Intact.snapshot_of_mem (h : f.Intact shape) {r : Ring} (hr : f.ring = some r)
    (hs : s ∈ r.toList) : f.snapshot s.tick = .ok s := by
  have hrefines := h.ring r hr
  refine snapshot_ok.2 ⟨r, hr, ?_⟩
  rw [hrefines.get?_eq]
  exact List.find?_of_nodup hrefines.distinct hs

/-- The bytes of a frame. -/
theorem Intact.memory_eq (h : f.Intact shape) :
    f.memory = f.fixedBytes + f.listBytes f.liveLength + (f.heldTicks.map fun tick =>
      f.fixedBytes + f.listBytes (f.heldLength tick) + f.offsetBytes).sum := by
  rw [memory, h.sound.store_memory, heldTicks]
  cases hr : f.ring with
  | none => rfl
  | some r =>
    have hheld : r.toList.map Snapshot.memory = r.ticks.map fun tick =>
        f.fixedBytes + f.listBytes (f.heldLength tick) + f.offsetBytes := by
      rw [Ring.ticks, List.map_map]
      exact List.map_congr_left fun s hs => h.snapshot_memory (h.snapshot_of_mem hr hs)
    rw [Option.map_some, Option.map_some, Option.getD_some, Option.getD_some, Ring.memory, hheld]

/-! ## Operations that resize nothing -/

theorem Put.memory_eq {t u : Table} (h : f.Put g c a ts t u) (ha : a.resizes = false) :
    g.memory = f.memory := by
  obtain ⟨attr, new, -, -, hmakes, rfl⟩ := h.written
  have htables : (ts.set c.schema (t.put c new)).map Table.memory = ts.map Table.memory :=
    List.map_set_of_eq h.table (Table.memory_put (hmakes.length_eq ha))
  rw [memory, memory, h.after.memory_eq, h.before.memory_eq, htables, h.rest]

theorem Sound.access_memory (h : f.Sound shape) (ha : a.resizes = false) (c : Coord) :
    (a.perform c f).state.memory = f.memory := by
  cases hw : a.isRead with
  | true =>
    cases a with
    | get slot => rfl
    | getSlots => rfl
    | getList => rfl
    | listLength => rfl
    | _ => cases hw
  | false =>
    cases hresult : (a.perform c f).result with
    | error e => rw [(h.access_effect c a).of_error hresult]
    | ok x =>
      obtain ⟨ts, t, u, hput⟩ := h.access_put hw hresult
      exact hput.memory_eq ha

/-- An access that does not resize keeps the bytes, and so does what is made of such accesses and of
seals. -/
theorem access_keeps_memory (ha : a.resizes = false) (c : Coord) :
    Keeps (fun f => f.Sound shape ∧ f.memory = m) (a.perform c) := by
  rintro f ⟨hf, hm⟩
  exact ⟨access_sound c a f hf, (hf.access_memory ha c).trans hm⟩

theorem seals_keep_memory (f : Frame) (seals : List InstanceSet)
    (h : f.Sound shape ∧ f.memory = m) :
    Sound { f with seals } shape ∧ memory { f with seals } = m :=
  ⟨⟨h.1.shaped, h.1.schemas, h.1.numbered, h.1.distinct⟩, h.2⟩

theorem Sound.call_memory (h : f.Sound shape) (n : Node) {call : Node.Call}
    (hcall : call.resizes = false) : (n.perform call f).state.memory = f.memory := by
  refine (call_keeps n (fun attr a ha c => access_keeps_memory ?_ c)
    (fun _ f seals _ => seals_keep_memory f seals) f ⟨h, rfl⟩).2
  rw [Node.Call.resizes, ha] at hcall
  exact hcall

theorem Sound.perform_memory (h : f.Sound shape) (hop : op.resizes = false) :
    (perform op f).state.memory = f.memory := by
  obtain ⟨hglobal, haccess⟩ := Bool.or_eq_false_iff.1 hop
  have hkeeps : Keeps (fun g => g.Sound shape ∧ g.memory = f.memory) (perform op) := by
    refine perform_keeps_access (fun a ha c => access_keeps_memory ?_ c)
      (fun _ f seals _ => seals_keep_memory f seals) ?_ ?_ ?_
    · rw [ha] at haccess
      exact haccess
    · rintro rfl
      cases hglobal
    · rintro tick rfl
      cases hglobal
    · rintro tick rfl
      cases hglobal
  exact (hkeeps f ⟨h, rfl⟩).2

/-! ## Capturing once more -/

/-- A copy of the live values weighs what they do, and the offsets. -/
theorem Sound.images_memory (h : f.Sound shape) {pools : List PoolImage}
    (hpools : f.images = .ok pools) (tick : Tick) :
    Snapshot.memory ⟨tick, pools⟩ = f.store.memory + f.offsetBytes := by
  obtain ⟨ts, hts, hshape, hshows⟩ := h.images_show hpools
  have hmemory : Snapshot.memory ⟨tick, pools⟩ = _ := Snapshot.memory_of_shows hshows hts.sound
  rw [hmemory, hts.memory_eq, h.offsetBytes_eq hshape]

/-- Capturing a held tick again makes a difference only by the lists. -/
theorem Intact.recapture_memory (h : f.Intact shape) (hs : f.snapshot tick = .ok s) :
    (perform (.capture tick) f).result = .ok .done ∧
      (perform (.capture tick) f).state.memory + f.listBytes (f.heldLength tick) =
        f.memory + f.listBytes f.liveLength := by
  obtain ⟨r, hr, hget, -⟩ := h.snapshot_held hs
  have hrefines := h.ring r hr
  obtain ⟨pools, -, hpools, -⟩ := h.sound.images_ok
  obtain ⟨hresult, hstate⟩ : _ ∧ (perform (.capture tick) f).state = _ := capture_apply hr hpools
  have hfind : History.find? r.toList tick = some s := (hrefines.get?_eq tick).symm.trans hget
  have hpush := (hrefines.push ⟨tick, pools⟩).2
  have hreplace : (History.push r.capacity r.toList ⟨tick, pools⟩).2 =
      History.replace r.toList ⟨tick, pools⟩ := by simp only [History.push, hfind]
  have hsum := History.sum_replace (s := ⟨tick, pools⟩) hrefines.distinct hfind Snapshot.memory
  have hnew := h.sound.images_memory hpools tick
  have hold := h.snapshot_memory hs
  have hstore := h.sound.store_memory
  rw [hstate]
  refine ⟨hresult, ?_⟩
  simp only [memory, hr, Option.map_some, Option.getD_some, hpush.memory_eq, hrefines.memory_eq,
    hreplace]
  omega

/-! ## Frames in use -/

/-- The held ticks and the lengths of lists are those that the frame answers. -/
structure AnswersLengths (f : Frame) : Prop where
  ticks : ∀ tick, tick ∈ f.heldTicks ↔ (perform (.holdsTick tick) f).result = .ok (.flag true)
  distinct : f.heldTicks.Nodup
  live : ∀ schema ∈ f.schemas, ∀ index < f.count schema.id, ∀ attr ∈ schema.lists,
    (perform (.access schema.name index attr.name .listLength) f).result =
      .ok (.count (f.liveLength ⟨schema.id, index, attr.id⟩))
  held : ∀ tick ∈ f.heldTicks,
    ∀ schema ∈ f.schemas, ∀ index < f.count schema.id, ∀ attr ∈ schema.lists, ∃ vs,
      (perform (.query (.cell tick schema index attr)) f).result =
        .ok (.result (.ofCell tick index attr vs)) ∧
      vs.length = f.heldLength tick ⟨schema.id, index, attr.id⟩

theorem Intact.snapshot_of_heldTicks (h : f.Intact shape) (htick : tick ∈ f.heldTicks) :
    ∃ s, f.snapshot tick = .ok s := by
  unfold heldTicks at htick
  cases hr : f.ring with
  | none =>
    rw [hr] at htick
    cases htick
  | some r =>
    rw [hr] at htick
    obtain ⟨s, hs, rfl⟩ := List.mem_map.1 htick
    exact ⟨s, h.snapshot_of_mem hr hs⟩

theorem Intact.mem_heldTicks (h : f.Intact shape) : tick ∈ f.heldTicks ↔
    (perform (.holdsTick tick) f).result = .ok (.flag true) := by
  unfold heldTicks
  cases hr : f.ring with
  | none => simp [perform, snapshots, hr]
  | some r =>
    rw [holdsTick_eq hr, (h.ring r hr).contains_eq, History.find?]
    simp [Ring.ticks]

theorem Intact.answersLengths (h : f.Intact shape) : f.AnswersLengths where
  ticks tick := h.mem_heldTicks
  distinct := by
    unfold heldTicks
    cases hr : f.ring with
    | none => exact List.nodup_nil
    | some r => exact (h.ring r hr).distinct
  live schema hs index hindex attr hattr := by
    obtain ⟨ha, hlist⟩ := Schema.mem_lists.1 hattr
    obtain ⟨ts, hts, hshape⟩ := h.sound.shaped
    obtain ⟨t, ht, hsound, rfl, hcount⟩ := h.sound.table hts hshape hs
    rw [← hcount] at hindex
    have hreads := reads_of_models (c := ⟨t.schema.id, index, attr.id⟩) hts ht
      (hsound.schema.mem ha) hindex
    rw [perform_access (h.sound.coord_ok hs ha index), hreads.listLength hlist,
      liveLength_eq hts ht hindex hattr]
    rfl
  held tick htick schema hs index hindex attr hattr := by
    obtain ⟨ha, -⟩ := Schema.mem_lists.1 hattr
    obtain ⟨s, hsnapshot⟩ := h.snapshot_of_heldTicks htick
    obtain ⟨r, hr, hget⟩ := snapshot_ok.1 hsnapshot
    have hattr := (h.sound.schema_mem (h.sound.schema_ok hs)).2.2.mem ha
    obtain ⟨vs, hvs, -⟩ := (h.fits hsnapshot).admits (h.sound.shape_at hs) hindex hattr
    refine ⟨vs, h.sound.query_cell hr hget hs ha hindex hvs, ?_⟩
    simp [heldLength, hsnapshot, Except.toOption, hvs]

/-- The bytes a frame in use tells are, for every schema, the footprint of each instance, and for
every list attribute of each instance the elements it has, and for every held tick the same of the
captured values and the offsets of each list attribute. Hence what fails leaves them, so does what
makes no list longer or shorter, and a held tick captured again changes them by its lists. -/
theorem Reachable.memory_accounted (h : f.Reachable) :
    f.AnswersLengths ∧
    (perform .memory f).result = .ok (.count (f.fixedBytes + f.listBytes f.liveLength +
      (f.heldTicks.map fun tick =>
        f.fixedBytes + f.listBytes (f.heldLength tick) + f.offsetBytes).sum)) ∧
    (∀ op : Op, op.resizes = false ∨ (∃ e, (perform op f).result = .error e) →
      (perform op f).state.memory = f.memory) ∧
    (∀ (n : Node) (call : Node.Call),
      call.resizes = false ∨ (∃ e, (n.perform call f).result = .error e) →
        (n.perform call f).state.memory = f.memory) ∧
    ∀ tick ∈ f.heldTicks, (perform (.capture tick) f).result = .ok .done ∧
      (perform (.capture tick) f).state.memory + f.listBytes (f.heldLength tick) =
        f.memory + f.listBytes f.liveLength := by
  obtain ⟨shape, hintact⟩ := h.intact
  refine ⟨hintact.answersLengths, ?_, fun op hop => ?_, fun n call hcall => ?_,
    fun tick htick => ?_⟩
  · rw [perform, read_apply, hintact.memory_eq]
  · rcases hop with hstill | ⟨e, herror⟩
    · exact hintact.sound.perform_memory hstill
    · rw [(hintact.effect op).of_error herror]
  · rcases hcall with hstill | ⟨e, herror⟩
    · exact hintact.sound.call_memory n hstill
    · rw [(hintact.sound.call_effect n call).of_error herror]
  · obtain ⟨s, hs⟩ := hintact.snapshot_of_heldTicks htick
    exact hintact.recapture_memory hs

/-- Two instances have a list each. One grows after it was captured; capturing it again makes up for
that. -/
theorem memory_accounted_list : ∃ f : Frame, f.Reachable ∧
    f.heldTicks = [3, 4] ∧ f.fixedBytes = 4 ∧ f.offsetBytes = 24 ∧
    f.listBytes f.liveLength = 6 ∧ f.listBytes (f.heldLength 3) = 2 ∧
    (perform .memory f).result = .ok (.count (4 + 6 + ((4 + 2 + 24) + (4 + 6 + 24)))) ∧
    (perform (.access "cell" 1 "x" (.set 0 (.int ⟨true, .one⟩ 7))) f).state.memory = 74 ∧
    (perform (.capture 3) f).state.memory = 78 := by
  have hsteps : ∀ step ∈ [Builder.Step.declareWith "cell" [⟨"x", .int8, 2, false, false⟩,
      ⟨"log", .int16, 1, true, false⟩] 2, .setSnapshots 2], step.Standard := by
    simp [Builder.Step.Standard]
  have hf : Reachable _ := ⟨_, [.access "cell" 1 "log" (.append (.int ⟨true, .one⟩ 5)), .capture 3,
    .access "cell" 1 "log" (.append (.int ⟨true, .one⟩ 6)),
    .access "cell" 0 "log" (.append (.int ⟨true, .one⟩ 9)), .capture 4], ⟨_, hsteps, rfl⟩, rfl⟩
  obtain ⟨-, hmemory, hstill, -, hagain⟩ := hf.memory_accounted
  have h74 : Frame.memory _ = 74 := Answer.count.inj (Except.ok.inj hmemory)
  have hwrite := hstill (.access "cell" 1 "x" (.set 0 (.int ⟨true, .one⟩ 7))) (.inl rfl)
  have hcapture : _ + 2 = 78 + 2 := (hagain 3 (by decide)).2
  exact ⟨_, hf, rfl, rfl, rfl, rfl, rfl, hmemory, hwrite.trans h74, Nat.add_right_cancel hcapture⟩

end Frame

end NodeStore
