import Mathlib.Data.List.Nodup
import Mathlib.Data.Nat.ModEq
import NodeStore.Ring

/-!
# Rings are bounded histories

A history is a list of snapshots, the oldest tick first and each tick once. `History.push` replaces
the snapshot of a tick that is there, or adds one at the end and drops the first if there are too
many.

`Ring.Refines r L`: the `k`-th snapshot of the history `L` is in the slot `r.home k`, slots without
one are empty, and the table of places says so. Homes go around: as long as the ring is not full the
`k`-th snapshot is in slot `k`; afterwards the first is in the slot that is written next.

* `Ring.Refines.push`, `Ring.Refines.clear`: what one change keeps.
* `Ring.run_is_history`: after any changes the ring reads as the history.
-/

namespace NodeStore

/-! ## Histories -/

namespace History

/-- The snapshot of a tick. -/
def find? (L : List Snapshot) (t : Tick) : Option Snapshot := L.find? (·.tick == t)

/-- The history with a snapshot in place of the one of its tick. -/
def replace (L : List Snapshot) (s : Snapshot) : List Snapshot :=
  L.map fun x => if x.tick = s.tick then s else x

/-- Inserts a snapshot into a history of at most `c` and answers the one it displaces. -/
def push (c : Nat) (L : List Snapshot) (s : Snapshot) : Option Snapshot × List Snapshot :=
  match find? L s.tick with
  | some old => (some old, replace L s)
  | none =>
    let longer := L ++ [s]
    if c < longer.length then (longer.head?, longer.tail) else (none, longer)

variable {L : List Snapshot} {s x : Snapshot} {t : Tick} {k : Nat}

theorem find?_eq_none : find? L t = none ↔ t ∉ L.map Snapshot.tick := by
  simp [find?]

theorem ticks_replace (L : List Snapshot) (s : Snapshot) :
    (replace L s).map Snapshot.tick = L.map Snapshot.tick := by
  rw [replace, List.map_map]
  refine List.map_congr_left ?_
  intro x _
  simp only [Function.comp_apply]
  split
  · rename_i h
    exact h.symm
  · rfl

/-- Where the ticks do not repeat, replacing changes one position. -/
theorem replace_eq_set (hL : (L.map Snapshot.tick).Nodup) (hk : L[k]? = some x)
    (hx : x.tick = s.tick) : replace L s = L.set k s := by
  apply List.ext_getElem?
  intro j
  rw [replace, List.getElem?_map, List.getElem?_set]
  have hklt := (List.getElem?_eq_some_iff.1 hk).1
  by_cases hkj : k = j
  · subst hkj
    rw [hk, Option.map_some, if_pos hx, if_pos rfl, if_pos hklt]
  · rw [if_neg hkj]
    cases hj : L[j]? with
    | none => rfl
    | some y =>
      have hne : y.tick ≠ s.tick := fun hy => by
        have hks : (L.map Snapshot.tick)[k]? = some s.tick := by simp [hk, hx]
        have hjs : (L.map Snapshot.tick)[j]? = some s.tick := by simp [hj, hy]
        obtain ⟨hklt, hks⟩ := List.getElem?_eq_some_iff.1 hks
        obtain ⟨hjlt, hjs⟩ := List.getElem?_eq_some_iff.1 hjs
        exact hkj (hL.getElem_inj_iff.1 (hks.trans hjs.symm))
      rw [Option.map_some, if_neg hne]

theorem mem_replace (h : x ∈ replace L s) : x = s ∨ x ∈ L ∧ x.tick ≠ s.tick := by
  obtain ⟨y, hy, hyx⟩ := List.mem_map.1 h
  by_cases ht : y.tick = s.tick
  · rw [if_pos ht] at hyx
    exact .inl hyx.symm
  · rw [if_neg ht] at hyx
    subst hyx
    exact .inr ⟨hy, ht⟩

/-- After a push, what is there is the new snapshot or was there under another tick. -/
theorem mem_push {c : Nat} (h : x ∈ (push c L s).2) : x = s ∨ x ∈ L ∧ x.tick ≠ s.tick := by
  unfold push at h
  split at h
  · exact mem_replace h
  · rename_i hnew
    have hx : x ∈ L ++ [s] := by
      dsimp only at h
      split at h
      · exact List.mem_of_mem_tail h
      · exact h
    rcases List.mem_append.1 hx with hx | hx
    · exact .inr ⟨hx, fun ht => find?_eq_none.1 hnew (ht ▸ List.mem_map_of_mem hx)⟩
    · exact .inl (List.mem_singleton.1 hx)

theorem self_mem_push {c : Nat} (hc : 0 < c) : s ∈ (push c L s).2 := by
  unfold push
  split
  · rename_i old hold
    have htick : old.tick = s.tick := by simpa using List.find?_some hold
    exact List.mem_map.2 ⟨old, List.mem_of_find?_eq_some hold, if_pos htick⟩
  · dsimp only
    split
    · rename_i hlong
      -- there is one before it to drop
      cases L with
      | nil =>
        simp at hlong
        omega
      | cons x L => simp
    · simp

/-- The snapshot that was pushed is the one of its tick. -/
theorem find?_push {c : Nat} (hc : 0 < c) : find? (push c L s).2 s.tick = some s := by
  cases hfind : find? (push c L s).2 s.tick with
  | none => exact absurd (List.mem_map_of_mem (self_mem_push hc)) (find?_eq_none.1 hfind)
  | some x =>
    have htick : x.tick = s.tick := by simpa using List.find?_some hfind
    rcases mem_push (List.mem_of_find?_eq_some hfind) with rfl | ⟨-, hne⟩
    · rfl
    · exact absurd htick hne

end History

namespace Ring

variable {r : Ring} {L : List Snapshot} {s : Snapshot} {t : Tick} {j k : Nat}

/-! ## Homes -/

/-- The slot of the `k`-th snapshot. -/
def home (r : Ring) (k : Nat) : Nat := (r.written - min r.written r.capacity + k) % r.capacity

theorem home_lt (h : 0 < r.capacity) (k : Nat) : r.home k < r.capacity := Nat.mod_lt _ h

/-- Different snapshots have different homes. -/
theorem home_inj (hj : j < r.capacity) (hk : k < r.capacity) (h : r.home j = r.home k) : j = k :=
  (Nat.ModEq.add_left_cancel' _ h).eq_of_lt_of_lt hj hk

theorem home_of_room (h : r.written ≤ r.capacity) (hk : k < r.capacity) : r.home k = k := by
  rw [home, Nat.min_eq_left h, Nat.sub_self, Nat.zero_add, Nat.mod_eq_of_lt hk]

theorem home_of_full (h : r.capacity ≤ r.written) (k : Nat) :
    r.home k = (r.written % r.capacity + k) % r.capacity := by
  rw [home, Nat.min_eq_right h, Nat.mod_add_mod,
    show r.written + k = r.written - r.capacity + k + r.capacity by omega, Nat.add_mod_right]

/-! ## The slots of a history -/

/-- The ring holds the snapshots of the history, each in its home, and nothing else. -/
structure Refines (r : Ring) (L : List Snapshot) : Prop where
  pos : 0 < r.capacity
  length : L.length = min r.written r.capacity
  distinct : (L.map Snapshot.tick).Nodup
  places : r.places = (L.map Snapshot.tick).mapIdx fun k t => (t, r.home k)
  slots : ∀ k < r.capacity, r.slot (r.home k) = L[k]?

theorem blank_refines {c : Nat} (hc : 0 < c) : Refines ⟨List.replicate c none, [], 0⟩ [] := by
  refine ⟨by simpa [capacity] using hc, by simp, by simp, rfl, ?_⟩
  intro k _
  rw [slot, List.getElem?_replicate]
  split <;> rfl

theorem refines_of_new {c : Nat} (h : new c = .ok r) : r.Refines [] := by
  unfold new at h
  split at h
  · cases h
  · cases h
    exact blank_refines (by omega)

/-- A new ring is clear. -/
theorem clear_of_new {c : Nat} (h : new c = .ok r) : r.clear = r := by
  unfold new at h
  split at h
  · cases h
  · cases h
    simp only [clear, capacity, List.length_replicate]

theorem new_ok {c : Nat} (hc : 0 < c) : ∃ r, new c = .ok r ∧ r.capacity = c :=
  ⟨_, if_neg (by omega), List.length_replicate⟩

theorem Refines.clear (h : r.Refines L) : r.clear.Refines [] := blank_refines h.pos

/-! ## Reading -/

theorem Refines.length_le (h : r.Refines L) : L.length ≤ r.capacity := by
  rw [h.length]
  exact Nat.min_le_right _ _

theorem Refines.size_eq (h : r.Refines L) : r.size = L.length := by
  rw [size, h.places, List.length_mapIdx, List.length_map]

theorem lookup_mapIdx (ts : List Tick) (g : Nat → Nat) (t : Tick) :
    (ts.mapIdx fun k t => (t, g k)).lookup t = (ts.findIdx? (· == t)).map g := by
  induction ts generalizing g with
  | nil => rfl
  | cons u ts ih =>
    rw [List.mapIdx_cons, List.lookup_cons, List.findIdx?_cons]
    by_cases h : u = t
    · simp [h]
    · have hne : (t == u) = false := beq_false_of_ne (Ne.symm h)
      simp [h, hne, ih fun k => g (k + 1), Function.comp_def]

theorem Refines.place?_eq (h : r.Refines L) (t : Tick) :
    r.place? t = (L.findIdx? (·.tick == t)).map r.home := by
  rw [place?, h.places, lookup_mapIdx, List.findIdx?_map]
  rfl

theorem Refines.contains_eq (h : r.Refines L) (t : Tick) :
    r.contains t = (History.find? L t).isSome := by
  rw [contains, h.place?_eq, History.find?, List.find?_eq_bind_findIdx?_getElem?]
  cases hi : L.findIdx? (·.tick == t) with
  | none => rfl
  | some i =>
    obtain ⟨hlt, -, -⟩ := List.findIdx?_eq_some_iff_getElem.1 hi
    simp [hlt]

theorem Refines.get?_eq (h : r.Refines L) (t : Tick) : r.get? t = History.find? L t := by
  rw [get?, h.place?_eq, History.find?, List.find?_eq_bind_findIdx?_getElem?]
  cases hi : L.findIdx? (·.tick == t) with
  | none => rfl
  | some i =>
    obtain ⟨hlt, -, -⟩ := List.findIdx?_eq_some_iff_getElem.1 hi
    exact h.slots i (Nat.lt_of_lt_of_le hlt h.length_le)

theorem Refines.latest?_eq (h : r.Refines L) : r.latest? = L.getLast? := by
  have hlen := h.length
  have hpos := h.pos
  rw [latest?, List.getLast?_eq_getElem?]
  split
  · rename_i hw
    rw [List.getElem?_eq_none (by omega)]
  · rename_i hw
    rw [← h.slots (L.length - 1) (by omega), home]
    congr 2
    omega

theorem filterMap_range {f : Nat → Option Snapshot} {n : Nat} (hf : ∀ k < n, f k = L[k]?) :
    (List.range n).filterMap f = L.take n := by
  induction n with
  | zero => rfl
  | succ n ih =>
    rw [List.range_succ, List.filterMap_append, ih fun k hk => hf k (by omega), List.take_add_one,
      ← hf n (by omega)]
    cases hn : f n <;> simp [hn]

theorem Refines.toList_eq (h : r.Refines L) : r.toList = L := by
  rw [toList, filterMap_range fun k hk => ?_, List.take_of_length_le h.length_le]
  rw [← h.slots k hk]
  congr 1
  have hlen := h.length
  rw [h.size_eq]
  split
  · rename_i hroom
    rw [Nat.zero_add, Nat.mod_eq_of_lt hk, home_of_room (by omega) hk]
  · rename_i hfull
    rw [home_of_full (by omega)]

theorem Refines.ticks_eq (h : r.Refines L) : r.ticks = L.map Snapshot.tick := by
  rw [ticks, h.toList_eq]

theorem Refines.memory_eq (h : r.Refines L) : r.memory = (L.map Snapshot.memory).sum := by
  rw [memory, h.toList_eq]

/-! ## Writing -/

theorem slot_set {places : List (Tick × Nat)} {w i : Nat} (hi : i < r.capacity) (s : Snapshot)
    (j : Nat) :
    slot ⟨r.slots.set i (some s), places, w⟩ j = if i = j then some s else r.slot j := by
  have hi : i < r.slots.length := hi
  rw [slot, List.getElem?_set]
  split <;> rfl

/-- A tick that is held keeps its home. -/
theorem Refines.replace (h : r.Refines L) {x : Snapshot} (hx : History.find? L s.tick = some x) :
    ∃ i, r.place? s.tick = some i ∧ r.slot i = some x ∧
      Refines { r with slots := r.slots.set i (some s) } (History.replace L s) := by
  have hplace := h.place?_eq s.tick
  rw [History.find?, List.find?_eq_bind_findIdx?_getElem?] at hx
  cases hk : L.findIdx? (·.tick == s.tick) with
  | none =>
    rw [hk] at hx
    cases hx
  | some k =>
    rw [hk] at hx hplace
    obtain ⟨hklt, htick, -⟩ := List.findIdx?_eq_some_iff_getElem.1 hk
    have hx : L[k]? = some x := hx
    have hkx : x.tick = s.tick := by
      rw [List.getElem?_eq_getElem hklt] at hx
      cases hx
      simpa using htick
    have hkc := Nat.lt_of_lt_of_le hklt h.length_le
    refine ⟨r.home k, hplace, (h.slots k hkc).trans hx, ?_⟩
    have hset := History.replace_eq_set h.distinct hx hkx
    have hcap : capacity { r with slots := r.slots.set (r.home k) (some s) } = r.capacity := by
      simp [capacity]
    have hhome : home { r with slots := r.slots.set (r.home k) (some s) } = r.home := by
      funext j
      rw [home, hcap]
      rfl
    refine ⟨by rw [hcap]; exact h.pos, ?_, ?_, ?_, fun j hj => ?_⟩
    · rw [hcap, hset, List.length_set, h.length]
    · rw [History.ticks_replace]
      exact h.distinct
    · rw [History.ticks_replace, hhome]
      exact h.places
    · rw [hcap] at hj
      rw [hhome, slot_set (home_lt h.pos k), hset, List.getElem?_set]
      by_cases hkj : k = j
      · subst hkj
        rw [if_pos rfl, if_pos rfl, if_pos hklt]
      · rw [if_neg fun hh => hkj (home_inj hkc hj hh), if_neg hkj]
        exact h.slots j hj

/-- The ring with a snapshot of a new tick. -/
def insert (r : Ring) (s : Snapshot) : Ring :=
  ⟨r.slots.set (r.written % r.capacity) (some s),
    r.placesWithout (r.slot (r.written % r.capacity)) ++ [(s.tick, r.written % r.capacity)],
    r.written + 1⟩

theorem push_of_new (h : r.place? s.tick = none) :
    r.push s = (r.slot (r.written % r.capacity), r.insert s) := by
  rw [Ring.push, h]
  rfl

theorem capacity_insert (r : Ring) (s : Snapshot) : (r.insert s).capacity = r.capacity :=
  List.length_set

theorem places_insert (r : Ring) (s : Snapshot) : (r.insert s).places =
    r.placesWithout (r.slot (r.written % r.capacity)) ++ [(s.tick, r.written % r.capacity)] := rfl

theorem slot_insert (h : 0 < r.capacity) (s : Snapshot) (j : Nat) :
    (r.insert s).slot j = if r.written % r.capacity = j then some s else r.slot j :=
  slot_set (Nat.mod_lt _ h) s j

/-- As long as there is room, a new tick is put behind the others. -/
theorem Refines.append (h : r.Refines L) (hs : s.tick ∉ L.map Snapshot.tick)
    (hroom : r.written < r.capacity) :
    r.slot (r.written % r.capacity) = none ∧ (r.insert s).Refines (L ++ [s]) := by
  have hlen : L.length = r.written := by rw [h.length, Nat.min_eq_left (Nat.le_of_lt hroom)]
  have hi : r.written % r.capacity = r.written := Nat.mod_eq_of_lt hroom
  have hhome {k : Nat} (hk : k < r.capacity) : r.home k = k :=
    home_of_room (Nat.le_of_lt hroom) hk
  have hhome' {k : Nat} (hk : k < r.capacity) : (r.insert s).home k = k :=
    home_of_room (by rw [capacity_insert]; exact hroom) (by rw [capacity_insert]; exact hk)
  have hnone : r.slot (r.written % r.capacity) = none := by
    rw [hi, ← hhome hroom, h.slots _ hroom, List.getElem?_eq_none (Nat.le_of_eq hlen)]
  refine ⟨hnone, by rw [capacity_insert]; exact h.pos, ?_, ?_, ?_, fun k hk => ?_⟩
  · rw [capacity_insert, List.length_append, hlen]
    exact (Nat.min_eq_left hroom).symm
  · rw [List.map_append, List.map_singleton, ← List.concat_eq_append]
    exact h.distinct.concat hs
  · rw [List.map_append, List.map_singleton, List.mapIdx_concat, List.length_map, hlen,
      hhome' hroom, places_insert, hnone, hi, placesWithout, h.places]
    congr 1
    refine List.mapIdx_eq_mapIdx_iff.2 ?_
    intro k hk
    rw [List.length_map, hlen] at hk
    rw [hhome (by omega), hhome' (by omega)]
  · rw [capacity_insert] at hk
    rw [hhome' hk, slot_insert h.pos, hi, List.getElem?_append, hlen]
    by_cases hkw : r.written = k
    · subst hkw
      simp
    · rw [if_neg hkw, show r.slot k = L[k]? by rw [← h.slots k hk, hhome hk]]
      split
      · rfl
      · rw [List.getElem?_eq_none (by omega), List.getElem?_eq_none (by simp; omega)]

/-- When the ring is full, a new tick takes the home of the first. -/
theorem Refines.evict {x : Snapshot} (h : r.Refines (x :: L))
    (hs : s.tick ∉ (x :: L).map Snapshot.tick) (hfull : r.capacity ≤ r.written) :
    r.slot (r.written % r.capacity) = some x ∧ (r.insert s).Refines (L ++ [s]) := by
  have hlen : L.length + 1 = r.capacity := by
    rw [← List.length_cons, h.length, Nat.min_eq_right hfull]
  have hi : r.written % r.capacity = r.home 0 := by
    rw [home_of_full hfull, Nat.add_zero, Nat.mod_mod]
  have hhome (k : Nat) : (r.insert s).home k = r.home (k + 1) := by
    have hw : (r.insert s).written = r.written + 1 := rfl
    rw [home, home, capacity_insert, hw, Nat.min_eq_right hfull, Nat.min_eq_right (by omega)]
    congr 1
    omega
  have hlast : r.home r.capacity = r.home 0 := by
    rw [home_of_full hfull, Nat.add_mod_right, Nat.mod_mod, hi]
  have hsome : r.slot (r.written % r.capacity) = some x := by
    rw [hi, h.slots 0 h.pos]
    rfl
  have hdistinct := h.distinct
  rw [List.map_cons, List.nodup_cons] at hdistinct
  refine ⟨hsome, by rw [capacity_insert]; exact h.pos, ?_, ?_, ?_, fun k hk => ?_⟩
  · rw [capacity_insert, List.length_append, List.length_singleton, hlen]
    exact (Nat.min_eq_right (Nat.le_succ_of_le hfull)).symm
  · rw [List.map_append, List.map_singleton, ← List.concat_eq_append]
    exact hdistinct.2.concat fun hmem => hs (List.mem_cons_of_mem _ hmem)
  · rw [List.map_append, List.map_singleton, List.mapIdx_concat, List.length_map, hhome, hlen,
      hlast, places_insert, hsome, hi, placesWithout, h.places, List.map_cons, List.mapIdx_cons]
    congr 1
    rw [List.filter_cons_of_neg (by simp)]
    simp only [hhome]
    refine List.filter_eq_self.2 ?_
    intro p hp
    obtain ⟨k, hk, rfl⟩ := List.mem_mapIdx.1 hp
    have hne : (L.map Snapshot.tick)[k] ≠ x.tick := fun heq =>
      hdistinct.1 (heq ▸ List.getElem_mem hk)
    simpa using hne
  · rw [capacity_insert] at hk
    rw [hhome, slot_insert h.pos, hi]
    rcases Nat.lt_or_ge (k + 1) r.capacity with hkl | hkl
    · have hne : r.home 0 ≠ r.home (k + 1) := fun heq => by
        have := home_inj h.pos hkl heq
        omega
      rw [if_neg hne, h.slots (k + 1) hkl, List.getElem?_cons_succ,
        List.getElem?_append_left (by omega)]
    · obtain rfl : k = L.length := by omega
      rw [hlen, hlast, if_pos rfl]
      simp

theorem Refines.push (h : r.Refines L) (s : Snapshot) :
    (r.push s).1 = (History.push r.capacity L s).1 ∧
      (r.push s).2.Refines (History.push r.capacity L s).2 := by
  unfold History.push
  cases hx : History.find? L s.tick with
  | some x =>
    obtain ⟨i, hi, hslot, hrefines⟩ := h.replace hx
    rw [Ring.push, hi]
    exact ⟨hslot, hrefines⟩
  | none =>
    have hplace : r.place? s.tick = none := by
      have hcontains := h.contains_eq s.tick
      rw [hx] at hcontains
      exact Option.isNone_iff_eq_none.1 (by simpa [contains] using hcontains)
    have hs := History.find?_eq_none.1 hx
    have hlen := h.length
    rw [push_of_new hplace]
    by_cases hroom : r.written < r.capacity
    · obtain ⟨hslot, hrefines⟩ := h.append hs hroom
      simp only [hslot, List.length_append, List.length_singleton]
      rw [if_neg (by omega)]
      exact ⟨rfl, hrefines⟩
    · cases L with
      | nil =>
        have hpos := h.pos
        simp at hlen
        omega
      | cons x L =>
        obtain ⟨hslot, hrefines⟩ := h.evict hs (by omega)
        simp only [hslot, List.length_append, List.length_singleton]
        rw [if_pos (by omega)]
        exact ⟨rfl, hrefines⟩

theorem Refines.get?_push (h : r.Refines L) (s : Snapshot) :
    (r.push s).2.get? s.tick = some s := by
  rw [(h.push s).2.get?_eq, History.find?_push h.pos]

theorem Refines.mem_push {x : Snapshot} (h : r.Refines L) (hx : x ∈ (r.push s).2.toList) :
    x = s ∨ x ∈ r.toList ∧ x.tick ≠ s.tick := by
  rw [(h.push s).2.toList_eq] at hx
  rw [h.toList_eq]
  exact History.mem_push hx

end Ring

/-! ## Runs -/

/-- A change of a ring or a history. -/
inductive Change where
  | push (s : Snapshot)
  | clear

/-- Makes changes one after another and gathers what they displace. -/
def Change.run {σ : Type} (step : Change → σ → Option Snapshot × σ) :
    List Change → σ → List (Option Snapshot) × σ
  | [], s => ([], s)
  | x :: xs, s =>
    let out := step x s
    let outs := run step xs out.2
    (out.1 :: outs.1, outs.2)

def Ring.change : Change → Ring → Option Snapshot × Ring
  | .push s, r => r.push s
  | .clear, r => (none, r.clear)

def History.change (c : Nat) : Change → List Snapshot → Option Snapshot × List Snapshot
  | .push s, L => push c L s
  | .clear, _ => (none, [])

/-- Everything there is to read of a ring is as in the history, which is of at most `c`. -/
structure Ring.ReadsAs (r : Ring) (L : List Snapshot) (c : Nat) : Prop where
  ticks : r.ticks = L.map Snapshot.tick
  toList : r.toList = L
  get? : ∀ t, r.get? t = History.find? L t
  contains : ∀ t, r.contains t = (History.find? L t).isSome
  latest? : r.latest? = L.getLast?
  size : r.size = L.length
  bounded : L.length ≤ c
  memory : r.memory = (L.map Snapshot.memory).sum

namespace Ring

variable {r : Ring} {L : List Snapshot}

theorem Refines.readsAs (h : r.Refines L) : r.ReadsAs L r.capacity where
  ticks := h.ticks_eq
  toList := h.toList_eq
  get? := h.get?_eq
  contains := h.contains_eq
  latest? := h.latest?_eq
  size := h.size_eq
  bounded := h.length_le
  memory := h.memory_eq

theorem capacity_push (r : Ring) (s : Snapshot) : (r.push s).2.capacity = r.capacity := by
  unfold push
  split <;> exact List.length_set

theorem Refines.change (h : r.Refines L) (x : Change) :
    (r.change x).1 = (History.change r.capacity x L).1 ∧
      (r.change x).2.Refines (History.change r.capacity x L).2 ∧
      (r.change x).2.capacity = r.capacity := by
  cases x with
  | push s =>
    obtain ⟨hout, hrefines⟩ := h.push s
    exact ⟨hout, hrefines, r.capacity_push s⟩
  | clear => exact ⟨rfl, h.clear, List.length_replicate⟩

theorem Refines.run (h : r.Refines L) (xs : List Change) :
    (Change.run Ring.change xs r).1 = (Change.run (History.change r.capacity) xs L).1 ∧
      (Change.run Ring.change xs r).2.Refines (Change.run (History.change r.capacity) xs L).2 ∧
      (Change.run Ring.change xs r).2.capacity = r.capacity := by
  induction xs generalizing r L with
  | nil => exact ⟨rfl, h, rfl⟩
  | cons x xs ih =>
    obtain ⟨hout, hrefines, hcap⟩ := h.change x
    obtain ⟨houts, hrefines, hcap'⟩ := ih hrefines
    rw [hcap] at houts hrefines
    exact ⟨congrArg₂ List.cons hout houts, hrefines, hcap'.trans hcap⟩

/-- A ring of at least one slot is a bounded history: every change displaces what it displaces from
the history, and after any changes the two read the same. -/
theorem run_is_history {c : Nat} (hc : 0 < c) :
    ∃ r, Ring.new c = .ok r ∧ ∀ xs : List Change,
      (Change.run Ring.change xs r).1 = (Change.run (History.change c) xs []).1 ∧
      (Change.run Ring.change xs r).2.ReadsAs (Change.run (History.change c) xs []).2 c := by
  obtain ⟨r, hr, rfl⟩ := new_ok hc
  refine ⟨r, hr, ?_⟩
  intro xs
  obtain ⟨houts, hrefines, hcap⟩ := (refines_of_new hr).run xs
  exact ⟨houts, hcap ▸ hrefines.readsAs⟩

/-- In a ring of two slots the first tick comes again, is replaced, and goes when a third comes. -/
theorem run_is_history_two : ∃ r, Ring.new 2 = .ok r ∧
    (Change.run Ring.change
      [.push ⟨1, []⟩, .push ⟨2, []⟩, .push ⟨1, [⟨0, []⟩]⟩, .push ⟨3, []⟩] r).1 =
        [none, none, some ⟨1, []⟩, some ⟨1, [⟨0, []⟩]⟩] ∧
    (Change.run Ring.change
      [.push ⟨1, []⟩, .push ⟨2, []⟩, .push ⟨1, [⟨0, []⟩]⟩, .push ⟨3, []⟩] r).2.ticks = [2, 3] := by
  obtain ⟨r, hr, hrun⟩ := run_is_history (show 0 < 2 by decide)
  obtain ⟨houts, hreads⟩ :=
    hrun [.push ⟨1, []⟩, .push ⟨2, []⟩, .push ⟨1, [⟨0, []⟩]⟩, .push ⟨3, []⟩]
  exact ⟨r, hr, houts.trans (by decide), hreads.ticks.trans (by decide)⟩

end Ring

end NodeStore
