import NodeStore.Proofs.ListColumn

/-!
# Reading query results by position

The values of a result are the pieces of its cells, one after the other, and the cell at the
positions `p`, `q` and `s` among the ticks, indices and attributes is number
`(p * |indices| + q) * |attrs| + s` of them (`getElem?_nested`). The offsets are where pieces start,
so two neighbouring ones cut a piece out again (`cut_flatten`).

`QueryResult.Decodes r piece` says all that is read off a result `r` whose cell of a tick, an index
and an attribute holds `piece` of them. What running a plan gives decodes into what the ring holds
(`QueryPlan.execute_decodes`).
-/

namespace NodeStore

/-! ## Positions in nested lists -/

section
variable {α β γ δ : Type}

/-- Where all parts are of one length, an element is found by its part and its place there. -/
theorem getElem?_flatMap_of_length {l : List α} {g : α → List β} {n : Nat}
    (hg : ∀ a ∈ l, (g a).length = n) (i : Nat) {k : Nat} (hk : k < n) :
    (l.flatMap g)[i * n + k]? = l[i]?.bind fun a => (g a)[k]? := by
  induction l generalizing i with
  | nil => simp
  | cons a l ih =>
    have ha : (g a).length = n := hg a List.mem_cons_self
    rw [List.flatMap_cons]
    cases i with
    | zero =>
      rw [Nat.zero_mul, Nat.zero_add, List.getElem?_append_left (by omega)]
      rfl
    | succ i =>
      have hpos : (i + 1) * n + k = (g a).length + (i * n + k) := by
        rw [Nat.succ_mul, ha]
        omega
      rw [hpos, List.getElem?_append_right (Nat.le_add_right _ _), Nat.add_sub_cancel_left,
        ih fun b hb => hg b (List.mem_cons_of_mem _ hb)]
      rfl

theorem length_flatMap_map (l : List α) (m : List β) (f : α → β → γ) :
    (l.flatMap fun a => m.map (f a)).length = l.length * m.length := by
  simp [List.length_flatMap]

/-- Three lists gone through one inside the other. -/
theorem getElem?_nested (l : List α) (m : List β) (n : List γ) (f : α → β → γ → δ) (p : Nat)
    {q s : Nat} (hq : q < m.length) (hs : s < n.length) :
    (l.flatMap fun a => m.flatMap fun b => n.map (f a b))[(p * m.length + q) * n.length + s]? =
      l[p]?.bind fun a => m[q]?.bind fun b => n[s]?.map (f a b) := by
  have hlt : q * n.length + s < m.length * n.length :=
    calc q * n.length + s < q * n.length + n.length := Nat.add_lt_add_left hs _
      _ = (q + 1) * n.length := (Nat.succ_mul _ _).symm
      _ ≤ m.length * n.length := Nat.mul_le_mul_right _ hq
  rw [Nat.add_mul, Nat.mul_assoc, Nat.add_assoc,
    getElem?_flatMap_of_length (fun a _ => length_flatMap_map m n (f a)) p hlt]
  congr 1
  funext a
  rw [getElem?_flatMap_of_length (fun b _ => List.length_map _) q hs]
  simp only [List.getElem?_map]

/-- Going through two related lists for the same things. -/
theorem flatMap_eq_of_forall₂ {R : α → β → Prop} {l : List α} {m : List β} {f : α → List γ}
    {g : β → List γ} (h : List.Forall₂ R l m) (hfg : ∀ a b, R a b → f a = g b) :
    l.flatMap f = m.flatMap g := by
  induction h with
  | nil => rfl
  | cons hab _ ih => rw [List.flatMap_cons, List.flatMap_cons, hfg _ _ hab, ih]

end

/-! ## Pieces and offsets -/

theorem offsetsFrom_eq (start : Nat) (ns : List Nat) :
    offsetsFrom start ns = start :: (offsetsFrom start ns).tail := by
  cases ns <;> rfl

/-- Neighbouring offsets are as far apart as the piece between them is long. -/
theorem gaps_offsetsFrom (start : Nat) (ns : List Nat) :
    ((offsetsFrom start ns).zip (offsetsFrom start ns).tail).map (fun p => p.2 - p.1) = ns := by
  induction ns generalizing start with
  | nil => rfl
  | cons n ns ih =>
    have htail := ih (start + n)
    rw [offsetsFrom, List.tail_cons]
    rw [offsetsFrom_eq (start + n) ns] at htail ⊢
    rw [List.zip_cons_cons, List.map_cons]
    rw [List.tail_cons] at htail
    rw [htail, Nat.add_sub_cancel_left]

/-- Neighbouring offsets cut a piece out. -/
theorem cut_flatten (L : List (List Value)) {i : Nat} (hi : i < L.length) :
    ∃ start stop, (offsetsFrom 0 (L.map List.length))[i]? = some start ∧
      (offsetsFrom 0 (L.map List.length))[i + 1]? = some stop ∧ start ≤ stop ∧
      stop ≤ L.flatten.length ∧ (L.flatten.drop start).take (stop - start) = L[i] := by
  have hlen : L.length = (L.map List.length).length := (List.length_map _).symm
  have hsplit := List.sum_take_add_sum_drop (L.map List.length) (i + 1)
  have hnext : ((L.map List.length).take i).sum ≤ ((L.map List.length).take (i + 1)).sum := by
    rw [List.take_add_one, List.sum_append]
    exact Nat.le_add_right _ _
  refine ⟨_, _, getElem?_offsetsFrom 0 (by omega), getElem?_offsetsFrom 0 (by omega), ?_, ?_, ?_⟩
  · omega
  · rw [List.length_flatten]
    omega
  · rw [Nat.zero_add, Nat.zero_add, ← List.drop_take]
    exact List.drop_take_succ_flatten_eq_getElem L i hi

namespace QueryResult

/-! ## Decoding -/

/-- The cell of a tick, an index and an attribute holds `piece` of them. -/
structure Decodes (r : QueryResult) (piece : Tick → Nat → String → List Value) : Prop where
  values : r.values =
    r.ticks.flatMap fun t => r.indices.flatMap fun i => r.attrs.flatMap fun a => piece t i a
  counts : r.counts =
    r.ticks.flatMap fun t => r.indices.flatMap fun i => r.attrs.map fun a => (piece t i a).length
  size : r.offsets.length = r.ticks.length * (r.indices.length * r.attrs.length) + 1
  /-- What is looked up for a cell is there, and in order. -/
  bounds : ∀ p q s, p < r.ticks.length → q < r.indices.length → s < r.attrs.length →
    ∃ start stop, r.offsets[(p * r.indices.length + q) * r.attrs.length + s]? = some start ∧
      r.offsets[(p * r.indices.length + q) * r.attrs.length + s + 1]? = some stop ∧
      start ≤ stop ∧ stop ≤ r.values.length
  cell : ∀ p q s, r.cell? p q s =
    do return piece (← r.ticks[p]?) (← r.indices[q]?) (← r.attrs[s]?)

variable {ticks : List Tick} {indices : List Nat} {attrs : List String}
  (piece : Tick → Nat → String → List Value)

/-- The pieces of the cells, in order. -/
def pieces (ticks : List Tick) (indices : List Nat) (attrs : List String)
    (piece : Tick → Nat → String → List Value) : List (List Value) :=
  ticks.flatMap fun t => indices.flatMap fun i => attrs.map (piece t i)

/-- The result of the given pieces. -/
def ofPieces (ticks : List Tick) (indices : List Nat) (attrs : List String)
    (L : List (List Value)) : QueryResult :=
  ⟨ticks, indices, attrs, offsetsFrom 0 (L.map List.length), L.flatten⟩

theorem length_pieces : (pieces ticks indices attrs piece).length =
    ticks.length * (indices.length * attrs.length) := by
  simp [pieces, List.length_flatMap]

theorem getElem?_pieces {p q s : Nat} (hp : p < ticks.length) (hq : q < indices.length)
    (hs : s < attrs.length) :
    (pieces ticks indices attrs piece)[(p * indices.length + q) * attrs.length + s]? =
      some (piece ticks[p] indices[q] attrs[s]) := by
  rw [pieces, getElem?_nested ticks indices attrs piece p hq hs]
  simp [hp, hq, hs]

/-- One cell read by its positions. -/
theorem cell_ofPieces {p q s : Nat} (hp : p < ticks.length) (hq : q < indices.length)
    (hs : s < attrs.length) :
    (ofPieces ticks indices attrs (pieces ticks indices attrs piece)).cell? p q s =
      some (piece ticks[p] indices[q] attrs[s]) := by
  obtain ⟨hlt, hget⟩ := List.getElem?_eq_some_iff.1 (getElem?_pieces piece hp hq hs)
  obtain ⟨start, stop, hstart, hstop, -, -, hcut⟩ := cut_flatten _ hlt
  rw [hget] at hcut
  simp only [cell?, ofPieces, hp, hq, hs, and_self, ↓reduceIte, hstart, hstop, hcut,
    Option.bind_eq_bind, Option.bind_some, Option.pure_def]

/-- A result put together of pieces decodes into them. -/
theorem decodes_ofPieces :
    (ofPieces ticks indices attrs (pieces ticks indices attrs piece)).Decodes piece where
  values := by
    simp only [ofPieces, pieces, List.flatten_eq_flatMap, List.flatMap_assoc, List.flatMap_map, id]
  counts := by
    rw [QueryResult.counts, ofPieces]
    refine (gaps_offsetsFrom 0 _).trans ?_
    simp only [pieces, List.map_flatMap, List.map_map]
    rfl
  size := by
    rw [ofPieces, length_offsetsFrom, List.length_map, length_pieces]
  bounds p q s hp hq hs := by
    obtain ⟨hlt, -⟩ := List.getElem?_eq_some_iff.1 (getElem?_pieces piece hp hq hs)
    obtain ⟨start, stop, hstart, hstop, hle, hsize, -⟩ := cut_flatten _ hlt
    exact ⟨start, stop, hstart, hstop, hle, hsize⟩
  cell p q s := by
    by_cases hin : p < ticks.length ∧ q < indices.length ∧ s < attrs.length
    · obtain ⟨hp, hq, hs⟩ := hin
      rw [cell_ofPieces piece hp hq hs]
      simp [ofPieces, hp, hq, hs]
    · refine (if_neg hin).trans ?_
      change none = ticks[p]?.bind fun t => indices[q]?.bind fun i => attrs[s]?.bind fun a => _
      cases ht : ticks[p]? with
      | none => rfl
      | some t =>
        cases hi : indices[q]? with
        | none => rfl
        | some i =>
          cases ha : attrs[s]? with
          | none => rfl
          | some a =>
            exact absurd ⟨(List.getElem?_eq_some_iff.1 ht).1, (List.getElem?_eq_some_iff.1 hi).1,
              (List.getElem?_eq_some_iff.1 ha).1⟩ hin

end QueryResult

/-! ## Running a plan -/

/-- The values captured of an attribute of an instance at a tick, none if there are none. -/
def Ring.captured (r : Ring) (schema : Schema) (tick : Tick) (index : Nat) (attr : String) :
    List Value :=
  ((r.get? tick).bind fun s => (schema.attribute? attr).bind fun a =>
    s.values? schema.id index a.id).getD []

theorem Ring.captured_eq {r : Ring} {s : Snapshot} {schema : Schema} {attr : Attribute}
    {tick : Tick} {name : String} (hget : r.get? tick = some s)
    (hattr : schema.attribute? name = some attr) (index : Nat) :
    r.captured schema tick index name = (s.values? schema.id index attr.id).getD [] := by
  rw [captured, hget, Option.bind_some, hattr, Option.bind_some]

namespace QueryPlan

variable {p : QueryPlan} {ring : Ring} {r : QueryResult}

theorem readCell_ok {s : Snapshot} {index : Nat} {attr : AttrId × String} {vs : List Value} :
    p.readCell s index attr = .ok vs ↔ s.values? p.schema index attr.1 = some vs := by
  unfold readCell
  cases s.values? p.schema index attr.1 <;> simp

/-- The snapshot of a tick. -/
def held (ring : Ring) (tick : Tick) : Except FrameError Snapshot :=
  match ring.get? tick with
  | some s => .ok s
  | none => .error (.tickNotFound tick)

theorem held_ok {tick : Tick} {s : Snapshot} :
    held ring tick = .ok s ↔ ring.get? tick = some s := by
  unfold held
  cases ring.get? tick <;> simp

/-- A plan that is carried out gives, tick by tick, instance by instance and attribute by attribute,
what the ring holds. -/
theorem execute_decodes {piece : Tick → Nat → String → List Value} (h : p.execute ring = .ok r)
    (hpiece : ∀ t s, ring.get? t = some s → ∀ i, ∀ a ∈ p.attrs,
      piece t i a.2 = (s.values? p.schema i a.1).getD []) :
    r.ticks = p.ticks.choose (fun _ => ring.ticks) ∧ r.indices = p.indices ∧
      r.attrs = p.attrs.map Prod.snd ∧ (∀ t ∈ r.ticks, ∃ s, ring.get? t = some s) ∧
      r.Decodes piece := by
  unfold execute at h
  obtain ⟨snapshots, hsnapshots, h⟩ := Except.bind_ok.1 h
  obtain ⟨L, hL, h⟩ := Except.bind_ok.1 h
  cases h
  have hheld : List.Forall₂ (fun s t => ring.get? t = some s) snapshots
      (p.ticks.choose fun _ => ring.ticks) := by
    refine (Except.mapM_ok.1 hsnapshots).flip.imp fun s t hs => ?_
    exact held_ok.1 (show held ring t = .ok s from hs)
  have hpieces : L = QueryResult.pieces (p.ticks.choose fun _ => ring.ticks) p.indices
      (p.attrs.map Prod.snd) piece := by
    have hvalues : List.Forall₂ (fun vs c => vs = (c.1.values? p.schema c.2.1 c.2.2.1).getD []) L
        (p.cells snapshots) := (Except.mapM_ok.1 hL).flip.imp fun vs c hc => by
      rw [readCell_ok.1 hc]
      rfl
    rw [← List.forall₂_map_right_iff, List.forall₂_eq_eq_eq] at hvalues
    rw [hvalues, cells, QueryResult.pieces]
    simp only [List.map_flatMap, List.map_map]
    refine flatMap_eq_of_forall₂ hheld fun s t hs => List.flatMap_congr fun i _ => ?_
    exact List.map_congr_left fun a ha => (hpiece t s hs i a ha).symm
  refine ⟨rfl, rfl, rfl, ?_, ?_⟩
  · intro t ht
    obtain ⟨i, hi⟩ := List.mem_iff_getElem?.1 ht
    obtain ⟨s, -, hs⟩ := hheld.exists_left hi
    exact ⟨s, hs⟩
  · rw [hpieces]
    exact QueryResult.decodes_ofPieces piece

end QueryPlan

end NodeStore
