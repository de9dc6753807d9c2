import Mathlib.Data.Finset.Max
import Mathlib.Data.Int.ModEq
import Mathlib.Order.Interval.Finset.Nat
import NodeStore.Proofs.Frame.Contents
import NodeStore.Workload.SupplyChain

/-!
# Runs of the supply-chain workload

The workload runs on every frame that is built for it, for as many ticks as its sums fit into 64
bits, and its lists stay short.

* `Profile.build_blank`: building.
* `SupplyChain.drive_turns`: what a tick makes of the contents of a frame.
* `SupplyChain.Lists.tick`: the lists after a tick, from those after the tick before. A list is
  trimmed at every eighth tick, in an order of its own for each of the three; what is in it from
  before is of no matter then.
* `Profile.facilities_stay_numbered`, `Profile.run_stays_bounded`: whole runs.
-/

namespace NodeStore

open NodeStore.Frame

/-! ## Building -/

/-- The schema of the node type under a number. -/
def NodeType.numbered (n : NodeType) (id : SchemaId) : Schema :=
  ⟨id, n.name, n.attributes.mapIdx .ofSpec⟩

namespace Profile

/-- The schemas of the workload with the counts of the profile. -/
def shape (p : Profile) : List (Schema × Nat) := [
  (NodeType.facility.numbered 0, p.facilities), (NodeType.consumer.numbered 1, p.consumers),
  (NodeType.vehicle.numbered 2, p.vehicles)]

/-- What a builder was told for the profile. -/
def builder (p : Profile) (kind : Kind) : Builder where
  registry := ⟨p.shape.map Prod.fst⟩
  counts := p.shape.map Prod.snd
  config := ⟨kind, some p.capacity⟩

/-- The numbers of instances fit into 32 bits, one of them for the sign. -/
structure Small (p : Profile) : Prop where
  facilities : p.facilities < 2 ^ (31 : Nat)
  consumers : p.consumers < 2 ^ (31 : Nat)
  vehicles : p.vehicles < 2 ^ (31 : Nat)

theorem build_result (p : Profile) (kind : Kind) :
    (p.build kind {}).result = (Builder.build (p.builder kind)).result := by
  have hfacility (c : Config) : Builder.addNode .facility p.facilities ⟨{}, [], c, none⟩ =
      ⟨.ok (), ⟨⟨[NodeType.facility.numbered 0]⟩, [p.facilities], c, none⟩, []⟩ := rfl
  have hconsumer (c : Config) : Builder.addNode .consumer p.consumers
      ⟨⟨[NodeType.facility.numbered 0]⟩, [p.facilities], c, none⟩ =
      ⟨.ok (), ⟨⟨[NodeType.facility.numbered 0, NodeType.consumer.numbered 1]⟩,
        [p.facilities, p.consumers], c, none⟩, []⟩ := rfl
  have hvehicle : Builder.addNode .vehicle p.vehicles
      ⟨⟨[NodeType.facility.numbered 0, NodeType.consumer.numbered 1]⟩,
        [p.facilities, p.consumers], ⟨kind, some p.capacity⟩, none⟩ =
      ⟨.ok (), p.builder kind, []⟩ := rfl
  simp only [Profile.build, Action.bind_apply, Builder.setKind, Builder.setSnapshots,
    Action.modify_apply, hfacility, hconsumer, hvehicle]

theorem registry_sound (p : Profile) (kind : Kind) : (p.builder kind).registry.Sound := by
  have hdeclared {n : NodeType} (id : SchemaId) (h : n.schema = .ok (n.numbered 0)) :
      (n.numbered id).Declared := (Schema.Declared.ofSpecs h).register id
  refine ⟨?_, ?_, ?_⟩
  · intro s hs
    rcases hs with _ | ⟨_, _ | ⟨_, _ | ⟨_, ⟨⟩⟩⟩⟩
    · exact hdeclared 0 rfl
    · exact hdeclared 1 rfl
    · exact hdeclared 2 rfl
  · intro i s hi
    rcases i with _ | _ | _ | i <;> cases hi <;> rfl
  · exact (by decide :
      [NodeType.facility.name, NodeType.consumer.name, NodeType.vehicle.name].Nodup)

theorem Small.allocable {p : Profile} (h : p.Small) : ∀ q ∈ p.shape, q.1.Allocable q.2 := by
  have hcounted {n k : Nat} (hn : n < 2 ^ (31 : Nat)) (hk : k ≤ 4) : n * k < sizeLimit :=
    (Nat.mul_le_mul hn.le hk).trans_lt (by decide)
  have hfacility : ∀ attr ∈ (NodeType.facility.numbered 0).attributes, attr.slots ≤ 4 := by decide
  have hconsumer : ∀ attr ∈ (NodeType.consumer.numbered 1).attributes, attr.slots ≤ 4 := by decide
  have hvehicle : ∀ attr ∈ (NodeType.vehicle.numbered 2).attributes, attr.slots ≤ 4 := by decide
  intro q hq attr hattr _
  rcases hq with _ | ⟨_, _ | ⟨_, _ | ⟨_, ⟨⟩⟩⟩⟩
  · exact hcounted h.facilities (hfacility attr hattr)
  · exact hcounted h.consumers (hconsumer attr hattr)
  · exact hcounted h.vehicles (hvehicle attr hattr)

/-- A frame is built for the profile, and nothing was written to it yet. -/
theorem build_blank {p : Profile} (hcapacity : p.capacity ≠ 0) (hsmall : p.Small) (kind : Kind) :
    ∃ f, (p.build kind {}).result = .ok f ∧ f.Blank p.shape ∧ f.ring.isSome = true := by
  have hst : (p.builder kind).startStore.Models [] := Store.new_models kind
  rcases Builder.build_ends (p.registry_sound kind) hst Iff.rfl with
    ⟨hrefused, -⟩ | ⟨-, f, hf, hblank, hring, -⟩
  · rcases hrefused with hzero | hlarge
    · exact absurd (Option.some.inj hzero) hcapacity
    · exact absurd hsmall.allocable hlarge
  · refine ⟨f, (p.build_result kind).trans hf, hblank, ?_⟩
    rw [← Option.isSome_map, hring]
    rfl

end Profile

namespace SupplyChain

variable {p : Profile} {seals : List InstanceSet} {i t : Nat} {s : Contents} {f : Frame}

/-! ## What a tick makes of the contents -/

/-- What a tick makes of the values of a facility. Attribute 2 is the list, here and in the rows
below. -/
def facilityRow (t : Tick) (i : Nat) : Row → Row :=
  ((if t % 8 = 0 then Row.write 2 (.append (order t i)) ∘ Row.write 2 (.setList [])
      else Row.write 2 (.append (order t i))) ∘
    Row.write 1 (.set ((sums t i).slot % 4) (stock t i))) ∘
  Row.write 0 (.set 0 (capacity t i))

def trimmedRow (t : Tick) : Row → Row :=
  if t % 8 = 0 then Row.write 2 (.setList []) else fun row => row

def consumerRow (t : Tick) (i : Nat) : Row → Row :=
  ((if i % 5 = t % 5 then trimmedRow t ∘ Row.write 2 (.append (uint32 (demand t i)))
      else trimmedRow t) ∘
    Row.write 1 (.set 0 (price t i))) ∘
  Row.write 0 (.set 0 (uint16 (demand t i)))

def vehicleRow (t : Tick) (facilities : Nat) (i : Nat) : Row → Row :=
  ((if t % 8 = 0 then Row.write 2 (.setList [location t facilities i])
      else Row.write 2 (.append (location t facilities i))) ∘
    Row.write 1 (.set 0 (payload t))) ∘
  Row.write 0 (.set 0 (location t facilities i))

/-- What a tick makes of the contents. -/
def ticked (p : Profile) (t : Tick) : Contents → Contents :=
  (Contents.onRows 2 (List.range p.vehicles) (vehicleRow t p.facilities) ∘
    Contents.onRows 1 (List.range p.consumers) (consumerRow t)) ∘
  Contents.onRows 0 (List.range p.facilities) (facilityRow t)

theorem driveFacility_turns (hi : i < p.facilities) (t : Tick) :
    TurnsRow p.shape seals 0 i (driveFacility t i) (facilityRow t i) := by
  have hslot : (sums t i).slot % 4 < 4 := Nat.mod_lt _ (by decide)
  have hcapacity : Names p.shape "facility" "capacity" 0 0 _ _ := ⟨_, rfl, rfl, rfl, rfl⟩
  have hstock : Names p.shape "facility" "stock" 0 1 _ _ := ⟨_, rfl, rfl, rfl, rfl⟩
  have horders : Names p.shape "facility" "pending_orders" 0 2 _ _ := ⟨_, rfl, rfl, rfl, rfl⟩
  have happend : TurnsRow p.shape seals 0 i
      (Frame.apply "facility" i "pending_orders" (.append (order t i)))
      (Row.write 2 (.append (order t i))) := .apply horders hi ⟨rfl, rfl⟩ (.inl rfl)
  exact .bind (.apply hcapacity hi ⟨rfl, by decide, rfl⟩ (.inl rfl)) <|
    .bind (.apply hstock hi ⟨rfl, hslot, rfl⟩ (.inl rfl)) <|
    .ite (fun _ => .bind (.apply horders hi ⟨rfl, by simp⟩ (.inl rfl)) happend) fun _ => happend

theorem driveConsumer_turns (hi : i < p.consumers) (t : Tick) :
    TurnsRow p.shape seals 1 i (driveConsumer t i) (consumerRow t i) := by
  have hdemand : Names p.shape "consumer" "demand" 1 0 _ _ := ⟨_, rfl, rfl, rfl, rfl⟩
  have hprice : Names p.shape "consumer" "price" 1 1 _ _ := ⟨_, rfl, rfl, rfl, rfl⟩
  have horders : Names p.shape "consumer" "orders" 1 2 _ _ := ⟨_, rfl, rfl, rfl, rfl⟩
  have htrim : TurnsRow p.shape seals 1 i
      (if t % 8 = 0 then Frame.apply "consumer" i "orders" (.setList []) else pure ())
      (trimmedRow t) :=
    .ite (fun _ => .apply horders hi ⟨rfl, by simp⟩ (.inl rfl)) fun _ => .pure
  exact .bind (.apply hdemand hi ⟨rfl, by decide, rfl⟩ (.inl rfl)) <|
    .bind (.apply hprice hi ⟨rfl, by decide, rfl⟩ (.inl rfl)) <|
    .ite (fun _ => .bind (.apply horders hi ⟨rfl, rfl⟩ (.inl rfl)) htrim) fun _ => htrim

theorem driveVehicle_turns (hi : i < p.vehicles) (t : Tick) :
    TurnsRow p.shape seals 2 i (driveVehicle t p.facilities i) (vehicleRow t p.facilities i) := by
  have hlocation : Names p.shape "vehicle" "location" 2 0 _ _ := ⟨_, rfl, rfl, rfl, rfl⟩
  have hpayload : Names p.shape "vehicle" "payload" 2 1 _ _ := ⟨_, rfl, rfl, rfl, rfl⟩
  have hroute : Names p.shape "vehicle" "route" 2 2 _ _ := ⟨_, rfl, rfl, rfl, rfl⟩
  exact .bind (.apply hlocation hi ⟨rfl, by decide, rfl⟩ (.inl rfl)) <|
    .bind (.apply hpayload hi ⟨rfl, by decide, rfl⟩ (.inl rfl)) <|
    .ite (fun _ => .apply hroute hi ⟨rfl, List.forall_mem_singleton.2 rfl⟩ (.inl rfl))
      fun _ => .apply hroute hi ⟨rfl, rfl⟩ (.inl rfl)

/-- A tick ends well on every frame of the profile. -/
theorem drive_turns (p : Profile) (seals : List InstanceSet) (t : Tick) :
    Turns p.shape seals (drive t) (ticked p t) := by
  have hfacility : p.shape[0]? = some (NodeType.facility.numbered 0, p.facilities) := rfl
  have hconsumer : p.shape[1]? = some (NodeType.consumer.numbered 1, p.consumers) := rfl
  have hvehicle : p.shape[2]? = some (NodeType.vehicle.numbered 2, p.vehicles) := rfl
  refine .count hfacility rfl <| .bind (.forM List.nodup_range fun i hi => ?_) <|
    .count hconsumer rfl <| .bind (.forM List.nodup_range fun i hi => ?_) <|
    .count hvehicle rfl <| .forM List.nodup_range fun i hi => ?_
  · exact driveFacility_turns (List.mem_range.1 hi) t
  · exact driveConsumer_turns (List.mem_range.1 hi) t
  · exact driveVehicle_turns (List.mem_range.1 hi) t

/-! ## The lists -/

/-- The ticks since lists were trimmed, from that of the trimming on. -/
def since (t : Nat) : List Nat := List.range' (t - t % 8) (t % 8 + 1)

theorem since_of_trimming (h : t % 8 = 0) : since t = [t] := by
  simp [since, h]

theorem since_of_not_trimming (h : t % 8 ≠ 0) : since t = since (t - 1) ++ [t] := by
  have hstart : t - 1 - (t - 1) % 8 = t - t % 8 := by omega
  have hlen : (t - 1) % 8 + 1 = t % 8 := by omega
  rw [since, since, hstart, hlen, List.range'_concat]
  congr 2
  omega

theorem tail_since (h : t % 8 ≠ 0) : (since t).tail = (since (t - 1)).tail ++ [t] := by
  rw [since_of_not_trimming h, List.tail_append_of_ne_nil]
  simp [since]

/-- The lists are as a tick leaves them. -/
structure Lists (p : Profile) (t : Tick) (s : Contents) : Prop where
  pending : ∀ i < p.facilities, s 0 i 2 = (since t).map (order · i)
  orders : ∀ i < p.consumers, s 1 i 2 =
    ((since t).tail.filter (i % 5 = · % 5)).map fun u => uint32 (demand u i)
  route : ∀ i < p.vehicles, s 2 i 2 = (since t).map (location · p.facilities i)

theorem facilityRow_list (row : Row) :
    facilityRow t i row 2 = (if t % 8 = 0 then [] else row 2) ++ [order t i] := by
  by_cases ht : t % 8 = 0 <;> simp [facilityRow, ht, Access.make]

theorem consumerRow_list (row : Row) : consumerRow t i row 2 =
    if t % 8 = 0 then [] else row 2 ++ if i % 5 = t % 5 then [uint32 (demand t i)] else [] := by
  by_cases ht : t % 8 = 0 <;> by_cases hi : i % 5 = t % 5 <;>
    simp [consumerRow, trimmedRow, ht, hi, Access.make]

theorem vehicleRow_list {facilities : Nat} (row : Row) : vehicleRow t facilities i row 2 =
    (if t % 8 = 0 then [] else row 2) ++ [location t facilities i] := by
  by_cases ht : t % 8 = 0 <;> simp [vehicleRow, ht, Access.make]

theorem ticked_facility (hi : i < p.facilities) :
    ticked p t s 0 i = facilityRow t i (s 0 i) := by
  simp [ticked, Contents.onRows_of_schema_ne, Contents.onRows_mem, hi]

theorem ticked_consumer (hi : i < p.consumers) :
    ticked p t s 1 i = consumerRow t i (s 1 i) := by
  simp [ticked, Contents.onRows_of_schema_ne, Contents.onRows_mem, hi]

theorem ticked_vehicle (hi : i < p.vehicles) :
    ticked p t s 2 i = vehicleRow t p.facilities i (s 2 i) := by
  simp [ticked, Contents.onRows_of_schema_ne, Contents.onRows_mem, hi]

section
variable {α : Type} {g : Nat → α} {old : List α}

/-- A list that every tick adds to after it was trimmed. -/
theorem map_since (h : t % 8 ≠ 0 → old = (since (t - 1)).map g) :
    (if t % 8 = 0 then [] else old) ++ [g t] = (since t).map g := by
  by_cases ht : t % 8 = 0
  · rw [if_pos ht, since_of_trimming ht]
    rfl
  · rw [if_neg ht, h ht, since_of_not_trimming ht, List.map_append]
    rfl

/-- A list that some ticks add to before it is trimmed. -/
theorem map_filter_since {keep : Nat → Bool}
    (h : t % 8 ≠ 0 → old = ((since (t - 1)).tail.filter keep).map g) :
    (if t % 8 = 0 then [] else old ++ if keep t then [g t] else []) =
      ((since t).tail.filter keep).map g := by
  by_cases ht : t % 8 = 0
  · rw [if_pos ht, since_of_trimming ht]
    rfl
  · rw [if_neg ht, h ht, tail_since ht, List.filter_append, List.map_append]
    by_cases hk : keep t = true <;> simp [hk]

end

/-- A tick leaves the lists as it does if it finds them as the tick before left them. At a trimming
it finds them in any way. -/
theorem Lists.tick (h : t % 8 ≠ 0 → Lists p (t - 1) s) : Lists p t (ticked p t s) := by
  refine ⟨fun i hi => ?_, fun i hi => ?_, fun i hi => ?_⟩
  · rw [ticked_facility hi, facilityRow_list]
    exact map_since (g := (order · i)) fun ht => (h ht).pending i hi
  · rw [ticked_consumer hi, consumerRow_list]
    simpa using map_filter_since fun ht => (h ht).orders i hi
  · rw [ticked_vehicle hi, vehicleRow_list]
    exact map_since (g := (location · p.facilities i)) fun ht => (h ht).route i hi

/-! ## Runs -/

/-- Numbers the facilities and seals everything. -/
def setUp : Action Frame Unit := do
  numberFacilities
  Frame.sealAll

/-- A tick, with a capture after it if it is one of those to be captured. -/
def step (captured : Tick → Bool) (t : Tick) : Action Frame Unit := do
  drive t
  if captured t then Frame.capture t

theorem step_turns (p : Profile) (seals : List InstanceSet) (captured : Tick → Bool) (t : Tick) :
    Turns p.shape seals (step captured t) (ticked p t) := by
  have hcapture : Turns p.shape seals (if captured t then Frame.capture t else pure ())
      fun s => s := by
    cases captured t with
    | true => exact .capture t
    | false => exact .pure
  have hboth := (drive_turns p seals t).bind hcapture
  exact hboth

theorem numberFacilities_turns (hseals : ∀ i, (seals[0]?).any (·.contains i) = false) :
    Turns p.shape seals numberFacilities
      (Contents.onRows 0 (List.range p.facilities) fun i =>
        Row.write 3 (.set 0 (int64 (10000 + i)))) := by
  have hfacility : p.shape[0]? = some (NodeType.facility.numbered 0, p.facilities) := rfl
  have hnumber : Names p.shape "facility" "facility_id" 0 3 _ _ := ⟨_, rfl, rfl, rfl, rfl⟩
  refine .count hfacility rfl <| .forM List.nodup_range fun i hi => ?_
  exact .apply hnumber (List.mem_range.1 hi) ⟨rfl, by decide, rfl⟩ (.inr (hseals i))

/-- The facilities have their numbers. -/
def Numbered (p : Profile) (s : Contents) : Prop :=
  ∀ i < p.facilities, s 0 i 3 = [int64 (10000 + i)]

/-- No tick writes the numbers. -/
theorem Numbered.tick (h : Numbered p s) (t : Tick) : Numbered p (ticked p t s) := by
  intro i hi
  have hrow (row : Row) : facilityRow t i row 3 = row 3 := by
    by_cases ht : t % 8 = 0 <;> simp [facilityRow, ht]
  rw [ticked_facility hi, hrow, h i hi]

/-- A blank frame is set up. -/
theorem setUp_has (h : f.Blank p.shape) (hring : f.ring.isSome = true) :
    (setUp f).result = .ok () ∧
      ∃ seals s, (setUp f).state.Has p.shape seals s ∧ Numbered p s := by
  obtain ⟨s, hs⟩ := h.sound.has hring
  obtain ⟨hok, hnumbered⟩ := numberFacilities_turns (h.isSealedAt_eq 0) f s hs
  obtain ⟨hsealed, seals, hhas⟩ := hnumbered.sealAll
  obtain ⟨hresult, hstate⟩ := Action.bind_of_ok (f := fun _ => Frame.sealAll) hok
  rw [setUp, hresult, hstate]
  refine ⟨hsealed, seals, _, hhas, fun i hi => ?_⟩
  have hnumber : Names p.shape "facility" "facility_id" 0 3 _ _ := ⟨_, rfl, rfl, rfl, rfl⟩
  obtain ⟨old, hold⟩ := List.length_eq_one_iff.1 (hs.length_slots hnumber rfl hi)
  rw [Contents.onRows_mem (List.mem_range.2 hi), Row.write_self, hold]
  rfl

/-- After the ticks before `t` the frame is still one of the profile, its facilities have their
numbers, and its lists are as the last of the ticks left them. -/
theorem after_has (h : f.Has p.shape seals s) (hnumbers : Numbered p s) (captured : Tick → Bool)
    (t : Tick) :
    ∃ s', (Action.after (step captured) (List.range t) f).Has p.shape seals s' ∧
      Numbered p s' ∧ (t % 8 ≠ 0 → Lists p (t - 1) s') := by
  induction t with
  | zero => exact ⟨s, h, hnumbers, fun ht => absurd rfl ht⟩
  | succ t ih =>
    obtain ⟨s', hs', hnumbers', hlists⟩ := ih
    rw [List.range_succ, Action.after_append]
    exact ⟨_, (step_turns p seals captured t _ _ hs').2, hnumbers'.tick t,
      fun _ => Lists.tick hlists⟩

/-! ## Numbers -/

theorem signedTick_eq (h : t < 2 ^ (63 : Nat)) : signedTick t = t := by
  unfold signedTick
  rw [Int.bmod_eq_of_le] <;> omega

/-- No sum on the way leaves the range of 64-bit numbers, and what is written of them is in the
range of its type. -/
structure Exact (facilities t i : Nat) : Prop where
  signed : ∀ z ∈ [signedTick t * 3, 1000 - signedTick t * 3, (sums t i).capacity,
    signedTick t * 7, (sums t i).order, (sums t i).shift], IntKind.Holds ⟨true, .eight⟩ z
  unsigned : ∀ n ∈ [t * 13, (sums t i).demand, (sums t i).slot], n < sizeLimit
  capacity : IntKind.Holds ⟨true, .four⟩ ((sums t i).capacity.tmod 1000)
  stock : IntKind.Holds ⟨false, .four⟩ ((sums t i).shift.tmod 500)
  order : IntKind.Holds ⟨true, .four⟩ ((sums t i).order.tmod 97)
  demand : IntKind.Holds ⟨false, .two⟩ (demand t i)
  location : IntKind.Holds ⟨true, .four⟩ ((sums t i).shift.tmod (max facilities 1 : Nat))

theorem holds_tmod (z : Int) {n : Int} (hpos : 0 < n) (hn : n ≤ 2 ^ (31 : Nat)) :
    IntKind.Holds ⟨true, .four⟩ (z.tmod n) := by
  have hlow := Int.lt_tmod_of_pos z hpos
  have hhigh := Int.tmod_lt_of_pos z hpos
  change -2 ^ (31 : Nat) ≤ z.tmod n ∧ z.tmod n ≤ 2 ^ (31 : Nat) - 1
  omega

theorem exact_of_lt {facilities : Nat} (ht : t < 2 ^ (59 : Nat)) (hi : i < 2 ^ (31 : Nat))
    (hfacilities : facilities < 2 ^ (31 : Nat)) : Exact facilities t i := by
  have hsigned : signedTick t = t := signedTick_eq (by omega)
  have hstock : 0 ≤ (sums t i).shift.tmod 500 ∧ (sums t i).shift.tmod 500 < 500 := by
    refine ⟨Int.tmod_nonneg _ ?_, Int.tmod_lt_of_pos _ (by decide)⟩
    simp only [sums, hsigned]
    omega
  have hdemand : demand t i < 200 := Nat.mod_lt _ (by decide)
  refine ⟨fun z hz => ?_, fun n hn => ?_, holds_tmod _ (by decide) (by decide), ?_,
    holds_tmod _ (by decide) (by decide), ?_, holds_tmod _ (by omega) (by omega)⟩
  · simp only [sums, hsigned, List.mem_cons, List.not_mem_nil, or_false] at hz
    change -2 ^ (63 : Nat) ≤ z ∧ z ≤ 2 ^ (63 : Nat) - 1
    omega
  · simp only [sums, List.mem_cons, List.not_mem_nil, or_false] at hn
    change n < 2 ^ (64 : Nat)
    omega
  · change 0 ≤ (sums t i).shift.tmod 500 ∧ (sums t i).shift.tmod 500 ≤ 2 ^ (32 : Nat) - 1
    omega
  · change 0 ≤ (demand t i : Int) ∧ (demand t i : Int) ≤ 2 ^ (16 : Nat) - 1
    omega

/-- The order queued at a tick. -/
theorem int?_order (ht : t < 2 ^ (63 : Nat)) :
    Value.int? ⟨true, .four⟩ ((7 * t + i) % 97 : Nat) = some (order t i) := by
  have hsum : (sums t i).order = (7 * t + i : Nat) := by
    simp only [sums, signedTick_eq ht]
    omega
  have hrest : (sums t i).order.tmod 97 = ((7 * t + i) % 97 : Nat) := by
    rw [hsum, Int.tmod_eq_emod_of_nonneg (Int.natCast_nonneg _)]
    rfl
  rw [← hrest]
  exact Value.int?_eq (holds_tmod _ (by decide) (by decide))

/-! ## How many orders there are -/

/-- The ticks after the trimming at which a consumer has ordered. -/
def orderTicks (t i : Nat) : Finset Nat := (Finset.Ioc (t - t % 8) t).filter (· ≡ i [MOD 5])

theorem mem_orderTicks {u : Nat} :
    u ∈ orderTicks t i ↔ (t - t % 8 < u ∧ u ≤ t) ∧ u % 5 = i % 5 := by
  rw [orderTicks, Finset.mem_filter, Finset.mem_Ioc, Nat.ModEq]

theorem length_orders (t i : Nat) :
    ((since t).tail.filter (i % 5 = · % 5)).length = (orderTicks t i).card := by
  have htail : (since t).tail = List.range' (t - t % 8 + 1) (t % 8) := rfl
  have hnodup : ((since t).tail.filter (i % 5 = · % 5)).Nodup := by
    rw [htail]
    exact List.Nodup.filter _ List.nodup_range'
  rw [← List.toFinset_card_of_nodup hnodup, htail]
  congr 1
  ext u
  simp only [List.mem_toFinset, List.mem_filter, List.mem_range'_1, decide_eq_true_eq,
    mem_orderTicks]
  omega

/-- Of fewer than eleven ticks in a row at most two leave the same remainder. -/
theorem card_orderTicks_le (t i : Nat) : (orderTicks t i).card ≤ 2 := by
  rcases (orderTicks t i).eq_empty_or_nonempty with hnone | hsome
  · simp [hnone]
  -- the others are the first one or five ticks after it
  · have hfirst := (orderTicks t i).min'_mem hsome
    have hothers : orderTicks t i ⊆
        {(orderTicks t i).min' hsome, (orderTicks t i).min' hsome + 5} := by
      intro u hu
      have hle := (orderTicks t i).min'_le u hu
      generalize (orderTicks t i).min' hsome = first at *
      rw [mem_orderTicks] at hu hfirst
      rw [Finset.mem_insert, Finset.mem_singleton]
      omega
    exact (Finset.card_le_card hothers).trans Finset.card_le_two

/-! ## What is read -/

/-- What is read of the lists after a tick: the orders pending at each facility, with their numbers,
the orders of each consumer, and the route of each vehicle. -/
structure ListsRead (p : Profile) (t : Nat) (f : Frame) : Prop where
  pending : ∀ i < p.facilities, ∃ vs,
    (perform (.access "facility" i "pending_orders" .getList) f).result = .ok (.values vs) ∧
      vs.length = t % 8 + 1 ∧ ∀ k ≤ t % 8,
        vs[k]? = Value.int? ⟨true, .four⟩ ((7 * (t - t % 8 + k) + i) % 97 : Nat)
  orders : ∀ i < p.consumers, ∃ vs,
    (perform (.access "consumer" i "orders" .getList) f).result = .ok (.values vs) ∧
      vs.length = ((Finset.Ioc (t - t % 8) t).filter (· ≡ i [MOD 5])).card ∧ vs.length ≤ 2
  route : ∀ i < p.vehicles, ∃ vs,
    (perform (.access "vehicle" i "route" .getList) f).result = .ok (.values vs) ∧
      vs.length = t % 8 + 1

theorem Lists.read (h : Lists p t s) (hf : f.Has p.shape seals s) (ht : t < 2 ^ (63 : Nat)) :
    ListsRead p t f := by
  have hpending : Names p.shape "facility" "pending_orders" 0 2 _ _ := ⟨_, rfl, rfl, rfl, rfl⟩
  have horders : Names p.shape "consumer" "orders" 1 2 _ _ := ⟨_, rfl, rfl, rfl, rfl⟩
  have hroute : Names p.shape "vehicle" "route" 2 2 _ _ := ⟨_, rfl, rfl, rfl, rfl⟩
  have hlength : (since t).length = t % 8 + 1 := List.length_range'
  refine ⟨fun i hi => ⟨_, hf.getList hpending rfl hi, ?_, fun k hk => ?_⟩,
    fun i hi => ⟨_, hf.getList horders rfl hi, ?_⟩,
    fun i hi => ⟨_, hf.getList hroute rfl hi, ?_⟩⟩
  · rw [h.pending i hi, List.length_map, hlength]
  · have htick : (since t)[k]? = some (t - t % 8 + k) := by
      rw [since, List.getElem?_range' (by omega), Nat.one_mul]
    rw [h.pending i hi, List.getElem?_map, htick, int?_order (by omega)]
    rfl
  · rw [h.orders i hi, List.length_map, length_orders]
    exact ⟨rfl, card_orderTicks_le t i⟩
  · rw [h.route i hi, List.length_map, hlength]

end SupplyChain

/-- The set-up numbers the facilities from ten thousand on, and the numbers stay in any ticks. -/
theorem Profile.facilities_stay_numbered {p : Profile} (hcapacity : p.capacity ≠ 0)
    (hsmall : p.Small) (kind : Kind) (captured : Tick → Bool) :
    ∃ f, (p.build kind {}).result = .ok f ∧ ∀ t, ∀ i < p.facilities, ∃ v,
      Value.int? ⟨true, .eight⟩ (10000 + i) = some v ∧
      (perform (.access "facility" i "facility_id" (.get 0))
        (Action.after (SupplyChain.step captured) (List.range t)
          (SupplyChain.setUp f).state)).result = .ok (.value v) := by
  obtain ⟨f, hf, hblank, hring⟩ := build_blank hcapacity hsmall kind
  obtain ⟨-, seals, s, hs, hnumbers⟩ := SupplyChain.setUp_has hblank hring
  refine ⟨f, hf, fun t i hi => ⟨int64 (10000 + i), Value.int?_eq ?_, ?_⟩⟩
  · have hlt := hi.trans hsmall.facilities
    change -2 ^ (63 : Nat) ≤ (10000 + i : Int) ∧ (10000 + i : Int) ≤ 2 ^ (63 : Nat) - 1
    omega
  · have hnumber : Names p.shape "facility" "facility_id" 0 3 _ _ := ⟨_, rfl, rfl, rfl, rfl⟩
    obtain ⟨s', hs', hnumbers', -⟩ := SupplyChain.after_has hs hnumbers captured t
    exact hs'.get hnumber rfl hi (by rw [hnumbers' i hi]; rfl)

/-- Under either kind of storage a frame is built for every profile with room for snapshots, and set
up. Then every tick ends well, one after another, and so do the captures, whichever ticks are
captured. No sum on the way leaves its range, and after each tick the lists hold what the ticks
since the last trimming put there. -/
theorem Profile.run_stays_bounded {p : Profile} (hcapacity : p.capacity ≠ 0)
    (hsmall : p.Small) (kind : Kind) {n : Nat} (hn : n ≤ 2 ^ (59 : Nat))
    (captured : Tick → Bool) :
    ∃ f, (p.build kind {}).result = .ok f ∧ (SupplyChain.setUp f).result = .ok () ∧
      ∀ t < n, ∀ g, g = Action.after (SupplyChain.step captured) (List.range t)
          (SupplyChain.setUp f).state →
        (SupplyChain.drive t g).result = .ok () ∧
        (SupplyChain.step captured t g).result = .ok () ∧
        SupplyChain.ListsRead p t (SupplyChain.step captured t g).state ∧
        ∀ i < 2 ^ (31 : Nat), SupplyChain.Exact p.facilities t i := by
  obtain ⟨f, hf, hblank, hring⟩ := build_blank hcapacity hsmall kind
  obtain ⟨hsetUp, seals, s, hs, hnumbers⟩ := SupplyChain.setUp_has hblank hring
  refine ⟨f, hf, hsetUp, ?_⟩
  rintro t ht g rfl
  obtain ⟨s', hs', -, hlists⟩ := SupplyChain.after_has hs hnumbers captured t
  obtain ⟨hstep, hafter⟩ := SupplyChain.step_turns p seals captured t _ _ hs'
  refine ⟨(SupplyChain.drive_turns p seals t _ _ hs').1, hstep, ?_, fun i hi => ?_⟩
  · exact (SupplyChain.Lists.tick hlists).read hafter (by omega)
  · exact SupplyChain.exact_of_lt (by omega) hi hsmall.facilities

/-- Ten ticks on the lite storage, all of them captured. -/
theorem Profile.run_stays_bounded_tiny : ∃ f g vs,
    (Profile.build ⟨3, 5, 2, 4⟩ .lite {}).result = .ok f ∧
    g = Action.after (SupplyChain.step fun _ => true) (List.range 10)
      (SupplyChain.setUp f).state ∧
    (perform (.access "facility" 2 "pending_orders" .getList) g).result = .ok (.values vs) ∧
    vs[0]? = some (int32 58) ∧ vs[1]? = some (int32 65) ∧ vs.length = 2 := by
  obtain ⟨f, hf, -, hticks⟩ := run_stays_bounded (p := ⟨3, 5, 2, 4⟩) (by decide)
    ⟨by decide, by decide, by decide⟩ .lite (n := 10) (by decide) fun _ => true
  obtain ⟨-, -, hlists, -⟩ := hticks 9 (by decide) _ rfl
  obtain ⟨vs, hvs, hlength, hvalues⟩ := hlists.pending 2 (by decide)
  refine ⟨f, _, vs, hf, ?_, hvs, hvalues 0 (by decide), hvalues 1 (by decide), hlength⟩
  exact (Action.after_append _ (List.range 9) [9] _).symm

end NodeStore
