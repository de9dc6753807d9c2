import Mathlib.Algebra.BigOperators.Ring.List
import Mathlib.Algebra.Order.BigOperators.Group.List
import Mathlib.Algebra.Order.Ring.Nat
import NodeStore.Frame.Summary
import NodeStore.Proofs.Frame.AsDeclared

/-!
# Sizes that building tells

Building a frame tells the bytes of each pool and the number of all instances. What it checks is
less: that the values of each fixed attribute can be counted. The bytes of a value, the other
attributes and the other schemas play no part in the check, so a frame that is built may be of
sizes that cannot be counted (`Session.built_beyond_limit`).

* `PoolLayout.fixedBytes_eq`: the bytes of an accepted layout.
* `Schema.fixedSlots_le_footprint`, `Schema.footprint_le_fixedSlots`: bytes against values.
* `Builder.build_sizes`: what building tells is what the frame reports.
* `Session.built_sizes`: what is checked of it, and what is enough for the rest.
-/

namespace NodeStore

/-! ## Bytes and values -/

namespace AttrType

theorem width_pos (ty : AttrType) : 0 < ty.width := by
  rcases ty with ⟨_, _ | _ | _ | _⟩ | _ | _ <;> exact Nat.zero_lt_succ _

theorem width_le (ty : AttrType) : ty.width ≤ 8 := by
  rcases ty with ⟨_, _ | _ | _ | _⟩ | _ | _ <;> exact Nat.le_of_ble_eq_true rfl

end AttrType

namespace Attribute

/-- Values of an attribute in one instance that are there from the start. -/
def fixedSlots (a : Attribute) : Nat := a.slotCount?.getD 0

theorem footprint_eq (a : Attribute) : a.footprint = a.fixedSlots * a.type.width := by
  unfold footprint fixedSlots
  cases a.slotCount? with
  | none => exact (Nat.zero_mul _).symm
  | some slots => rfl

end Attribute

namespace Schema

/-- Values of the fixed attributes in one instance. -/
def fixedSlots (s : Schema) : Nat := (s.attributes.map Attribute.fixedSlots).sum

theorem fixedSlots_le_footprint (s : Schema) : s.fixedSlots ≤ s.footprint := by
  refine List.sum_le_sum fun a _ => ?_
  rw [a.footprint_eq]
  exact Nat.le_mul_of_pos_right _ a.type.width_pos

theorem footprint_le_fixedSlots (s : Schema) : s.footprint ≤ s.fixedSlots * 8 := by
  unfold footprint fixedSlots
  rw [← List.sum_map_mul_right]
  refine List.sum_le_sum fun a _ => ?_
  rw [a.footprint_eq]
  exact Nat.mul_le_mul_left _ a.type.width_le

end Schema

/-- An accepted layout has the bytes of the schema's footprint for every instance. -/
theorem PoolLayout.fixedBytes_eq {schema : Schema} {n : Nat} {layout : PoolLayout}
    (h : ofSchema schema n = .ok layout) : layout.fixedBytes = schema.footprint * n := by
  obtain ⟨rfl, hentries⟩ := ofSchema_ok.1 h
  have hmap : layout.entries.map AttrLayout.footprint =
      schema.attributes.map Attribute.footprint := by
    refine List.ext_getElem? fun i => ?_
    rw [List.getElem?_map, List.getElem?_map]
    cases hl : layout.entries[i]? with
    | none =>
      rw [List.getElem?_eq_none (hentries.length_eq.trans_le (List.getElem?_eq_none_iff.1 hl))]
      rfl
    | some l =>
      obtain ⟨attr, hattr, hof⟩ := hentries.exists_left hl
      rw [hattr]
      rcases AttrLayout.ofAttribute_ok.1 hof with ⟨hnone, rfl⟩ | ⟨slots, hsome, -, rfl⟩
      · simp [AttrLayout.footprint, Attribute.footprint, hnone]
      · simp [AttrLayout.footprint, Attribute.footprint, hsome]
  rw [fixedBytes, footprint, hmap, Schema.footprint]

/-! ## What is told -/

/-- The size that an event tells. -/
def Event.size? : Event → Option Nat
  | .frameBuilt _ _ instances _ => some instances
  | .poolAllocated _ _ _ fixedBytes => some fixedBytes
  | _ => none

/-- The sizes that an outcome tells. -/
def Outcome.sizes {σ α : Type} (o : Outcome σ α) : List Nat := o.events.filterMap Event.size?

/-- What is told by the first part of an action comes first. -/
theorem Action.sizes_bind {σ α β : Type} {x : Action σ α} {f : α → Action σ β} {s : σ} {a : α}
    (h : (x s).result = .ok a) :
    ((x >>= f) s).sizes = (x s).sizes ++ (f a (x s).state).sizes := by
  rw [Action.bind_apply, h]
  exact List.filterMap_append

/-- Allocating a pool tells its bytes. -/
theorem Pools.allocate_sizes {P : Type} [Pool P] {schema : Schema} {n : Nat} {ps : List P}
    (h : (allocate schema n ps).result = .ok ()) :
    (allocate schema n ps).sizes = [schema.footprint * n] := by
  obtain ⟨_, hget, hrest⟩ := Action.bind_ok.1 h
  cases hget
  rw [allocate, Action.sizes_bind rfl]
  by_cases hid : schema.id = ps.length
  · simp only [Action.get_apply, hid, ne_eq, not_true_eq_false, ↓reduceIte] at hrest ⊢
    obtain ⟨layout, hlayout, -⟩ := Action.read_bind_ok.1 hrest
    rw [Action.sizes_bind hlayout, ← PoolLayout.fixedBytes_eq hlayout]
    rfl
  · simp [hid] at hrest

theorem Store.allocate_sizes {schema : Schema} {n : Nat} {s : Store}
    (h : (allocate schema n s).result = .ok ()) :
    (allocate schema n s).sizes = [schema.footprint * n] := by
  cases s with
  | dense ps => exact Pools.allocate_sizes h
  | lite ps => exact Pools.allocate_sizes h

theorem Store.forM_allocate_sizes {pairs : List (Schema × Nat)} {s : Store}
    (h : ((pairs.forM fun p => allocate p.1 p.2) s).result = .ok ()) :
    ((pairs.forM fun p => allocate p.1 p.2) s).sizes = pairs.map fun p => p.1.footprint * p.2 := by
  induction pairs generalizing s with
  | nil => rfl
  | cons p pairs ih =>
    have hforM : (p :: pairs).forM (fun p => allocate p.1 p.2) =
      (allocate p.1 p.2 >>= fun _ => pairs.forM fun p => allocate p.1 p.2) := rfl
    rw [hforM] at h ⊢
    obtain ⟨⟨⟩, hp, hpairs⟩ := Action.bind_ok.1 h
    rw [Action.sizes_bind hp, allocate_sizes hp, ih hpairs]
    rfl

namespace Frame

variable {f : Frame} {shape : List (Schema × Nat)}

/-- Bytes of each pool as declared, and the number of all instances. -/
def sizes (f : Frame) : List Nat :=
  (f.schemas.map fun s => s.footprint * f.count s.id) ++ [f.summary.total]

theorem ofSchemas_sizes {ring : Option Ring} {s : Store}
    (h : (ofSchemas shape ring s).result = .ok f) :
    (ofSchemas shape ring s).sizes = shape.map fun p => p.1.footprint * p.2 := by
  obtain ⟨⟨⟩, hall, -⟩ := Action.bind_ok.1 h
  rw [ofSchemas, Action.sizes_bind hall, Store.forM_allocate_sizes hall]
  exact List.append_nil _

/-- The schemas with their counts are those of the frame's shape. -/
theorem Sound.map_schemas {α : Type} (h : f.Sound shape) (v : Schema → Nat → α) :
    (f.schemas.map fun s => v s (f.count s.id)) = shape.map fun p => v p.1 p.2 := by
  refine List.ext_getElem? fun i => ?_
  rw [List.getElem?_map, List.getElem?_map]
  cases hp : shape[i]? with
  | none => rw [h.schemas, List.getElem?_map, hp]; rfl
  | some p =>
    have hs : f.schemas[i]? = some p.1 := by rw [h.schemas, List.getElem?_map, hp]; rfl
    have hcount : f.count p.1.id = p.2 := by rw [h.numbered i p.1 hs, h.count_eq, hp]; rfl
    rw [hs, Option.map_some, Option.map_some, hcount]

theorem Sound.mem_shape (h : f.Sound shape) {s : Schema} (hs : s ∈ f.schemas) :
    (s, f.count s.id) ∈ shape := by
  have hpairs := h.map_schemas Prod.mk
  rw [List.map_id'] at hpairs
  exact hpairs ▸ List.mem_map_of_mem hs

theorem Sound.sizes_eq (h : f.Sound shape) :
    f.sizes = (shape.map fun p => p.1.footprint * p.2) ++ [(shape.map Prod.snd).sum] := by
  rw [sizes, h.map_schemas fun s n => s.footprint * n, FrameSummary.total, summary, List.map_map]
  exact congrArg (_ ++ [List.sum ·]) (h.map_schemas fun _ n => n)

end Frame

namespace Builder

/-- Of pools that are built the values of each fixed attribute can be counted. -/
theorem build_allocable {b : Builder} (hr : b.registry.Sound) (hst : b.startStore.Models [])
    {f : Frame} (hf : (build b).result = .ok f) :
    ∀ p ∈ b.registry.schemas.zip b.syncedCounts, p.1.Allocable p.2 := by
  rcases build_ends hr hst Iff.rfl with ⟨-, fault, herror⟩ | ⟨hfits, -⟩
  · rw [hf] at herror
    cases herror
  · exact not_not.1 (not_or.1 hfits).2

/-- Building tells the sizes that the frame reports. -/
theorem build_sizes {b : Builder} (hr : b.registry.Sound) (hst : b.startStore.Models [])
    (hlen : b.syncedCounts.length = b.registry.size) {f : Frame} (hf : (build b).result = .ok f) :
    (build b).sizes = f.sizes := by
  have hcounts : (b.registry.schemas.zip b.syncedCounts).map Prod.snd = b.syncedCounts :=
    List.map_snd_zip hlen.le
  rw [(build_blank hr hst hf).sound.sizes_eq, hcounts]
  rw [build_result] at hf
  obtain ⟨⟨⟩, hcheck, hf⟩ := Except.bind_ok.1 hf
  obtain ⟨ring, hring, hf⟩ := Except.bind_ok.1 hf
  have htold : (build b).events =
      (Frame.ofSchemas (b.registry.schemas.zip b.syncedCounts) ring b.startStore).events ++
        [.frameBuilt f.store.kind.name b.registry.size b.syncedCounts.sum b.config.capacity] := by
    simp [build, Action.bind_apply, hcheck, hring, hf]
  rw [Outcome.sizes, htold, List.filterMap_append]
  exact congrArg (· ++ [b.syncedCounts.sum]) (Frame.ofSchemas_sizes hf)

end Builder

/-- The sizes that building tells are those the frame reports: the bytes of each pool and the number
of all instances. What is checked is that the values of each fixed attribute can be counted. If each
pool has few enough values that eight bytes of each can be counted, and the instances can, then so
can all that is told. -/
theorem Session.built_sizes {steps : List Builder.Step} (hsteps : ∀ step ∈ steps, step.Standard)
    (hrun : ((steps.forM takeStep) {}).result = .ok ()) {f : Frame}
    (hf : (Builder.build ((steps.forM takeStep) {}).state).result = .ok f) :
    (Builder.build ((steps.forM takeStep) {}).state).sizes = f.sizes ∧
      (∀ s ∈ f.schemas, s.Allocable (f.count s.id)) ∧
      (∀ s ∈ f.schemas, s.fixedSlots * f.count s.id ≤ s.footprint * f.count s.id ∧
        s.footprint * f.count s.id ≤ s.fixedSlots * f.count s.id * 8) ∧
      ((∀ s ∈ f.schemas, s.fixedSlots * f.count s.id * 8 < sizeLimit) →
        f.summary.total < sizeLimit → ∀ size ∈ f.sizes, size < sizeLimit) := by
  obtain ⟨hr, hst⟩ := steps_sound hsteps
  have htracks := Builder.Tracks.empty.steps hsteps hrun
  have hsound := (Builder.build_blank hr hst hf).sound
  have hbytes (s : Schema) : s.footprint * f.count s.id ≤ s.fixedSlots * f.count s.id * 8 := by
    rw [Nat.mul_right_comm]
    exact Nat.mul_le_mul_right _ s.footprint_le_fixedSlots
  refine ⟨Builder.build_sizes hr hst htracks.length_eq hf, ?_, ?_, ?_⟩
  · exact fun s hs => Builder.build_allocable hr hst hf _ (hsound.mem_shape hs)
  · exact fun s _ => ⟨Nat.mul_le_mul_right _ s.fixedSlots_le_footprint, hbytes s⟩
  · intro hfew htotal size hsize
    rcases List.mem_append.1 hsize with hsize | hsize
    · obtain ⟨s, hs, rfl⟩ := List.mem_map.1 hsize
      exact (hbytes s).trans_lt (hfew s hs)
    · exact List.mem_singleton.1 hsize ▸ htotal

/-- A pool of 64-bit numbers that are few, and one without attributes of which there are many. -/
theorem Session.built_sizes_bare : ∃ (steps : List Builder.Step) (f : Frame),
    steps = [.declareWith "cell" [⟨"x", .int64, 2, false, false⟩] 3,
      .declare "bare" (2 ^ (63 : Nat))] ∧
    (Builder.build ((steps.forM takeStep) {}).state).result = .ok f ∧
    (Builder.build ((steps.forM takeStep) {}).state).sizes = [48, 0, 3 + 2 ^ (63 : Nat)] ∧
    (∀ size ∈ f.sizes, size < sizeLimit) := by
  have hsteps : ∀ step ∈ [Builder.Step.declareWith "cell" [⟨"x", .int64, 2, false, false⟩] 3,
      .declare "bare" (2 ^ (63 : Nat))], step.Standard := by
    simp [Builder.Step.Standard]
  obtain ⟨htold, -, -, hfits⟩ := built_sizes hsteps rfl rfl
  refine ⟨_, _, rfl, rfl, ?_, hfits ?_ ?_⟩
  · exact htold.trans rfl
  · decide
  · decide

/-- The check leaves sizes that cannot be counted: of schemas without attributes there may be any
number, and values of 64 bits weigh eight bytes each. -/
theorem Session.built_beyond_limit :
    (∃ f, (buildBy [.declare "a" (2 ^ (64 : Nat) - 1), .declare "b" 1] {}).result = .ok f ∧
      f.summary.total = sizeLimit) ∧
    ∃ layout, PoolLayout.ofSchema ⟨0, "cell", [⟨0, "x", .int64, 1, false, false⟩]⟩
      (2 ^ (61 : Nat)) = .ok layout ∧ layout.fixedBytes = sizeLimit :=
  ⟨⟨_, rfl, by decide⟩, _, rfl, by decide⟩

end NodeStore
