import NodeStore.Proofs.Action
import NodeStore.Proofs.Table
import NodeStore.Store.Pool

/-!
# Pools that are tables

`LawfulPool P`: pools of type `P` have a table, and every operation on a valid pool does what the
operation of the same name does to the table, with the same answer and the same error. An operation
that fails leaves the pool as it was. Nothing else of a storage strategy matters to what is built on
pools.

An operation checks a coordinate in two steps, which come in either order: it looks up the attribute
and finds where the pool has its values. The table makes one check of it, `Schema.locate`. Where the
place is found whenever that check ends well, the two steps come to the one
(`Except.Rel.attribute_place`, `Action.Yields.attribute_place` and their like).
-/

namespace NodeStore

/-- A storage strategy whose pools are tables. -/
class LawfulPool (P : Type) [Pool P] where
  /-- The pools that allocation and the operations make. -/
  Valid : P → Prop
  table : P → Table
  /-- A pool is made of its table. -/
  ext {p q : P} : Valid p → Valid q → table p = table q → p = q
  sound {p : P} : Valid p → (table p).Sound
  allocate {schema : Schema} {n : Nat} {layout : PoolLayout} : schema.WellFormed →
    PoolLayout.ofSchema schema n = .ok layout →
    Valid (Pool.allocate schema layout) ∧ table (Pool.allocate schema layout) = .blank schema n
  count {p : P} : Valid p → Pool.count p = (table p).count
  get {p : P} (c : Coord) (slot : Nat) : Valid p → Pool.get p c slot = (table p).get c slot
  getSlots {p : P} (c : Coord) : Valid p → Pool.getSlots p c = (table p).getSlots c
  listLength {p : P} (c : Coord) : Valid p → Pool.listLength p c = (table p).listLength c
  getList {p : P} (c : Coord) : Valid p → Pool.getList p c = (table p).getList c
  set {p : P} (c : Coord) (slot : Nat) (v : Value) : Valid p →
    Action.Yields (fun q t => Valid q ∧ table q = t) (Pool.set c slot v) p ((table p).set c slot v)
  setSlots {p : P} (c : Coord) (vs : List Value) : Valid p →
    Action.Yields (fun q t => Valid q ∧ table q = t) (Pool.setSlots c vs) p
      ((table p).setSlots c vs)
  append {p : P} (c : Coord) (v : Value) : Valid p →
    Action.Yields (fun q t => Valid q ∧ table q = t) (Pool.append c v) p ((table p).append c v)
  setList {p : P} (c : Coord) (vs : List Value) : Valid p →
    Action.Yields (fun q t => Valid q ∧ table q = t) (Pool.setList c vs) p ((table p).setList c vs)
  reset {p : P} : Valid p →
    Action.Yields (fun q t => Valid q ∧ table q = t) Pool.reset p (.ok (table p).reset)
  capture {p : P} : Valid p → ∃ image, Pool.capture p = .ok image ∧ image.Shows (table p)
  restore {p : P} (image : PoolImage) : Valid p →
    Action.Yields (fun q t => Valid q ∧ table q = t) (Pool.restore image) p
      ((table p).restore image)
  memory {p : P} : Valid p → Pool.memory p = (table p).memory

/-! ## The checks of an access -/

section

variable {σ α β γ : Type} {schema : Schema} {n : Nat} {c : Coord} {shape : Shape}
  {S : γ → Attribute → Prop}

/-- The attribute first, then the place. -/
theorem Except.Rel.attribute_place {R : α → β → Prop} {place : Except FrameError γ}
    {f : Attribute → γ → Except FrameError α} {g : Attribute → Except FrameError β}
    (h : Except.Rel S place (schema.locate n c shape))
    (hfg : ∀ q attr, S q attr → Except.Rel R (f attr q) (g attr)) :
    Except.Rel R (schema.attributeAt c.attr >>= fun attr => place >>= f attr)
      (schema.locate n c shape >>= g) := by
  cases hattr : schema.attributeAt c.attr with
  | error e =>
    rw [Schema.locate_of_attributeAt hattr]
    exact .error e
  | ok attr =>
    rcases h.ok_or_error with ⟨q, attr', hq, hl, hS⟩ | ⟨e, hq, hl⟩
    · obtain rfl := Except.ok.inj (hattr.symm.trans (Schema.attributeAt_of_locate hl))
      rw [hq, hl]
      exact hfg q attr hS
    · rw [hq, hl]
      exact .error e

/-- The place first, then the attribute. -/
theorem Except.Rel.place_attribute {R : α → β → Prop} {place : Except FrameError γ}
    {f : γ → Attribute → Except FrameError α} {g : Attribute → Except FrameError β}
    (h : Except.Rel S place (schema.locate n c shape))
    (hfg : ∀ q attr, S q attr → Except.Rel R (f q attr) (g attr)) :
    Except.Rel R (place >>= fun q => schema.attributeAt c.attr >>= f q)
      (schema.locate n c shape >>= g) := by
  rcases h.ok_or_error with ⟨q, attr, hq, hl, hS⟩ | ⟨e, hq, hl⟩
  · rw [hq, hl, Except.ok_bind, Except.ok_bind, Schema.attributeAt_of_locate hl]
    exact hfg q attr hS
  · rw [hq, hl]
    exact .error e

variable {R : σ → β → Prop} {s : σ} {lookup : σ → Except FrameError Attribute}
  {place : σ → Except FrameError γ} {x : Attribute → Action σ Unit}
  {y : Attribute → Except FrameError β}

theorem Action.Yields.attribute_place (h : Except.Rel S (place s) (schema.locate n c shape))
    (hlookup : lookup s = schema.attributeAt c.attr)
    (hxy : ∀ q attr, place s = .ok q → S q attr → Yields R (x attr) s (y attr)) :
    Yields R (read lookup >>= fun attr => read place >>= fun _ => x attr) s
      (schema.locate n c shape >>= y) := by
  cases hattr : schema.attributeAt c.attr with
  | error e =>
    -- the table, too, asks for the attribute before anything else
    rw [Schema.locate_of_attributeAt hattr]
    exact .refuse (hlookup.trans hattr)
  | ok attr =>
    refine .pass (hlookup.trans hattr) ?_
    rcases h.ok_or_error with ⟨q, attr', hq, hl, hS⟩ | ⟨e, hq, hl⟩
    · obtain rfl := Except.ok.inj (hattr.symm.trans (Schema.attributeAt_of_locate hl))
      rw [hl]
      exact .pass hq (hxy q attr hq hS)
    · rw [hl]
      exact .refuse hq

theorem Action.Yields.place_attribute (h : Except.Rel S (place s) (schema.locate n c shape))
    (hlookup : lookup s = schema.attributeAt c.attr)
    (hxy : ∀ q attr, place s = .ok q → S q attr → Yields R (x attr) s (y attr)) :
    Yields R (read place >>= fun _ => read lookup >>= x) s (schema.locate n c shape >>= y) := by
  rcases h.ok_or_error with ⟨q, attr, hq, hl, hS⟩ | ⟨e, hq, hl⟩
  · rw [hl]
    exact .pass hq (.pass (hlookup.trans (Schema.attributeAt_of_locate hl)) (hxy q attr hq hS))
  · rw [hl]
    exact .refuse hq

end

end NodeStore
