import NodeStore.Layout
import NodeStore.Proofs.Schema

/-!
# Accepted layouts

What a layout that was accepted looks like: one entry per attribute, each of the attribute's type
and storage, with sizes below the limit. All that is refused are sizes beyond it
(`PoolLayout.ofSchema_error`).
-/

namespace NodeStore

theorem AttrLayout.ofAttribute_ok {schema : String} {n : Nat} {attr : Attribute} {l : AttrLayout} :
    ofAttribute schema n attr = .ok l ↔
      (attr.slotCount? = none ∧ l = ⟨attr.id, attr.name, attr.type, .list⟩) ∨
      ∃ slots, attr.slotCount? = some slots ∧ n * slots < sizeLimit ∧
        l = ⟨attr.id, attr.name, attr.type, .fixed slots (n * slots)⟩ := by
  unfold ofAttribute
  cases hs : attr.slotCount? with
  | none => simp [eq_comm]
  | some slots =>
    by_cases hlt : n * slots < sizeLimit
    · simp [hlt, eq_comm]
    · simp [hlt]

theorem PoolLayout.ofSchema_ok {schema : Schema} {n : Nat} {layout : PoolLayout} :
    ofSchema schema n = .ok layout ↔ layout.count = n ∧
      List.Forall₂ (fun attr l => AttrLayout.ofAttribute schema.name n attr = .ok l)
        schema.attributes layout.entries := by
  unfold ofSchema
  rw [Except.bind_ok]
  simp only [Except.mapM_ok]
  constructor
  · rintro ⟨entries, h, hl⟩
    cases hl
    exact ⟨rfl, h⟩
  · rintro ⟨rfl, h⟩
    exact ⟨layout.entries, h, rfl⟩

/-- The values of every fixed attribute in so many instances can be counted. -/
def Schema.Allocable (schema : Schema) (n : Nat) : Prop :=
  ∀ attr ∈ schema.attributes, attr.isList = false → n * attr.slots < sizeLimit

theorem AttrLayout.ofAttribute_error {schema : String} {n : Nat} {attr : Attribute} {e : FrameError}
    (h : ofAttribute schema n attr = .error e) :
    attr.isList = false ∧ ¬ n * attr.slots < sizeLimit ∧ ∃ fault, e = .invalidConfig fault := by
  unfold ofAttribute at h
  split at h
  · cases h
  · rename_i slots hslots
    obtain ⟨hfixed, rfl⟩ := Attribute.slotCount?_eq_some.1 hslots
    split at h
    · cases h
    · rename_i hlt
      cases h
      exact ⟨hfixed, hlt, _, rfl⟩

namespace PoolLayout

variable {schema : Schema} {n : Nat}

theorem ofSchema_error {e : FrameError} (h : ofSchema schema n = .error e) :
    ¬ schema.Allocable n ∧ ∃ fault, e = .invalidConfig fault := by
  have hattrs : schema.attributes.mapM (AttrLayout.ofAttribute schema.name n) = .error e := by
    unfold ofSchema at h
    cases hl : schema.attributes.mapM (AttrLayout.ofAttribute schema.name n) with
    | error e' =>
      rw [hl] at h
      cases h
      rfl
    | ok entries =>
      rw [hl] at h
      cases h
  obtain ⟨before, attr, after, heq, -, hattr⟩ := Except.mapM_eq_error.1 hattrs
  obtain ⟨hfixed, hlt, hfault⟩ := AttrLayout.ofAttribute_error hattr
  exact ⟨fun h => hlt (h attr (by simp [heq]) hfixed), hfault⟩

theorem allocable_of_ok {layout : PoolLayout} (h : ofSchema schema n = .ok layout) :
    schema.Allocable n := by
  intro attr hattr hfixed
  obtain ⟨i, hi⟩ := List.mem_iff_getElem?.1 hattr
  obtain ⟨l, -, hl⟩ := (ofSchema_ok.1 h).2.exists_right hi
  have hslots : attr.slotCount? = some attr.slots := Attribute.slotCount?_eq_some.2 ⟨hfixed, rfl⟩
  rcases AttrLayout.ofAttribute_ok.1 hl with ⟨hnone, -⟩ | ⟨slots, hsome, hlt, -⟩
  · rw [hslots] at hnone
    cases hnone
  · rw [hslots] at hsome
    cases hsome
    exact hlt

end PoolLayout

end NodeStore
