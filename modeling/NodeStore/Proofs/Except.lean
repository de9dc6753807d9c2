import NodeStore.Proofs.Pointwise

/-!
# Checks in sequence

What a chain of checks that ends well says of its links: `Except.bind_ok` for one after another,
`Except.forM_ok` and `Except.mapM_ok` for one per element of a list. A list of checks that fails
does so at the first element that fails (`Except.mapM_eq_error_first`). `Except.Rel` compares two
chains: both end well with related results or both fail with the same error.
-/

/-- The element is the first of the list with a property. -/
def List.First {α : Type} (l : List α) (p : α → Prop) (a : α) : Prop :=
  ∃ before after, l = before ++ a :: after ∧ (∀ b ∈ before, ¬ p b) ∧ p a

theorem List.find?_eq_some_iff_first {α : Type} {p : α → Bool} {l : List α} {a : α} :
    l.find? p = some a ↔ l.First (p · = true) a := by
  rw [List.find?_eq_some_iff_append]
  constructor
  · rintro ⟨ha, before, after, hl, hbefore⟩
    exact ⟨before, after, hl, by simpa using hbefore, ha⟩
  · rintro ⟨before, after, hl, hbefore, ha⟩
    exact ⟨ha, before, after, hl, by simpa using hbefore⟩

namespace NodeStore.Except

variable {ε α β γ δ : Type}

@[simp] theorem ok_bind (a : α) (f : α → Except ε β) : (Except.ok a >>= f) = f a := rfl

@[simp] theorem error_bind (e : ε) (f : α → Except ε β) :
    (Except.error e >>= f) = Except.error e := rfl

@[simp] theorem pure_eq_ok (a : α) : (pure a : Except ε α) = .ok a := rfl

@[simp] theorem throw_eq_error (e : ε) : (throw e : Except ε α) = .error e := rfl

@[simp] theorem map_ok (f : α → β) (a : α) : (Except.ok a : Except ε α).map f = .ok (f a) := rfl

@[simp] theorem map_error (f : α → β) (e : ε) :
    (Except.error e : Except ε α).map f = .error e := rfl

theorem bind_ok {x : Except ε α} {f : α → Except ε β} {b : β} :
    (x >>= f) = .ok b ↔ ∃ a, x = .ok a ∧ f a = .ok b := by
  cases x <;> simp

theorem bind_error {x : Except ε α} {f : α → Except ε β} {e : ε} :
    (x >>= f) = .error e ↔ x = .error e ∨ ∃ a, x = .ok a ∧ f a = .error e := by
  cases x <;> simp

theorem map_injective {f : α → β} (hf : ∀ a b, f a = f b → a = b) {x y : Except ε α}
    (h : x.map f = y.map f) : x = y := by
  cases x <;> cases y <;> simp_all
  exact hf _ _ h

theorem forM_ok {f : α → Except ε Unit} {l : List α} :
    l.forM f = .ok () ↔ ∀ a ∈ l, f a = .ok () := by
  induction l with
  | nil => simp [List.forM]
  | cons a l ih =>
    rw [show (a :: l).forM f = (f a >>= fun _ => l.forM f) from rfl, bind_ok, List.forall_mem_cons,
      ← ih]
    exact ⟨fun ⟨_, h, h'⟩ => ⟨h, h'⟩, fun ⟨h, h'⟩ => ⟨(), h, h'⟩⟩

theorem mapM_ok {f : α → Except ε β} {l : List α} {bs : List β} :
    l.mapM f = .ok bs ↔ List.Forall₂ (fun a b => f a = .ok b) l bs := by
  induction l generalizing bs with
  | nil => cases bs <;> simp
  | cons a l ih =>
    rw [List.mapM_cons, bind_ok, List.forall₂_cons_left_iff]
    constructor
    · rintro ⟨b, hb, h⟩
      obtain ⟨cs, hcs, h⟩ := bind_ok.1 h
      cases h
      exact ⟨b, cs, hb, ih.1 hcs, rfl⟩
    · rintro ⟨b, cs, hb, hcs, rfl⟩
      exact ⟨b, hb, by rw [ih.2 hcs]; rfl⟩

/-- A map that succeeds everywhere is a plain one. -/
theorem mapM_eq_map {f : α → Except ε β} {g : α → β} {l : List α}
    (h : ∀ a ∈ l, f a = .ok (g a)) : l.mapM f = .ok (l.map g) := by
  rw [mapM_ok, List.forall₂_map_right_iff, List.forall₂_same]
  exact h

/-- A map that succeeds everywhere, with results of some kind. -/
theorem exists_mapM {f : α → Except ε β} {R : α → β → Prop} {l : List α}
    (h : ∀ a ∈ l, ∃ b, f a = .ok b ∧ R a b) : ∃ bs, l.mapM f = .ok bs ∧ List.Forall₂ R l bs := by
  induction l with
  | nil => exact ⟨[], rfl, .nil⟩
  | cons a l ih =>
    obtain ⟨b, hb, hab⟩ := h a List.mem_cons_self
    obtain ⟨bs, hbs, hlbs⟩ := ih fun x hx => h x (List.mem_cons_of_mem _ hx)
    exact ⟨b :: bs, by rw [List.mapM_cons, hb, ok_bind, hbs]; rfl, .cons hab hlbs⟩

/-- A map fails with the error of the first element it fails on. -/
theorem mapM_eq_error {f : α → Except ε β} {l : List α} {e : ε} :
    l.mapM f = .error e ↔ ∃ before a after, l = before ++ a :: after ∧
      (∀ x ∈ before, ∃ b, f x = .ok b) ∧ f a = .error e := by
  induction l with
  | nil =>
    refine ⟨fun h => (by cases h), ?_⟩
    rintro ⟨before, a, after, h, -⟩
    cases before <;> cases h
  | cons x l ih =>
    rw [List.mapM_cons]
    cases hx : f x with
    | error e' =>
      rw [error_bind]
      constructor
      · rintro ⟨⟩
        exact ⟨[], x, l, rfl, by simp, hx⟩
      · rintro ⟨before, a, after, hl, hbefore, ha⟩
        cases before with
        | nil =>
          cases hl
          rw [hx] at ha
          cases ha
          rfl
        | cons y before =>
          cases hl
          obtain ⟨b, hb⟩ := hbefore x List.mem_cons_self
          rw [hx] at hb
          cases hb
    | ok b =>
      have hcons : (do let bs ← l.mapM f; pure (b :: bs)) = .error e ↔ l.mapM f = .error e := by
        cases l.mapM f <;> simp
      rw [ok_bind, hcons, ih]
      constructor
      · rintro ⟨before, a, after, rfl, hbefore, ha⟩
        exact ⟨x :: before, a, after, rfl, List.forall_mem_cons.2 ⟨⟨b, hx⟩, hbefore⟩, ha⟩
      · rintro ⟨before, a, after, hl, hbefore, ha⟩
        cases before with
        | nil =>
          cases hl
          rw [hx] at ha
          cases ha
        | cons y before =>
          cases hl
          exact ⟨before, a, after, rfl, (List.forall_mem_cons.1 hbefore).2, ha⟩

section
variable {f : α → Except ε β} {bad : α → Prop} {err : α → ε} {l : List α}
  (h : ∀ a, bad a ∧ f a = .error (err a) ∨ ¬ bad a ∧ ∃ b, f a = .ok b)
include h

/-- A map that fails on the elements with a property fails for the first of them. -/
theorem mapM_eq_error_first {e : ε} :
    l.mapM f = .error e ↔ ∃ a, l.First bad a ∧ e = err a := by
  have hgood (a : α) : (∃ b, f a = .ok b) ↔ ¬ bad a := by
    rcases h a with ⟨hbad, hf⟩ | ⟨hgood, hf⟩
    · simp [hbad, hf]
    · simp [hgood, hf]
  rw [mapM_eq_error]
  constructor
  · rintro ⟨before, a, after, hl, hbefore, ha⟩
    rcases h a with ⟨hbad, hf⟩ | ⟨-, b, hf⟩
    · exact ⟨a, ⟨before, after, hl, fun x hx => (hgood x).1 (hbefore x hx), hbad⟩,
        Except.error.inj (ha.symm.trans hf)⟩
    · cases ha.symm.trans hf
  · rintro ⟨a, ⟨before, after, hl, hbefore, hbad⟩, rfl⟩
    refine ⟨before, a, after, hl, fun x hx => (hgood x).2 (hbefore x hx), ?_⟩
    rcases h a with ⟨-, hf⟩ | ⟨hgood, -⟩
    · exact hf
    · exact absurd hbad hgood

theorem exists_mapM_first : (∃ bs, l.mapM f = .ok bs) ↔ ∀ a ∈ l, ¬ bad a := by
  constructor
  · rintro ⟨bs, hbs⟩ a ha hbad
    obtain ⟨i, hi⟩ := List.mem_iff_getElem?.1 ha
    obtain ⟨b, -, hb⟩ := (mapM_ok.1 hbs).exists_right hi
    rcases h a with ⟨-, hf⟩ | ⟨hgood, -⟩
    · cases hb.symm.trans hf
    · exact hgood hbad
  · intro hall
    obtain ⟨bs, hbs, -⟩ := exists_mapM (f := f) (R := fun _ _ => True) fun a ha =>
      have ⟨b, hb⟩ := (h a).elim (fun hbad => absurd hbad.1 (hall a ha)) (·.2)
      ⟨b, hb, trivial⟩
    exact ⟨bs, hbs⟩

end

/-- A fold along two lists that keeps an invariant of what it went through. -/
theorem exists_foldlM {f : β → α → Except ε β} {R : α → γ → Prop} (Inv : List γ → β → Prop)
    (step : ∀ a c M b, R a c → Inv M b → ∃ b', f b a = .ok b' ∧ Inv (M ++ [c]) b')
    {l : List α} {L M : List γ} (hL : List.Forall₂ R l L) {b : β} (hb : Inv M b) :
    ∃ b', l.foldlM f b = .ok b' ∧ Inv (M ++ L) b' := by
  induction hL generalizing M b with
  | nil => exact ⟨b, rfl, by simpa using hb⟩
  | cons hac _ ih =>
    obtain ⟨b₁, hb₁, hinv⟩ := step _ _ M b hac hb
    obtain ⟨b', hb', hinv'⟩ := ih hinv
    exact ⟨b', by rw [List.foldlM_cons, hb₁]; exact hb', by simpa using hinv'⟩

/-! ## Two outcomes compared -/

/-- Related results, or the same error. -/
inductive Rel (R : α → β → Prop) : Except ε α → Except ε β → Prop
  | ok {a : α} {b : β} : R a b → Rel R (.ok a) (.ok b)
  | error (e : ε) : Rel R (.error e) (.error e)

theorem Rel.of_eq {R : α → α → Prop} (h : ∀ a, R a a) {x y : Except ε α} (hxy : x = y) :
    Rel R x y := by
  subst hxy
  cases x with
  | ok a => exact .ok (h a)
  | error e => exact .error e

theorem Rel.ok_or_error {R : α → β → Prop} {x : Except ε α} {y : Except ε β} (h : Rel R x y) :
    (∃ a b, x = .ok a ∧ y = .ok b ∧ R a b) ∨ ∃ e, x = .error e ∧ y = .error e := by
  cases h with
  | ok hab => exact .inl ⟨_, _, rfl, rfl, hab⟩
  | error e => exact .inr ⟨e, rfl, rfl⟩

theorem Rel.bind {R : α → β → Prop} {S : γ → δ → Prop} {x : Except ε α} {y : Except ε β}
    {f : α → Except ε γ} {g : β → Except ε δ} (h : Rel R x y)
    (hfg : ∀ a b, R a b → Rel S (f a) (g b)) : Rel S (x >>= f) (y >>= g) := by
  cases h with
  | ok hab => exact hfg _ _ hab
  | error e => exact .error e

theorem Rel.imp {R S : α → β → Prop} {x : Except ε α} {y : Except ε β} (h : Rel R x y)
    (hRS : ∀ a b, R a b → S a b) : Rel S x y := by
  cases h with
  | ok hab => exact .ok (hRS _ _ hab)
  | error e => exact .error e

theorem Rel.map {R : α → β → Prop} {x : Except ε α} {y : Except ε β} (h : Rel R x y) (f : α → γ) :
    Rel (fun _ _ => True) (x.map f) y := by
  cases h with
  | ok _ => exact .ok trivial
  | error e => exact .error e

/-- Two chains that start with the same check. -/
theorem Rel.check {S : γ → δ → Prop} (x : Except ε α) {f : α → Except ε γ} {g : α → Except ε δ}
    (hfg : ∀ a, x = .ok a → Rel S (f a) (g a)) : Rel S (x >>= f) (x >>= g) := by
  cases x with
  | ok a => exact hfg a rfl
  | error e => exact .error e

theorem Rel.error_iff {R : α → β → Prop} {x : Except ε α} {y : Except ε β} (h : Rel R x y) {e : ε} :
    x = .error e ↔ y = .error e := by
  cases h <;> simp

theorem Rel.ok_iff {R : α → β → Prop} {x : Except ε α} {y : Except ε β} (h : Rel R x y) :
    (∃ a, x = .ok a) ↔ ∃ b, y = .ok b := by
  cases h <;> simp

theorem Rel.eq_map {f : α → β} {x : Except ε α} {y : Except ε β}
    (h : Rel (fun a b => b = f a) x y) : y = x.map f := by
  cases h with
  | ok hab => rw [hab, map_ok]
  | error e => rfl

theorem Rel.eq {x y : Except ε α} (h : Rel Eq x y) : x = y := by
  cases h with
  | ok hab => rw [hab]
  | error e => rfl

end NodeStore.Except
