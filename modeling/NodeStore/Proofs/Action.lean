import NodeStore.Action
import NodeStore.Proofs.Except

/-!
# Actions side by side

`Action.Respects R S x y`: from states related by `R`, the actions `x` and `y` end alike, with
answers related by `S` or with the same error, and leave states related by `R` either way.
`Action.Keeps Inv x`: the action `x` leaves a state with `Inv` if it finds one, however it ends. For
either there is one rule for each way to make an action.

`Action.Atomic x`: the action `x` leaves the state it finds if it fails. Looking first keeps an
action so (`Action.Atomic.read_bind`).

`Action.Yields R x s y`: from the state `s` the action `x` ends as the calculation `y` does, with a
state that is related by `R` to what `y` comes to, or with the error of `y` and the state `s`. What
changes a state in place is so compared with what makes a new one. `Action.update` is the action
that does the latter.

`Action.after` and `Action.answers` are the last state and the answers of a run in which every
operation is carried out, whatever became of those before. What every operation keeps a run keeps
(`Action.Keeps.after`), and operations that respect a relation answer alike all along
(`Action.Respects.answers`).
-/

namespace NodeStore.Action

variable {σ τ σ' τ' α β γ δ ι κ : Type}

/-! ## Runs -/

/-- The state after operations, carried out one after another whatever becomes of each. -/
def after (f : ι → Action σ α) (ops : List ι) (s : σ) : σ :=
  ops.foldl (fun s op => (f op s).state) s

/-- What the operations answer. -/
def answers (f : ι → Action σ α) : List ι → σ → List (Except FrameError α)
  | [], _ => []
  | op :: ops, s => (f op s).result :: answers f ops (f op s).state

/-- The operations that end well. -/
def succeeded (f : ι → Action σ α) : List ι → σ → List ι
  | [], _ => []
  | op :: ops, s =>
    match (f op s).result with
    | .ok _ => op :: succeeded f ops (f op s).state
    | .error _ => succeeded f ops (f op s).state

@[simp] theorem after_nil (f : ι → Action σ α) (s : σ) : after f [] s = s := rfl

@[simp] theorem after_cons (f : ι → Action σ α) (op : ι) (ops : List ι) (s : σ) :
    after f (op :: ops) s = after f ops (f op s).state := rfl

@[simp] theorem after_append (f : ι → Action σ α) (ops ops' : List ι) (s : σ) :
    after f (ops ++ ops') s = after f ops' (after f ops s) := List.foldl_append

/-- An action that ends well ends every part well. -/
theorem bind_ok {x : Action σ α} {f : α → Action σ β} {s : σ} {b : β} :
    ((x >>= f) s).result = .ok b ↔
      ∃ a, (x s).result = .ok a ∧ (f a (x s).state).result = .ok b := by
  rw [bind_apply]
  cases (x s).result <;> simp

/-- What is left when the first part ends well. -/
theorem bind_of_ok {x : Action σ α} {f : α → Action σ β} {s : σ} {a : α}
    (h : (x s).result = .ok a) :
    ((x >>= f) s).result = (f a (x s).state).result ∧
      ((x >>= f) s).state = (f a (x s).state).state := by
  rw [bind_apply, h]
  exact ⟨rfl, rfl⟩

/-- What is left when the first part fails. -/
theorem bind_of_error {x : Action σ α} {f : α → Action σ β} {s : σ} {e : FrameError}
    (h : (x s).result = .error e) :
    ((x >>= f) s).result = .error e ∧ ((x >>= f) s).state = (x s).state := by
  rw [bind_apply, h]
  exact ⟨rfl, rfl⟩

theorem read_bind_of_ok {f : σ → Except FrameError α} {g : α → Action σ β} {s : σ} {a : α}
    (hf : f s = .ok a) : (read f >>= g) s = g a s := by
  rw [bind_apply, read_apply, hf]
  rfl

theorem read_bind_of_error {f : σ → Except FrameError α} {g : α → Action σ β} {s : σ}
    {e : FrameError} (hf : f s = .error e) : (read f >>= g) s = ⟨.error e, s, []⟩ := by
  rw [bind_apply, read_apply, hf]

theorem read_bind_ok {f : σ → Except FrameError α} {g : α → Action σ β} {s : σ} {b : β} :
    ((read f >>= g) s).result = .ok b ↔ ∃ a, f s = .ok a ∧ (g a s).result = .ok b := bind_ok

/-- Answering something else changes no state. -/
theorem state_bind_pure (x : Action σ α) (b : β) (s : σ) :
    ((x >>= fun _ => pure b) s).state = (x s).state := by
  rw [bind_apply]
  cases (x s).result <;> rfl

theorem result_bind_pure (x : Action σ α) (b : β) (s : σ) :
    ((x >>= fun _ => pure b) s).result = (x s).result.map fun _ => b := by
  rw [bind_apply]
  cases (x s).result <;> rfl

/-- Changes the state, or fails and leaves it. -/
def update (f : σ → Except FrameError σ) : Action σ Unit := fun s =>
  match f s with
  | .ok s' => ⟨.ok (), s', []⟩
  | .error e => ⟨.error e, s, []⟩

theorem update_apply (f : σ → Except FrameError σ) (s : σ) :
    update f s = match f s with
      | .ok s' => ⟨.ok (), s', []⟩
      | .error e => ⟨.error e, s, []⟩ := rfl

/-! ## One action -/

/-- The action leaves what it finds of a property, however it ends. -/
def Keeps (Inv : σ → Prop) (x : Action σ α) : Prop := ∀ s, Inv s → Inv (x s).state

namespace Keeps

variable {Inv : σ → Prop} {Inv' : τ → Prop}

protected theorem pure (a : α) : Keeps Inv (pure a : Action σ α) := fun _ h => h

protected theorem get : Keeps Inv (get : Action σ σ) := fun _ h => h

protected theorem read (f : σ → Except FrameError α) : Keeps Inv (read f) := fun _ h => h

protected theorem emit (e : Event) : Keeps Inv (emit e : Action σ Unit) := fun _ h => h

protected theorem modify {f : σ → σ} (h : ∀ s, Inv s → Inv (f s)) : Keeps Inv (modify f) := h

protected theorem update {f : σ → Except FrameError σ}
    (h : ∀ s s', Inv s → f s = .ok s' → Inv s') : Keeps Inv (update f) := by
  intro s hs
  rw [update_apply]
  cases hf : f s with
  | ok s' => exact h s s' hs hf
  | error e => exact hs

/-- What is found on the way may be used of what comes after. -/
protected theorem bind' {x : Action σ α} {f : α → Action σ β} (hx : Keeps Inv x)
    (hf : ∀ s a, Inv s → (x s).result = .ok a → Keeps Inv (f a)) : Keeps Inv (x >>= f) := by
  intro s hs
  rw [bind_apply]
  cases hres : (x s).result with
  | ok a => exact hf s a hs hres _ (hx s hs)
  | error e => exact hx s hs

protected theorem bind {x : Action σ α} {f : α → Action σ β} (hx : Keeps Inv x)
    (hf : ∀ a, Keeps Inv (f a)) : Keeps Inv (x >>= f) :=
  .bind' hx fun _ a _ _ => hf a

protected theorem on {part : σ → τ} {put : τ → σ → σ} {x : Action τ α} (hx : Keeps Inv' x)
    (hpart : ∀ s, Inv s → Inv' (part s)) (hput : ∀ t s, Inv' t → Inv s → Inv (put t s)) :
    Keeps Inv (on part put x) :=
  fun s hs => hput _ s (hx _ (hpart s hs)) hs

protected theorem ite {p : Prop} [Decidable p] {x y : Action σ α} (hx : p → Keeps Inv x)
    (hy : ¬ p → Keeps Inv y) : Keeps Inv (if p then x else y) := by
  by_cases hp : p
  · rw [if_pos hp]
    exact hx hp
  · rw [if_neg hp]
    exact hy hp

protected theorem forM {f : ι → Action σ Unit} {l : List ι} (h : ∀ i ∈ l, Keeps Inv (f i)) :
    Keeps Inv (l.forM f) := by
  induction l with
  | nil => exact .pure ()
  | cons i l ih =>
    exact .bind (h i List.mem_cons_self) fun _ => ih fun j hj => h j (List.mem_cons_of_mem _ hj)

/-- What every operation of a run keeps, the run keeps. -/
theorem after {f : ι → Action σ α} {ops : List ι} (h : ∀ op ∈ ops, Keeps Inv (f op)) {s : σ}
    (hs : Inv s) : Inv (after f ops s) := by
  induction ops generalizing s with
  | nil => exact hs
  | cons op ops ih =>
    exact ih (fun op' hop => h op' (List.mem_cons_of_mem _ hop)) (h op List.mem_cons_self s hs)

end Keeps

/-! ## All or nothing -/

/-- The action leaves the state it finds, if it fails. -/
def Atomic (x : Action σ α) : Prop := ∀ s e, (x s).result = .error e → (x s).state = s

namespace Atomic

protected theorem modify (f : σ → σ) : Atomic (modify f) := by
  rintro s e ⟨⟩

/-- Looking first. -/
theorem read_bind {f : σ → Except FrameError α} {g : α → Action σ β} (hg : ∀ a, Atomic (g a)) :
    Atomic (read f >>= g) := by
  intro s e he
  rw [bind_apply, read_apply] at he ⊢
  cases hf : f s with
  | ok a =>
    rw [hf] at he
    exact hg a s e he
  | error e' => rfl

end Atomic

/-! ## Two actions -/

/-- From related states the actions end alike, and leave related states. -/
def Respects (R : σ → τ → Prop) (S : α → β → Prop) (x : Action σ α) (y : Action τ β) : Prop :=
  ∀ s t, R s t → Except.Rel S (x s).result (y t).result ∧ R (x s).state (y t).state

namespace Respects

variable {R : σ → τ → Prop} {R' : σ' → τ' → Prop} {S : α → β → Prop} {S' : γ → δ → Prop}

protected theorem pure {a : α} {b : β} (h : S a b) :
    Respects R S (pure a : Action σ α) (pure b : Action τ β) :=
  fun _ _ hR => ⟨.ok h, hR⟩

protected theorem bind {x : Action σ α} {y : Action τ β} {f : α → Action σ γ} {g : β → Action τ δ}
    (h : Respects R S x y) (hfg : ∀ a b, S a b → Respects R S' (f a) (g b)) :
    Respects R S' (x >>= f) (y >>= g) := by
  intro s t hR
  obtain ⟨hres, hst⟩ := h s t hR
  rw [bind_apply, bind_apply]
  revert hres
  generalize (x s).result = r
  generalize (y t).result = r'
  intro hres
  cases hres with
  | ok hab => exact hfg _ _ hab _ _ hst
  | error e => exact ⟨.error e, hst⟩

protected theorem fail (e : FrameError) :
    Respects R S (fail e : Action σ α) (fail e : Action τ β) :=
  fun _ _ hR => ⟨.error e, hR⟩

protected theorem get : Respects R R (get : Action σ σ) (get : Action τ τ) :=
  fun _ _ hR => ⟨.ok hR, hR⟩

protected theorem read {f : σ → Except FrameError α} {g : τ → Except FrameError β}
    (h : ∀ s t, R s t → Except.Rel S (f s) (g t)) : Respects R S (read f) (read g) :=
  fun s t hR => ⟨h s t hR, hR⟩

protected theorem modify {f : σ → σ} {g : τ → τ} (h : ∀ s t, R s t → R (f s) (g t)) :
    Respects R Eq (modify f) (modify g) :=
  fun s t hR => ⟨.ok rfl, h s t hR⟩

protected theorem emit (e e' : Event) : Respects R Eq (emit e) (emit e') :=
  fun _ _ hR => ⟨.ok rfl, hR⟩

protected theorem on {part : σ → σ'} {part' : τ → τ'} {put : σ' → σ → σ} {put' : τ' → τ → τ}
    {x : Action σ' α} {y : Action τ' β} (h : Respects R' S x y)
    (hpart : ∀ s t, R s t → R' (part s) (part' t))
    (hput : ∀ a b s t, R' a b → R s t → R (put a s) (put' b t)) :
    Respects R S (on part put x) (on part' put' y) := fun s t hR =>
  have hx := h _ _ (hpart s t hR)
  ⟨hx.1, hput _ _ s t hx.2 hR⟩

protected theorem within {x : Action σ' α} {y : Action τ' β} (h : Respects R' S x y) {a : σ'}
    {b : τ'} (hab : R' a b) : Respects R S (within a x : Action σ α) (within b y : Action τ β) :=
  fun _ _ hR => ⟨(h a b hab).1, hR⟩

protected theorem attempt {x : Action σ α} {y : Action τ β} (h : Respects R S x y) :
    Respects R (Except.Rel S) (attempt x) (attempt y) :=
  fun s t hR => ⟨.ok (h s t hR).1, (h s t hR).2⟩

protected theorem ite {p : Prop} [Decidable p] {x x' : Action σ α} {y y' : Action τ β}
    (h : p → Respects R S x y) (h' : ¬ p → Respects R S x' y') :
    Respects R S (if p then x else x') (if p then y else y') := by
  by_cases hp : p
  · rw [if_pos hp, if_pos hp]
    exact h hp
  · rw [if_neg hp, if_neg hp]
    exact h' hp

protected theorem forM {f : ι → Action σ Unit} {g : κ → Action τ Unit} {l : List ι} {m : List κ}
    (h : List.Forall₂ (fun i j => Respects R Eq (f i) (g j)) l m) :
    Respects R Eq (l.forM f) (m.forM g) := by
  induction h with
  | nil => exact .pure rfl
  | cons hij _ ih => exact .bind hij fun _ _ _ => ih

/-! ### Runs -/

section

variable {f : ι → Action σ α} {g : ι → Action τ β} {ops : List ι}

theorem answers (h : ∀ op ∈ ops, Respects R S (f op) (g op)) {s : σ} {t : τ} (hR : R s t) :
    List.Forall₂ (Except.Rel S) (answers f ops s) (answers g ops t) := by
  induction ops generalizing s t with
  | nil => exact .nil
  | cons op ops ih =>
    obtain ⟨hres, hst⟩ := h op List.mem_cons_self s t hR
    exact .cons hres (ih (fun op' hop => h op' (List.mem_cons_of_mem _ hop)) hst)

end

end Respects

/-! ## An action and a calculation -/

/-- The action ends with a state for what is calculated, or with the error of the calculation and
the state as it was. -/
inductive Yields (R : σ → β → Prop) (x : Action σ Unit) (s : σ) : Except FrameError β → Prop
  | done (b : β) (hresult : (x s).result = .ok ()) (hstate : R (x s).state b) : Yields R x s (.ok b)
  | refused (e : FrameError) (hresult : (x s).result = .error e) (hstate : (x s).state = s) :
    Yields R x s (.error e)

namespace Yields

variable {R : σ → β → Prop} {x : Action σ Unit} {s : σ} {y : Except FrameError β}

protected theorem modify {f : σ → σ} {b : β} (h : R (f s) b) : Yields R (modify f) s (.ok b) :=
  .done b rfl h

/-- A check that ends well is passed over. -/
theorem pass {f : σ → Except FrameError α} {g : α → Action σ Unit} {a : α} (hf : f s = .ok a)
    (h : Yields R (g a) s y) : Yields R (read f >>= g) s y := by
  have hrun := read_bind_of_ok (g := g) hf
  cases h with
  | done b hresult hstate => exact .done b (hrun ▸ hresult) (hrun ▸ hstate)
  | refused e hresult hstate => exact .refused e (hrun ▸ hresult) (hrun ▸ hstate)

theorem refuse {f : σ → Except FrameError α} {g : α → Action σ Unit} {e : FrameError}
    (hf : f s = .error e) : Yields R (read f >>= g) s (.error e) := by
  have hrun := read_bind_of_error (g := g) hf
  exact .refused e (by rw [hrun]) (by rw [hrun])

/-- A check that both make. -/
theorem check {f : σ → Except FrameError α} {g : α → Action σ Unit} {k : α → Except FrameError β}
    (h : ∀ a, f s = .ok a → Yields R (g a) s (k a)) : Yields R (read f >>= g) s (f s >>= k) := by
  cases hf : f s with
  | ok a => exact pass hf (h a hf)
  | error e => exact refuse hf

theorem state_of_error (h : Yields R x s y) {e : FrameError} (he : (x s).result = .error e) :
    (x s).state = s := by
  cases h with
  | done _ hresult => cases hresult.symm.trans he
  | refused _ _ hstate => exact hstate

end Yields

/-- Related states give related outcomes. -/
theorem Respects.of_yields {x : Action σ Unit} {R : σ → τ → Prop} {f : τ → Except FrameError τ}
    (h : ∀ s t, R s t → Yields R x s (f t)) : Respects R Eq x (update f) := by
  intro s t hR
  have hyields := h s t hR
  rw [update_apply]
  revert hyields
  generalize f t = y
  intro hyields
  cases hyields with
  | done t' hresult hstate =>
    rw [hresult]
    exact ⟨.ok rfl, hstate⟩
  | refused e hresult hstate =>
    rw [hresult, hstate]
    exact ⟨.error e, hR⟩

end NodeStore.Action
