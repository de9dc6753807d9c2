import NodeStore.Proofs.Ieee.Rounding
import NodeStore.Value

/-!
# Values as numbers

Every value stands for a number with a sign, not-a-number apart. Conversion rounds and looks whether
the way back leads to where it came from; what comes of it is a relation between numbers
(`Value.convert?_eq_some`): the value of the wanted type with the same number and the same sign,
save that no floating-point value becomes an integer. So a value converts to its own type as itself
(`Value.convert?_self`).
-/

namespace NodeStore

/-- No integer type reaches the ends of the range that floating-point values are brought back to. -/
theorem IntKind.Holds.inside {k : IntKind} {z : Int} (h : k.Holds z) :
    Numeric.low < z ∧ z < Numeric.high := by
  obtain ⟨hlow, hhigh⟩ := h
  have hbounds : Numeric.low < k.low ∧ k.high < Numeric.high := by
    rcases k with ⟨_ | _, _ | _ | _ | _⟩ <;> decide
  omega

namespace Numeric

open Ieee

variable {f : Format} {y : Ieee f}

/-- An integer inside the range goes to the value of that number, if there is one. -/
theorem cast?_int_eq_some {z : Int} (hlow : low < z) (hhigh : z < high) :
    (int z).cast? (.float f) = some y ↔
      y.number? = some (.rational z) ∧ y.isNegative = decide (z < 0) := by
  constructor
  · intro h
    simp only [cast?] at h
    split at h
    · rename_i hback
      obtain rfl := Option.some.inj h
      exact ⟨(truncate_ofInt hlow hhigh).1 hback, isNegative_ofInt f z⟩
    · cases h
  · rintro ⟨hnumber, hsign⟩
    have hback := truncate_of_number hnumber hlow.le hhigh.le
    obtain rfl := ofInt_eq hnumber hsign
    exact if_pos hback

/-- A floating-point value goes to the value of the same number and sign, if there is one. -/
theorem cast?_float_eq_some {x : Ieee .double} : (float x).cast? (.float f) = some y ↔
    y.number? = x.number? ∧ y.isNegative = x.isNegative := by
  cases f with
  | double =>
    constructor
    · intro h
      obtain rfl := Option.some.inj h
      exact ⟨rfl, rfl⟩
    · rintro ⟨hnumber, hsign⟩
      exact congrArg some (ext_number hnumber.symm hsign.symm)
  | single =>
    cases hnumber : x.number? with
    | none =>
      obtain rfl := number?_eq_none.1 hnumber
      constructor
      · intro h
        obtain rfl := Option.some.inj h
        exact ⟨rfl, rfl⟩
      · rintro ⟨hy, -⟩
        exact congrArg some (number?_eq_none.1 hy).symm
    | some n =>
      have hnan : x.isNaN = false := by
        cases x with
        | nan => cases hnumber
        | _ => rfl
      simp only [cast?, hnan, Bool.false_eq_true, ↓reduceIte]
      constructor
      · intro h
        split at h
        · rename_i hback
          obtain rfl := Option.some.inj h
          obtain ⟨n', hy, hx⟩ := numEq_iff.1 hback
          exact ⟨(number?_widen _).symm.trans (hy.trans (hx.symm.trans hnumber)),
            isNegative_round x⟩
        · cases h
      · rintro ⟨hy, hsign⟩
        obtain rfl := round_eq (hy.trans hnumber.symm) hsign
        exact if_pos (numEq_iff.2 ⟨n, (number?_widen _).trans hy, hnumber⟩)

end Numeric

/-- Conversions of a floating-point value start from the value of the wide format that has its
number and sign. -/
theorem Scalar.exists_numeric {f : Format} (x : Ieee f) : ∃ y : Ieee .double,
    @numeric (.float f) x = .float y ∧ y.number? = x.number? ∧
      y.isNegative = x.isNegative := by
  cases f with
  | single => exact ⟨_, rfl, x.number?_widen, x.isNegative_round⟩
  | double => exact ⟨x, rfl, rfl, rfl⟩

namespace Value

variable {v w : Value} {ty : AttrType}

/-- The number of a value: for a floating-point value that of its bit pattern. -/
def number? : Value → Option Number
  | ⟨.int _, (x : BoundedInt _)⟩ => some (.rational x.val)
  | ⟨.float f, (x : Ieee f)⟩ => f.decode? x.toBits

/-- The number is negative or, in a floating-point type, the sign bit is set. -/
def isNegative : Value → Bool
  | ⟨.int _, (x : BoundedInt _)⟩ => decide (x.val < 0)
  | ⟨.float _, (x : Ieee _)⟩ => x.isNegative

theorem number?_float {f : Format} (x : Ieee f) : (float x).number? = x.number? := x.decode?_toBits

/-- Conversion keeps number and sign, and goes from floating-point types only to such types. -/
theorem cast?_eq_some {x : Scalar ty} : v.cast? ty = some x ↔
    number? ⟨ty, x⟩ = v.number? ∧ isNegative ⟨ty, x⟩ = v.isNegative ∧
      (ty.isFloat = false → v.type.isFloat = false) := by
  obtain ⟨k | f, y⟩ := v
  · obtain ⟨z, hz⟩ : BoundedInt k := y
    cases ty with
    | int j =>
      change (if h : j.Holds z then some (⟨z, h⟩ : BoundedInt j) else none) = some x ↔ _
      constructor
      · intro h
        split at h
        · obtain rfl := Option.some.inj h
          exact ⟨rfl, rfl, id⟩
        · cases h
      · rintro ⟨hnumber, -⟩
        obtain ⟨z', hz'⟩ : BoundedInt j := x
        obtain rfl := Int.cast_injective (Number.rational.inj (Option.some.inj hnumber))
        exact dif_pos hz'
    | float g =>
      have hcast := Numeric.cast?_int_eq_some (y := x) hz.inside.1 hz.inside.2
      refine hcast.trans (and_congr ?_ ⟨fun h => ⟨h, fun hty => by cases hty⟩, And.left⟩)
      rw [← number?_float x]
      rfl
  · obtain ⟨z, hz, hnumber, hsign⟩ := Scalar.exists_numeric y
    change (Scalar.numeric _).cast? ty = some x ↔ _
    rw [hz]
    cases ty with
    | int j =>
      constructor
      · intro h
        cases h
      · rintro ⟨-, -, h⟩
        cases h rfl
    | float g =>
      refine (Numeric.cast?_float_eq_some (y := x)).trans (and_congr ?_ ?_)
      · rw [hnumber, ← number?_float x, ← number?_float y]
        rfl
      · rw [hsign]
        exact ⟨fun h => ⟨h, fun hty => by cases hty⟩, And.left⟩

theorem convert?_eq_some : v.convert? ty = some w ↔
    w.type = ty ∧ w.number? = v.number? ∧ w.isNegative = v.isNegative ∧
      (ty.isFloat = false → v.type.isFloat = false) := by
  constructor
  · intro h
    obtain ⟨x, hx, rfl⟩ := Option.map_eq_some_iff.1 h
    exact ⟨rfl, cast?_eq_some.1 hx⟩
  · rintro ⟨rfl, h⟩
    exact Option.map_eq_some_iff.2 ⟨w.payload, cast?_eq_some.2 h, rfl⟩

@[simp] theorem cast?_self (v : Value) : v.cast? v.type = some v.payload :=
  cast?_eq_some.2 ⟨rfl, rfl, id⟩

@[simp] theorem convert?_self (v : Value) : v.convert? v.type = some v := by
  simp [convert?]

theorem mapM_convert?_self {vs : List Value} {ty : AttrType} (h : ∀ v ∈ vs, v.type = ty) :
    vs.mapM (fun v : Value => v.convert? ty) = some vs := by
  induction vs with
  | nil => rfl
  | cons v vs ih =>
    have hv : v.convert? ty = some v := by rw [← h v List.mem_cons_self, convert?_self]
    rw [List.mapM_cons, hv, ih fun w hw => h w (List.mem_cons_of_mem _ hw)]
    rfl

/-- A number in range is not changed to fit. -/
theorem int?_eq {k : IntKind} {z : Int} (h : k.Holds z) : int? k z = some (int k z) := by
  have hwrap : k.wrap z = z := by
    have hcount := k.low_add_two_pow
    obtain ⟨hlow, hhigh⟩ := h
    rw [IntKind.wrap, Int.emod_eq_of_lt (by omega) (by omega)]
    omega
  simp [int?, int, h, hwrap]

theorem type_convert? {v w : Value} {ty : AttrType} (h : v.convert? ty = some w) : w.type = ty := by
  obtain ⟨x, -, rfl⟩ := Option.map_eq_some_iff.1 h
  rfl

end Value

end NodeStore
