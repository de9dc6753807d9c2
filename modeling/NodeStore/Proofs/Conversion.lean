import NodeStore.Proofs.Value

/-!
# Conversion without loss

Conversion keeps number and sign (`Value.convert?_eq_some`). All else follows from that.

* A conversion succeeds exactly for the numbers that the wanted type has, although it is by rounding
  and looking at the way back that it is decided (`Value.convert?_iff_representable`).
* Two conversions in a row give nothing that one does not, and the way back leads to the first
  value (`Value.conversions_cohere`).
-/

namespace NodeStore

namespace Value

variable {v w : Value} {ty : AttrType}

/-- Not-a-number of either floating-point type. -/
def IsNaN (v : Value) : Prop := ∃ f : Format, v = float (.nan : Ieee f)

/-! ## Number and sign -/

theorem exists_number? (h : ¬ v.IsNaN) : ∃ n, v.number? = some n := by
  obtain ⟨k | f, x⟩ := v
  · exact ⟨_, rfl⟩
  · refine Option.ne_none_iff_exists'.1 fun hnone => h ⟨f, ?_⟩
    rw [← Ieee.number?_eq_none.1 ((number?_float x).symm.trans hnone)]
    rfl

theorem hasSign {n : Number} (h : v.number? = some n) : n.HasSign v.isNegative := by
  obtain ⟨k | f, x⟩ := v
  · obtain rfl := Option.some.inj h
    exact Number.hasSign_int _
  · exact Ieee.hasSign ((number?_float x).symm.trans h)

/-- A conversion is taken back by converting to the first type, unless this takes a floating-point
value to an integer. -/
theorem convert?_back (h : v.convert? ty = some w)
    (hkept : v.type.isFloat = false → ty.isFloat = false) : w.convert? v.type = some v := by
  obtain ⟨rfl, hnumber, hsign, -⟩ := convert?_eq_some.1 h
  exact convert?_eq_some.2 ⟨rfl, hnumber.symm, hsign.symm, hkept⟩

/-- No floating-point value becomes an integer. -/
theorem convert?_eq_none (hv : v.type.isFloat = true) (hty : ty.isFloat = false) :
    v.convert? ty = none := by
  refine Option.eq_none_iff_forall_ne_some.2 fun w hw => ?_
  have hfloat := (convert?_eq_some.1 hw).2.2.2 hty
  rw [hv] at hfloat
  cases hfloat

/-! ## What conversions accept -/

/-- An integer type takes the integers of its range. -/
theorem exists_convert?_int {k : IntKind} {n : Number} (h : v.number? = some n) :
    (∃ w, v.convert? (.int k) = some w) ↔
      ∃ (j : IntKind) (z : Int), v.type = .int j ∧ n = .rational z ∧ k.Holds z := by
  obtain ⟨j | f, x⟩ := v
  · obtain rfl := Option.some.inj h
    constructor
    · rintro ⟨⟨_, y⟩, hw⟩
      obtain ⟨rfl, hnumber, -, -⟩ := convert?_eq_some.1 hw
      exact ⟨j, _, rfl, (Option.some.inj hnumber).symm, BoundedInt.holds y⟩
    · rintro ⟨_, z, -, hz, hrange⟩
      obtain rfl := Int.cast_injective (Number.rational.inj hz)
      let y : BoundedInt k := ⟨_, hrange⟩
      exact ⟨⟨.int k, y⟩, convert?_eq_some.2 ⟨rfl, rfl, rfl, fun _ => rfl⟩⟩
  · refine ⟨?_, ?_⟩
    · rintro ⟨w, hw⟩
      rw [convert?_eq_none rfl rfl] at hw
      cases hw
    · rintro ⟨_, _, hj, -⟩
      cases hj

/-- A floating-point type takes the numbers that it represents. -/
theorem exists_convert?_float {f : Format} {n : Number} (h : v.number? = some n) :
    (∃ w, v.convert? (.float f) = some w) ↔ f.Represents n := by
  rw [Ieee.represents_iff]
  constructor
  · rintro ⟨⟨_, y⟩, hw⟩
    obtain ⟨rfl, hnumber, -, -⟩ := convert?_eq_some.1 hw
    exact ⟨y, (number?_float y).symm.trans (hnumber.trans h)⟩
  · rintro ⟨x, hx⟩
    obtain ⟨y, hy, hsign⟩ := Ieee.exists_of_hasSign hx (hasSign h)
    refine ⟨float y, convert?_eq_some.2 ⟨rfl, ?_, hsign, nofun⟩⟩
    exact (number?_float y).trans (hy.trans h.symm)

/-- Conversion accepts exactly the numbers that the wanted type has, and gives the value of that
number and sign. Not-a-number goes to both floating-point types, and no floating-point value to an
integer type. -/
theorem convert?_iff_representable (v : Value) (ty : AttrType) :
    (¬ v.IsNaN → ∃ n, v.number? = some n ∧
      ((∃ w, v.convert? ty = some w) ↔
        (∃ j k z, v.type = .int j ∧ ty = .int k ∧ n = .rational (z : Int) ∧ k.Holds z) ∨
        ∃ f, ty = .float f ∧ f.Represents n) ∧
      ∀ w, v.convert? ty = some w →
        w.type = ty ∧ w.number? = some n ∧ w.isNegative = v.isNegative) ∧
    (v.IsNaN → ∀ f : Format, v.convert? (.float f) = some (float (.nan : Ieee f))) ∧
    ∀ f k, v.type = .float f → v.convert? (.int k) = none := by
  refine ⟨fun hnan => ?_, ?_, fun f k hf => ?_⟩
  · obtain ⟨n, hn⟩ := exists_number? hnan
    refine ⟨n, hn, ?_, fun w hw => ?_⟩
    · cases ty with
      | int k =>
        rw [exists_convert?_int hn]
        constructor
        · rintro ⟨j, z, hj, hz, hrange⟩
          exact .inl ⟨j, k, z, hj, rfl, hz, hrange⟩
        · rintro (⟨j, _, z, hj, ⟨⟩, hz, hrange⟩ | ⟨_, ⟨⟩, _⟩)
          exact ⟨j, z, hj, hz, hrange⟩
      | float f =>
        rw [exists_convert?_float hn]
        constructor
        · exact fun hf => .inr ⟨f, rfl, hf⟩
        · rintro (⟨_, _, _, _, ⟨⟩, _⟩ | ⟨_, ⟨⟩, hf⟩)
          exact hf
    · obtain ⟨htype, hnumber, hsign, -⟩ := convert?_eq_some.1 hw
      exact ⟨htype, hnumber.trans hn, hsign⟩
  · rintro ⟨g, rfl⟩ f
    refine convert?_eq_some.2 ⟨rfl, ?_, rfl, fun hf => by cases hf⟩
    exact (number?_float (.nan : Ieee f)).trans (number?_float (.nan : Ieee g)).symm
  · exact convert?_eq_none (congrArg AttrType.isFloat hf) rfl

/-- A double-precision type has `2 ^ 53` but not the next integer, and the zero with the sign bit
keeps it in single precision. -/
theorem convert?_iff_representable_edges :
    (∃ w, (int ⟨false, .eight⟩ (2 ^ 53)).convert? .float64 = some w) ∧
    ¬ Format.double.Represents (.rational (2 ^ 53 + 1 : Int)) ∧
    ∃ w, (float (Ieee.ofBits .double (2 ^ 63))).convert? .float32 = some w ∧
      w.number? = (float (Ieee.ofBits .double (2 ^ 63))).number? ∧ w.isNegative = true := by
  refine ⟨Option.isSome_iff_exists.1 (by decide +kernel), fun hnext => ?_, ?_⟩
  · obtain ⟨n, hn, haccepts, -⟩ :=
      (convert?_iff_representable (int ⟨false, .eight⟩ (2 ^ 53 + 1)) .float64).1 (by rintro ⟨_, ⟨⟩⟩)
    obtain rfl := Option.some.inj hn
    obtain ⟨w, hw⟩ := haccepts.2 (.inr ⟨_, rfl, hnext⟩)
    have hnone : (int ⟨false, .eight⟩ (2 ^ 53 + 1)).convert? .float64 = none := by decide +kernel
    rw [hnone] at hw
    cases hw
  · obtain ⟨n, hn, -, hkeeps⟩ :=
      (convert?_iff_representable (float (Ieee.ofBits .double (2 ^ 63))) .float32).1
        (by rintro ⟨_ | _, h⟩ <;> cases h)
    have hzero : (float (Ieee.ofBits .double (2 ^ 63))).convert? .float32 =
        some (float (.finite true 0 0 (by decide) : Ieee .single)) := by decide +kernel
    obtain ⟨-, hnumber, hsign⟩ := hkeeps _ hzero
    exact ⟨_, hzero, hnumber.trans hn.symm, hsign⟩

/-- The double nearest to `2 ^ 63 - 1` is `2 ^ 63`, and it is this that is brought back. -/
example : (int ⟨true, .eight⟩ (2 ^ 63 - 1)).convert? .float64 = none := by decide +kernel

/-! ## Conversions in a row -/

/-- A value converts to its own type as itself. What a conversion gives converts to its type as
itself, to no other value than the first one does, and back to the first one, unless this takes a
floating-point value to an integer. -/
theorem conversions_cohere (v : Value) :
    v.convert? v.type = some v ∧
    ∀ t₁ w, v.convert? t₁ = some w →
      w.convert? t₁ = some w ∧
      (∀ t₂ u, w.convert? t₂ = some u → v.convert? t₂ = some u) ∧
      w.convert? v.type =
        if v.type.isFloat = false ∧ t₁.isFloat = true then none else some v := by
  refine ⟨v.convert?_self, fun t₁ w hw => ?_⟩
  obtain ⟨rfl, hnumber, hsign, hfloat⟩ := convert?_eq_some.1 hw
  refine ⟨w.convert?_self, fun t₂ u hu => ?_, ?_⟩
  · obtain ⟨htype, hnumber', hsign', hfloat'⟩ := convert?_eq_some.1 hu
    exact convert?_eq_some.2 ⟨htype, hnumber'.trans hnumber, hsign'.trans hsign,
      fun ht => hfloat (hfloat' ht)⟩
  · split
    · rename_i hlost
      exact convert?_eq_none hlost.2 hlost.1
    · rename_i hkept
      exact convert?_back hw fun hv => Bool.eq_false_iff.2 fun hfloat => hkept ⟨hv, hfloat⟩

/-- A float holds the integer `2 ^ 24` and passes it on to a double, but does not give it back. -/
theorem conversions_cohere_power :
    ∃ w, (int ⟨true, .four⟩ (2 ^ 24)).convert? .float32 = some w ∧
      (∀ u, w.convert? .float64 = some u →
        (int ⟨true, .four⟩ (2 ^ 24)).convert? .float64 = some u) ∧
      w.convert? .int32 = none := by
  have hw : (int ⟨true, .four⟩ (2 ^ 24)).convert? .float32 =
      some (float (.finite false (2 ^ 23) 150 (by decide) : Ieee .single)) := by decide +kernel
  obtain ⟨-, hvia, hback⟩ := (conversions_cohere (int ⟨true, .four⟩ (2 ^ 24))).2 _ _ hw
  exact ⟨_, hw, hvia _, hback⟩

end Value

end NodeStore
