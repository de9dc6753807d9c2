import Mathlib.Algebra.Order.Field.Rat
import Mathlib.Tactic.FieldSimp
import Mathlib.Tactic.Linarith
import Mathlib.Tactic.Ring
import NodeStore.Ieee.Convert

/-!
# Numbers of bit patterns

`Format.decode?` says what number a bit pattern of a binary format stands for, by its sign bit, its
exponent field and its fraction. A value of the format stands for the number of its encoding
(`Ieee.decode?_toBits`), every pattern is that of a value as far as numbers go
(`Ieee.number?_ofBits`), and number and sign make the value (`Ieee.ext_number`).

Values that are equal as numbers are values of the same number (`Ieee.numEq_iff`).
-/

namespace NodeStore

/-- What a value stands for. -/
inductive Number where
  | rational (q : ℚ)
  | infinite (negative : Bool)

namespace Number

variable {f g : Format} {negative : Bool}

/-- A whole number of units of a format, with a sign. -/
def ofUnits (f : Format) (negative : Bool) (n : Nat) : Number :=
  rational ((if negative then -1 else 1) * n / 2 ^ f.depth)

/-- A value of the number can have this sign. -/
def HasSign : Number → Bool → Prop
  | rational q, negative => if negative then q ≤ 0 else 0 ≤ q
  | infinite sign, negative => sign = negative

/-- Only zero can have either sign. -/
theorem eq_zero {n : Number} {sign : Bool} (h : n.HasSign negative) (h' : n.HasSign sign)
    (hne : negative ≠ sign) : n = rational 0 := by
  cases n with
  | rational q =>
    refine congrArg rational ?_
    cases negative <;> cases sign
    · exact absurd rfl hne
    · exact le_antisymm h' h
    · exact le_antisymm h h'
    · exact absurd rfl hne
  | infinite actual => exact absurd (h.symm.trans h') hne

theorem ofUnits_eq_ofUnits {n m : Nat} :
    ofUnits f negative n = ofUnits g negative m ↔ n * 2 ^ g.depth = m * 2 ^ f.depth := by
  have hsign : (if negative then -1 else 1 : ℚ) ≠ 0 := by cases negative <;> simp
  have hf : (2 : ℚ) ^ f.depth ≠ 0 := pow_ne_zero _ two_ne_zero
  have hg : (2 : ℚ) ^ g.depth ≠ 0 := pow_ne_zero _ two_ne_zero
  rw [ofUnits, ofUnits, rational.injEq, div_eq_div_iff hf hg, mul_assoc, mul_assoc,
    mul_right_inj' hsign]
  norm_cast

theorem ofUnits_inj {n m : Nat} : ofUnits f negative n = ofUnits f negative m ↔ n = m := by
  rw [ofUnits_eq_ofUnits, Nat.mul_left_inj (Nat.two_pow_pos f.depth).ne']

theorem ofUnits_zero (f : Format) (negative : Bool) : ofUnits f negative 0 = rational 0 := by
  rw [ofUnits, Nat.cast_zero, mul_zero, zero_div]

theorem hasSign_ofUnits {sign : Bool} {n : Nat} :
    (ofUnits f negative n).HasSign sign ↔ sign = negative ∨ n = 0 := by
  have hscale : (0 : ℚ) < 2 ^ f.depth := pow_pos two_pos _
  have hnonneg : (0 : ℚ) ≤ n / 2 ^ f.depth := div_nonneg n.cast_nonneg hscale.le
  have hzero : (n : ℚ) / 2 ^ f.depth = 0 ↔ n = 0 := by
    rw [div_eq_zero_iff, or_iff_left hscale.ne', Nat.cast_eq_zero]
  have hle := hnonneg.ge_iff_eq'
  cases negative <;> cases sign <;> simp [ofUnits, HasSign, neg_div, hnonneg, hle, hzero]

/-- An integer is a whole number of units. -/
theorem ofUnits_natAbs {z : Int} (h : (rational z).HasSign negative) :
    ofUnits f negative (z.natAbs * 2 ^ f.depth) = rational z := by
  have hdepth : (2 : ℚ) ^ f.depth ≠ 0 := pow_ne_zero _ two_ne_zero
  have hsign : (if negative then -1 else 1 : ℚ) * z.natAbs = z := by
    cases negative with
    | false =>
      have hz : 0 ≤ z := Int.cast_nonneg_iff.1 h
      rw [if_neg Bool.false_ne_true, Nat.cast_natAbs, abs_of_nonneg hz, one_mul]
    | true =>
      have hz : z ≤ 0 := Int.cast_nonpos.1 h
      rw [if_pos rfl, Nat.cast_natAbs, abs_of_nonpos hz]
      push_cast
      ring
  rw [ofUnits, Nat.cast_mul, Nat.cast_pow, Nat.cast_ofNat, ← mul_assoc, hsign,
    mul_div_cancel_right₀ _ hdepth]

theorem hasSign_int (z : Int) : (rational z).HasSign (decide (z < 0)) := by
  by_cases hz : z < 0
  · simpa [HasSign, hz] using hz.le
  · simpa [HasSign, hz] using Int.not_lt.1 hz

end Number

namespace Format

/-- Bits of the fraction: the significant ones without the leading one. -/
def fractionBits (f : Format) : Nat := f.precision - 1

/-- Bits of the exponent field, which stands between the sign bit and the fraction. -/
def exponentBits (f : Format) : Nat := 8 * f.bytes - f.precision

/-- The exponent field of the number one. -/
def bias (f : Format) : Nat := 2 ^ (f.exponentBits - 1) - 1

/-! ## Fields -/

def fraction (f : Format) (bits : Nat) : Nat := bits % 2 ^ f.fractionBits

def exponent (f : Format) (bits : Nat) : Nat := bits / 2 ^ f.fractionBits % 2 ^ f.exponentBits

def negative (f : Format) (bits : Nat) : Bool := bits.testBit (8 * f.bytes - 1)

/-- The number that three fields stand for. The greatest exponent is for the infinities, and with a
fraction for what is no number; the least is for fractions without a leading one. -/
def fieldsNumber? (f : Format) (negative : Bool) (exponent fraction : Nat) : Option Number :=
  let sign : ℚ := if negative then -1 else 1
  let fractional : ℚ := fraction / 2 ^ f.fractionBits
  if exponent = 2 ^ f.exponentBits - 1 then
    if fraction = 0 then some (.infinite negative) else none
  else if exponent = 0 then
    some (.rational (sign * 2 ^ (1 - f.bias : ℤ) * fractional))
  else
    some (.rational (sign * 2 ^ (exponent - f.bias : ℤ) * (1 + fractional)))

/-- The number that a bit pattern stands for. -/
def decode? (f : Format) (bits : Nat) : Option Number :=
  f.fieldsNumber? (f.negative bits) (f.exponent bits) (f.fraction bits)

/-- The number is that of a bit pattern of the format. -/
def Represents (f : Format) (n : Number) : Prop :=
  ∃ bits < 2 ^ (8 * f.bytes), f.decode? bits = some n

theorem two_pow_fractionBits (f : Format) : 2 ^ f.fractionBits = f.lead := rfl

theorem exponent_lt (f : Format) (bits : Nat) : f.exponent bits < 2 ^ f.exponentBits :=
  Nat.mod_lt _ (Nat.two_pow_pos _)

/-- The exponent field of the infinities comes after those of the scales. -/
theorem maxScale_add_two (f : Format) : f.maxScale + 2 = 2 ^ f.exponentBits - 1 := by
  cases f <;> rfl

/-- Fields that were put together are read off again. -/
theorem decode?_fields (f : Format) (negative : Bool) {exponent fraction : Nat}
    (he : exponent ≤ f.maxScale + 2) (hf : fraction < f.lead) :
    f.decode? ((if negative then f.signBit else 0) + (exponent * f.lead + fraction)) =
      f.fieldsNumber? negative exponent fraction := by
  suffices h : f.fraction ((if negative then f.signBit else 0) + (exponent * f.lead + fraction)) =
      fraction ∧
      f.exponent ((if negative then f.signBit else 0) + (exponent * f.lead + fraction)) =
        exponent ∧
      f.negative ((if negative then f.signBit else 0) + (exponent * f.lead + fraction)) =
        negative by
    rw [decode?, h.1, h.2.1, h.2.2]
  simp only [Format.fraction, Format.exponent, Format.negative, Nat.testBit_eq_decide_div_mod_eq]
  cases f <;> cases negative <;>
    simp [exponentBits, fractionBits, lead, signBit, bytes, precision, maxScale] at he hf ⊢ <;>
    omega

/-- The fields are the parts that an encoding is taken to. -/
theorem parts_eq (f : Format) (bits : Nat) :
    bits % f.signBit / f.lead = f.exponent bits ∧ bits % f.signBit % f.lead = f.fraction bits ∧
    (bits / f.signBit % 2 == 1) = f.negative bits := by
  rw [Format.negative, Nat.testBit_eq_decide_div_mod_eq]
  refine ⟨?_, ?_, ?_⟩
  · cases f <;> simp [Format.exponent, exponentBits, fractionBits, lead, signBit, bytes, precision]
      <;> omega
  · cases f <;> simp [Format.fraction, fractionBits, lead, signBit, bytes, precision]
  · cases f <;> rfl

/-- The weight of the last place at an exponent, in units. -/
theorem two_zpow_bias (f : Format) (e : Nat) :
    (2 : ℚ) ^ ((e + 1 : ℕ) - f.bias : ℤ) / 2 ^ f.fractionBits = 2 ^ e / 2 ^ f.depth := by
  have hdepth : (f.depth : ℤ) = f.bias - 1 + f.fractionBits := by cases f <;> rfl
  rw [← zpow_natCast, ← zpow_natCast, ← zpow_natCast, ← zpow_sub₀ two_ne_zero,
    ← zpow_sub₀ two_ne_zero, hdepth]
  congr 1
  push_cast
  ring

/-- Fields below those of the infinities, in units. -/
theorem fieldsNumber?_finite (f : Format) (negative : Bool) {exponent : Nat} (fraction : Nat)
    (he : exponent ≤ f.maxScale + 1) :
    f.fieldsNumber? negative exponent fraction = some (.ofUnits f negative
      (if exponent = 0 then fraction else (f.lead + fraction) * 2 ^ (exponent - 1))) := by
  have hmax := f.maxScale_add_two
  have hlead : (f.lead : ℚ) = 2 ^ f.fractionBits := by
    rw [← two_pow_fractionBits, Nat.cast_pow, Nat.cast_ofNat]
  have hpos : (2 : ℚ) ^ f.fractionBits ≠ 0 := pow_ne_zero _ two_ne_zero
  rw [fieldsNumber?, if_neg (by omega), Number.ofUnits]
  cases exponent with
  | zero =>
    have hunit := f.two_zpow_bias 0
    rw [Nat.zero_add, Nat.cast_one, pow_zero] at hunit
    rw [if_pos rfl, if_pos rfl, mul_assoc, mul_div_left_comm, hunit]
    congr 2
    ring
  | succ e =>
    have hunit := f.two_zpow_bias e
    rw [if_neg (Nat.succ_ne_zero e), if_neg (Nat.succ_ne_zero e), Nat.add_sub_cancel]
    congr 2
    generalize (if negative then (-1 : ℚ) else 1) = sign
    push_cast at hunit ⊢
    calc sign * 2 ^ ((e : ℤ) + 1 - f.bias) * (1 + fraction / 2 ^ f.fractionBits)
        = sign * (2 ^ f.fractionBits + fraction) *
          (2 ^ ((e : ℤ) + 1 - f.bias) / 2 ^ f.fractionBits) := by field_simp
      _ = sign * ((f.lead + fraction) * 2 ^ e) / 2 ^ f.depth := by
        rw [hunit, hlead]
        ring

/-- The canonical scale is found again from the number of units. -/
theorem scaleFor_units {f : Format} {m s : Nat} (h : f.Canonical m s) :
    f.scaleFor (m * 2 ^ s) = s := by
  obtain ⟨hlt, -, hlead⟩ := h
  have hp := f.precision_pos
  rcases hlead with hlead | rfl
  · have hm : m ≠ 0 := by have := f.lead_pos; omega
    have hlog : (m * 2 ^ s).log2 = f.precision - 1 + s := by
      rw [Nat.log2_eq_iff (Nat.mul_ne_zero hm (Nat.ne_of_gt (Nat.two_pow_pos s)))]
      refine ⟨?_, ?_⟩
      · rw [Nat.pow_add]
        exact Nat.mul_le_mul_right _ hlead
      · rw [show f.precision - 1 + s + 1 = f.precision + s by omega, Nat.pow_add]
        exact Nat.mul_lt_mul_of_pos_right hlt (Nat.two_pow_pos s)
    unfold scaleFor
    omega
  · unfold scaleFor
    by_cases hm : m = 0
    · subst hm
      simp
      omega
    · have := (Nat.log2_lt hm).2 hlt
      simp only [Nat.pow_zero, Nat.mul_one]
      omega

theorem fieldsNumber?_infinite (f : Format) (negative : Bool) (fraction : Nat) :
    f.fieldsNumber? negative (f.maxScale + 2) fraction =
      if fraction = 0 then some (.infinite negative) else none := if_pos f.maxScale_add_two

end Format

namespace Ieee

variable {f g : Format} {x y : Ieee f}

/-- The number of a value. -/
def number? : Ieee f → Option Number
  | .nan => none
  | .infinite negative => some (.infinite negative)
  | .finite negative m s _ => some (.ofUnits f negative (m * 2 ^ s))

/-! ## Encoding -/

/-- A value stands for the number of its encoding. -/
theorem decode?_toBits (x : Ieee f) : f.decode? x.toBits = x.number? := by
  cases x with
  | nan =>
    have hquiet : f.lead / 2 < f.lead ∧ f.lead / 2 ≠ 0 := by cases f <;> decide
    have hdecode := f.decode?_fields false le_rfl hquiet.1
    rw [f.fieldsNumber?_infinite, if_neg hquiet.2] at hdecode
    exact hdecode
  | infinite negative =>
    have hdecode := f.decode?_fields negative le_rfl f.lead_pos
    rw [f.fieldsNumber?_infinite, if_pos rfl] at hdecode
    exact hdecode
  | finite negative m s h =>
    have hlt := h.1
    have hs := h.2.1
    have htwo := f.two_mul_lead
    change f.decode? ((if negative then f.signBit else 0) + (s * f.lead + m)) =
      some (.ofUnits f negative (m * 2 ^ s))
    by_cases hm : f.lead ≤ m
    · -- the leading bit goes into the exponent field
      have hbits : s * f.lead + m = (s + 1) * f.lead + (m - f.lead) := by
        rw [Nat.succ_mul]
        omega
      have hdecode := f.decode?_fields negative (show s + 1 ≤ f.maxScale + 2 by omega)
        (show m - f.lead < f.lead by omega)
      rw [hbits, hdecode, f.fieldsNumber?_finite negative _ (by omega), if_neg (Nat.succ_ne_zero s),
        Nat.add_sub_cancel, Nat.add_sub_cancel' hm]
    · have hs0 : s = 0 := h.2.2.resolve_left hm
      have hdecode := f.decode?_fields negative (Nat.zero_le _) (Nat.lt_of_not_le hm)
      rw [hs0, hdecode, f.fieldsNumber?_finite negative _ (Nat.zero_le _), if_pos rfl, Nat.pow_zero,
        Nat.mul_one]

/-- A bit pattern stands for the number of the value it encodes. -/
theorem number?_ofBits (f : Format) (bits : Nat) : (ofBits f bits).number? = f.decode? bits := by
  obtain ⟨hexponent, hfraction, hnegative⟩ := f.parts_eq bits
  have hmax := f.maxScale_add_two
  have hlt := f.exponent_lt bits
  unfold ofBits
  simp only [hexponent, hfraction, hnegative, Format.decode?]
  split
  · rename_i h0
    rw [h0, f.fieldsNumber?_finite _ _ (Nat.zero_le _), if_pos rfl]
    simp [number?]
  split
  · rename_i h0 hle
    rw [f.fieldsNumber?_finite _ _ hle, if_neg h0]
    rfl
  · rename_i h0 hle
    rw [show f.exponent bits = f.maxScale + 2 by omega, f.fieldsNumber?_infinite]
    split <;> rfl

theorem toBits_lt (x : Ieee f) : x.toBits < 2 ^ (8 * f.bytes) := by
  have hmagnitude : x.magnitudeBits < f.signBit := by
    cases x with
    | nan => cases f <;> decide
    | infinite negative => exact show (f.maxScale + 2) * f.lead < f.signBit by cases f <;> decide
    | finite negative m s h =>
      have hs := Nat.mul_le_mul_right f.lead h.2.1
      have hm := h.1
      have hsize : f.maxScale * f.lead + 2 ^ f.precision ≤ f.signBit := by cases f <;> decide
      change s * f.lead + m < f.signBit
      omega
  have hsign : 2 * f.signBit = 2 ^ (8 * f.bytes) := by cases f <;> rfl
  rw [toBits]
  split <;> omega

/-- The numbers that a format represents are those of its values. -/
theorem represents_iff {n : Number} : f.Represents n ↔ ∃ x : Ieee f, x.number? = some n := by
  constructor
  · rintro ⟨bits, -, hbits⟩
    exact ⟨ofBits f bits, (number?_ofBits f bits).trans hbits⟩
  · rintro ⟨x, hx⟩
    exact ⟨x.toBits, x.toBits_lt, x.decode?_toBits.trans hx⟩

/-! ## Number and sign -/

theorem hasSign {n : Number} (h : x.number? = some n) : n.HasSign x.isNegative := by
  cases x with
  | nan => cases h
  | infinite negative =>
    obtain rfl := Option.some.inj h
    rfl
  | finite negative m s _ =>
    obtain rfl := Option.some.inj h
    exact Number.hasSign_ofUnits.2 (.inl rfl)

theorem number?_eq_none : x.number? = none ↔ x = .nan := by cases x <;> simp [number?]

theorem number?_eq_infinite {negative : Bool} :
    x.number? = some (.infinite negative) ↔ x = .infinite negative := by
  cases x <;> simp [number?, Number.ofUnits]

theorem ofUnits?_units {f : Format} {negative : Bool} {m s : Nat} (h : f.Canonical m s) :
    ofUnits? f negative (m * 2 ^ s) = some (.finite negative m s h) := by
  have hs := Format.scaleFor_units h
  have hdiv : m * 2 ^ s / 2 ^ s = m := Nat.mul_div_cancel _ (Nat.two_pow_pos s)
  simp [ofUnits?, hs, hdiv, h.2.1]

/-- Exactly the value of that many units is found, if there is one. -/
theorem ofUnits?_eq_some {negative : Bool} {n : Nat} : ofUnits? f negative n = some x ↔
    x.number? = some (.ofUnits f negative n) ∧ x.isNegative = negative := by
  constructor
  · intro h
    simp only [ofUnits?] at h
    split at h
    · rename_i hexact
      obtain rfl := Option.some.inj h
      refine ⟨?_, rfl⟩
      rw [number?, Nat.div_mul_cancel (Nat.dvd_of_mod_eq_zero hexact.1)]
    · cases h
  · rintro ⟨hnumber, rfl⟩
    cases x with
    | nan => cases hnumber
    | infinite negative => cases hnumber
    | finite negative m s h =>
      obtain rfl := Number.ofUnits_inj.1 (Option.some.inj hnumber)
      exact ofUnits?_units h

/-- Number and sign make a value. -/
theorem ext_number (hnumber : x.number? = y.number?) (hsign : x.isNegative = y.isNegative) :
    x = y := by
  cases x with
  | nan => exact (number?_eq_none.1 hnumber.symm).symm
  | infinite negative => exact (number?_eq_infinite.1 hnumber.symm).symm
  | finite negative m s h =>
    have hy := ofUnits?_eq_some.2 ⟨hnumber.symm, hsign.symm⟩
    exact Option.some.inj ((ofUnits?_units h).symm.trans hy)

theorem units?_eq_zero : x.units? = some 0 ↔ x.number? = some (.rational 0) := by
  cases x with
  | nan => simp [units?, number?]
  | infinite negative => simp [units?, number?]
  | finite negative m s _ =>
    rw [units?, number?, Option.some.injEq, Option.some.injEq, ← Number.ofUnits_zero f negative,
      Number.ofUnits_inj]

/-- Numeric equality is that of numbers. -/
theorem numEq_iff : x.numEq y = true ↔ ∃ n, x.number? = some n ∧ y.number? = some n := by
  have hnan : x.isNaN = false ↔ ∃ n, x.number? = some n := by
    cases x <;> simp [isNaN, number?]
  simp only [numEq, Bool.and_eq_true, Bool.or_eq_true, Bool.not_eq_true', beq_iff_eq, hnan,
    units?_eq_zero]
  constructor
  · rintro ⟨⟨n, hn⟩, rfl | ⟨hx, hy⟩⟩
    · exact ⟨n, hn, hn⟩
    · exact ⟨_, hx, hy⟩
  · rintro ⟨n, hx, hy⟩
    refine ⟨⟨n, hx⟩, ?_⟩
    by_cases hsign : x.isNegative = y.isNegative
    · exact .inl (ext_number (hx.trans hy.symm) hsign)
    · have hzero := Number.eq_zero (hasSign hx) (hasSign hy) hsign
      exact .inr ⟨hzero ▸ hx, hzero ▸ hy⟩

/-- A number of the format is the number of a value with each sign that it can have. -/
theorem exists_of_hasSign {n : Number} {negative : Bool} (h : x.number? = some n)
    (hsign : n.HasSign negative) :
    ∃ y : Ieee f, y.number? = some n ∧ y.isNegative = negative := by
  cases x with
  | nan => cases h
  | infinite sign =>
    obtain rfl := Option.some.inj h
    exact ⟨.infinite sign, rfl, hsign⟩
  | finite sign m s hc =>
    obtain rfl := Option.some.inj h
    refine ⟨.finite negative m s hc, ?_, rfl⟩
    rcases Number.hasSign_ofUnits.1 hsign with rfl | hzero
    · rfl
    · rw [number?, hzero, Number.ofUnits_zero, Number.ofUnits_zero]

end Ieee

end NodeStore
