import NodeStore.Proofs.Ieee.Number

/-!
# Rounding there and back

A number that a format has is rounded to the value of that number (`Ieee.ofInt_eq`,
`Ieee.round_eq`). Whether a format has a number can be told by rounding it, for what comes back says
whether anything was lost:

* an integer of which the nearest value leads back to it is the number of that value, if it is
  inside the range (`Ieee.truncate_ofInt`);
* every value of the short format is one of the wide format (`Ieee.number?_widen`).
-/

namespace NodeStore

theorem roundHalfEven_mul (q : Nat) {d : Nat} (hd : 0 < d) : roundHalfEven (q * d) d = q := by
  rw [roundHalfEven, Nat.mul_mod_left, Nat.mul_div_cancel _ hd, if_pos (Or.inl hd)]

/-- Rounding a whole number at any binary place loses nothing that division does not show. -/
theorem eq_of_rounded_div_eq {n d s : Nat}
    (h : roundHalfEven (n * 2 ^ d) (2 ^ s) * 2 ^ s / 2 ^ d = n) :
    roundHalfEven (n * 2 ^ d) (2 ^ s) * 2 ^ s = n * 2 ^ d := by
  rcases Nat.le_total s d with hs | hs
  · -- nothing is rounded
    obtain ⟨k, rfl⟩ := Nat.exists_eq_add_of_le hs
    have hplace : n * 2 ^ (s + k) = n * 2 ^ k * 2 ^ s := by
      rw [Nat.pow_add, Nat.mul_comm (2 ^ s), Nat.mul_assoc]
    rw [hplace, roundHalfEven_mul _ (Nat.two_pow_pos s)]
  · -- what is rounded is whole
    have hdvd : 2 ^ d ∣ roundHalfEven (n * 2 ^ d) (2 ^ s) * 2 ^ s :=
      Dvd.dvd.mul_left (Nat.pow_dvd_pow 2 hs) _
    rw [← Nat.div_mul_cancel hdvd, h]

namespace Ieee

variable {f g : Format} {x : Ieee f} {z low high : Int}

theorem isNegative_roundUnits (f : Format) (negative : Bool) (n k : Nat) :
    (roundUnits f negative n k).isNegative = negative := by
  rw [roundUnits]
  cases h : ofUnits? f negative _ with
  | none => rfl
  | some x => exact (ofUnits?_eq_some.1 h).2

theorem isNegative_round (x : Ieee f) : (x.round g).isNegative = x.isNegative := by
  cases x with
  | nan => rfl
  | infinite negative => rfl
  | finite negative m s h => exact isNegative_roundUnits g _ _ _

theorem isNegative_ofInt (f : Format) (z : Int) : (ofInt f z).isNegative = decide (z < 0) :=
  isNegative_roundUnits f _ _ _

/-! ## Numbers of the format -/

theorem log2_mul_two_pow {n : Nat} (hn : n ≠ 0) (k : Nat) : (n * 2 ^ k).log2 = n.log2 + k := by
  rw [Nat.log2_eq_iff (Nat.mul_ne_zero hn (Nat.two_pow_pos k).ne'), Nat.pow_add,
    Nat.add_right_comm, Nat.pow_add]
  exact ⟨Nat.mul_le_mul_right _ (Nat.log2_self_le hn),
    Nat.mul_lt_mul_of_pos_right Nat.lt_log2_self (Nat.two_pow_pos k)⟩

/-- A value of the format is rounded to itself. -/
theorem roundUnits_of_exact {negative : Bool} {n : Nat} (k : Nat)
    (h : ofUnits? f negative n = some x) : roundUnits f negative (n * 2 ^ k) k = x := by
  have hscale : (n * 2 ^ k).log2 + 1 - (f.precision + k) = f.scaleFor n := by
    have hprecision := f.precision_pos
    unfold Format.scaleFor
    by_cases hn : n = 0
    · have hlog : Nat.log2 0 = 0 := rfl
      rw [hn, Nat.zero_mul]
      omega
    · rw [log2_mul_two_pow hn]
      omega
  have hdvd : n % 2 ^ f.scaleFor n = 0 := by
    by_contra hmod
    rw [ofUnits?, dif_neg (fun hexact => hmod hexact.1)] at h
    cases h
  have hpos : 0 < 2 ^ (f.scaleFor n + k) := Nat.two_pow_pos _
  have hn : n * 2 ^ k = n / 2 ^ f.scaleFor n * 2 ^ (f.scaleFor n + k) := by
    rw [Nat.pow_add, ← Nat.mul_assoc, Nat.div_mul_cancel (Nat.dvd_of_mod_eq_zero hdvd)]
  rw [roundUnits, hscale, hn, roundHalfEven_mul _ hpos,
    Nat.div_mul_cancel (Nat.dvd_of_mod_eq_zero hdvd), h, Option.getD_some]

theorem ofInt_eq (hnumber : x.number? = some (.rational z))
    (hsign : x.isNegative = decide (z < 0)) : ofInt f z = x := by
  have hunits := ofUnits?_eq_some.2
    ⟨hnumber.trans (congrArg some (Number.ofUnits_natAbs (Number.hasSign_int z)).symm), hsign⟩
  have hround := roundUnits_of_exact 0 hunits
  rwa [Nat.pow_zero, Nat.mul_one] at hround

theorem round_eq {y : Ieee g} (hnumber : y.number? = x.number?)
    (hsign : y.isNegative = x.isNegative) : x.round g = y := by
  cases x with
  | nan => exact (number?_eq_none.1 hnumber).symm
  | infinite negative => exact (number?_eq_infinite.1 hnumber).symm
  | finite negative m s _ =>
    cases y with
    | nan => cases hnumber
    | infinite sign => cases hnumber
    | finite sign n t h =>
      obtain rfl : sign = negative := hsign
      have hunits := Number.ofUnits_eq_ofUnits.1 (Option.some.inj hnumber)
      have hexact : ofUnits? g sign (n * 2 ^ t) = some _ := ofUnits?_units h
      have hround := roundUnits_of_exact f.depth hexact
      rwa [hunits] at hround

/-! ## Back to integers -/

theorem truncate_of_units {n : Nat} (h : x.number? = some (.ofUnits f x.isNegative n)) :
    x.truncate low high = max low (min high
      (if x.isNegative then -(n / 2 ^ f.depth : Nat) else (n / 2 ^ f.depth : Nat))) := by
  cases x with
  | nan => cases h
  | infinite negative => cases h
  | finite negative m s _ =>
    obtain rfl := Number.ofUnits_inj.1 (Option.some.inj h)
    rfl

theorem truncate_of_number (hnumber : x.number? = some (.rational z)) (hlow : low ≤ z)
    (hhigh : z ≤ high) : x.truncate low high = z := by
  have hsign := hasSign hnumber
  rw [truncate_of_units (hnumber.trans (congrArg some (Number.ofUnits_natAbs hsign).symm)),
    Nat.mul_div_cancel _ (Nat.two_pow_pos _)]
  cases hneg : x.isNegative with
  | true =>
    rw [hneg] at hsign
    have hz : z ≤ 0 := Int.cast_nonpos.1 hsign
    rw [if_pos rfl]
    omega
  | false =>
    rw [hneg] at hsign
    have hz : 0 ≤ z := Int.cast_nonneg_iff.1 hsign
    rw [if_neg Bool.false_ne_true]
    omega

/-- What leads back to an integer inside the range has the number of that integer. At the ends it
may be beyond the range. -/
theorem truncate_ofInt (hlow : low < z) (hhigh : z < high) :
    (ofInt f z).truncate low high = z ↔ (ofInt f z).number? = some (.rational z) := by
  refine ⟨fun h => ?_, fun h => truncate_of_number h hlow.le hhigh.le⟩
  simp only [ofInt, ofDyadic, roundUnits, Nat.add_zero] at h ⊢
  cases hunits : ofUnits? f (decide (z < 0)) _ with
  | none =>
    -- an infinite value leads back to an end of the range, where the integer is not
    rw [hunits, Option.getD_none] at h
    by_cases hz : z < 0
    · rw [decide_eq_true hz] at h
      exact absurd h hlow.ne
    · rw [decide_eq_false hz] at h
      exact absurd h hhigh.ne'
  | some y =>
    obtain ⟨hnumber, hsign⟩ := ofUnits?_eq_some.1 hunits
    rw [hunits, Option.getD_some, truncate_of_units (hsign ▸ hnumber), hsign] at h
    rw [Option.getD_some, hnumber, ← Number.ofUnits_natAbs (Number.hasSign_int z)]
    refine congrArg (fun n => some (Number.ofUnits f _ n)) (eq_of_rounded_div_eq ?_)
    simp only [decide_eq_true_eq] at h
    split at h <;> omega

/-! ## Widening -/

/-- The format has what `precision` bits can hold at one of its scales. -/
theorem exists_ofUnits (negative : Bool) {m t : Nat} (hm : m < 2 ^ f.precision)
    (ht : t ≤ f.maxScale) : ∃ x : Ieee f, x.number? = some (.ofUnits f negative (m * 2 ^ t)) ∧
      x.isNegative = negative := by
  have hscale : f.scaleFor (m * 2 ^ t) ≤ t := by
    unfold Format.scaleFor
    by_cases hzero : m = 0
    · have hlog : Nat.log2 0 = 0 := rfl
      rw [hzero, Nat.zero_mul]
      have := f.precision_pos
      omega
    · have hlog := (Nat.log2_lt hzero).2 hm
      rw [log2_mul_two_pow hzero]
      omega
  have hdvd : 2 ^ f.scaleFor (m * 2 ^ t) ∣ m * 2 ^ t :=
    Dvd.dvd.mul_left (Nat.pow_dvd_pow 2 hscale) m
  refine ⟨_, ofUnits?_eq_some.1 (dif_pos ⟨Nat.mod_eq_zero_of_dvd hdvd, hscale.trans ht⟩)⟩

/-- Widening keeps the number. -/
theorem number?_widen (x : Ieee .single) : (x.round .double).number? = x.number? := by
  obtain ⟨y, hnumber, hsign⟩ :
      ∃ y : Ieee .double, y.number? = x.number? ∧ y.isNegative = x.isNegative := by
    cases x with
    | nan => exact ⟨.nan, rfl, rfl⟩
    | infinite negative => exact ⟨.infinite negative, rfl, rfl⟩
    | finite negative m s h =>
      have hm : m < 2 ^ Format.double.precision :=
        h.1.trans (Nat.pow_lt_pow_right (by decide) (by decide))
      have hs : s + 925 ≤ Format.double.maxScale :=
        (Nat.add_le_add_right h.2.1 925).trans (by decide)
      obtain ⟨y, hy, hsign⟩ := exists_ofUnits negative hm hs
      refine ⟨y, hy.trans (congrArg some (Number.ofUnits_eq_ofUnits.2 ?_)), hsign⟩
      have hdepth : 925 + Format.single.depth = Format.double.depth := rfl
      rw [Nat.mul_assoc, Nat.mul_assoc, ← Nat.pow_add, ← Nat.pow_add, Nat.add_assoc, hdepth]
  rw [round_eq hnumber hsign, hnumber]

end Ieee

end NodeStore
