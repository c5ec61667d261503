import Speculation.Proofs.Double.Integers

/-!
# Integers as exact doubles

A finite double is determined by its sign and its magnitude: the magnitude grows with the exponent
field, and within one exponent field with the fraction (`magnitude_inj`). So the doubles whose value
is a given integer of at most 52 bits are few: the double nearest to that integer, and for zero also
the negative zero (`isIntegral_truncate_iff`). No other integer has the same nearest double
(`ofInt_inj`), however large it is.
-/

namespace Speculation

namespace Double

variable {x y : Double}

/-! ### A double from its fields -/

/-- The bits below the sign. -/
def unsigned (x : Double) : Nat := x.exponentField * 2 ^ 52 + x.fraction

theorem fraction_lt (x : Double) : x.fraction < 2 ^ 52 := Nat.mod_lt _ (by decide)

theorem exponentField_lt (x : Double) : x.exponentField < 2048 := Nat.mod_lt _ (by decide)

theorem eq_ofMagnitude (x : Double) : x = ofMagnitude x.negative x.unsigned := by
  have below : x.bits.toNat < 2 ^ 64 := x.bits.toNat_lt
  have same : (ofMagnitude x.negative x.unsigned).bits.toNat = x.bits.toNat := by
    rw [toNat_ofMagnitude]
    · simp only [Double.negative, decide_eq_true_eq, unsigned, exponentField, fraction]
      split <;> omega
    · have e := x.exponentField_lt
      have f := x.fraction_lt
      unfold unsigned
      omega
  have bits : x.bits = (ofMagnitude x.negative x.unsigned).bits := UInt64.toNat.inj same.symm
  exact congrArg Double.mk bits

/-- A double is its three fields. -/
theorem eq_of_fields (sign : x.negative = y.negative) (field : x.exponentField = y.exponentField)
    (fraction : x.fraction = y.fraction) : x = y := by
  rw [x.eq_ofMagnitude, y.eq_ofMagnitude, sign, unsigned, unsigned, field, fraction]

/-! ### The magnitude -/

theorem mantissa_lt (x : Double) : x.mantissa < 2 ^ 53 := by
  have := x.fraction_lt
  unfold mantissa
  split <;> omega

/-- A greater exponent field makes a greater magnitude, whatever the fractions are. -/
theorem magnitude_lt (less : x.exponentField < y.exponentField) : x.magnitude < y.magnitude := by
  have normal : y.exponentField ≠ 0 := by omega
  have lower : 2 ^ 52 ≤ y.mantissa := by
    rw [mantissa, if_neg normal]
    omega
  have least : 2 ^ (52 + y.scale) ≤ y.magnitude := by
    rw [Nat.pow_add]
    exact Nat.mul_le_mul_right _ lower
  refine Nat.lt_of_lt_of_le ?_ least
  by_cases subnormal : x.exponentField = 0
  · have small : x.magnitude = x.fraction := by simp [magnitude, mantissa, scale, subnormal]
    rw [small]
    exact Nat.lt_of_lt_of_le x.fraction_lt (Nat.pow_le_pow_right (by decide) (by omega))
  · have next : 53 + x.scale ≤ 52 + y.scale := by
      unfold scale
      omega
    calc x.magnitude < 2 ^ 53 * 2 ^ x.scale :=
          Nat.mul_lt_mul_of_pos_right x.mantissa_lt (Nat.two_pow_pos _)
      _ = 2 ^ (53 + x.scale) := (Nat.pow_add ..).symm
      _ ≤ 2 ^ (52 + y.scale) := Nat.pow_le_pow_right (by decide) next

/-- The magnitude tells exponent and fraction. -/
theorem magnitude_inj (same : x.magnitude = y.magnitude) :
    x.exponentField = y.exponentField ∧ x.fraction = y.fraction := by
  have field : x.exponentField = y.exponentField := by
    rcases Nat.lt_trichotomy x.exponentField y.exponentField with less | equal | greater
    · exact absurd same (Nat.ne_of_lt (magnitude_lt less))
    · exact equal
    · exact absurd same.symm (Nat.ne_of_lt (magnitude_lt greater))
  refine ⟨field, ?_⟩
  have mantissas : x.mantissa = y.mantissa := by
    rw [magnitude, magnitude, scale, scale, field] at same
    exact Nat.eq_of_mul_eq_mul_right (Nat.two_pow_pos _) same
  simp only [mantissa, field] at mantissas
  split at mantissas <;> omega

theorem eq_of_magnitude (sign : x.negative = y.negative) (same : x.magnitude = y.magnitude) :
    x = y :=
  eq_of_fields sign (magnitude_inj same).1 (magnitude_inj same).2

theorem magnitude_zero (negative : Bool) : (zero negative).magnitude = 0 := by
  cases negative <;> decide

theorem negative_zero (negative : Bool) : (zero negative).negative = negative :=
  negative_ofMagnitude (by decide)

theorem exponentField_zero (negative : Bool) : (zero negative).exponentField = 0 :=
  exponentField_ofMagnitude (by decide)

theorem ofInt_zero : ofInt 0 = zero false := rfl

/-! ### Doubles with an integer value -/

/-- The value of an integral double, in units of `2 ^ (-1074)`. -/
theorem scaled_of_isIntegral (integral : x.isIntegral = true) :
    x.scaled = x.truncate * 2 ^ unitScale := by
  have divides : x.magnitude % 2 ^ unitScale = 0 := by
    simp only [isIntegral, Bool.and_eq_true, beq_iff_eq] at integral
    exact integral.2
  have whole : (2 ^ unitScale : Int) ∣ x.magnitude := by
    have := Int.natCast_dvd_natCast.mpr (Nat.dvd_of_mod_eq_zero divides)
    rwa [Int.natCast_pow] at this
  rw [truncate]
  refine (Int.tdiv_mul_cancel ?_).symm
  rw [scaled]
  split
  · exact Int.dvd_neg.mpr whole
  · exact whole

/-- The magnitude and the sign of an integral double come from its integer part. -/
theorem magnitude_of_isIntegral (integral : x.isIntegral = true) :
    x.magnitude = x.truncate.natAbs * 2 ^ unitScale ∧
      (x.truncate ≠ 0 → x.negative = decide (x.truncate < 0)) := by
  have value := scaled_of_isIntegral integral
  have unit : (0 : Int) < 2 ^ unitScale := Int.pow_pos (by decide)
  have size : x.scaled.natAbs = x.magnitude := by
    rw [scaled]
    split <;> omega
  constructor
  · have two : (2 : Int).natAbs = 2 := rfl
    rw [← size, value, Int.natAbs_mul, Int.natAbs_pow, two]
  -- A number that truncates to zero may be a negative zero, whose sign the integer does not
  -- have.
  · intro nonzero
    rcases Int.lt_or_gt_of_ne nonzero with below | above
    · have : x.scaled < 0 := by
        rw [value]
        exact Int.mul_neg_of_neg_of_pos below unit
      rw [decide_eq_true below, ← Bool.not_eq_false]
      intro positive
      simp only [scaled, positive, Bool.false_eq_true, if_false] at this
      omega
    · have : 0 < x.scaled := by
        rw [value]
        exact Int.mul_pos above unit
      rw [decide_eq_false (by omega), ← Bool.not_eq_true]
      intro negative
      simp only [scaled, negative, if_true] at this
      omega

/-- Both zeros are integral. -/
theorem truncate_zero (negative : Bool) :
    (zero negative).isIntegral = true ∧ (zero negative).truncate = 0 := by
  cases negative <;> decide +kernel

/-- The doubles that are an integer of at most 52 bits: the one nearest to it, and for zero the
negative zero too. -/
theorem isIntegral_truncate_iff {i : Int} (small : i.natAbs < 2 ^ 52) :
    x.isIntegral = true ∧ x.truncate = i ↔ x = ofInt i ∨ i = 0 ∧ x = zero true := by
  constructor
  · rintro ⟨integral, rfl⟩
    obtain ⟨magnitude, sign⟩ := magnitude_of_isIntegral integral
    by_cases none : x.truncate = 0
    · -- the integer part does not tell the two zeros apart
      have zeros : x = zero x.negative := by
        refine eq_of_magnitude (negative_zero _).symm ?_
        simp only [magnitude, none, magnitude_zero, Int.natAbs_zero, Nat.zero_mul]
      rw [none, ofInt_zero]
      cases negative : x.negative with
      | false => exact .inl (negative ▸ zeros)
      | true => exact .inr ⟨rfl, negative ▸ zeros⟩
    · obtain ⟨-, sign', magnitude'⟩ :=
        @magnitude_ofRatio_one (decide (x.truncate < 0)) _ (by omega) small
      exact .inl (eq_of_magnitude ((sign none).trans sign'.symm) (magnitude.trans magnitude'.symm))
  · rintro (rfl | ⟨rfl, rfl⟩)
    · by_cases none : i = 0
      · rw [none, ofInt_zero]
        exact truncate_zero false
      · obtain ⟨integral, -, whole⟩ := truncate_ofInt none small
        exact ⟨integral, whole⟩
    · exact truncate_zero true

/-! ### Integers with the same double -/

theorem le_roundHalfEven (num den : Nat) : num / den ≤ roundHalfEven num den := by
  simp only [roundHalfEven]
  split <;> omega

/-- The double of a great integer has a great exponent, infinity included. -/
theorem le_exponentField_ofRatio {negative : Bool} {n : Nat} (large : 2 ^ 52 ≤ n) :
    1075 ≤ (ofRatio negative n 1).exponentField := by
  have positive : n ≠ 0 := by
    have : 0 < 2 ^ 52 := by decide
    omega
  have high : 52 ≤ n.log2 := (Nat.le_log2 positive).mpr large
  have above : unitScale ≤ n.log2 + 1022 := by
    unfold unitScale
    omega
  -- the significand keeps its leading bit
  have leading : 2 ^ 52 ≤ n / (1 * 2 ^ (n.log2 + 1022 - unitScale)) := by
    rw [Nat.one_mul, Nat.le_div_iff_mul_le (Nat.two_pow_pos _), ← Nat.pow_add]
    have shift : 52 + (n.log2 + 1022 - unitScale) = n.log2 := by
      unfold unitScale
      omega
    rw [shift]
    exact Nat.log2_self_le positive
  have rounded := Nat.le_trans leading (le_roundHalfEven ..)
  simp only [ofRatio, if_neg positive, biased_binade_one positive, if_pos above]
  split
  · rw [infinity, exponentField_ofMagnitude (by decide)]
    decide
  · rw [exponentField_ofMagnitude (by omega)]
    omega

theorem exponentField_ofInt {j : Int} (nonzero : j ≠ 0) : (ofInt j).exponentField ≠ 0 := by
  unfold ofInt
  by_cases small : j.natAbs < 2 ^ 52
  · rw [(magnitude_ofRatio_one (by omega) small).1]
    omega
  · have := @le_exponentField_ofRatio (decide (j < 0)) _ (Nat.le_of_not_lt small)
    omega

/-- An integer of at most 52 bits does not share its double with another integer. -/
theorem ofInt_inj {i j : Int} (small : i.natAbs < 2 ^ 52) : ofInt i = ofInt j ↔ i = j := by
  refine ⟨fun same => ?_, fun equal => by rw [equal]⟩
  by_cases within : j.natAbs < 2 ^ 52
  · have whole := (isIntegral_truncate_iff small).mpr (.inl same.symm)
    have whole' := (isIntegral_truncate_iff within).mpr (.inl (Eq.refl (ofInt j)))
    exact whole.2.symm.trans whole'.2
  · -- the exponent of `j` is out of the reach of `i`
    have far := @le_exponentField_ofRatio (decide (j < 0)) _ (Nat.le_of_not_lt within)
    rw [show ofRatio (decide (j < 0)) j.natAbs 1 = ofInt i from same.symm] at far
    by_cases none : i = 0
    · rw [none, ofInt_zero, exponentField_zero] at far
      omega
    · have low : i.natAbs.log2 < 52 := (Nat.log2_lt (by omega)).mpr small
      rw [ofInt, (magnitude_ofRatio_one (by omega) small).1] at far
      omega

/-- No integer has the negative zero as its double. -/
theorem ofInt_ne_zero (i : Int) : ofInt i ≠ zero true := by
  intro same
  by_cases none : i = 0
  · rw [none] at same
    exact absurd same (by decide)
  · refine exponentField_ofInt none ?_
    rw [same, exponentField_zero]

end Double

end Speculation
