import Speculation.Feedback.Binary
import Speculation.Proofs.Double.Exact

/-!
# Sums of integers

The exact value of a double is a numerator over a power of two, and rounding does not depend on how
far the fraction is reduced (`ofRatio_mul_two_pow`). So the sum of two doubles with an integer value
is the double nearest to the sum of the integers (`add_of_isIntegral`), and sums and differences of
small integers are 32-bit integers.
-/

namespace Speculation

namespace Double

/-! ### Scaling a fraction -/

/-- Rounding is a matter of the ratio. -/
theorem roundHalfEven_mul {c : Nat} (positive : 0 < c) (num den : Nat) :
    roundHalfEven (num * c) (den * c) = roundHalfEven num den := by
  have less : den * c < 2 * (num % den * c) ↔ den < 2 * (num % den) := by
    rw [← Nat.mul_assoc]
    exact Nat.mul_lt_mul_right positive
  have half : 2 * (num % den * c) = den * c ↔ 2 * (num % den) = den := by
    rw [← Nat.mul_assoc]
    exact Nat.mul_left_inj (Nat.ne_of_gt positive)
  simp only [roundHalfEven, Nat.mul_div_mul_right _ _ positive, Nat.mul_mod_mul_right, less, half]

theorem log2_mul_two_pow {n : Nat} (positive : n ≠ 0) (k : Nat) :
    (n * 2 ^ k).log2 = n.log2 + k := by
  induction k with
  | zero => simp
  | succ k ih =>
    have nonzero : n * 2 ^ k ≠ 0 := Nat.mul_ne_zero positive (Nat.ne_of_gt (Nat.two_pow_pos k))
    rw [Nat.pow_succ, ← Nat.mul_assoc, Nat.mul_comm, Nat.log2_two_mul nonzero, ih, Nat.add_assoc]

variable {num den : Nat}

/-- The binade is a matter of the ratio. -/
theorem binade_mul_two_pow (hn : num ≠ 0) (hd : den ≠ 0) (k : Nat) :
    binade (num * 2 ^ k) (den * 2 ^ k) = binade num den := by
  have exponent : ((num.log2 + k : Nat) : Int) - (den.log2 + k : Nat) = num.log2 - den.log2 := by
    omega
  have scale (a b e : Nat) : a * 2 ^ k * 2 ^ e ≤ b * 2 ^ k ↔ a * 2 ^ e ≤ b := by
    rw [Nat.mul_right_comm]
    exact Nat.mul_le_mul_right_iff (Nat.two_pow_pos k)
  have scale' (a b e : Nat) : a * 2 ^ k ≤ b * 2 ^ k * 2 ^ e ↔ a ≤ b * 2 ^ e := by
    rw [Nat.mul_right_comm b]
    exact Nat.mul_le_mul_right_iff (Nat.two_pow_pos k)
  simp only [binade, log2_mul_two_pow hn, log2_mul_two_pow hd, exponent, scale, scale']

/-- Rounding does not depend on how far a fraction is reduced. -/
theorem ofRatio_mul_two_pow (negative : Bool) (num : Nat) (hd : den ≠ 0) (k : Nat) :
    ofRatio negative (num * 2 ^ k) (den * 2 ^ k) = ofRatio negative num den := by
  have positive := Nat.two_pow_pos k
  by_cases hn : num = 0
  · simp [ofRatio, hn]
  · have hn' : num * 2 ^ k ≠ 0 := Nat.mul_ne_zero hn (Nat.ne_of_gt positive)
    simp only [ofRatio, if_neg hn, if_neg hn', binade_mul_two_pow hn hd,
      Nat.mul_right_comm _ (2 ^ k), roundHalfEven_mul positive]

/-- An integer in units of the last place is this integer. -/
theorem ofScaled_mul (i : Int) : ofScaled (i * 2 ^ unitScale) = ofInt i := by
  have unit : (0 : Int) < 2 ^ unitScale := Int.pow_pos (by decide)
  have sign : decide (i * 2 ^ unitScale < 0) = decide (i < 0) := by
    refine decide_eq_decide.2 ⟨fun h => ?_, fun h => Int.mul_neg_of_neg_of_pos h unit⟩
    exact Int.not_le.1 fun h' => Int.not_le.2 h (Int.mul_nonneg h' (Int.le_of_lt unit))
  have size : (i * 2 ^ unitScale).natAbs = i.natAbs * 2 ^ unitScale := by
    have two : (2 : Int).natAbs = 2 := rfl
    rw [Int.natAbs_mul, Int.natAbs_pow, two]
  have reduce := ofRatio_mul_two_pow (decide (i < 0)) i.natAbs Nat.one_ne_zero unitScale
  rw [Nat.one_mul] at reduce
  rw [ofScaled, sign, size, reduce, ofInt]

/-! ### Sums -/

variable {x y : Double}

theorem isNaN_of_isIntegral (integral : x.isIntegral = true) :
    x.isNaN = false ∧ x.isInfinite = false := by
  have finite : x.exponentField ≠ 2047 := by
    simp only [isIntegral, isFinite, Bool.and_eq_true, bne_iff_ne] at integral
    exact integral.1
  simp [isNaN, isInfinite, finite]

/-- The sum of two integers is rounded once. -/
theorem add_of_isIntegral (hx : x.isIntegral = true) (hy : y.isIntegral = true) :
    x.add y =
      if x.truncate + y.truncate = 0 then zero (x.negative && y.negative)
      else ofInt (x.truncate + y.truncate) := by
  have unit : (2 ^ unitScale : Int) ≠ 0 := Int.ne_of_gt (Int.pow_pos (by decide))
  have sum : x.scaled + y.scaled = (x.truncate + y.truncate) * 2 ^ unitScale := by
    rw [scaled_of_isIntegral hx, scaled_of_isIntegral hy, Int.add_mul]
  simp only [add, isNaN_of_isIntegral hx, isNaN_of_isIntegral hy, sum, ofScaled_mul,
    Int.mul_eq_zero, unit, or_false, Bool.or_false, Bool.false_eq_true, if_false]

/-! ### Negation -/

theorem fields_neg (number : x.isNaN = false) :
    x.neg.negative = !x.negative ∧ x.neg.exponentField = x.exponentField ∧
      x.neg.fraction = x.fraction := by
  have small : x.bits.toNat % 2 ^ 63 < 2 ^ 63 := Nat.mod_lt _ (Nat.two_pow_pos 63)
  rw [neg, number, if_neg Bool.false_ne_true]
  refine ⟨negative_ofMagnitude small, ?_, ?_⟩
  · rw [exponentField_ofMagnitude small, exponentField]
    omega
  · rw [fraction_ofMagnitude small, fraction]
    omega

/-- The negation of an integral double is integral. -/
theorem neg_of_isIntegral (hx : x.isIntegral = true) :
    x.neg.isIntegral = true ∧ x.neg.truncate = -x.truncate ∧ x.neg.negative = !x.negative := by
  obtain ⟨sign, field, fraction⟩ := fields_neg (isNaN_of_isIntegral hx).1
  have size : x.neg.magnitude = x.magnitude := by
    rw [magnitude, magnitude, mantissa, mantissa, scale, scale, field, fraction]
  refine ⟨by rwa [isIntegral, isFinite, field, size], ?_, sign⟩
  have scaled' : x.neg.scaled = -x.scaled := by
    rw [scaled, scaled, sign, size]
    cases x.negative <;> simp
  rw [truncate, truncate, scaled', Int.neg_tdiv]

/-! ### 32-bit integers -/

variable {i a b : Int}

/-- The number of an integer of at most 52 bits has its value and its sign. -/
theorem ofInt_spec (small : i.natAbs < 2 ^ 52) :
    (ofInt i).isIntegral = true ∧ (ofInt i).truncate = i ∧ (ofInt i).negative = decide (i < 0) := by
  obtain ⟨integral, whole⟩ := (isIntegral_truncate_iff small).mpr (.inl (Eq.refl (ofInt i)))
  refine ⟨integral, whole, ?_⟩
  by_cases none : i = 0
  · rw [none, ofInt_zero, negative_zero]
    rfl
  · exact (magnitude_ofRatio_one (by omega) small).2.1

/-- A signed word is one as a double. -/
theorem isInt32_ofInt (low : -(2 ^ 31) ≤ i) (high : i < 2 ^ 31) : (ofInt i).isInt32 = true := by
  obtain ⟨integral, whole, sign⟩ := ofInt_spec (i := i) (by omega)
  have zero : ((ofInt i).isZero && (ofInt i).negative) = false := by
    by_cases none : i = 0
    · rw [sign, none, decide_eq_false (by decide), Bool.and_false]
    · rw [(truncate_ofInt none (by omega)).2.1, Bool.false_and]
  rw [isInt32, integral, whole, zero, decide_eq_true ⟨low, high⟩]
  rfl

/-- A sum of integers that is no negative zero is a 32-bit integer, if its value is. -/
theorem isInt32_add (hx : x.isIntegral = true) (hy : y.isIntegral = true)
    (low : -(2 ^ 31) ≤ x.truncate + y.truncate) (high : x.truncate + y.truncate < 2 ^ 31)
    (sign : (x.negative && y.negative) = true → x.truncate + y.truncate ≠ 0) :
    (x.add y).isInt32 = true := by
  rw [add_of_isIntegral hx hy]
  split
  · rename_i none
    rw [Bool.eq_false_iff.2 fun negative => sign negative none, ← ofInt_zero]
    exact isInt32_ofInt (by decide) (by decide)
  · exact isInt32_ofInt low high

/-- Sums of small integers are signed words. -/
theorem isInt32_add_ofInt (ha : Value.fitsSmi a = true) (hb : Value.fitsSmi b = true) :
    ((ofInt a).add (ofInt b)).isInt32 = true := by
  have := Value.bounds_of_fitsSmi ha
  have := Value.bounds_of_fitsSmi hb
  obtain ⟨hx, va, sa⟩ := ofInt_spec (i := a) (by omega)
  obtain ⟨hy, vb, sb⟩ := ofInt_spec (i := b) (by omega)
  refine isInt32_add hx hy ?_ ?_ fun negative => ?_ <;> rw [va, vb]
  · omega
  · omega
  · simp only [sa, sb, Bool.and_eq_true, decide_eq_true_eq] at negative
    omega

/-- Differences of small integers are signed words. -/
theorem isInt32_sub_ofInt (ha : Value.fitsSmi a = true) (hb : Value.fitsSmi b = true) :
    ((ofInt a).sub (ofInt b)).isInt32 = true := by
  have := Value.bounds_of_fitsSmi ha
  have := Value.bounds_of_fitsSmi hb
  obtain ⟨hx, va, sa⟩ := ofInt_spec (i := a) (by omega)
  obtain ⟨hy, vb, sb⟩ := ofInt_spec (i := b) (by omega)
  obtain ⟨hn, vn, sn⟩ := neg_of_isIntegral hy
  refine isInt32_add hx hn ?_ ?_ fun negative => ?_ <;> rw [va, vn, vb]
  · omega
  · omega
  · simp only [sa, sn, sb, Bool.and_eq_true, Bool.not_eq_true', decide_eq_true_eq,
      decide_eq_false_iff_not] at negative
    omega

/-! ### Conversions to 32 bits -/

theorem toUint32_lt (x : Double) : x.toUint32 < 2 ^ 32 := by
  have residue : x.truncate.emod (2 ^ 32) = x.truncate % 2 ^ 32 := rfl
  rw [toUint32, residue]
  split <;> omega

theorem toInt32_bounds (x : Double) : -(2 ^ 31) ≤ x.toInt32 ∧ x.toInt32 < 2 ^ 31 := by
  have := x.toUint32_lt
  simp only [toInt32]
  split <;> omega

end Double

end Speculation
