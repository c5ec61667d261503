import Speculation.Heap.Create

/-!
# Small integers as doubles

The double nearest to a small integer is that integer, so making a number of it gives the integer
back (`smiOfNumber?_ofInt`). Its significand is the integer shifted up to 53 bits, and its magnitude
in units of `2 ^ (-1074)` is the integer shifted up by 1074 bits (`magnitude_ofRatio_one`).
-/

namespace Speculation

namespace Double

/-! ### Patterns -/

section Pattern

variable {negative : Bool} {m : Nat}

theorem toNat_ofMagnitude (small : m < 2 ^ 63) :
    (ofMagnitude negative m).bits.toNat = (if negative then 2 ^ 63 else 0) + m := by
  rw [ofMagnitude, UInt64.toNat_ofNat']
  refine Nat.mod_eq_of_lt ?_
  cases negative <;> simp <;> omega

theorem negative_ofMagnitude (small : m < 2 ^ 63) : (ofMagnitude negative m).negative = negative := by
  rw [Double.negative, toNat_ofMagnitude small]
  cases negative <;> simp
  omega

theorem exponentField_ofMagnitude (small : m < 2 ^ 63) :
    (ofMagnitude negative m).exponentField = m / 2 ^ 52 % 2048 := by
  rw [exponentField, toNat_ofMagnitude small]
  split <;> omega

theorem fraction_ofMagnitude (small : m < 2 ^ 63) :
    (ofMagnitude negative m).fraction = m % 2 ^ 52 := by
  rw [fraction, toNat_ofMagnitude small]
  split <;> omega

end Pattern

/-! ### Integers below `2 ^ 52` -/

section Integer

variable {negative : Bool} {n : Nat}

/-- The integer shifted up to 53 bits. -/
def significand (n : Nat) : Nat := n * 2 ^ (52 - n.log2)

theorem significand_bounds (positive : n ≠ 0) (small : n < 2 ^ 52) :
    2 ^ 52 ≤ significand n ∧ significand n < 2 ^ 53 := by
  have low : n.log2 < 52 := (Nat.log2_lt positive).mpr small
  have parts (k : Nat) : 2 ^ (n.log2 + k) * 2 ^ (52 - n.log2) = 2 ^ (52 + k) := by
    rw [← Nat.pow_add]
    congr 1
    omega
  constructor
  · rw [← parts 0]
    exact Nat.mul_le_mul_right _ (Nat.log2_self_le positive)
  · rw [show 2 ^ 53 = 2 ^ (n.log2 + 1) * 2 ^ (52 - n.log2) from (parts 1).symm]
    exact Nat.mul_lt_mul_of_pos_right Nat.lt_log2_self (Nat.two_pow_pos _)

/-- The binade of an integer is that of its leading bit. -/
theorem biased_binade_one (positive : n ≠ 0) : (binade n 1 + 1022).toNat = n.log2 + 1022 := by
  have fits := Nat.log2_self_le positive
  have one : Nat.log2 1 = 0 := by decide
  have exponent : binade n 1 = n.log2 := by simp [binade, one, fits]
  rw [exponent]
  rfl

/-- Nothing is rounded. -/
theorem ofRatio_one (positive : n ≠ 0) (small : n < 2 ^ 52) :
    ofRatio negative n 1 = ofMagnitude negative ((n.log2 + 1022) * 2 ^ 52 + significand n) := by
  have low : n.log2 < 52 := (Nat.log2_lt positive).mpr small
  have exact (k : Nat) : roundHalfEven k 1 = k := by simp [roundHalfEven, Nat.mod_one]
  have below : ¬ unitScale ≤ n.log2 + 1022 := by
    unfold unitScale
    omega
  have shift : unitScale - (n.log2 + 1022) = 52 - n.log2 := by
    unfold unitScale
    omega
  have bounds := significand_bounds positive small
  simp only [ofRatio, if_neg positive, biased_binade_one positive, if_neg below, shift, exact]
  change (if _ ≤ (n.log2 + 1022) * 2 ^ 52 + significand n then _ else _) = _
  rw [if_neg (by omega)]
  rfl

/-- A small natural number is represented exactly. -/
theorem magnitude_ofRatio_one (positive : n ≠ 0) (small : n < 2 ^ 52) :
    (ofRatio negative n 1).exponentField = n.log2 + 1023 ∧
      (ofRatio negative n 1).negative = negative ∧
      (ofRatio negative n 1).magnitude = n * 2 ^ unitScale := by
  have low : n.log2 < 52 := (Nat.log2_lt positive).mpr small
  obtain ⟨lower, upper⟩ := significand_bounds positive small
  have fits : (n.log2 + 1022) * 2 ^ 52 + significand n < 2 ^ 63 := by omega
  rw [ofRatio_one positive small]
  have field : (ofMagnitude negative ((n.log2 + 1022) * 2 ^ 52 + significand n)).exponentField =
      n.log2 + 1023 := by
    rw [exponentField_ofMagnitude fits]
    omega
  refine ⟨field, negative_ofMagnitude fits, ?_⟩
  have mantissa' : (ofMagnitude negative ((n.log2 + 1022) * 2 ^ 52 + significand n)).mantissa =
      significand n := by
    rw [mantissa, field, if_neg (by omega), fraction_ofMagnitude fits]
    omega
  have parts : 52 - n.log2 + (n.log2 + 1023 - 1) = unitScale := by
    unfold unitScale
    omega
  rw [magnitude, mantissa', scale, field, significand, Nat.mul_assoc, ← Nat.pow_add, parts]

end Integer

/-- An integer of at most 52 bits is kept exactly. -/
theorem truncate_ofInt {i : Int} (nonzero : i ≠ 0) (small : i.natAbs < 2 ^ 52) :
    (ofInt i).isIntegral = true ∧ (ofInt i).isZero = false ∧ (ofInt i).truncate = i := by
  have positive : i.natAbs ≠ 0 := by omega
  obtain ⟨field, sign, magnitude⟩ := @magnitude_ofRatio_one (decide (i < 0)) _ positive small
  have low : i.natAbs.log2 < 52 := (Nat.log2_lt positive).mpr small
  have unit : (2 ^ unitScale : Int) ≠ 0 := Int.ne_of_gt (Int.pow_pos (by decide))
  unfold ofInt
  refine ⟨?_, ?_, ?_⟩
  · rw [isIntegral, isFinite, field, magnitude, Nat.mul_mod_left]
    simp
    omega
  · simp [isZero, field]
  · rw [truncate, scaled, sign, magnitude, Int.natCast_mul, Int.natCast_pow]
    have power : ((2 : Nat) : Int) ^ unitScale = 2 ^ unitScale := rfl
    rw [power]
    by_cases below : i < 0
    · rw [if_pos (decide_eq_true below), Int.neg_tdiv, Int.mul_tdiv_cancel _ unit]
      omega
    · rw [if_neg (by simpa using below), Int.mul_tdiv_cancel _ unit]
      omega

end Double

theorem Value.bounds_of_fitsSmi {i : Int} (small : fitsSmi i = true) : -(2 ^ 30) ≤ i ∧ i < 2 ^ 30 := by
  obtain ⟨low, high⟩ := of_decide_eq_true small
  unfold smiMin at low
  unfold smiMax at high
  omega

/-- The number of a small integer is that integer. -/
theorem Heap.smiOfNumber?_ofInt {i : Int} (small : Value.fitsSmi i = true) :
    smiOfNumber? (Double.ofInt i) = some (.smi i) := by
  by_cases zero : i = 0
  · subst zero
    decide +kernel
  · have := Value.bounds_of_fitsSmi small
    have bits : i.natAbs < 2 ^ 52 := by omega
    obtain ⟨integral, nonzero, truncate⟩ := Double.truncate_ofInt zero bits
    simp [smiOfNumber?, integral, nonzero, truncate, Value.smi?, small]

end Speculation
