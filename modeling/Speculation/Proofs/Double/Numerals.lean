import Mathlib
import Speculation.Double.Text
import Speculation.Proofs.Double.Exact

/-!
# Integers as text

The text of a double whose value is an integer of less than 22 digits is the numeral of that integer
put into the range of signed 64-bit integers (`IsInteger.toText`). Within that range it is the numeral
of the integer itself, and no two integers share it. From `2 ^ 63` on all integers have the text of
`2 ^ 63 - 1`, and below `-2 ^ 63` they have the text of `-2 ^ 63` (`IsInteger.toText_inj_iff`).
-/

namespace Speculation

namespace Double

variable {x y : Double} {m n : Int}

/-! ### Doubles whose value is an integer -/

/-- The value of a finite double is the integer `n`. -/
def IsInteger (x : Double) (n : Int) : Prop := x.isFinite ∧ x.scaled = n * 2 ^ unitScale

instance (x : Double) (n : Int) : Decidable (x.IsInteger n) := inferInstanceAs (Decidable (_ ∧ _))

theorem natAbs_scaled (x : Double) : x.scaled.natAbs = x.magnitude := by
  rw [scaled]
  split <;> simp

/-- The magnitude of an integer is exact. -/
theorem IsInteger.magnitude (is : x.IsInteger n) : x.magnitude = n.natAbs * 2 ^ unitScale := by
  have two : (2 : Int).natAbs = 2 := rfl
  rw [← natAbs_scaled, is.2, Int.natAbs_mul, Int.natAbs_pow, two]

theorem IsInteger.isIntegral (is : x.IsInteger n) : x.isIntegral = true := by
  rw [Double.isIntegral, is.1, is.magnitude, Nat.mul_mod_left]
  rfl

/-- Truncation gives the integer back. -/
theorem IsInteger.truncate (is : x.IsInteger n) : x.truncate = n := by
  rw [Double.truncate, is.2, Int.mul_tdiv_cancel]
  exact Int.ne_of_gt (Int.pow_pos (by decide))

/-- An integer other than zero is the value of at most one double. -/
theorem IsInteger.unique (hx : x.IsInteger n) (hy : y.IsInteger n) (nonzero : n ≠ 0) : x = y := by
  have sign {z : Double} (hz : z.IsInteger n) : z.negative = decide (n < 0) := by
    have := (magnitude_of_isIntegral hz.isIntegral).2
    rw [hz.truncate] at this
    exact this nonzero
  exact eq_of_magnitude ((sign hx).trans (sign hy).symm) (hx.magnitude.trans hy.magnitude.symm)

/-- Integers other than zero have one double each. -/
theorem IsInteger.eq_iff (hx : x.IsInteger m) (hy : y.IsInteger n) (nonzero : m ≠ 0) :
    x = y ↔ m = n := by
  refine ⟨fun same => ?_, fun same => hx.unique (same ▸ hy) nonzero⟩
  rw [← hx.truncate, ← hy.truncate, same]

/-- A small integer is represented exactly. -/
theorem isInteger_ofInt (small : n.natAbs < 2 ^ 52) : (ofInt n).IsInteger n := by
  obtain ⟨integral, whole⟩ := (isIntegral_truncate_iff small).mpr (.inl (Eq.refl (ofInt n)))
  have value := scaled_of_isIntegral integral
  rw [whole] at value
  rw [Double.isIntegral, Bool.and_eq_true] at integral
  exact ⟨integral.1, value⟩

/-! ### Their text -/

/-- The nearest integer that 64 bits with a sign can hold. -/
def saturate (n : Int) : Int := max int64Min (min int64Max n)

/-- An integer is kept if it fits a signed word of 64 bits. -/
theorem saturate_eq_iff : saturate n = n ↔ -(2 ^ 63) ≤ n ∧ n < 2 ^ 63 := by
  unfold saturate int64Min int64Max
  omega

/-- Both integers lie at or above the greatest, or both at or below the least. -/
def SaturateAlike (m n : Int) : Prop := int64Max ≤ m ∧ int64Max ≤ n ∨ m ≤ int64Min ∧ n ≤ int64Min

instance (m n : Int) : Decidable (SaturateAlike m n) := inferInstanceAs (Decidable (_ ∨ _))

theorem SaturateAlike.left (alike : SaturateAlike m n) : int64Max ≤ m ∨ m ≤ int64Min :=
  alike.imp And.left And.left

theorem SaturateAlike.right (alike : SaturateAlike m n) : int64Max ≤ n ∨ n ≤ int64Min :=
  alike.imp And.right And.right

/-- Saturation merges exactly the integers beyond one end. -/
theorem saturate_inj_iff : saturate m = saturate n ↔ m = n ∨ SaturateAlike m n := by
  unfold saturate SaturateAlike int64Min int64Max
  omega

/-- An integer of less than 22 digits is written through a signed 64-bit integer. -/
theorem IsInteger.toText (is : x.IsInteger n) (small : n.natAbs < 10 ^ 21) :
    x.toText = toString (saturate n) := by
  have finite : x.exponentField ≠ 2047 := by simpa [isFinite] using is.1
  have number : x.isNaN = false := by simp [isNaN, finite]
  have bounded : x.isInfinite = false := by simp [isInfinite, finite]
  have below : x.magnitude < integerTextBound * 2 ^ unitScale := by
    rw [is.magnitude]
    exact Nat.mul_lt_mul_of_pos_right small (Nat.two_pow_pos _)
  by_cases zero : x.isZero
  · have fields : x.exponentField = 0 ∧ x.fraction = 0 := by simpa [Double.isZero] using zero
    have nothing : n.natAbs * 2 ^ unitScale = 0 := by
      rw [← is.magnitude, Double.magnitude, mantissa, if_pos fields.1, fields.2, Nat.zero_mul]
    have none : n = 0 := by simpa using nothing
    simp [Double.toText, number, bounded, zero, none]
    rfl
  · simp [Double.toText, number, bounded, zero, is.isIntegral, below, clampTo, is.truncate, saturate]

theorem toString_int_inj : toString m = toString n ↔ m = n := Int.repr_inj

/-- The text of an integer is its numeral exactly if it fits 64 bits. -/
theorem IsInteger.toText_eq_iff (is : x.IsInteger n) (small : n.natAbs < 10 ^ 21) :
    x.toText = toString n ↔ -(2 ^ 63) ≤ n ∧ n < 2 ^ 63 := by
  rw [is.toText small, toString_int_inj, saturate_eq_iff]

/-- Two integers share their text if they are the same or lie at or beyond the same bound. -/
theorem IsInteger.toText_inj_iff (hx : x.IsInteger m) (hy : y.IsInteger n)
    (smallX : m.natAbs < 10 ^ 21) (smallY : n.natAbs < 10 ^ 21) :
    x.toText = y.toText ↔ m = n ∨ SaturateAlike m n := by
  rw [hx.toText smallX, hy.toText smallY, toString_int_inj, saturate_inj_iff]

end Double

end Speculation
