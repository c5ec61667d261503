import Speculation.Bailout.Replacement
import Speculation.Proofs.Bailout.Filling
import Speculation.Proofs.Double.Exact

/-!
# Conversion of numbers to untagged integers

A place of optimized code for an untagged integer takes exactly the numbers that denote an integer of
its range (`integerWithin?_eq_some`). A number denotes an integer when it is the double of that
integer; the negative zero denotes zero as well, and it is the only number that is not made again
from the integer it denotes (`integer_conversions`).
-/

namespace Speculation

namespace Heap

variable {g h : Heap} {v : Value} {d : Double} {i lo hi : Int}

/-- A value is the number `i`, except that the negative zero passes for zero. -/
def DenotesInteger (h : Heap) (v : Value) (i : Int) : Prop :=
  h.numberValue? v = some (.ofInt i) ∨ i = 0 ∧ h.numberValue? v = some (.zero true)

/-! ### Integers out of numbers -/

theorem numberValue?_smi (h : Heap) (j : Int) : h.numberValue? (.smi j) = some (.ofInt j) := rfl

theorem numberValue?_box (box : h.get? v = some (.number d)) : h.numberValue? v = some d := by
  cases v with
  | object id => simp [numberValue?, box]
  | _ => cases box

/-- A small integer denotes itself. -/
theorem denotesInteger_smi {j : Int} (small : i.natAbs < 2 ^ 52) :
    h.DenotesInteger (.smi j) i ↔ j = i := by
  simp only [DenotesInteger, numberValue?_smi, Option.some.injEq, Double.ofInt_ne_zero, and_false,
    or_false]
  rw [eq_comm, Double.ofInt_inj small, eq_comm]

/-- A boxed number denotes an integer if it has no fraction. -/
theorem denotesInteger_box (box : h.get? v = some (.number d)) (small : i.natAbs < 2 ^ 52) :
    h.DenotesInteger v i ↔ d.isIntegral = true ∧ d.truncate = i := by
  simp only [DenotesInteger, numberValue?_box box, Option.some.injEq]
  exact (Double.isIntegral_truncate_iff small).symm

theorem within_of_integerWithin? (given : h.integerWithin? lo hi v = some i) : lo ≤ i ∧ i ≤ hi := by
  unfold integerWithin? at given
  split at given
  · obtain ⟨inside, same⟩ := Option.ite_none_right_eq_some.mp given
    cases same
    exact inside
  · split at given
    · obtain ⟨inside, same⟩ := Option.ite_none_right_eq_some.mp given
      cases same
      simp only [Bool.and_eq_true, decide_eq_true_eq] at inside
      exact inside.2
    · cases given

/-- A conversion into a range of integers that doubles tell apart gives the integer that the value
denotes. -/
theorem integerWithin?_eq_some (low : -(2 ^ 52) < lo) (high : hi < 2 ^ 52) :
    h.integerWithin? lo hi v = some i ↔ (lo ≤ i ∧ i ≤ hi) ∧ h.DenotesInteger v i := by
  -- Within the bounds every integer has one double only, but for zero.
  by_cases within : lo ≤ i ∧ i ≤ hi
  · have small : i.natAbs < 2 ^ 52 := by omega
    simp only [within, and_self, true_and]
    cases v with
    | smi j =>
      rw [denotesInteger_smi small, integerWithin?, Option.ite_none_right_eq_some,
        Option.some.injEq]
      constructor
      · exact And.right
      · rintro rfl
        exact ⟨within, rfl⟩
    | object id =>
      cases cell : h.get? (.object id) with
      | none => simp [integerWithin?, DenotesInteger, numberValue?, cell]
      | some c =>
        cases c with
        | number d =>
          rw [denotesInteger_box cell small]
          simp only [integerWithin?, cell, Option.ite_none_right_eq_some, Bool.and_eq_true,
            decide_eq_true_eq, Option.some.injEq]
          constructor
          · rintro ⟨⟨integral, -⟩, same⟩
            exact ⟨integral, same⟩
          · rintro ⟨integral, rfl⟩
            exact ⟨⟨integral, within⟩, rfl⟩
        | _ => simp [integerWithin?, DenotesInteger, numberValue?, cell]
    | _ => simp [integerWithin?, DenotesInteger, numberValue?, get?, Value.objectId?]
  · exact iff_of_false (fun given => within (within_of_integerWithin? given)) fun given => within given.1

/-- The conversion finds exactly the signed words that a value denotes. -/
theorem toInt32?_eq_some :
    h.toInt32? v = some i ↔ (-(2 ^ 31) ≤ i ∧ i < 2 ^ 31) ∧ h.DenotesInteger v i := by
  rw [toInt32?, integerWithin?_eq_some (by decide) (by decide)]
  have range : -(2 ^ 31) ≤ i ∧ i ≤ 2 ^ 31 - 1 ↔ -(2 ^ 31) ≤ i ∧ i < 2 ^ 31 := by omega
  rw [range]

/-- The conversion finds exactly the unsigned words that a value denotes. -/
theorem toUint32?_eq_some :
    h.toUint32? v = some i ↔ (0 ≤ i ∧ i < 2 ^ 32) ∧ h.DenotesInteger v i := by
  rw [toUint32?, integerWithin?_eq_some (by decide) (by decide)]
  have range : 0 ≤ i ∧ i ≤ 2 ^ 32 - 1 ↔ 0 ≤ i ∧ i < 2 ^ 32 := by omega
  rw [range]

/-! ### Numbers out of integers -/

/-- A small integer is made of a double only if it is that double. -/
theorem numberValue?_of_smiOfNumber? (made : smiOfNumber? d = some v) :
    h.numberValue? v = some d := by
  unfold smiOfNumber? Value.smi? at made
  split at made
  · rename_i whole
    obtain ⟨fits, same⟩ := Option.ite_none_right_eq_some.mp made
    cases same
    simp only [Bool.and_eq_true, Bool.not_eq_true', Bool.and_eq_false_iff] at whole
    have small : d.truncate.natAbs < 2 ^ 52 := by
      obtain ⟨low, high⟩ := of_decide_eq_true fits
      unfold Value.smiMin at low
      unfold Value.smiMax at high
      omega
    rcases (Double.isIntegral_truncate_iff small).mp ⟨whole.1, rfl⟩ with same | ⟨-, zero⟩
    · rw [numberValue?_smi, ← same]
    · -- a negative zero is boxed
      rw [zero] at whole
      exact absurd whole.2 (by decide)
  · cases made

/-- A new number is the double that it was made of. -/
theorem numberValue?_newNumber (ok : newNumber d g = (.ok v, h)) : h.numberValue? v = some d := by
  have number := (newNumber_ok ok).1
  unfold IsNumber at number
  split at number
  · rename_i small
    rw [number]
    exact numberValue?_of_smiOfNumber? small
  · exact numberValue?_box number

/-- The conversions give an integer exactly for the values that denote one of the range, and the
number made of it is the value's own double unless that is the negative zero. -/
theorem integer_conversions (h : Heap) (v : Value) (i : Int) :
    (h.toInt32? v = some i ↔ (-(2 ^ 31) ≤ i ∧ i < 2 ^ 31) ∧ h.DenotesInteger v i) ∧
    (h.toUint32? v = some i ↔ (0 ≤ i ∧ i < 2 ^ 32) ∧ h.DenotesInteger v i) ∧
    (h.toInt32? v = some i ∨ h.toUint32? v = some i → h.numberValue? v ≠ some (.zero true) →
      ∀ g : Heap, g.AdmitsNumber (.ofInt i) →
        ∃ w g', newNumber (.ofInt i) g = (.ok w, g') ∧ g'.numberValue? w = h.numberValue? v) := by
  refine ⟨toInt32?_eq_some, toUint32?_eq_some, ?_⟩
  intro converted nonzero g admits
  have denotes : h.DenotesInteger v i := by
    rcases converted with signed | unsigned
    · exact (toInt32?_eq_some.mp signed).2
    · exact (toUint32?_eq_some.mp unsigned).2
  have value : h.numberValue? v = some (.ofInt i) :=
    denotes.resolve_right fun negative => nonzero negative.2
  obtain ⟨w, g', new⟩ := newNumber_of_admits admits
  exact ⟨w, g', new, (numberValue?_newNumber new).trans value.symm⟩

/-- The box of 4000000000 converts to an unsigned integer, and a new number made of that is the same
double. -/
theorem integer_conversions_unsigned :
    let h : Heap := { cells := #[.number (.ofInt 4000000000)] }
    let v : Value := .object ⟨0⟩
    h.toUint32? v = some 4000000000 ∧
      ∃ w g', newNumber (.ofInt 4000000000) h = (.ok w, g') ∧
        g'.numberValue? w = h.numberValue? v := by
  intro h v
  have converted : h.toUint32? v = some 4000000000 := by decide +kernel
  have nonzero : h.numberValue? v ≠ some (.zero true) := by decide +kernel
  exact ⟨converted,
    (integer_conversions h v 4000000000).2.2 (.inr converted) nonzero h (.inr (by decide +kernel))⟩

/-- The box of the negative zero converts to zero, and a new number made of that is not the same
double. -/
theorem negative_zero_converts :
    let h : Heap := { cells := #[.number (.zero true)] }
    let v : Value := .object ⟨0⟩
    h.toInt32? v = some 0 ∧ h.toUint32? v = some 0 ∧
      ∀ w g', newNumber (.ofInt 0) h = (.ok w, g') → g'.numberValue? w ≠ h.numberValue? v := by
  intro h v
  refine ⟨by decide +kernel, by decide +kernel, fun w g' new same => ?_⟩
  have value : h.numberValue? v = some (.zero true) := rfl
  rw [numberValue?_newNumber new, value, Option.some.injEq] at same
  exact Double.ofInt_ne_zero 0 same

end Heap

end Speculation
