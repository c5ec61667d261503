import Mathlib.Data.Nat.Basic
import Mathlib.Order.Basic
import Speculation.Cache.Stub

/-!
# The orders of recorded types

The types that an operator site records are ordered from narrow to wide. Types of unary and binary
operators form chains. Types of comparisons form three chains (numbers, strings, objects) between
the type of nothing and the type of everything. Truth tests record sets.

What a site records is ordered component by component, and stubs by what they record; a stub that
records nothing is comparable to itself only.
-/

namespace Speculation

/-! ### Types -/

namespace UnaryType

theorem rank_injective : Function.Injective rank := by
  intro a b h
  cases a <;> cases b <;> first | rfl | cases h

instance : PartialOrder UnaryType := PartialOrder.lift rank rank_injective

instance (a b : UnaryType) : Decidable (a ≤ b) := inferInstanceAs (Decidable (a.rank ≤ b.rank))

theorem rank_le (t : UnaryType) : t.rank ≤ 3 := by cases t <;> decide

end UnaryType

namespace BinaryType

theorem rank_injective : Function.Injective rank := by
  intro a b h
  cases a <;> cases b <;> first | rfl | cases h

instance : PartialOrder BinaryType := PartialOrder.lift rank rank_injective

instance (a b : BinaryType) : Decidable (a ≤ b) := inferInstanceAs (Decidable (a.rank ≤ b.rank))

theorem rank_le (t : BinaryType) : t.rank ≤ 6 := by cases t <;> decide

end BinaryType

namespace CompareType

/-- Whether a type is no wider than another. -/
def within : CompareType → CompareType → Bool
  | uninitialized, _ | _, generic => true
  | smi, number | internalizedString, string | knownObject, object => true
  | a, b => a == b

instance : PartialOrder CompareType where
  le a b := a.within b
  le_refl a := by cases a <;> rfl
  le_trans a b c h h' := by
    cases a <;> cases b <;> first | cases (h : false = true) |
      cases c <;> first | rfl | cases (h' : false = true)
  le_antisymm a b h h' := by
    cases a <;> cases b <;> first | rfl | cases (h : false = true) | cases (h' : false = true)

instance (a b : CompareType) : Decidable (a ≤ b) := inferInstanceAs (Decidable (a.within b = true))

end CompareType

/-! ### What sites record -/

instance : Preorder UnaryFeedback where
  le f g := f.op = g.op ∧ f.operand ≤ g.operand
  le_refl f := ⟨rfl, le_rfl⟩
  le_trans _ _ _ h h' := ⟨h.1.trans h'.1, h.2.trans h'.2⟩

instance : Preorder BinaryFeedback where
  le f g := f.op = g.op ∧ f.left ≤ g.left ∧ f.right ≤ g.right ∧ f.result ≤ g.result
  le_refl f := ⟨rfl, le_rfl, le_rfl, le_rfl⟩
  le_trans _ _ _ h h' := ⟨h.1.trans h'.1, h.2.1.trans h'.2.1, h.2.2.1.trans h'.2.2.1,
    h.2.2.2.trans h'.2.2.2⟩

/-- The known shape is not compared. -/
instance : Preorder CompareFeedback where
  le f g := f.op = g.op ∧ f.left ≤ g.left ∧ f.right ≤ g.right ∧ f.state ≤ g.state
  le_refl f := ⟨rfl, le_rfl, le_rfl, le_rfl⟩
  le_trans _ _ _ h h' := ⟨h.1.trans h'.1, h.2.1.trans h'.2.1, h.2.2.1.trans h'.2.2.1,
    h.2.2.2.trans h'.2.2.2⟩

instance : Preorder TestedTypes where
  le s t := ∀ u, s.contains u → t.contains u
  le_refl _ _ := id
  le_trans _ _ _ h h' u := h' u ∘ h u

/-! ### Stubs -/

namespace Handler

/-- A stub records no more than another one of its family. -/
inductive Within : Handler → Handler → Prop where
  | refl (a : Handler) : Within a a
  | unaryOp {f g : UnaryFeedback} (h : f ≤ g) : Within (.unaryOp f) (.unaryOp g)
  | binaryOp {f g : BinaryFeedback} (h : f ≤ g) : Within (.binaryOp f) (.binaryOp g)
  | compare {f g : CompareFeedback} (h : f ≤ g) : Within (.compare f) (.compare g)
  | toBoolean {s t : TestedTypes} (h : s ≤ t) : Within (.toBoolean s) (.toBoolean t)

theorem Within.trans {a b c : Handler} (h : a.Within b) (h' : b.Within c) : a.Within c := by
  cases h with
  | refl => exact h'
  | unaryOp h =>
    cases h' with
    | refl => exact .unaryOp h
    | unaryOp h' => exact .unaryOp (h.trans h')
  | binaryOp h =>
    cases h' with
    | refl => exact .binaryOp h
    | binaryOp h' => exact .binaryOp (h.trans h')
  | compare h =>
    cases h' with
    | refl => exact .compare h
    | compare h' => exact .compare (h.trans h')
  | toBoolean h =>
    cases h' with
    | refl => exact .toBoolean h
    | toBoolean h' => exact .toBoolean (h.trans h')

instance : Preorder Handler where
  le := Within
  le_refl := .refl
  le_trans _ _ _ := .trans

variable {f g : UnaryFeedback} {b c : BinaryFeedback} {d e : CompareFeedback} {s t : TestedTypes}

@[simp] theorem unaryOp_le : Handler.unaryOp f ≤ .unaryOp g ↔ f ≤ g := by
  refine ⟨fun h => ?_, .unaryOp⟩
  cases h with
  | refl => exact le_rfl
  | unaryOp h => exact h

@[simp] theorem binaryOp_le : Handler.binaryOp b ≤ .binaryOp c ↔ b ≤ c := by
  refine ⟨fun h => ?_, .binaryOp⟩
  cases h with
  | refl => exact le_rfl
  | binaryOp h => exact h

@[simp] theorem compare_le : Handler.compare d ≤ .compare e ↔ d ≤ e := by
  refine ⟨fun h => ?_, .compare⟩
  cases h with
  | refl => exact le_rfl
  | compare h => exact h

@[simp] theorem toBoolean_le : Handler.toBoolean s ≤ .toBoolean t ↔ s ≤ t := by
  refine ⟨fun h => ?_, .toBoolean⟩
  cases h with
  | refl => exact le_rfl
  | toBoolean h => exact h

@[simp] theorem unaryOp_lt : Handler.unaryOp f < .unaryOp g ↔ f < g := by simp [lt_iff_le_not_ge]

@[simp] theorem binaryOp_lt : Handler.binaryOp b < .binaryOp c ↔ b < c := by
  simp [lt_iff_le_not_ge]

@[simp] theorem compare_lt : Handler.compare d < .compare e ↔ d < e := by simp [lt_iff_le_not_ge]

@[simp] theorem toBoolean_lt : Handler.toBoolean s < .toBoolean t ↔ s < t := by
  simp [lt_iff_le_not_ge]

end Handler

end Speculation
