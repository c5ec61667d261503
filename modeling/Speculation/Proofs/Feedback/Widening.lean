import Mathlib.Order.Monotone.Defs
import Mathlib.Tactic.SplitIfs
import Speculation.Feedback.Compare
import Speculation.Feedback.ToBoolean
import Speculation.Feedback.Unary
import Speculation.Proofs.Feedback.Order

/-!
# Misses widen what is recorded

A miss of a unary operator, a comparison or a truth test records something strictly wider. How
often that can happen still is the *slack* of what is recorded: three times for a unary operator
that has recorded nothing, four times for a comparison, and eight times for a truth test.

The slack of a comparison is not the height of the order of its components. A miss goes up in the
state, or keeps the state of numbers while an operand that was a small integer is recorded as a
number; the second happens at most once, since a pair of operands that the state of numbers misses
on has an operand that is no number.
-/

namespace Speculation

/-- A step up that lowers something which is antitone is strict. -/
theorem lt_of_slack {α : Type} [Preorder α] {slack : α → Nat} (anti : Antitone slack) {a b : α}
    (le : a ≤ b) (drops : slack b < slack a) : a < b :=
  lt_of_le_not_ge le fun ge => Nat.not_le_of_lt drops (anti ge)

/-! ### Unary operators -/

namespace UnaryFeedback

variable {f : UnaryFeedback} {h : Heap} {operand result : Value}

/-- How many misses are possible. -/
def slack (f : UnaryFeedback) : Nat := 3 - f.operand.rank

/-- Wider feedback has less room to widen. -/
theorem slack_antitone : Antitone slack := fun _ _ h => Nat.sub_le_sub_left h.2 3

theorem rank_observed (h : Heap) (v : Value) : 0 < (UnaryType.observed h v).rank := by
  unfold UnaryType.observed
  split
  · decide
  · split <;> decide

/-- A miss goes up in the chain of types. -/
theorem rank_next (missed : f.handles h operand result = false) :
    f.operand.rank < (f.next h operand).operand.rank := by
  cases e : f.operand with
  | uninitialized =>
    simp only [next, e]
    exact rank_observed h operand
  | smi =>
    simp only [next, e]
    cases UnaryType.observed h operand <;> decide
  | number => simp [next, e, UnaryType.widen, UnaryType.rank]
  | generic => simp [handles, e] at missed

/-- A miss only widens. -/
theorem le_next (missed : f.handles h operand result = false) : f ≤ f.next h operand :=
  ⟨rfl, (rank_next missed).le⟩

/-- A miss uses up room. -/
theorem slack_next_lt (missed : f.handles h operand result = false) :
    (f.next h operand).slack < f.slack := by
  have := rank_next missed
  have := (f.next h operand).operand.rank_le
  unfold slack
  omega

theorem lt_next (missed : f.handles h operand result = false) : f < f.next h operand :=
  lt_of_slack slack_antitone (le_next missed) (slack_next_lt missed)

end UnaryFeedback

/-! ### Truth tests -/

namespace TestedTypes

variable {t : TestedTypes} {u : TestedType}

/-- How many types have not been met. -/
def slack (t : TestedTypes) : Nat := TestedType.all.countP fun u => !t.contains u

theorem slack_le (t : TestedTypes) : t.slack ≤ 8 := List.countP_le_length

theorem slack_antitone : Antitone slack := by
  intro s t h
  refine List.countP_mono_left fun u _ => ?_
  have := h u
  cases e : s.contains u <;> simp_all

theorem le_insert : t ≤ t.insert u := by
  intro v hv
  rw [contains_insert, hv, Bool.or_true]

/-- A type that is new uses up room. -/
theorem slack_insert_lt (missed : t.contains u = false) : (t.insert u).slack < t.slack := by
  simp only [slack, TestedType.all, List.countP_cons, List.countP_nil, contains_insert]
  cases u <;> simp [missed]

theorem lt_insert (missed : t.contains u = false) : t < t.insert u :=
  lt_of_slack slack_antitone le_insert (slack_insert_lt missed)

end TestedTypes

/-! ### Comparisons -/

namespace CompareType

variable {h : Heap} {v : Value}

/-- Widening only widens. -/
theorem le_widen (recorded : CompareType) : recorded ≤ widen h recorded v := by
  cases recorded <;> simp only [widen] <;> (try split_ifs) <;> rfl

/-- An operand that is no number is not recorded as small. -/
theorem not_widen_le_smi (other : ¬ h.isNumber v) (recorded : CompareType) :
    ¬ widen h recorded v ≤ .smi := by
  obtain ⟨large, unboxed⟩ : ¬ v.isSmi ∧ ¬ h.isHeapNumber v := by simpa [Heap.isNumber] using other
  cases recorded <;> simp only [widen] <;> (try split_ifs) <;> first | contradiction | decide

/-- A boxed number is not recorded as small. -/
theorem not_widen_smi_le (boxed : h.isHeapNumber v) : ¬ widen h .smi v ≤ .smi := by
  have large : ¬ v.isSmi := by cases v <;> first | exact Bool.false_ne_true | cases boxed
  simp only [widen, large, boxed, if_true]
  decide

end CompareType

namespace CompareFeedback

variable {f : CompareFeedback} {h : Heap} {x y : Value}

/-- The state of a comparison only widens. -/
theorem le_nextState : f.state ≤ f.nextState h x y := by
  cases e : f.state <;> simp only [nextState, e] <;> (try split_ifs) <;> rfl

theorem le_next : f ≤ f.next h x y :=
  ⟨rfl, f.left.le_widen, f.right.le_widen, le_nextState⟩

/-- How many misses are possible. An operand that is recorded as small can still widen under the
state of numbers. -/
def slack (f : CompareFeedback) : Nat :=
  match f.state with
  | .uninitialized => 4
  | .smi => 3
  | .number => if f.left ≤ .smi ∨ f.right ≤ .smi then 2 else 1
  | .internalizedString | .knownObject => 2
  | .string | .object => 1
  | .generic => 0

theorem slack_le (f : CompareFeedback) : f.slack ≤ 4 := by
  unfold slack
  split <;> (try split) <;> decide

theorem slack_antitone : Antitone slack := by
  rintro f g ⟨-, left, right, state⟩
  have narrow : g.left ≤ .smi ∨ g.right ≤ .smi → f.left ≤ .smi ∨ f.right ≤ .smi :=
    Or.imp left.trans right.trans
  unfold slack
  cases hf : f.state <;> cases hg : g.state <;> rw [hf, hg] at state <;>
    first | cases (show false = true from state) | skip
  all_goals simp only
  all_goals try split_ifs
  all_goals first | decide | exact absurd (narrow ‹_›) ‹_›

theorem firstState_ne_uninitialized (op : CompareOperator) :
    firstState op h x y ≠ .uninitialized := by
  unfold firstState
  split_ifs <;> decide

theorem slack_lt_four (started : f.state ≠ .uninitialized) : f.slack < 4 := by
  unfold slack
  cases e : f.state <;> (try split_ifs) <;> first | decide | exact absurd e started

/-- From numbers a comparison goes on to anything, or stays for a small integer that turned into a boxed
number. -/
theorem nextState_number (e : f.state = .number) :
    f.nextState h x y = .generic ∨ f.nextState h x y = .number ∧
      (f.left = .smi ∧ h.isHeapNumber x ∨ f.right = .smi ∧ h.isHeapNumber y) := by
  simp only [nextState, e]
  split_ifs with kept
  · exact .inr ⟨rfl, by simpa using kept⟩
  · exact .inl rfl

/-- A miss that keeps the state of numbers leaves no operand that is recorded as small. -/
theorem wide_of_kept (missed : f.handles h x y = false) (e : f.state = .number)
    (kept : f.left = .smi ∧ h.isHeapNumber x ∨ f.right = .smi ∧ h.isHeapNumber y) :
    ¬ ((f.next h x y).left ≤ .smi ∨ (f.next h x y).right ≤ .smi) := by
  have numeric {v : Value} (boxed : h.isHeapNumber v) : h.isNumber v := by simp [Heap.isNumber, boxed]
  have both : ¬ (h.isNumber x ∧ h.isNumber y) := by
    rintro ⟨hx, hy⟩
    simp [handles, e, hx, hy] at missed
  rcases kept with ⟨hl, hx⟩ | ⟨hr, hy⟩
  · rintro (narrow | narrow)
    · exact CompareType.not_widen_smi_le hx (hl ▸ narrow)
    · exact CompareType.not_widen_le_smi (fun hy => both ⟨numeric hx, hy⟩) _ narrow
  · rintro (narrow | narrow)
    · exact CompareType.not_widen_le_smi (fun hx => both ⟨hx, numeric hy⟩) _ narrow
    · exact CompareType.not_widen_smi_le hy (hr ▸ narrow)

theorem slack_next_lt (missed : f.handles h x y = false) : (f.next h x y).slack < f.slack := by
  cases e : f.state with
  | uninitialized =>
    have drops : (f.next h x y).slack < 4 := slack_lt_four (by
      simp only [next, nextState, e]
      exact firstState_ne_uninitialized _)
    simpa [slack, e] using drops
  | number =>
    rcases nextState_number e with state | ⟨state, kept⟩
    · have state : (f.next h x y).state = .generic := state
      simp only [slack, state, e]
      split_ifs <;> decide
    · have state : (f.next h x y).state = .number := state
      have narrow : f.left ≤ .smi ∨ f.right ≤ .smi := kept.imp (·.1.le) (·.1.le)
      simp [slack, state, e, narrow, wide_of_kept missed e kept]
  | generic => simp [handles, e] at missed
  | string | object => simp [slack, next, nextState, e]
  | _ =>
    simp only [slack, next, nextState, e]
    split_ifs <;> decide

theorem lt_next (missed : f.handles h x y = false) : f < f.next h x y :=
  lt_of_slack slack_antitone le_next (slack_next_lt missed)

end CompareFeedback

end Speculation
