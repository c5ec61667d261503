import Mathlib.Tactic.ByContra
import Mathlib.Tactic.SplitIfs
import Speculation.Proofs.Double.Sums
import Speculation.Proofs.Feedback.Order
import Speculation.Proofs.Heap.Additions

/-!
# Misses of binary operators

A miss of a binary operator records types at least as wide as before, and strictly wider ones with
one exception: a remainder of small integers that is no 32-bit integer, as `5 % 0`, at a site that
has recorded small operands and a 32-bit result (`lt_next_or_spins`). Such a miss records what is
recorded already. There is no other exception, since sums and differences of small integers and all
bitwise results but those of the logical shift are 32-bit integers, and for products, quotients and
logical shifts a miss on small operands records any number as result.
-/

namespace Speculation

/-! ### The chain of types -/

namespace BinaryType

variable {a b : BinaryType}

theorem le_max_left (a b : BinaryType) : a ≤ a.max b := by
  unfold max
  split
  · assumption
  · exact le_rfl

theorem le_max_right (a b : BinaryType) : b ≤ a.max b := by
  unfold max
  split
  · exact le_rfl
  · exact Nat.le_of_not_le ‹_›

theorem le_generic (a : BinaryType) : a ≤ generic := a.rank_le

/-- Widening only widens. -/
theorem le_widen (recorded observed : BinaryType) : recorded ≤ recorded.widen observed := by
  cases recorded with
  | string =>
    simp only [widen]
    split
    · exact le_rfl
    · exact le_generic _
  | _ => exact le_max_left ..

/-- What is covered does not widen, and only that. -/
theorem accepts_iff (recorded observed : BinaryType) :
    recorded.accepts observed ↔ recorded.widen observed = recorded := by
  cases recorded <;> cases observed <;> decide

/-- A type accepts only types below it. -/
theorem le_of_accepts (h : a.accepts b) : b ≤ a := by
  cases a <;> cases b <;> first | cases (show false = true from h) | decide

/-- Between signed words and numbers there is one gap. -/
theorem eq_of_gap (less : a < b) (number : b ≤ .number) (wide : ¬ a < .int32) :
    a = .int32 ∧ b = .number := by
  cases a <;> first | exact absurd (show _ < 2 by decide) wide | cases b <;>
    first | exact ⟨rfl, rfl⟩ | exact absurd less (by decide) | exact absurd number (by decide)

theorem isNumeric_iff : a.isNumeric ↔ .smi ≤ a ∧ a ≤ .number := by
  cases a <;> decide

end BinaryType

/-! ### Observed types -/

namespace BinaryType

variable {h : Heap} {op : BinaryOperator} {v : Value}

/-- Only small integers are observed as small. -/
theorem observed_of_not_isSmi (large : ¬ v.isSmi) : .smi < observed h op v := by
  rw [observed, if_neg large]
  cases h.numberValue? v <;> simp only <;> split_ifs <;> decide

/-- Small integers are observed as small, and nothing else is. -/
theorem observed_eq_smi : observed h op v = .smi ↔ v.isSmi := by
  refine ⟨fun e => ?_, fun small => if_pos small⟩
  by_contra large
  exact absurd e (observed_of_not_isSmi large).ne'

theorem smi_le_observed : .smi ≤ observed h op v := by
  by_cases small : v.isSmi
  · rw [observed_eq_smi.2 small]
  · exact (observed_of_not_isSmi small).le

/-- A boxed number is observed as a word if it is one. -/
theorem observed_boxed {id : ObjectId} {d : Double} (hc : h.cell? id = some (.number d)) :
    observed h op (.object id) = if d.isInt32 then .int32 else .number := by
  have value : h.numberValue? (.object id) = some d := by
    simp [Heap.numberValue?, Heap.get?, Value.objectId?, hc]
  simp [observed, Value.isSmi, value]

/-- The type of a number that an operator made. -/
theorem observed_newNumber {d : Double} {h' : Heap} (made : Heap.newNumber d h = (.ok v, h')) :
    observed h' op v = if v.isSmi then .smi else if d.isInt32 then .int32 else .number := by
  cases hs : Heap.smiOfNumber? d with
  | some w =>
    simp only [Heap.newNumber, hs] at made
    cases made
    have small : v.isSmi := by
      unfold Heap.smiOfNumber? Value.smi? at hs
      split_ifs at hs
      cases hs
      rfl
    rw [if_pos small, observed_eq_smi.2 small]
  | none =>
    simp only [Heap.newNumber, hs] at made
    obtain ⟨id, _, allocated, e⟩ := Computation.bind_eq_ok made
    cases e
    obtain ⟨rfl, cells⟩ := Heap.allocate_eq_ok (congrArg Prod.fst allocated)
    rw [allocated] at cells
    refine observed_boxed ?_
    simp [show h' = _ from cells, Heap.cell?]

end BinaryType

/-! ### What is recorded -/

namespace BinaryFeedback

variable {f : BinaryFeedback} {h : Heap} {x y result : Value}

/-- Both sides are widened to what was observed, or given up together. -/
theorem widened_eq (f : BinaryFeedback) (h : Heap) (x y : Value) :
    f.widened h x y = (.generic, .generic) ∨
      f.widened h x y = (f.left.widen (.observed h f.op x), f.right.widen (.observed h f.op y)) := by
  simp only [widened]
  split
  · exact .inl rfl
  · exact .inr rfl

/-- Feedback only widens. -/
theorem le_next (f : BinaryFeedback) (h : Heap) (x y : Value) : f ≤ f.next h x y := by
  have result : f.result ≤ (f.next h x y).result := BinaryType.le_max_right ..
  rcases f.widened_eq h x y with e | e
  · refine ⟨rfl, ?_, ?_, result⟩ <;> simp only [next, e] <;> exact BinaryType.le_generic _
  · refine ⟨rfl, ?_, ?_, result⟩ <;> simp only [next, e] <;> exact BinaryType.le_widen ..

/-- Both operands are covered by the recorded types. -/
def Covers (f : BinaryFeedback) (h : Heap) (x y : Value) : Prop :=
  f.left.accepts (.observed h f.op x) ∧ f.right.accepts (.observed h f.op y)

/-- An operand that is not covered widens its type. -/
theorem lt_next_of_not_covers (uncovered : ¬ f.Covers h x y) : f < f.next h x y := by
  refine lt_of_le_not_ge (f.le_next h x y) fun ⟨_, left, right, _⟩ => uncovered ?_
  simp only [next] at left right
  rcases f.widened_eq h x y with e | e <;> rw [e] at left right
  · have hl : f.left = .generic := le_antisymm (BinaryType.le_generic _) left
    have hr : f.right = .generic := le_antisymm (BinaryType.le_generic _) right
    rw [Covers, hl, hr]
    exact ⟨rfl, rfl⟩
  · exact ⟨(BinaryType.accepts_iff ..).2 (le_antisymm left (BinaryType.le_widen ..)),
      (BinaryType.accepts_iff ..).2 (le_antisymm right (BinaryType.le_widen ..))⟩

/-- A miss on operands that are covered comes from a number that is wider than they are. -/
structure Exceeds (f : BinaryFeedback) (produced : BinaryType) : Prop where
  numeric : f.overall.isNumeric
  number : produced ≤ .number
  wider : f.overall < produced
  result : f.result < produced

/-- A miss whose operands are covered is one of its result. -/
theorem exceeds_of_covers (covered : f.Covers h x y) (missed : f.handles h x y result = false) :
    f.Exceeds (.observed h f.op result) := by
  have started : .smi ≤ f.overall :=
    (BinaryType.smi_le_observed.trans (BinaryType.le_of_accepts covered.1)).trans
      (BinaryType.le_max_left ..)
  obtain ⟨left, right⟩ := covered
  have exceeds : (BinaryType.observed h f.op result).isNumeric ∧ f.overall.isNumeric ∧
      f.overall.max f.result < .observed h f.op result := by
    unfold handles at missed
    split at missed
    · rename_i e
      rw [e] at started
      cases (show 1 ≤ 0 from started)
    · cases missed
    · simp only [left, right, Bool.true_and, Bool.or_eq_false_iff, Bool.not_eq_false', Bool.and_eq_true,
        decide_eq_false_iff_not, Nat.not_le] at missed
      exact ⟨missed.1.1, missed.1.2, missed.2⟩
  obtain ⟨number, numeric, wider⟩ := exceeds
  exact ⟨numeric, (BinaryType.isNumeric_iff.1 number).2, (BinaryType.le_max_left ..).trans_lt wider,
    (BinaryType.le_max_right ..).trans_lt wider⟩

/-- Covered operands widen nothing. -/
theorem widened_of_covers (covered : f.Covers h x y) (numeric : f.overall.isNumeric) :
    f.widened h x y = (f.left, f.right) := by
  obtain ⟨-, small⟩ := BinaryType.isNumeric_iff.1 numeric
  have left : f.left ≠ .string := by
    rintro e
    have : .string ≤ BinaryType.number := e ▸ (BinaryType.le_max_left f.left f.right).trans small
    exact absurd this (by decide)
  have right : f.right ≠ .string := by
    rintro e
    have : .string ≤ BinaryType.number := e ▸ (BinaryType.le_max_right f.left f.right).trans small
    exact absurd this (by decide)
  simp [widened, (BinaryType.accepts_iff ..).1 covered.1, (BinaryType.accepts_iff ..).1 covered.2,
    left, right]

/-- With covered operands only the result is widened. -/
theorem next_of_covers (covered : f.Covers h x y) (numeric : f.overall.isNumeric) :
    f.next h x y = { f with result := (f.revealed f.left f.right).max f.result } := by
  simp only [next, widened_of_covers covered numeric]

/-- A result that is revealed to be wider is recorded. -/
theorem lt_next_of_revealed (covered : f.Covers h x y) (numeric : f.overall.isNumeric)
    (wider : f.result < f.revealed f.left f.right) : f < f.next h x y := by
  refine lt_of_le_not_ge (f.le_next h x y) fun ge => ?_
  have result : (f.next h x y).result ≤ f.result := ge.2.2.2
  rw [next_of_covers covered numeric] at result
  exact not_le_of_gt (wider.trans_le (BinaryType.le_max_left ..)) result

/-- For these operators a miss on small operands allows any number as result. -/
def widensToNumber : BinaryOperator → Bool
  | .div | .mul | .shr => true
  | _ => false

/-- Operands that are covered by small integers are small integers. -/
theorem smi_of_covers (covered : f.Covers h x y) (e : f.overall = .smi) :
    (f.left = .smi ∧ f.right = .smi) ∧ x.isSmi ∧ y.isSmi := by
  obtain ⟨left, right⟩ := covered
  have hl : f.left ≤ .smi := e ▸ BinaryType.le_max_left f.left f.right
  have hr : f.right ≤ .smi := e ▸ BinaryType.le_max_right f.left f.right
  have hx := BinaryType.le_of_accepts left
  have hy := BinaryType.le_of_accepts right
  refine ⟨⟨hl.antisymm (BinaryType.smi_le_observed.trans hx),
    hr.antisymm (BinaryType.smi_le_observed.trans hy)⟩, ?_, ?_⟩
  · exact BinaryType.observed_eq_smi.1 ((hx.trans hl).antisymm BinaryType.smi_le_observed)
  · exact BinaryType.observed_eq_smi.1 ((hy.trans hr).antisymm BinaryType.smi_le_observed)

/-- A miss on these operands that comes from their result records what is recorded already. -/
structure Spins (f : BinaryFeedback) (x y : Value) : Prop where
  operator : ¬ widensToNumber f.op
  left : f.left = .smi
  right : f.right = .smi
  result : f.result = .int32
  first : x.isSmi
  second : y.isSmi

theorem revealed_smi (e : f.overall = .smi) :
    f.revealed f.left f.right = if widensToNumber f.op then .number else .int32 := by
  have both : f.left.max f.right = .smi := e
  simp only [revealed, both, e]
  cases f.op <;> rfl

theorem revealed_int32 (e : f.overall = .int32) : f.revealed f.left f.right = .number := by
  have both : f.left.max f.right = .int32 := e
  simp [revealed, both, e]

/-- A miss widens the feedback, or it is one that goes on forever. -/
theorem lt_next_or_spins (missed : f.handles h x y result = false) :
    f < f.next h x y ∨ f.Spins x y ∧ BinaryType.observed h f.op result = .number := by
  by_cases covered : f.Covers h x y
  swap
  · exact .inl (lt_next_of_not_covers covered)
  obtain ⟨numeric, number, wider, exceeded⟩ := exceeds_of_covers covered missed
  -- What is recorded of the operands decides what the stub can reveal next.
  cases e : f.overall with
  | smi =>
    obtain ⟨⟨left, right⟩, first, second⟩ := smi_of_covers covered e
    have revealed := revealed_smi e
    by_cases op : widensToNumber f.op
    · rw [if_pos op] at revealed
      exact .inl (lt_next_of_revealed covered numeric (revealed ▸ exceeded.trans_le number))
    · rw [if_neg op] at revealed
      by_cases result : f.result < .int32
      · exact .inl (lt_next_of_revealed covered numeric (revealed ▸ result))
      · obtain ⟨recorded, produced⟩ := BinaryType.eq_of_gap exceeded number result
        exact .inr ⟨⟨op, left, right, recorded, first, second⟩, produced⟩
  | int32 =>
    refine .inl (lt_next_of_revealed covered numeric ?_)
    rw [revealed_int32 e]
    exact exceeded.trans_le number
  | number => exact absurd (e ▸ wider) (not_lt_of_ge number)
  | _ => simp [e, BinaryType.isNumeric] at numeric

/-- A miss that goes on forever records what is recorded. -/
theorem Spins.next_eq (spins : f.Spins x y) : f.next h x y = f := by
  obtain ⟨op, left, right, result, first, second⟩ := spins
  have covered : f.Covers h x y := by
    rw [Covers, left, right, BinaryType.observed_eq_smi.2 first, BinaryType.observed_eq_smi.2 second]
    exact ⟨rfl, rfl⟩
  have small : f.overall = .smi := by
    rw [overall, left, right]
    rfl
  rw [next_of_covers covered (by rw [small]; rfl), revealed_smi small, if_neg op, result]
  cases f
  cases result
  rfl

/-- How far the recorded types are below the widest ones. -/
def slack (f : BinaryFeedback) : Nat :=
  (6 - f.left.rank) + (6 - f.right.rank) + (6 - f.result.rank)

theorem slack_le (f : BinaryFeedback) : f.slack ≤ 18 := by
  unfold slack
  omega

/-- Wider feedback has less room to widen. -/
theorem slack_lt {f g : BinaryFeedback} (less : f < g) : g.slack < f.slack := by
  obtain ⟨⟨op, left, right, result⟩, above⟩ := lt_iff_le_not_ge.1 less
  have left : f.left.rank ≤ g.left.rank := left
  have right : f.right.rank ≤ g.right.rank := right
  have result : f.result.rank ≤ g.result.rank := result
  have strict : ¬ (g.left.rank ≤ f.left.rank ∧ g.right.rank ≤ f.right.rank ∧
      g.result.rank ≤ f.result.rank) := fun h => above ⟨op.symm, h⟩
  have := g.left.rank_le
  have := g.right.rank_le
  have := g.result.rank_le
  unfold slack
  omega

end BinaryFeedback

/-! ### Results of small integers -/

/-- The value is one that exists: an integer in it is small. -/
def Value.isProper : Value → Bool
  | .smi i => fitsSmi i
  | _ => true

theorem wrapInt32_bounds (i : Int) : -(2 ^ 31) ≤ wrapInt32 i ∧ wrapInt32 i < 2 ^ 31 := by
  have residue : i.emod (2 ^ 32) = i % 2 ^ 32 := rfl
  simp only [wrapInt32, residue]
  split <;> omega

namespace BinaryOperator

/-- Sums and differences of small integers are 32-bit integers, and so are the results of all
bitwise operators but the logical shift. -/
theorem isInt32_apply {op : BinaryOperator} {a b : Int} (ha : Value.fitsSmi a = true)
    (hb : Value.fitsSmi b = true) (kept : ¬ BinaryFeedback.widensToNumber op)
    (other : op ≠ .mod) : (op.apply (Double.ofInt a) (Double.ofInt b)).isInt32 = true := by
  cases op with
  | add => exact Double.isInt32_add_ofInt ha hb
  | sub => exact Double.isInt32_sub_ofInt ha hb
  | bitOr | bitAnd | bitXor | shl =>
    exact Double.isInt32_ofInt (wrapInt32_bounds _).1 (wrapInt32_bounds _).2
  | sar =>
    obtain ⟨low, high⟩ := (Double.ofInt a).toInt32_bounds
    have positive : (0 : Int) < 2 ^ shiftCount (Double.ofInt b) := Int.pow_pos (by decide)
    refine Double.isInt32_ofInt ((Int.le_ediv_iff_mul_le positive).2 ?_)
      ((Int.ediv_lt_iff_lt_mul positive).2 ?_) <;>
    · generalize (2 : Int) ^ shiftCount (Double.ofInt b) = p at positive
      omega
  | mod => exact absurd rfl other
  | mul | div | shr => exact absurd rfl kept

/-- An operation on small integers is one on their doubles. -/
theorem evaluate_smi (op : BinaryOperator) (a b : Int) (h : Heap) :
    op.evaluate (.smi a) (.smi b) h =
      Heap.newNumber (op.apply (Double.ofInt a) (Double.ofInt b)) h := by
  have strings : h.isString (.smi a) = false ∧ h.isString (.smi b) = false := ⟨rfl, rfl⟩
  simp only [evaluate, Computation.get_bind, strings, Bool.or_false, Bool.and_false,
    Bool.false_eq_true, if_false]
  rfl

end BinaryOperator

namespace BinaryFeedback

variable {f : BinaryFeedback} {h h' : Heap} {x y result : Value}

/-- Only remainders spin. -/
theorem Spins.op_eq (spins : f.Spins x y) (properX : x.isProper) (properY : y.isProper)
    (made : f.op.evaluate x y h = (.ok result, h'))
    (produced : BinaryType.observed h' f.op result = .number) : f.op = .mod := by
  by_contra other
  obtain ⟨op, -, -, -, first, second⟩ := spins
  cases x with
  | smi a =>
    cases y with
    | smi b =>
      rw [BinaryOperator.evaluate_smi] at made
      rw [BinaryType.observed_newNumber made,
        if_pos (BinaryOperator.isInt32_apply properX properY op other)] at produced
      split at produced <;> cases produced
    | _ => cases second
  | _ => cases first

/-- What a site of remainders records that has met small integers only, and a remainder that is no
small integer. -/
def remainders : BinaryFeedback := ⟨.mod, .smi, .smi, .int32⟩

theorem spins_remainders (first : x.isSmi) (second : y.isSmi) : remainders.Spins x y :=
  ⟨nofun, rfl, rfl, rfl, first, second⟩

/-- A miss widens what is recorded, unless it is a remainder. -/
theorem lt_next_or_remainder (properX : x.isProper) (properY : y.isProper)
    (made : f.op.evaluate x y h = (.ok result, h')) (missed : f.handles h' x y result = false) :
    f < f.next h' x y ∨ f = remainders ∧ x.isSmi ∧ y.isSmi := by
  refine (lt_next_or_spins missed).imp_right fun ⟨spins, produced⟩ => ?_
  have op := spins.op_eq properX properY made produced
  obtain ⟨-, left, right, result, first, second⟩ := spins
  refine ⟨?_, first, second⟩
  cases f
  cases op
  cases left
  cases right
  cases result
  rfl

/-- The only misses that record nothing new are remainders of small integers. -/
theorem next_eq_iff (properX : x.isProper) (properY : y.isProper)
    (made : f.op.evaluate x y h = (.ok result, h')) (missed : f.handles h' x y result = false) :
    f.next h' x y = f ↔ f = remainders ∧ x.isSmi ∧ y.isSmi := by
  constructor
  · intro same
    refine (lt_next_or_remainder properX properY made missed).resolve_left fun less => ?_
    exact lt_irrefl f (less.trans_eq same)
  · rintro ⟨rfl, first, second⟩
    exact (spins_remainders first second).next_eq

end BinaryFeedback

end Speculation
