import Speculation.Double.Arithmetic
import Speculation.Heap.Create

/-!
# Feedback of unary operators

What a unary operator computes, which operands a recorded type covers, and what is recorded
after a miss. The result never depends on what is recorded.
-/

namespace Speculation

/-- The type of an operand. -/
def UnaryType.observed (h : Heap) (operand : Value) : UnaryType :=
  if operand.isSmi then .smi
  else if h.isHeapNumber operand then .number
  else .generic

/-- The number that an operator makes of a number. -/
def UnaryOperator.apply : UnaryOperator → Double → Double
  | sub, d => d.neg
  | bitNot, d => Double.ofInt (-d.toInt32 - 1)

/-- The result of an operator. -/
def UnaryOperator.evaluate (op : UnaryOperator) (operand : Value) : Heap.Action Value := do
  Heap.newNumber (op.apply ((← get).toNumber operand))

namespace UnaryFeedback

/-- Whether an operand with its result is covered by what is recorded. -/
def handles (f : UnaryFeedback) (h : Heap) (operand result : Value) : Bool :=
  match f.operand with
  | .uninitialized => false
  | .smi => operand.isSmi && result.isSmi
  | .number => h.isNumber operand
  | .generic => true

/-- What is recorded after a miss on an operand. -/
def next (f : UnaryFeedback) (h : Heap) (operand : Value) : UnaryFeedback :=
  { f with operand := f.operand.widen (.observed h operand) }

/-- The trace of a change. -/
def transitionText (old new : UnaryFeedback) : String :=
  s!"[UnaryOpIC ({old.operand.name}->{new.operand.name})#{old.op.name}]"

end UnaryFeedback

end Speculation
