import Speculation.Double.Arithmetic
import Speculation.Heap.Create

/-!
# Feedback of binary operators

What a binary operator computes, which operands and results recorded types cover, and what is
recorded after a miss. The result never depends on what is recorded.
-/

namespace Speculation

/-- Whether a number is a 32-bit integer; negative zero is none. -/
def Double.isInt32 (d : Double) : Bool :=
  d.isIntegral && decide (-(2 ^ 31) ≤ d.truncate ∧ d.truncate < 2 ^ 31) &&
    !(d.isZero && d.negative)

/-- The type of an operand. Bitwise operators see `undefined` as zero. -/
def BinaryType.observed (h : Heap) (op : BinaryOperator) (v : Value) : BinaryType :=
  if v.isSmi then .smi
  else
    match h.numberValue? v with
    | some d => if d.isInt32 then .int32 else .number
    | none =>
      if h.isString v then .string
      else if v.isUndefined then (if op.isBitwise then .int32 else .oddball)
      else .generic

namespace BinaryOperator

/-- How far a shift goes. -/
def shiftCount (d : Double) : Nat := d.toUint32 % 32

/-- A bitwise operation on the 32-bit integers of two numbers. -/
def bitwise (f : Nat → Nat → Nat) (x y : Double) : Int := wrapInt32 (f x.toUint32 y.toUint32)

/-- The number that an operator makes of two numbers. -/
def apply : BinaryOperator → Double → Double → Double
  | add, x, y => x.add y
  | sub, x, y => x.sub y
  | mul, x, y => x.mul y
  | div, x, y => x.div y
  | mod, x, y => x.rem y
  | bitOr, x, y => Double.ofInt (bitwise (· ||| ·) x y)
  | bitAnd, x, y => Double.ofInt (bitwise (· &&& ·) x y)
  | bitXor, x, y => Double.ofInt (bitwise (· ^^^ ·) x y)
  | sar, x, y => Double.ofInt (x.toInt32 / 2 ^ shiftCount y)
  | shl, x, y => Double.ofInt (wrapInt32 (x.toInt32 * 2 ^ shiftCount y))
  | shr, x, y => Double.ofNat (x.toUint32 / 2 ^ shiftCount y)

/-- The result of an operator. Addition with a string appends texts; everything else works on
numbers. -/
def evaluate (op : BinaryOperator) (x y : Value) : Heap.Action Value := do
  let h ← get
  if op = add && (h.isString x || h.isString y) then Heap.newString (h.toText x ++ h.toText y)
  else Heap.newNumber (op.apply (h.toNumber x) (h.toNumber y))

end BinaryOperator

namespace BinaryFeedback

/-- Whether operands with their result are covered by what is recorded. -/
def handles (f : BinaryFeedback) (h : Heap) (x y result : Value) : Bool :=
  match f.overall with
  | .uninitialized => false
  | .generic => true
  | overall =>
    let produced := BinaryType.observed h f.op result
    f.left.accepts (.observed h f.op x) && f.right.accepts (.observed h f.op y) &&
      (!(produced.isNumeric && overall.isNumeric) ||
        decide (produced.rank ≤ (overall.max f.result).rank))

/-- The operand types after observing two operands. Strings are recorded for additions only. -/
def widened (f : BinaryFeedback) (h : Heap) (x y : Value) : BinaryType × BinaryType :=
  let left := f.left.widen (.observed h f.op x)
  let right := f.right.widen (.observed h f.op y)
  if (left = .string || right = .string) && f.op ≠ .add then (.generic, .generic)
  else (left, right)

/-- The result type that a miss gives away: operands that were covered missed because of their
result. -/
def revealed (f : BinaryFeedback) (left right : BinaryType) : BinaryType :=
  let overall := left.max right
  if overall = .int32 && f.overall = .int32 && left = f.left && right = f.right then .number
  else if overall = .smi && f.overall = .smi then
    match f.op with
    | .div | .mul | .shr => .number
    | _ => .int32
  else .uninitialized

/-- What is recorded after a miss on two operands. -/
def next (f : BinaryFeedback) (h : Heap) (x y : Value) : BinaryFeedback :=
  let (left, right) := f.widened h x y
  { op := f.op, left, right, result := (f.revealed left right).max f.result }

/-- The trace of a change. -/
def transitionText (old new : BinaryFeedback) : String :=
  s!"[BinaryOpIC (({old.left.name}+{old.right.name})->" ++
    s!"(({new.left.name}+{new.right.name})->{new.result.name}))#{old.op.name}]"

end BinaryFeedback

end Speculation
