import Speculation.Power

/-!
# Array indices written as text

A text denotes an array index when it is the decimal numeral of a number up to `2 ^ 32 - 2`
with no superfluous zero in front: `0` and `17`, but not `017`, `-1` or the empty text.
-/

namespace Speculation

namespace Text

/-- The largest array index. -/
def maxArrayIndex : Nat := 2 ^ 32 - 2

/-- The value of an ASCII digit. -/
def digitValue (c : Char) : Nat := c.toNat - '0'.toNat

/-- The number a list of decimal digits stands for, continuing from `n`. -/
def ofDigits (n : Nat) : List Char → Nat
  | [] => n
  | c :: cs => ofDigits (10 * n + digitValue c) cs

/-- Whether a list of digits is a canonical numeral: not empty, and no zero in front of another
digit. -/
def isCanonical : List Char → Bool
  | [] => false
  | ['0'] => true
  | c :: cs => c != '0' && (c :: cs).all Char.isDigit

/-- The array index that a text denotes, if any. -/
def arrayIndex? (s : String) : Option Nat :=
  let cs := s.toList
  if isCanonical cs ∧ cs.length ≤ 10 then
    let n := ofDigits 0 cs
    if n ≤ maxArrayIndex then some n else none
  else none

end Text

end Speculation
