import Speculation.Double.Shortest
import Speculation.Text.Blank
import Speculation.Text.ArrayIndex

/-!
# Doubles as text

Two spellings of a number are used. `toText` is how a number reads as a string of the program
or as a property key. `display` is how an unboxed number is listed in frames and traces. They
differ in the spelling of zero and of the infinities, and in that `toText` writes integral
numbers below `10 ^ 21` through a signed 64-bit integer, so that it stops at the bounds of that
range.

`ofText` is the conversion of a string to a number; a text that is no numeral converts to NaN.
-/

namespace Speculation

namespace Double

/-- The bounds of signed 64-bit integers. -/
def int64Min : Int := -(2 ^ 63)

def int64Max : Int := 2 ^ 63 - 1

/-- Integral numbers from here on are written digit by digit instead of through an integer. -/
def integerTextBound : Nat := 10 ^ 21

/-- The text of a number as a string of the program. -/
def toText (x : Double) : String :=
  if x.isNaN then "NaN"
  else if x.isInfinite then (if x.negative then "-Infinity" else "Infinity")
  else if x.isZero then "0"
  else if x.isIntegral && decide (x.magnitude < integerTextBound * 2 ^ unitScale) then
    toString (x.clampTo int64Min int64Max)
  else x.decimal

/-- The text of a number in a listing. -/
def display (x : Double) : String :=
  if x.isNaN then "NaN"
  else if x.isInfinite then (if x.negative then "-inf" else "inf")
  else x.decimal

/-! ### Reading -/

/-- The value of a hexadecimal digit of either case. -/
def hexDigit? (c : Char) : Option Nat :=
  if c.isDigit then some (c.toNat - '0'.toNat)
  else if 'a' ≤ c ∧ c ≤ 'f' then some (c.toNat - 'a'.toNat + 10)
  else if 'A' ≤ c ∧ c ≤ 'F' then some (c.toNat - 'A'.toNat + 10)
  else none

/-- The number that hexadecimal digits stand for, continuing from `n`. -/
def ofHexDigits? (n : Nat) : List Char → Option Nat
  | [] => some n
  | c :: cs =>
    match hexDigit? c with
    | some d => ofHexDigits? (16 * n + d) cs
    | none => none

/-- An unsigned 64-bit hexadecimal number; a plus sign may stand in front. -/
def hexNumber? (cs : List Char) : Option Nat :=
  let digits := match cs with
    | '+' :: rest => rest
    | _ => cs
  if digits.isEmpty then none
  else (ofHexDigits? 0 digits).filter (· < 2 ^ 64)

/-- The double nearest to `± m * 10 ^ e`. Exponents far outside the range of doubles are decided
by the number of digits of `m`. -/
def ofDecimal (negative : Bool) (m : Nat) (e : Int) : Double :=
  if m = 0 then zero negative
  else
    let top : Int := e + (toString m).length
    if 400 < top then infinity negative
    else if top < -400 then zero negative
    else if 0 ≤ e then ofRatio negative (m * 10 ^ e.toNat) 1
    else ofRatio negative m (10 ^ (-e).toNat)

/-- The exponent part of a numeral: empty, or a mark, an optional sign and at least one digit. -/
def exponentPart? : List Char → Option Int
  | [] => some 0
  | c :: rest =>
    if c = 'e' ∨ c = 'E' then
      let (negative, digits) := match rest with
        | '-' :: ds => (true, ds)
        | '+' :: ds => (false, ds)
        | ds => (false, ds)
      if digits.isEmpty || !digits.all Char.isDigit then none
      else
        let n : Int := Text.ofDigits 0 digits
        some (if negative then -n else n)
    else none

/-- A decimal numeral without sign: digits with at most one point and at least one digit, then
an exponent part. -/
def numeral? (negative : Bool) (cs : List Char) : Option Double :=
  let whole := cs.takeWhile Char.isDigit
  let rest := cs.dropWhile Char.isDigit
  let (fraction, tail) := match rest with
    | '.' :: more => (more.takeWhile Char.isDigit, more.dropWhile Char.isDigit)
    | _ => ([], rest)
  let digits := whole ++ fraction
  if digits.isEmpty then none
  else (exponentPart? tail).map fun e =>
    ofDecimal negative (Text.ofDigits 0 digits) (e - fraction.length)

/-- The named values, in any case. -/
def named? (negative : Bool) (cs : List Char) : Option Double :=
  match String.ofList (cs.map Char.toLower) with
  | "nan" => some nan
  | "inf" => some (infinity negative)
  | "infinity" => some (infinity negative)
  | _ => none

/-- A decimal numeral or named value with an optional sign. -/
def signed? (cs : List Char) : Option Double :=
  let (negative, rest) := match cs with
    | '-' :: rest => (true, rest)
    | '+' :: rest => (false, rest)
    | _ => (false, cs)
  (named? negative rest).or (numeral? negative rest)

/-- The number a string converts to. Blanks around it are ignored, a blank text is zero, and
`0x` introduces hexadecimal digits. -/
def ofText (s : String) : Double :=
  match Text.trim s.toList with
  | [] => zero false
  | '0' :: x :: digits =>
    if x = 'x' ∨ x = 'X' then ((hexNumber? digits).map ofNat).getD nan
    else (signed? ('0' :: x :: digits)).getD nan
  | cs => (signed? cs).getD nan

end Double

end Speculation
