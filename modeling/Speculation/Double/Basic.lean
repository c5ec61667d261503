import Speculation.Power

/-!
# Double-precision numbers, exactly

A `Double` is the 64-bit pattern of an IEEE-754 binary64 number. Nothing here uses machine
arithmetic: a finite double is an exact multiple of `2 ^ (-1074)`, and that multiple (`scaled`)
is an ordinary integer. Comparison is comparison of these integers, and every operation is an
exact integer or rational computation followed by one rounding, `ofRatio`.

All patterns that denote "not a number" are treated alike.
-/

namespace Speculation

/-- An IEEE-754 binary64 number by its bit pattern. -/
structure Double where
  bits : UInt64
deriving DecidableEq, Repr

namespace Double

/-! ### Fields of the pattern -/

/-- The sign bit. -/
def negative (x : Double) : Bool := decide (2 ^ 63 ≤ x.bits.toNat)

/-- The biased exponent, below `2048`. -/
def exponentField (x : Double) : Nat := x.bits.toNat / 2 ^ 52 % 2048

/-- The fraction, below `2 ^ 52`. -/
def fraction (x : Double) : Nat := x.bits.toNat % 2 ^ 52

/-- The pattern with the given sign and the given bits below it. -/
def ofMagnitude (negative : Bool) (magnitude : Nat) : Double :=
  ⟨UInt64.ofNat ((if negative then 2 ^ 63 else 0) + magnitude)⟩

/-- Zero of either sign. -/
def zero (negative : Bool) : Double := ofMagnitude negative 0

/-- Infinity of either sign. -/
def infinity (negative : Bool) : Double := ofMagnitude negative (2047 * 2 ^ 52)

/-- The representative of "not a number". -/
def nan : Double := ⟨0x7ff8000000000000⟩

instance : Inhabited Double := ⟨zero false⟩

/-! ### Classes -/

def isNaN (x : Double) : Bool := x.exponentField == 2047 && x.fraction != 0

def isInfinite (x : Double) : Bool := x.exponentField == 2047 && x.fraction == 0

def isFinite (x : Double) : Bool := x.exponentField != 2047

def isZero (x : Double) : Bool := x.exponentField == 0 && x.fraction == 0

/-! ### The exact value -/

/-- The significand of a finite double: its magnitude is `mantissa * 2 ^ exponent`. -/
def mantissa (x : Double) : Nat :=
  if x.exponentField = 0 then x.fraction else x.fraction + 2 ^ 52

/-- The power of two that goes with `mantissa`, counted up from `-1074`. -/
def scale (x : Double) : Nat := x.exponentField - 1

/-- The unit in which every finite double is an integer is `2 ^ (-unitScale)`. -/
def unitScale : Nat := 1074

/-- The magnitude of a finite double in units of `2 ^ (-1074)`. -/
def magnitude (x : Double) : Nat := x.mantissa * 2 ^ x.scale

/-- A finite double in units of `2 ^ (-1074)`. -/
def scaled (x : Double) : Int := if x.negative then -(x.magnitude : Int) else x.magnitude

/-- Place on the number line, with the infinities just outside the finite range. -/
def position (x : Double) : Int :=
  if x.isFinite then x.scaled
  else if x.negative then -(2 ^ 2098 : Int) else 2 ^ 2098

/-! ### Comparison -/

/-- Numeric equality: zeros of both signs are equal, and no NaN equals anything. -/
def eq (x y : Double) : Bool := !x.isNaN && !y.isNaN && x.position == y.position

/-- Numeric order; false when an operand is NaN. -/
def lt (x y : Double) : Bool := !x.isNaN && !y.isNaN && decide (x.position < y.position)

/-- Numeric order or equality; false when an operand is NaN. -/
def le (x y : Double) : Bool := !x.isNaN && !y.isNaN && decide (x.position ≤ y.position)

/-! ### Rounding -/

/-- `num / den` rounded to an integer, halves going to the even neighbour. -/
def roundHalfEven (num den : Nat) : Nat :=
  let q := num / den
  let r := num % den
  if den < 2 * r ∨ (2 * r = den ∧ q % 2 = 1) then q + 1 else q

/-- The exponent of the binade of `num / den`: the greatest `e` with `2 ^ e ≤ num / den`, for
positive arguments. -/
def binade (num den : Nat) : Int :=
  let e : Int := (num.log2 : Int) - den.log2
  let fits := if 0 ≤ e then den * 2 ^ e.toNat ≤ num else den ≤ num * 2 ^ (-e).toNat
  if fits then e else e - 1

/-- The double nearest to `± num / den`, ties to the even pattern, overflowing to infinity. The
significand `q` is taken in the binade of the value (or the lowest one); a significand that
rounds up to the next power of two carries into the exponent field by plain addition. -/
def ofRatio (negative : Bool) (num den : Nat) : Double :=
  if num = 0 then zero negative
  else
    let s : Nat := (binade num den + 1022).toNat
    let q :=
      if unitScale ≤ s then roundHalfEven num (den * 2 ^ (s - unitScale))
      else roundHalfEven (num * 2 ^ (unitScale - s)) den
    let m := s * 2 ^ 52 + q
    if 2047 * 2 ^ 52 ≤ m then infinity negative else ofMagnitude negative m

/-- The double nearest to an integer. -/
def ofInt (i : Int) : Double := ofRatio (decide (i < 0)) i.natAbs 1

/-- The double nearest to a natural number. -/
def ofNat (n : Nat) : Double := ofRatio false n 1

/-- The double nearest to a nonzero multiple of `2 ^ (-1074)`; zero is positive. -/
def ofScaled (s : Int) : Double := ofRatio (decide (s < 0)) s.natAbs (2 ^ unitScale)

/-! ### Integer part -/

/-- Whether a finite double is an integer. -/
def isIntegral (x : Double) : Bool := x.isFinite && x.magnitude % 2 ^ unitScale == 0

/-- The integer part of a finite double, cut toward zero. -/
def truncate (x : Double) : Int := x.scaled.tdiv (2 ^ unitScale)

/-- The integer part of any double, clamped into a range; NaN goes to zero. -/
def clampTo (lo hi : Int) (x : Double) : Int :=
  if x.isNaN then 0
  else if x.isInfinite then (if x.negative then lo else hi)
  else max lo (min hi x.truncate)

/-- The value modulo `2 ^ 32` after cutting toward zero; zero for infinities and NaN. -/
def toUint32 (x : Double) : Nat :=
  if x.isFinite then (x.truncate.emod (2 ^ 32)).toNat else 0

/-- The value modulo `2 ^ 32` read as a signed 32-bit integer. -/
def toInt32 (x : Double) : Int :=
  let u := x.toUint32
  if u < 2 ^ 31 then (u : Int) else (u : Int) - 2 ^ 32

end Double

end Speculation
