import Speculation.Double.Basic

/-!
# Arithmetic on doubles

The four operations and the remainder, each the exact result rounded once. The cases that the
exact rational result leaves open are settled first: operands that are not numbers, infinities,
division by zero, and the sign of a zero result.
-/

namespace Speculation

namespace Double

/-- The number with the opposite sign. -/
def neg (x : Double) : Double :=
  if x.isNaN then nan else ofMagnitude (!x.negative) (x.bits.toNat % 2 ^ 63)

/-- Sum. Opposite infinities have no sum, and an exact zero is negative only if both operands
are. -/
def add (x y : Double) : Double :=
  if x.isNaN || y.isNaN then nan
  else if x.isInfinite then
    if y.isInfinite && x.negative != y.negative then nan else x
  else if y.isInfinite then y
  else
    let s := x.scaled + y.scaled
    if s = 0 then zero (x.negative && y.negative) else ofScaled s

/-- Difference. -/
def sub (x y : Double) : Double := add x (neg y)

/-- Product. Zero times infinity is not a number. -/
def mul (x y : Double) : Double :=
  let negative := x.negative != y.negative
  if x.isNaN || y.isNaN then nan
  else if x.isInfinite || y.isInfinite then
    if x.isZero || y.isZero then nan else infinity negative
  else ofRatio negative (x.magnitude * y.magnitude) (2 ^ (2 * unitScale))

/-- Quotient. `0 / 0` and infinity over infinity are not numbers. -/
def div (x y : Double) : Double :=
  let negative := x.negative != y.negative
  if x.isNaN || y.isNaN then nan
  else if x.isInfinite then
    if y.isInfinite then nan else infinity negative
  else if y.isInfinite then zero negative
  else if y.isZero then
    if x.isZero then nan else infinity negative
  else ofRatio negative x.magnitude y.magnitude

/-- Remainder of the division cut toward zero; it has the sign of the dividend. -/
def rem (x y : Double) : Double :=
  if x.isNaN || y.isNaN || x.isInfinite || y.isZero then nan
  else if y.isInfinite then x
  else ofRatio x.negative (x.magnitude % y.magnitude) (2 ^ unitScale)

end Double

end Speculation
