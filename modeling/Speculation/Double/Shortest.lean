import Speculation.Double.Basic

/-!
# The shortest decimal that reads back

Every finite positive double is the nearest double to a whole interval of reals. `shortest`
finds a decimal in that interval with as few significant digits as possible, and among those
the one nearest to the number. The search tries one digit, two digits, and so on up to
seventeen, which always suffice; on each grid only the two neighbours of the number matter.

Numbers are integers in quarters of the unit `2 ^ (-1074)`, so the ends of the interval are
integers too. The written form `decimal` is always positional: no exponent is ever used.
-/

namespace Speculation

namespace Double

/-- A decimal number `digits * 10 ^ power`. -/
structure Decimal where
  digits : Nat
  power : Int
deriving DecidableEq, Repr

/-- Four times the magnitude, in units. -/
def center (x : Double) : Nat := 4 * x.magnitude

/-- The lower end of the interval of reals that round to `x`. The gap below a power of two is
half as wide as the gap above it. -/
def lowerEnd (x : Double) : Nat :=
  x.center - (if x.fraction = 0 ∧ 1 < x.exponentField then 1 else 2) * 2 ^ x.scale

/-- The upper end of the interval of reals that round to `x`. -/
def upperEnd (x : Double) : Nat := x.center + 2 * 2 ^ x.scale

/-- Whether the rational `num / den`, in quarter units, rounds to `x`; the ends belong to the
interval exactly when the significand is even. -/
def readsBack (x : Double) (num den : Nat) : Bool :=
  if x.mantissa % 2 = 0 then
    decide (x.lowerEnd * den ≤ num ∧ num ≤ x.upperEnd * den)
  else
    decide (x.lowerEnd * den < num ∧ num < x.upperEnd * den)

/-- Quarter units in one. -/
def quarterUnits : Nat := 4 * 2 ^ unitScale

/-- The number `d * 10 ^ p` in quarter units, as a fraction. -/
def gridPoint (d : Nat) (p : Int) : Nat × Nat :=
  if 0 ≤ p then (d * 10 ^ p.toNat * quarterUnits, 1)
  else (d * quarterUnits, 10 ^ (-p).toNat)

/-- The number of whole steps of size `10 ^ p` below `x`. -/
def stepsBelow (x : Double) (p : Int) : Nat :=
  if 0 ≤ p then x.center / (10 ^ p.toNat * quarterUnits)
  else x.center * 10 ^ (-p).toNat / quarterUnits

/-- The best point of the grid of step `10 ^ p` that reads back as `x`: of the two neighbours
the nearer one, and the upper one on a tie. -/
def onGrid? (x : Double) (p : Int) : Option Decimal :=
  let d := x.stepsBelow p
  let below := gridPoint d p
  let above := gridPoint (d + 1) p
  match x.readsBack below.1 below.2, x.readsBack above.1 above.2 with
  | true, true =>
    if x.center * below.2 - below.1 < above.1 - x.center * above.2 then some ⟨d, p⟩
    else some ⟨d + 1, p⟩
  | true, false => some ⟨d, p⟩
  | false, true => some ⟨d + 1, p⟩
  | false, false => none

/-- The greatest `p` with `10 ^ p ≤ x`, for a positive finite double. -/
def decade (x : Double) : Int :=
  let whole := x.center / quarterUnits
  if 0 < whole then ((toString whole).length : Int) - 1
  else
    -- below one: count the decimal places up to the first digit
    let inverse := (quarterUnits + x.center - 1) / x.center
    let places : Int := ((toString inverse).length : Int) - 1
    if 0 < x.stepsBelow (-places) then -places else -places - 1

/-- Tries grids of `count`, `count + 1`, … significant digits. -/
def shortestFrom (x : Double) (top : Int) : Nat → Nat → Decimal
  | 0, count => ⟨x.stepsBelow (top - count), top - count⟩
  | fuel + 1, count =>
    match x.onGrid? (top - count) with
    | some d => d
    | none => shortestFrom x top fuel (count + 1)

/-- Removes the zeros at the end of the digits. -/
def Decimal.strip (d : Decimal) : Nat → Decimal
  | 0 => d
  | fuel + 1 =>
    if d.digits ≠ 0 ∧ d.digits % 10 = 0 then
      Decimal.strip ⟨d.digits / 10, d.power + 1⟩ fuel
    else d

/-- The shortest decimal that reads back as the magnitude of `x`, nearest to it; `x` is finite
and not zero. -/
def shortest (x : Double) : Decimal := (x.shortestFrom x.decade 17 0).strip 20

/-- Positional text of a decimal. -/
def Decimal.text (d : Decimal) : String :=
  let digits := toString d.digits
  if 0 ≤ d.power then digits ++ "".pushn '0' d.power.toNat
  else
    let places := (-d.power).toNat
    if digits.length ≤ places then
      "0." ++ "".pushn '0' (places - digits.length) ++ digits
    else
      String.ofList (digits.toList.take (digits.length - places)) ++ "."
        ++ String.ofList (digits.toList.drop (digits.length - places))

/-- The shortest positional text of a finite double. -/
def decimal (x : Double) : String :=
  (if x.negative then "-" else "") ++ (if x.isZero then "0" else x.shortest.text)

end Double

end Speculation
