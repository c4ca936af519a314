import FormulaEdit.Decimal.Binary

/-!
# Shortest decimals

The shortest decimal of a double-precision number is the one with the fewest
digits among those that round back to it, and the nearest to it of these.
-/

namespace FormulaEdit.Decimal

/-- A positive decimal: the digits of a whole number, and the power of ten
that stands just above its first digit. -/
structure Digits where
  digits : List Char
  point : Int
deriving DecidableEq, Repr

/-- The positive numbers that round to a given one, all as multiples of one
unit: the number itself, the two ends, and whether the ends belong to it. -/
structure Interval where
  value : Nat
  low : Nat
  high : Nat
  unit : Nat
  closed : Bool

/-- The rounding interval of `mantissa * 2 ^ exponent`. -/
def Interval.ofBinary (mantissa : Nat) (exponent : Int) : Interval :=
  let shift := exponent - 2
  let up := if 0 ≤ shift then Nat.pow 2 shift.toNat else 1
  let down := if 0 ≤ shift then 1 else Nat.pow 2 (-shift).toNat
  let narrow := mantissa = Nat.pow 2 52 && Binary64.leastExponent < exponent
  { value := 4 * mantissa * up
    low := (4 * mantissa - if narrow then 1 else 2) * up
    high := (4 * mantissa + 2) * up
    unit := down
    closed := mantissa % 2 == 0 }

/-- How often a number can be divided by ten before it falls below one. -/
def decimalLength : (fuel : Nat) → Nat → Nat
  | 0, _ => 0
  | fuel + 1, value => if value = 0 then 0 else decimalLength fuel (value / 10) + 1

/-- How many zeros follow the point of a number below one. -/
def leadingZeros : (fuel : Nat) → (value unit : Nat) → Nat
  | 0, _, _ => 0
  | fuel + 1, value, unit =>
      if unit ≤ 10 * value then 0 else leadingZeros fuel (10 * value) unit + 1

namespace Interval

/-- The power of ten just above the first digit of the value. -/
def point (interval : Interval) : Int :=
  let whole := interval.value / interval.unit
  if whole = 0 then -(leadingZeros 400 interval.value interval.unit : Int)
  else decimalLength 400 whole

/-- Whether `candidate * 10 ^ power` lies in the interval. -/
def holds (interval : Interval) (candidate : Nat) (power : Int) : Bool :=
  let up := if 0 ≤ power then Nat.pow 10 power.toNat else 1
  let down := if 0 ≤ power then 1 else Nat.pow 10 (-power).toNat
  let point := candidate * up * interval.unit
  let low := interval.low * down
  let high := interval.high * down
  if interval.closed then low ≤ point && point ≤ high else low < point && point < high

/-- The multiple of a power of ten that lies in the interval, if there is one;
of two neighbours the nearer to the value, or the even one. -/
def onGrid? (interval : Interval) (power : Int) : Option Nat :=
  let up := if 0 ≤ power then Nat.pow 10 power.toNat else 1
  let down := if 0 ≤ power then 1 else Nat.pow 10 (-power).toNat
  let top := interval.value * down
  let bottom := interval.unit * up
  let below := top / bottom
  match interval.holds below power, interval.holds (below + 1) power with
  | true, true => some (Binary64.roundDiv top bottom)
  | true, false => some below
  | false, true => some (below + 1)
  | false, false => none

/-- The first grid, from coarse to fine, with a point in the interval. -/
def search (interval : Interval) (point : Int) : (count digits : Nat) → Nat × Int
  | 0, digits => (interval.value / interval.unit, point - digits)
  | count + 1, digits =>
      let power := point - digits
      match interval.onGrid? power with
      | some multiple => if multiple = 0 then search interval point count (digits + 1)
          else (multiple, power)
      | none => search interval point count (digits + 1)

end Interval

/-- The shortest decimal of the positive number `mantissa * 2 ^ exponent`. -/
def shortest (mantissa : Nat) (exponent : Int) : Digits :=
  let interval := Interval.ofBinary mantissa exponent
  let (multiple, power) := interval.search interval.point 18 1
  let digits := (Nat.toDigits 10 multiple)
  let kept := (digits.reverse.dropWhile (· = '0')).reverse
  { digits := kept, point := power + digits.length }

end FormulaEdit.Decimal
