import FormulaEdit.Decimal.Shortest

/-!
# Written floating-point numbers

The shortest decimal is written with a point when its first digit stands
between ten to the -4th and ten to the 15th, and with an exponent of at least
two digits otherwise.  A whole number keeps one zero behind the point.
-/

namespace FormulaEdit.Decimal

/-- The names that a format gives to the numbers without digits. -/
structure SpecialNames where
  infinite : String
  undefined : String

/-- An exponent with its sign and at least two digits. -/
def exponentText (exponent : Int) : List Char :=
  let digits := Nat.toDigits 10 exponent.natAbs
  (if exponent < 0 then '-' else '+') ::
    (if digits.length < 2 then '0' :: digits else digits)

/-- The digits of a decimal with their point or exponent. -/
def Digits.text (decimal : Digits) : List Char :=
  let count : Int := decimal.digits.length
  if decimal.point ≤ -4 || 16 < decimal.point then
    let tail := decimal.digits.drop 1
    decimal.digits.take 1 ++ (if tail.isEmpty then [] else '.' :: tail) ++
      'e' :: exponentText (decimal.point - 1)
  else if decimal.point ≤ 0 then
    '0' :: '.' :: List.replicate (-decimal.point).toNat '0' ++ decimal.digits
  else if count ≤ decimal.point then
    decimal.digits ++ List.replicate (decimal.point - count).toNat '0' ++ ['.', '0']
  else
    decimal.digits.take decimal.point.toNat ++ '.' :: decimal.digits.drop decimal.point.toNat

/-- A number in decimal notation. -/
def Binary64.text (names : SpecialNames) : Binary64 → List Char
  | .finite negative mantissa exponent =>
      let magnitude :=
        if mantissa = 0 then ['0', '.', '0'] else (shortest mantissa exponent).text
      if negative then '-' :: magnitude else magnitude
  | .infinite negative =>
      if negative then '-' :: names.infinite.toList else names.infinite.toList
  | .undefined => names.undefined.toList

end FormulaEdit.Decimal
