import OverlayScrollbar.Decimal.Shortest

/-!
# Decimal text

- `decimalDigits`  : the digits of a whole number
- `hexDigit`, `hexDigits` : digits of base sixteen
- `positionalParts`, `positional` : a decimal without an exponent
- `roundedText`    : a single-precision number without decimal places
-/

namespace OverlayScrollbar

/-- The decimal digits of a whole number. -/
def decimalDigits (n : Nat) : List Char :=
  Nat.toDigits 10 n

/-- The digit of base sixteen with the given value, in upper or lower case. -/
def hexDigit (upperCase : Bool) (value : Nat) : Char :=
  if value < 10 then Char.ofNat ('0'.toNat + value)
  else Char.ofNat ((if upperCase then 'A' else 'a').toNat + (value - 10))

/-- The last `width` digits of a number in base sixteen. -/
def hexDigits (upperCase : Bool) : Nat → Nat → List Char
  | 0, _ => []
  | width + 1, n => hexDigits upperCase width (n / 16) ++ [hexDigit upperCase (n % 16)]

/-- The digits of `coefficient * 10 ^ exponent` before and after the point; on each side there is at
least one. -/
def positionalParts (coefficient : Nat) (exponent : Int) : List Char × List Char :=
  let digits := decimalDigits coefficient
  if 0 ≤ exponent then (digits ++ List.replicate exponent.toNat '0', ['0'])
  else
    let places := (-exponent).toNat
    if places < digits.length then
      (digits.take (digits.length - places), digits.drop (digits.length - places))
    else (['0'], List.replicate (places - digits.length) '0' ++ digits)

/-- The decimal `coefficient * 10 ^ exponent` without an exponent, and with `.0` if it is whole. -/
def positional (coefficient : Nat) (exponent : Int) : List Char :=
  let (whole, places) := positionalParts coefficient exponent
  whole ++ '.' :: places

namespace Single

/-- A number rounded to a whole one, a half going to the even neighbour, with its sign. -/
def roundedText : Single → String
  | .nan => "NaN"
  | .infinity negative => if negative then "-inf" else "inf"
  | .finite negative size =>
      let digits := decimalDigits (roundDiv size.units unitsPerOne)
      String.ofList (if negative then '-' :: digits else digits)

end Single

end OverlayScrollbar
