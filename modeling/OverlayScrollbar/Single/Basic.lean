import OverlayScrollbar.Binary.Rounding

/-!
# Single-precision numbers

A single-precision number is a sign and a whole number of units of `2 ^ -149` with at most 24
significant bits, an infinity, or not a number. Lengths in pixels, colour channels and ratios are
numbers of this type.

- `Single.Fits`      : the whole numbers of units that single precision holds
- `Single`           : the numbers
- `Single.ofRatio`   : the number nearest to a quotient of whole numbers
- `Single.ofNat`     : the number nearest to a whole number
-/

namespace OverlayScrollbar

namespace Single

/-! ## Units -/

/-- The number of units in the number one. -/
def unitsPerOne : Nat :=
  2 ^ 149

/-- Every size is below this many units, which stand for `2 ^ 128`. -/
def unitLimit : Nat :=
  2 ^ 128 * unitsPerOne

/-- A whole number of units that single precision holds: at most 24 significant bits, and below
`2 ^ 128`. -/
def Fits (units : Nat) : Prop :=
  units < unitLimit ∧ 2 ^ excessBits 24 units ∣ units

instance (units : Nat) : Decidable (Fits units) :=
  inferInstanceAs (Decidable (_ ∧ _))

theorem fits_zero : Fits 0 := by
  refine ⟨by decide, Nat.dvd_zero _⟩

theorem fits_roundBits {num den : Nat} (h : roundBits 24 num den < unitLimit) :
    Fits (roundBits 24 num den) :=
  ⟨h, pow_excessBits_dvd_roundBits (by omega) num den⟩

end Single

/-- The size of a finite single-precision number, in units of `2 ^ -149`. -/
structure Magnitude where
  /-- How many units. -/
  units : Nat
  /-- Single precision holds that many. -/
  fits : Single.Fits units
  deriving DecidableEq, Repr

/-- Single-precision numbers. The two zeros are different, and there is one value that is not a
number. -/
inductive Single
  | nan
  | infinity (negative : Bool)
  | finite (negative : Bool) (size : Magnitude)
  deriving DecidableEq, Repr

namespace Single

/-! ## Making numbers -/

/-- The zero of the given sign. -/
def zero (negative : Bool) : Single :=
  .finite negative ⟨0, fits_zero⟩

/-- The number nearest to `num / den` units, with the given sign. -/
def round (negative : Bool) (num den : Nat) : Single :=
  if h : roundBits 24 num den < unitLimit then
    .finite negative ⟨roundBits 24 num den, fits_roundBits h⟩
  else .infinity negative

/-- The number nearest to `num / den`, with the given sign. -/
def ofRatio (negative : Bool) (num den : Nat) : Single :=
  round negative (num * unitsPerOne) den

/-- The number nearest to a whole number. -/
def ofNat (n : Nat) : Single :=
  ofRatio false n 1

/-- The number nearest to a whole number with a sign. -/
def ofInt (i : Int) : Single :=
  ofRatio (decide (i < 0)) i.natAbs 1

instance (n : Nat) : OfNat Single n where
  ofNat := Single.ofNat n

/-- A decimal literal stands for the nearest number. -/
instance : OfScientific Single where
  ofScientific mantissa negativeExponent exponent :=
    if negativeExponent then ofRatio false mantissa (10 ^ exponent)
    else ofRatio false (mantissa * 10 ^ exponent) 1

instance : Inhabited Single where
  default := zero false

/-! ## Taking numbers apart -/

/-- Whether the value is not a number. -/
def isNaN : Single → Bool
  | .nan => true
  | _ => false

/-- The signed number of units of a finite number. -/
def signedUnits (negative : Bool) (size : Magnitude) : Int :=
  if negative then -(size.units : Int) else size.units

/-- The place of a number in the order of all numbers; the infinities lie beyond every finite
number, and what is not a number has no place. -/
def rank? : Single → Option Int
  | .nan => none
  | .infinity negative => some (if negative then -(unitLimit : Int) else unitLimit)
  | .finite negative size => some (signedUnits negative size)

end Single

end OverlayScrollbar
