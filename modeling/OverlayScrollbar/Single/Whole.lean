import OverlayScrollbar.Single.Basic

/-!
# Whole numbers from single-precision numbers

- `Single.trunc`, `Single.floor`, `Single.nearest` : rounding to a whole number that stays a
  single-precision number
- `Single.wholeUpTo`, `Single.wholeBetween` : the whole part as a number of a bounded integer type
-/

namespace OverlayScrollbar

namespace Single

/-! ## Rounding to whole numbers -/

/-- Replaces the size of a finite number by a whole number; all else stays. -/
def mapWhole (whole : Bool → Nat → Nat) : Single → Single
  | .finite negative size => ofRatio negative (whole negative size.units) 1
  | x => x

/-- Rounds toward zero. -/
def trunc : Single → Single :=
  mapWhole fun _ units => units / unitsPerOne

/-- Rounds to the whole number below. -/
def floor : Single → Single :=
  mapWhole fun negative units =>
    if negative then (units + unitsPerOne - 1) / unitsPerOne else units / unitsPerOne

/-- Rounds to the nearest whole number; a half goes away from zero. -/
def nearest : Single → Single :=
  mapWhole fun _ units => (2 * units + unitsPerOne) / (2 * unitsPerOne)

/-! ## Conversion -/

/-- The whole part, kept between zero and `limit`; zero for what is not a number. -/
def wholeUpTo (limit : Nat) : Single → Nat
  | .nan => 0
  | .infinity negative => if negative then 0 else limit
  | .finite negative size => if negative then 0 else min (size.units / unitsPerOne) limit

/-- The whole part, kept between `lo` and `hi`; zero for what is not a number. -/
def wholeBetween (lo hi : Int) : Single → Int
  | .nan => 0
  | .infinity negative => if negative then lo else hi
  | .finite negative size =>
      let whole : Int := (size.units / unitsPerOne : Nat)
      max lo (min (if negative then -whole else whole) hi)

/-- The whole part as a byte. -/
def toUInt8 (x : Single) : UInt8 :=
  UInt8.ofNat (x.wholeUpTo 255)

/-- The whole part as an unsigned 32-bit number. -/
def toUInt32 (x : Single) : UInt32 :=
  UInt32.ofNat (x.wholeUpTo 4294967295)

/-- The whole part as a signed 32-bit number. -/
def toInt32 (x : Single) : Int :=
  x.wholeBetween (-2 ^ 31) (2 ^ 31 - 1)

/-- The whole part as a signed 64-bit number. -/
def toInt64 (x : Single) : Int :=
  x.wholeBetween (-2 ^ 63) (2 ^ 63 - 1)

end Single

end OverlayScrollbar
