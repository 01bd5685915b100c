import OverlayScrollbar.Single.Basic

/-!
# The 32-bit encoding of single-precision numbers

One sign bit, eight exponent bits and 23 fraction bits, as in the interchange format of IEEE 754.

- `Single.ofBits` : reads an encoding
- `Single.toBits` : the encoding of a number
-/

namespace OverlayScrollbar

namespace Single

/-- The number with the given encoding. -/
def ofBits (bits : UInt32) : Single :=
  let code := bits.toNat
  let negative := decide (2 ^ 31 ≤ code)
  let exponent := code / 2 ^ 23 % 2 ^ 8
  let fraction := code % 2 ^ 23
  if exponent = 255 then
    if fraction = 0 then .infinity negative else .nan
  else if exponent = 0 then round negative fraction 1
  else round negative ((2 ^ 23 + fraction) * 2 ^ (exponent - 1)) 1

/-- The exponent and fraction bits of a size. A leading bit carries into the exponent. -/
def sizeBits (size : Magnitude) : Nat :=
  let k := excessBits 24 size.units
  k * 2 ^ 23 + size.units / 2 ^ k

/-- The encoding of a number; what is not a number has the encoding of the quiet one without
payload. -/
def toBits : Single → UInt32
  | .nan => 0x7fc00000
  | .infinity negative => if negative then 0xff800000 else 0x7f800000
  | .finite negative size =>
      UInt32.ofNat ((if negative then 2 ^ 31 else 0) + sizeBits size)

end Single

end OverlayScrollbar
