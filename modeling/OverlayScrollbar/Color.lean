import OverlayScrollbar.Single.Arithmetic
import OverlayScrollbar.Single.Order
import OverlayScrollbar.Single.Whole

/-!
# Colours

- `Color`         : straight-alpha colour with single-precision channels
- `Pixel`         : a colour with 8-bit channels
- `Color.toPixel` : rounding of channels to bytes
-/

namespace OverlayScrollbar

/-- A colour with channels from zero to one; alpha is not multiplied into the others. -/
structure Color where
  red : Single
  green : Single
  blue : Single
  alpha : Single
  deriving DecidableEq, Repr

/-- A colour with one byte per channel. -/
structure Pixel where
  red : UInt8
  green : UInt8
  blue : UInt8
  alpha : UInt8
  deriving DecidableEq, Repr

namespace Color

/-- A colour without transparency. -/
def solid (red green blue : Single) : Color :=
  ⟨red, green, blue, 1⟩

/-- Both colours have channels of the same size. A colour with a channel that is not a number is not
even the same as itself. -/
def sameChannels (a b : Color) : Bool :=
  a.red.sameSize b.red && a.green.sameSize b.green && a.blue.sameSize b.blue &&
    a.alpha.sameSize b.alpha

/-- A channel as a byte, limited to the interval from zero to one. -/
def channelByte (channel : Single) : UInt8 :=
  (channel.clampUnit * 255).nearest.toUInt8

/-- The colour with one byte per channel. -/
def toPixel (color : Color) : Pixel :=
  ⟨channelByte color.red, channelByte color.green, channelByte color.blue, channelByte color.alpha⟩

end Color

end OverlayScrollbar
