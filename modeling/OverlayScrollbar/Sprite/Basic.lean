import OverlayScrollbar.Color

/-!
# Thumb bitmaps

A thumb is a rounded bar in the middle of its strip. It is drawn once into a bitmap: the tint gives
the colour, and the covered part of each pixel gives the alpha.

- `Bar`               : a rounded rectangle, and how much of a pixel it covers
- `Drawable`          : the shape of a thumb
- `Drawable.coverage` : the covered part of a pixel
- `Sprite`            : a bitmap
- `Sprite.rasterize`  : the bitmap of a shape
- `Sprite.pixel?`     : one pixel of a bitmap
-/

namespace OverlayScrollbar

/-! ## Shapes -/

/-- A rounded rectangle around the middle of a bitmap. -/
structure Bar where
  halfWidth : Single
  halfHeight : Single
  /-- The radius of the corners. -/
  radius : Single
  deriving DecidableEq, Repr

namespace Bar

/-- How far a coordinate lies beyond the centre of the corner on its side, along an axis of the given
length; `half` is the bar's extent on that axis. -/
def beyond (bar : Bar) (half coordinate length : Single) : Single :=
  (coordinate - length / 2).abs - half + bar.radius

/-- The part of a pixel that the bar covers, from its signed distance to the rounded rectangle. The
pixel lies `dx` and `dy` beyond the centre of the nearest corner. -/
def coverage (bar : Bar) (dx dy : Single) : Single :=
  let outside := (max dx 0).hypot (max dy 0)
  let inside := min (max dx dy) 0
  let distance := outside + inside - bar.radius
  (0.5 - distance).clampUnit

end Bar

/-- The shape of a thumb. -/
structure Drawable where
  /-- The height at which the shape is meant to be drawn. -/
  height : UInt32
  /-- The radius of the bar's corners. -/
  cornerRadius : Single
  /-- The gap between the bar and each side of the strip. -/
  inset : Single
  /-- The opacity of the bar, on top of the tint's alpha. -/
  opacity : Single
  deriving DecidableEq, Repr

namespace Drawable

/-- The thumb at rest. -/
def atRest : Drawable :=
  ⟨48, 4, 8, 0.7⟩

/-- The thumb while it is held. -/
def held : Drawable :=
  ⟨48, 4, 6, 1⟩

/-- The shape at another height. -/
def withHeight (d : Drawable) (height : UInt32) : Drawable :=
  { d with height := height }

/-- The bar of a shape in a bitmap of the given size. Its sides are never beyond the middle. -/
def bar (d : Drawable) (width height : Single) : Bar :=
  let inset := max (min d.inset ((width - 1) / 2)) 0
  let halfWidth := width / 2 - inset
  let halfHeight := height / 2
  { halfWidth := halfWidth
    halfHeight := halfHeight
    radius := max (min (min d.cornerRadius halfWidth) halfHeight) 0 }

/-- The part that the shape covers of the pixel with centre `(x, y)`, in a bitmap of the given
size. -/
def coverage (d : Drawable) (x y width height : Single) : Single :=
  let bar := d.bar width height
  bar.coverage (bar.beyond bar.halfWidth x width) (bar.beyond bar.halfHeight y height)

end Drawable

/-! ## Bitmaps -/

/-- A bitmap with four bytes per pixel (red, green, blue, alpha), in rows from top to bottom. The bytes
are drawn when they are first looked at. -/
structure Sprite where
  width : UInt32
  height : UInt32
  buffer : Thunk (Array UInt8)

/-- A bitmap cannot have this size. -/
structure InvalidSize where
  width : UInt32
  height : UInt32
  deriving DecidableEq, Repr

/-- The text that reports a size without pixels. -/
def InvalidSize.message (e : InvalidSize) : String :=
  s!"Sprite size {e.width.toNat}x{e.height.toNat} is invalid"

namespace Sprite

/-- The bytes of a bitmap. -/
def bytes (s : Sprite) : Array UInt8 :=
  s.buffer.get

/-- Bitmaps are told apart by their sizes and bytes, drawn or not. -/
theorem eq_iff {a b : Sprite} :
    a = b ↔ a.width = b.width ∧ a.height = b.height ∧ a.bytes = b.bytes := by
  constructor
  · rintro rfl
    exact ⟨rfl, rfl, rfl⟩
  · rintro ⟨hwidth, hheight, hbytes⟩
    rcases a with ⟨width, height, ⟨draw⟩⟩
    rcases b with ⟨width', height', ⟨draw'⟩⟩
    cases hwidth
    cases hheight
    have hdraw : draw = draw' := funext fun _ => hbytes
    rw [hdraw]

instance : DecidableEq Sprite :=
  fun _ _ => decidable_of_iff' _ eq_iff

instance : Repr Sprite where
  reprPrec s := reprPrec (s.width, s.height, s.bytes)

/-- The centres of pixels `0`, `1`, … on an axis. -/
def centre (i : Nat) : Single :=
  Single.ofNat i + 0.5

/-- The alpha byte of a pixel of which a part is covered. -/
def alphaByte (opacity covered : Single) : UInt8 :=
  (opacity * covered * 255).nearest.toUInt8

/-- The bytes of a shape's bitmap, row by row. -/
def paint (d : Drawable) (width height : UInt32) (tint : Color) : Array UInt8 :=
  let color := tint.toPixel
  let opacity := tint.alpha.clampUnit * d.opacity.clampUnit
  let w := Single.ofNat width.toNat
  let h := Single.ofNat height.toNat
  let bar := d.bar w h
  let columns := (List.range width.toNat).map fun x => bar.beyond bar.halfWidth (centre x) w
  let rows := (List.range height.toNat).map fun y => bar.beyond bar.halfHeight (centre y) h
  let bytes := rows.flatMap fun dy =>
    columns.flatMap fun dx =>
      [color.red, color.green, color.blue, alphaByte opacity (bar.coverage dx dy)]
  bytes.toArray

/-- A buffer of that many bytes can be made: its length fits a word, and its addresses are not
negative when they are signed. -/
def checkBuffer (length : Nat) : Checked Unit :=
  if 2 ^ 64 ≤ length then .error .overflow
  else if 2 ^ 63 ≤ length then .error .bufferTooLarge
  else .ok ()

/-- The bitmap of a shape, unless the size has no pixels. -/
def rasterize (d : Drawable) (width height : UInt32) (tint : Color) :
    Checked (Except InvalidSize Sprite) := do
  if width = 0 ∨ height = 0 then
    return .error ⟨width, height⟩
  checkBuffer (width.toNat * height.toNat * 4)
  return .ok ⟨width, height, .mk fun _ => paint d width height tint⟩

/-- The pixel of column `x` and row `y`, if it lies inside. Its place in the buffer is computed in 32
bits. -/
def pixel? (s : Sprite) (x y : UInt32) : Checked (Option Pixel) := do
  if s.width ≤ x ∨ s.height ≤ y then
    return none
  let row ← Checked.halfWord (y.toNat * s.width.toNat)
  let column ← Checked.halfWord (row + x.toNat)
  let start ← Checked.halfWord (column * 4)
  match s.bytes[start]?, s.bytes[start + 1]?, s.bytes[start + 2]?, s.bytes[start + 3]? with
  | some red, some green, some blue, some alpha => return some ⟨red, green, blue, alpha⟩
  | _, _, _, _ => .error .outOfBounds

end Sprite

end OverlayScrollbar
