import OverlayScrollbar.Proofs.Single.Limits
import OverlayScrollbar.Proofs.Sprite.Bytes

/-!
# How much of a pixel is covered

Whatever a shape is described by, infinities and what is no number included, its bar has finite sides in
every bitmap, and it covers a part of each pixel that lies between nothing and all of it. So no pixel has a
larger alpha than one that is covered whole.

- `Drawable.isFinite_bar`   : the bar of a shape
- `Bar.isNaN_signedDistance` : the distance of a pixel from the bar is a number
- `Drawable.coverage_mem`   : the part of a pixel that is covered
- `Sprite.fullAlpha`        : the alpha of a pixel that is covered whole
- `Sprite.alphaAt_le`       : no pixel has more

Main statement: `Sprite.rasterize_row_by_row`.
-/

namespace OverlayScrollbar

open Single (isNaN_add isNaN_add_left isNaN_sub)

/-! ## Bars -/

namespace Bar

variable {bar : Bar} {dx dy : Single}

/-- The sides and the radius are finite. -/
structure IsFinite (bar : Bar) : Prop where
  halfWidth : bar.halfWidth.IsFinite
  halfHeight : bar.halfHeight.IsFinite
  radius : bar.radius.IsFinite

theorem isNaN_beyond {half coordinate length : Single} (hradius : bar.radius.IsFinite)
    (hhalf : half.IsFinite) (hcoordinate : coordinate.isNaN = false) (hlength : length.IsFinite) :
    (bar.beyond half coordinate length).isNaN = false := by
  have hoffset := isNaN_sub hcoordinate (Single.isFinite_half hlength)
  exact isNaN_add (isNaN_sub (Single.isNaN_abs hoffset) hhalf) hradius

/-- The distances outside and inside the bar are never opposite infinities, as one of them is nothing. -/
theorem isNaN_signedDistance (hdx : dx.isNaN = false) (hdy : dy.isNaN = false) :
    ((max dx 0).hypot (max dy 0) + min (max dx dy) 0).isNaN = false := by
  have hlarger : (max dx dy).isNaN = false := Single.isNaN_max hdx hdy
  -- Inside both distances are negative, so that the first part is zero; outside the second one is
  -- finite.
  by_cases hinside : max dx dy < 0
  · have hx : max dx 0 = 0 :=
      Single.max_zero_eq_right (Single.lt_of_le_of_lt (Single.left_le_max hdx) hinside)
    have hy : max dy 0 = 0 :=
      Single.max_zero_eq_right (Single.lt_of_le_of_lt (Single.right_le_max hdx hdy) hinside)
    rw [hx, hy]
    exact isNaN_add_left (by decide +kernel) (Single.isNaN_min hlarger Single.isNaN_zero)
  · have hoffset : ((max dx 0).hypot (max dy 0)).isNaN = false :=
      Single.isNaN_hypot (Single.isNaN_max_zero dx) (Single.isNaN_max_zero dy)
    apply isNaN_add hoffset
    exact Single.isFinite_min_zero ((Single.not_lt_iff hlarger Single.isNaN_zero).1 hinside)

theorem coverage_mem (hradius : bar.radius.IsFinite) (hdx : dx.isNaN = false)
    (hdy : dy.isNaN = false) : 0 ≤ bar.coverage dx dy ∧ bar.coverage dx dy ≤ 1 := by
  have hdistance := isNaN_sub (isNaN_signedDistance hdx hdy) hradius
  apply Single.clampUnit_mem
  exact isNaN_add_left (by decide +kernel) (Single.isNaN_neg hdistance)

end Bar

/-! ## Shapes -/

namespace Drawable

variable (d : Drawable) {x y width height : Single}

/-- The inset and the radius are limited by the bitmap, whatever the shape asks for. -/
theorem isFinite_bar (hwidth : width.IsFinite) (hheight : height.IsFinite) (hpositive : 0 ≤ width) :
    (d.bar width height).IsFinite := by
  have hone : (1 : Single).IsFinite := by decide +kernel
  have hroom : ((width - 1) / 2).IsFinite :=
    Single.isFinite_half (Single.isFinite_sub_of_nonneg hwidth hone hpositive (by decide +kernel))
  have hinset := Single.isFinite_max_min d.inset hroom
  constructor
  · exact Single.isFinite_sub_of_nonneg (Single.isFinite_half hwidth) hinset
      (Single.zero_le_half hwidth hpositive) (Single.zero_le_max_left _)
  · exact Single.isFinite_half hheight
  · exact Single.isFinite_max_min _ (Single.isFinite_half hheight)

/-- A shape covers between nothing and all of a pixel. -/
theorem coverage_mem (hwidth : width.IsFinite) (hheight : height.IsFinite) (hpositive : 0 ≤ width)
    (hx : x.isNaN = false) (hy : y.isNaN = false) :
    0 ≤ d.coverage x y width height ∧ d.coverage x y width height ≤ 1 := by
  have hbar := d.isFinite_bar hwidth hheight hpositive
  exact Bar.coverage_mem hbar.radius (Bar.isNaN_beyond hbar.radius hbar.halfWidth hx hwidth)
    (Bar.isNaN_beyond hbar.radius hbar.halfHeight hy hheight)

end Drawable

/-! ## Alpha -/

namespace Sprite

variable {opacity covered : Single}

/-- The alpha of a pixel that is covered whole. -/
def fullAlpha (d : Drawable) (tintAlpha : Single) : UInt8 :=
  (tintAlpha.clampUnit * d.opacity.clampUnit * 255).nearest.toUInt8

theorem isNaN_centre {i : Nat} (hi : i ≤ 2 ^ 64) : (centre i).isNaN = false :=
  isNaN_add (Single.isFinite_ofNat hi).isNaN (by decide +kernel)

/-- The tint's alpha and the opacity of a shape are limited, unless they are no numbers. -/
theorem opacity_cases (tintAlpha opacity : Single) :
    tintAlpha.clampUnit * opacity.clampUnit = .nan ∨
      (tintAlpha.clampUnit * opacity.clampUnit).IsFinite ∧
        0 ≤ tintAlpha.clampUnit * opacity.clampUnit := by
  cases htint : tintAlpha.isNaN with
  | true =>
      rw [Single.eq_nan_of_isNaN htint]
      exact Or.inl (Single.nan_mul _)
  | false =>
      cases hopacity : opacity.isNaN with
      | true =>
          rw [Single.eq_nan_of_isNaN hopacity, Single.mul_comm]
          exact Or.inl (Single.nan_mul _)
      | false =>
          rcases Single.exists_measures_clampUnit htint with ⟨m, hm, _⟩
          rcases Single.exists_measures_clampUnit hopacity with ⟨n, hn, hpart⟩
          rcases hm.part hn hpart with ⟨k, hk, _⟩
          exact Or.inr ⟨hk.isFinite, (Single.measures_zero.le_iff hk).2 (Nat.zero_le k)⟩

/-- A pixel of which a part is covered has at most the alpha of one that is covered whole. -/
theorem alphaByte_le (tintAlpha opacity : Single) (hlow : 0 ≤ covered) (hhigh : covered ≤ 1) :
    alphaByte (tintAlpha.clampUnit * opacity.clampUnit) covered ≤
      (tintAlpha.clampUnit * opacity.clampUnit * 255).nearest.toUInt8 := by
  unfold alphaByte
  rcases opacity_cases tintAlpha opacity with hnan | ⟨hfinite, hnonneg⟩
  · -- Without an opacity nothing is seen.
    rw [hnan, Single.nan_mul, Single.nan_mul]
    exact UInt8.le_refl _
  · have hpart := (Single.mul_mem hfinite hnonneg hlow hhigh).2.2
    have hbyte := Single.mul_le_mul_right (x := 255) (by decide +kernel) (by decide +kernel) hpart
    exact Single.toUInt8_le_toUInt8 (Single.nearest_le_nearest hbyte)

theorem alphaAt_le (d : Drawable) (tintAlpha : Single) {width height : UInt32} {x y : Nat}
    (hx : x < width.toNat) (hy : y < height.toNat) :
    alphaAt d tintAlpha width height x y ≤ fullAlpha d tintAlpha := by
  have hwidth : width.toNat ≤ 2 ^ 64 := Nat.le_trans (Nat.le_of_lt width.toNat_lt) (by decide)
  have hheight : height.toNat ≤ 2 ^ 64 := Nat.le_trans (Nat.le_of_lt height.toNat_lt) (by decide)
  have hcentre : (centre x).isNaN = false := isNaN_centre (Nat.le_trans (Nat.le_of_lt hx) hwidth)
  have hcentre' : (centre y).isNaN = false := isNaN_centre (Nat.le_trans (Nat.le_of_lt hy) hheight)
  rcases d.coverage_mem (Single.isFinite_ofNat hwidth) (Single.isFinite_ofNat hheight)
    (Single.zero_le_ofNat _) hcentre hcentre' with ⟨hlow, hhigh⟩
  exact alphaByte_le tintAlpha d.opacity hlow hhigh

/-- Every size whose bytes can be addressed has a bitmap, unless it has no pixels. The bytes lie row by
row, four for each pixel: the colour of the tint, and an alpha that is told by the shape, the tint's alpha,
the size and the place, and is at most the one of a pixel that is covered whole. -/
theorem rasterize_row_by_row (d : Drawable) (tint : Color) (width height : UInt32)
    (hfits : 4 * width.toNat * height.toNat ≤ 2 ^ 63 - 1) :
    (∀ size, rasterize d width height tint = .ok (.error size) ↔
        (width = 0 ∨ height = 0) ∧ size = ⟨width, height⟩) ∧
      (¬(width = 0 ∨ height = 0) →
        ∃ sprite, rasterize d width height tint = .ok (.ok sprite) ∧
          sprite.width = width ∧ sprite.height = height ∧
          sprite.bytes.size = 4 * width.toNat * height.toNat ∧
          ∀ x y, x < width.toNat → y < height.toNat →
            Holds sprite.bytes (4 * (y * width.toNat + x))
                ⟨tint.toPixel.red, tint.toPixel.green, tint.toPixel.blue,
                  alphaAt d tint.alpha width height x y⟩ ∧
              alphaAt d tint.alpha width height x y ≤ fullAlpha d tint.alpha) := by
  by_cases hinvalid : width = 0 ∨ height = 0
  · rw [rasterize_of_invalid hinvalid]
    refine ⟨fun size => ?_, fun hvalid => absurd hinvalid hvalid⟩
    simp only [hinvalid, true_and, Except.ok.injEq, Except.error.injEq, eq_comm]
  · have hsize : width.toNat * height.toNat * 4 = 4 * width.toNat * height.toNat := by
      rw [Nat.mul_comm _ 4, Nat.mul_assoc]
    have hdrawn : rasterize d width height tint = .ok (.ok _) :=
      rasterize_of_valid hinvalid (by omega)
    refine ⟨fun size => ?_, fun _ => ⟨_, hdrawn, rfl, rfl, ?_, ?_⟩⟩
    · rw [hdrawn]
      simp [hinvalid]
    · rw [size_bytes_of_rasterize hdrawn, Nat.mul_assoc]
    · intro x y hx hy
      exact ⟨holds_of_rasterize hdrawn hx hy, alphaAt_le d tint.alpha hx hy⟩

/-- The theorem speaks of a shape whose radius is infinite and whose inset is no number, and of a tint
without a number for green. -/
theorem rasterize_row_by_row_extreme :
    4 * (3 : UInt32).toNat * (2 : UInt32).toNat ≤ 2 ^ 63 - 1 ∧
      ∃ sprite, rasterize ⟨48, .infinity false, .nan, 0.7⟩ 3 2 ⟨0.4, .nan, 2, 0.5⟩ = .ok (.ok sprite) ∧
        sprite.bytes.size = 24 ∧ Holds sprite.bytes 16 ⟨102, 0, 255, 89⟩ := by
  have hfits : 4 * (3 : UInt32).toNat * (2 : UInt32).toNat ≤ 2 ^ 63 - 1 := by decide
  rcases (rasterize_row_by_row ⟨48, .infinity false, .nan, 0.7⟩ ⟨0.4, .nan, 2, 0.5⟩ 3 2 hfits).2
    (by decide) with ⟨sprite, hdrawn, _, _, hsize, hpixels⟩
  refine ⟨hfits, sprite, hdrawn, hsize, ?_⟩
  have hpixel := (hpixels 1 1 (by decide) (by decide)).1
  have hvalue : Color.toPixel ⟨0.4, .nan, 2, 0.5⟩ = ⟨102, 0, 255, 128⟩ := by decide +kernel
  have halpha : alphaAt ⟨48, .infinity false, .nan, 0.7⟩ 0.5 3 2 1 1 = 89 := by decide +kernel
  rwa [hvalue, halpha] at hpixel

end Sprite

end OverlayScrollbar
