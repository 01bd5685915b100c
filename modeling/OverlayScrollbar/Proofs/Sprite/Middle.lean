import OverlayScrollbar.Proofs.Single.Diagonal
import OverlayScrollbar.Proofs.Sprite.Coverage

/-!
# The middle of a thumb

A bar leaves half a pixel at least on both sides of the middle, and its corners are never rounder than its
sides are long. So the pixel in the middle is covered by half at least, however narrow or flat the bitmap
is. The insets and radii of thumbs are whole numbers of halves, and so is all that the distance of this
pixel is computed of, up to the diagonal.

- `Single.le_sub_left`, `Single.add_le_left` : what is taken from a number or added to it
- `Bar.half_le_coverage`         : a pixel whose centre is not outside a bar
- `Bar.InHalves`                 : a bar that is measured in halves
- `Drawable.exists_inHalves_bar` : the bar of a shape
- `Bar.halves_beyond_middle`     : where the pixel in the middle lies
- `Drawable.half_le_coverage_middle` : how much of it is covered
- `Sprite.ShowsMiddle`           : a bitmap whose middle is seen

Main statement: `Sprite.thumbs_show_middle`.
-/

namespace OverlayScrollbar

namespace Single

variable {a x : Single}

/-! ## Sums and differences in order -/

theorem signedUnits_le_zero {negative : Bool} {size : Magnitude} (h : finite negative size ≤ 0) :
    signedUnits negative size ≤ 0 := by
  rcases le_iff.1 h with ⟨_, _, hr, hs, hle⟩
  cases hr
  cases rank?_zero.symm.trans hs
  exact hle

/-- To take away what is not above zero does not make a number smaller. -/
theorem le_sub_left (hx : x.IsFinite) (h : a ≤ 0) : x ≤ x - a := by
  cases x with
  | finite negative size =>
      rcases le_cases h with rfl | hzero | ⟨negative', size', _, _, rfl, _, _⟩
      · exact le_infinity rfl
      · exact absurd hzero (by decide +kernel)
      · have hnone := signedUnits_le_zero h
        have hdifference := roundedSum_mono (show signedUnits negative size ≤
          signedUnits negative size - signedUnits negative' size' by omega)
        rw [roundedSum_signedUnits] at hdifference
        exact le_iff.2 ⟨_, _, rfl, rank?_sub, hdifference⟩
  | _ => exact hx.elim

/-- To add what is not above zero does not make a number larger. -/
theorem add_le_left (hx : x.IsFinite) (ha : a.IsFinite) (h : a ≤ 0) : x + a ≤ x := by
  cases x with
  | finite negative size =>
      cases a with
      | finite negative' size' =>
          have hnone := signedUnits_le_zero h
          have hsum := roundedSum_mono (show
            signedUnits negative size + signedUnits negative' size' ≤ signedUnits negative size by omega)
          rw [roundedSum_signedUnits] at hsum
          exact le_iff.2 ⟨_, _, rank?_add, rfl, hsum⟩
      | _ => exact ha.elim
  | _ => exact hx.elim

theorem le_clampUnit (h : a ≤ x) (hone : a ≤ 1) : a ≤ x.clampUnit := by
  unfold clampUnit
  split
  · rename_i hbelow
    exact le_trans h (le_of_lt hbelow)
  · split
    · exact hone
    · exact h

end Single

open Single (Halves)

/-! ## Bars -/

namespace Bar

variable {bar : Bar}

/-- A bar covers half of a pixel at least whose centre is no farther from the nearest corner's centre than
the radius. -/
theorem half_le_coverage {dx dy : Single} {u v : Int} {radius : Nat} (hradius : Halves bar.radius radius)
    (hdx : Halves dx u) (hdy : Halves dy v)
    (h : u.toNat * u.toNat + v.toNat * v.toNat ≤ radius * radius) : 0.5 ≤ bar.coverage dx dy := by
  have hright : Halves (max dx 0) u.toNat := Int.toNat_eq_max u ▸ hdx.max Single.halves_zero
  have hbelow : Halves (max dy 0) v.toNat := Int.toNat_eq_max v ▸ hdy.max Single.halves_zero
  have hinside := (hdx.max hdy).min Single.halves_zero
  have hinside_le : min (max dx dy) 0 ≤ 0 :=
    (hinside.le_iff Single.halves_zero).2 (Int.min_le_right _ _)
  rcases hright.hypot hbelow hradius h with ⟨houtside, houtside_le⟩
  -- What is added inside takes away from the distance, which the radius covers.
  have hsum : (max dx 0).hypot (max dy 0) + min (max dx dy) 0 ≤ bar.radius :=
    Single.le_trans (Single.add_le_left houtside hinside.isFinite hinside_le) houtside_le
  have hnothing : bar.radius - bar.radius ≤ 0 :=
    ((hradius.sub hradius (by omega)).le_iff Single.halves_zero).2 (by omega)
  have hdistance := Single.le_trans (Single.sub_le_sub hradius.isFinite hsum) hnothing
  exact Single.le_clampUnit (Single.le_sub_left Single.halves_one.isFinite hdistance)
    (by decide +kernel)

/-- The sides of a bar and its radius are whole numbers of halves. Neither side is shorter than the radius,
and half a pixel is left on both sides of the middle. -/
structure InHalves (bar : Bar) (halfWidth halfHeight radius : Nat) : Prop where
  halfWidth_eq : Halves bar.halfWidth halfWidth
  halfHeight_eq : Halves bar.halfHeight halfHeight
  radius_eq : Halves bar.radius radius
  one_le : 1 ≤ halfWidth
  radius_le_halfWidth : radius ≤ halfWidth
  radius_le_halfHeight : radius ≤ halfHeight

/-- The centre of the pixel in the middle of a side is the middle, or half a pixel beyond it. -/
theorem halves_beyond_middle {half : Single} {n radius length : Nat} (hradius : Halves bar.radius radius)
    (hhalf : Halves half n) (hlength : 1 ≤ length ∧ length ≤ 2 ^ 22) (hn : n ≤ length)
    (hle : radius ≤ n) :
    Halves (bar.beyond half (Sprite.centre (length / 2)) (.ofNat length))
      ((1 - length % 2 : Nat) - n + radius) := by
  have hoffset := (Single.halves_sub_half (show length / 2 < length by omega) (by omega)).abs
  have hdistance : (2 * (length / 2 : Nat) + 1 - length : Int).natAbs = 1 - length % 2 := by omega
  rw [hdistance] at hoffset
  exact (hoffset.sub hhalf (by omega)).add hradius (by omega)

end Bar

/-! ## Shapes -/

namespace Drawable

variable {d : Drawable} {inset radius : Int} {width height : Nat}

/-- The inset and the radius are limited by the bitmap. -/
theorem exists_inHalves_bar (hinset : Halves d.inset inset) (hradius : Halves d.cornerRadius radius)
    (hwidth : 1 ≤ width ∧ width ≤ 2 ^ 22) (hheight : height ≤ 2 ^ 22) :
    ∃ halfWidth radius, halfWidth ≤ width ∧
      (d.bar (.ofNat width) (.ofNat height)).InHalves halfWidth height radius := by
  have hroom : Halves ((Single.ofNat width - 1) / 2) (width - 1 : Nat) := by
    rw [Single.ofNat_sub_one hwidth.1 (by omega)]
    exact Single.halves_half (by omega)
  have hgap := (hinset.min hroom).max Single.halves_zero
  have hside := (Single.halves_half (show width ≤ 2 ^ 24 by omega)).sub hgap (by omega)
  have hlimited := (((hradius.min hside).min (Single.halves_half (show height ≤ 2 ^ 24 by omega))).max
    Single.halves_zero)
  obtain ⟨halfWidth, hhalfWidth⟩ :=
    Int.eq_ofNat_of_zero_le (show 0 ≤ (width : Int) - max (min inset (width - 1 : Nat)) 0 by omega)
  rw [hhalfWidth] at hside hlimited
  obtain ⟨limit, hlimit⟩ :=
    Int.eq_ofNat_of_zero_le (Int.le_max_right (min (min radius halfWidth) height) 0)
  rw [hlimit] at hlimited
  refine ⟨halfWidth, limit, by omega, hside, Single.halves_half (by omega), hlimited, ?_, ?_, ?_⟩
  · omega
  · omega
  · omega

/-- Only a corner that is as round as its sides are long reaches to the pixel in the middle, and only to
its own quarter. -/
theorem corner_le {x y limit : Nat} (hx : x ≤ 1) (hy : y ≤ 1) (hright : x = 1 → 1 ≤ limit)
    (hbelow : y = 1 → 2 ≤ limit) : x * x + y * y ≤ limit * limit := by
  rcases Nat.le_one_iff_eq_zero_or_eq_one.1 hy with rfl | rfl
  · rcases Nat.le_one_iff_eq_zero_or_eq_one.1 hx with rfl | rfl
    · exact Nat.zero_le _
    · exact Nat.mul_le_mul (hright rfl) (hright rfl)
  · calc
      x * x + 1 * 1 ≤ 1 * 1 + 1 * 1 := Nat.add_le_add_right (Nat.mul_le_mul hx hx) _
      _ ≤ 2 * 2 := by decide
      _ ≤ limit * limit := Nat.mul_le_mul (hbelow rfl) (hbelow rfl)

/-- A shape covers half of the pixel in the middle at least. -/
theorem half_le_coverage_middle (hinset : Halves d.inset inset)
    (hradius : Halves d.cornerRadius radius) (hwidth : 1 ≤ width ∧ width ≤ 2 ^ 22)
    (hheight : 1 ≤ height ∧ height ≤ 2 ^ 22) :
    0.5 ≤ d.coverage (Sprite.centre (width / 2)) (Sprite.centre (height / 2)) (.ofNat width)
      (.ofNat height) := by
  rcases exists_inHalves_bar hinset hradius hwidth hheight.2 with ⟨halfWidth, limit, hle, hbar⟩
  have hone := hbar.one_le
  have hlimit := hbar.radius_le_halfWidth
  have hlimit' := hbar.radius_le_halfHeight
  apply Bar.half_le_coverage hbar.radius_eq
    (Bar.halves_beyond_middle hbar.radius_eq hbar.halfWidth_eq hwidth hle hlimit)
    (Bar.halves_beyond_middle hbar.radius_eq hbar.halfHeight_eq hheight (Nat.le_refl _) hlimit')
  -- A bitmap of an even height has two rows at least, and so much room for the corner.
  apply corner_le <;> omega

end Drawable

/-! ## Bitmaps -/

namespace Sprite

variable {d : Drawable} {tint : Color} {width height : UInt32}

theorem alphaByte_le_alphaByte {opacity covered covered' : Single} (hfinite : opacity.IsFinite)
    (hpos : 0 < opacity) (h : covered ≤ covered') :
    alphaByte opacity covered ≤ alphaByte opacity covered' := by
  have hpart := Single.mul_le_mul_left hfinite hpos h
  have hbyte := Single.mul_le_mul_right (x := 255) (by decide +kernel) (by decide +kernel) hpart
  exact Single.toUInt8_le_toUInt8 (Single.nearest_le_nearest hbyte)

/-- The shape has a bitmap of this size. It covers half of the pixel in the middle at least, which has at
least the given alpha. -/
def ShowsMiddle (d : Drawable) (width height : UInt32) (tint : Color) (least : UInt8) : Prop :=
  ∃ sprite pixel, rasterize d width height tint = .ok (.ok sprite) ∧
    sprite.pixelAt? (width.toNat / 2) (height.toNat / 2) = some pixel ∧
    0.5 ≤ d.coverage (centre (width.toNat / 2)) (centre (height.toNat / 2)) (.ofNat width.toNat)
      (.ofNat height.toNat) ∧
    least ≤ pixel.alpha

/-- The middle of a shape that is measured in halves has at least the alpha of half a pixel. -/
theorem showsMiddle_of_halves {inset radius : Int} {opacity : Single} (hinset : Halves d.inset inset)
    (hradius : Halves d.cornerRadius radius) (hwidth : 1 ≤ width.toNat ∧ width.toNat ≤ 2 ^ 22)
    (hheight : 1 ≤ height.toNat ∧ height.toNat ≤ 2 ^ 22)
    (hopacity : tint.alpha.clampUnit * d.opacity.clampUnit = opacity) (hfinite : opacity.IsFinite)
    (hpos : 0 < opacity) : ShowsMiddle d width height tint (alphaByte opacity 0.5) := by
  have hvalid : ¬(width = 0 ∨ height = 0) := by
    rintro (rfl | rfl)
    · exact absurd hwidth.1 (by decide)
    · exact absurd hheight.1 (by decide)
  have hpixels : width.toNat * height.toNat ≤ 2 ^ 22 * 2 ^ 22 := Nat.mul_le_mul hwidth.2 hheight.2
  have hdrawn : rasterize d width height tint = .ok (.ok _) :=
    rasterize_of_valid hvalid (by omega)
  have hhalf := Drawable.half_le_coverage_middle hinset hradius hwidth hheight
  subst hopacity
  exact ⟨_, _, hdrawn, pixelAt?_of_rasterize hdrawn (by omega) (by omega), hhalf,
    alphaByte_le_alphaByte hfinite hpos hhalf⟩

/-- However narrow or flat a thumb's bitmap is, at rest or held, half of the pixel in its middle is covered
at least. With a tint that is not transparent the pixel has an alpha of at least 89 at rest, and of at least
128 while the thumb is held. -/
theorem thumbs_show_middle (intrinsic : UInt32) (htint : tint.alpha = 1)
    (hwidth : 1 ≤ width.toNat ∧ width.toNat ≤ 2 ^ 22)
    (hheight : 1 ≤ height.toNat ∧ height.toNat ≤ 2 ^ 22) :
    ShowsMiddle (Drawable.atRest.withHeight intrinsic) width height tint 89 ∧
      ShowsMiddle (Drawable.held.withHeight intrinsic) width height tint 128 := by
  have hrest : tint.alpha.clampUnit * Drawable.atRest.opacity.clampUnit = 0.7 := by
    rw [htint]
    decide +kernel
  have hheld : tint.alpha.clampUnit * Drawable.held.opacity.clampUnit = 1 := by
    rw [htint]
    decide +kernel
  have hleast : alphaByte 0.7 0.5 = 89 ∧ alphaByte 1 0.5 = 128 := by decide +kernel
  -- Both shapes are given in whole pixels, and the height they are meant for is not asked for.
  rw [← hleast.1, ← hleast.2]
  constructor
  · exact showsMiddle_of_halves (Single.halves_ofNat (j := 8) (by decide))
      (Single.halves_ofNat (j := 4) (by decide)) hwidth hheight hrest (by decide +kernel)
      (by decide +kernel)
  · exact showsMiddle_of_halves (Single.halves_ofNat (j := 6) (by decide))
      (Single.halves_ofNat (j := 4) (by decide)) hwidth hheight hheld (by decide +kernel)
      (by decide +kernel)

/-- The theorem speaks of two columns, of which each is covered by half: no thumb has less alpha. -/
theorem thumbs_show_middle_narrow :
    (Color.solid 0.4 0.6 1).alpha = 1 ∧
      (1 ≤ (2 : UInt32).toNat ∧ (2 : UInt32).toNat ≤ 2 ^ 22) ∧
      (1 ≤ (3 : UInt32).toNat ∧ (3 : UInt32).toNat ≤ 2 ^ 22) ∧
      ShowsMiddle (Drawable.atRest.withHeight 30) 2 3 (.solid 0.4 0.6 1) 89 ∧
      ShowsMiddle (Drawable.held.withHeight 30) 2 3 (.solid 0.4 0.6 1) 128 ∧
      shade .atRest 2 3 (.solid 0.4 0.6 1) 1 1 = ⟨102, 153, 255, 89⟩ := by
  have hwidth : 1 ≤ (2 : UInt32).toNat ∧ (2 : UInt32).toNat ≤ 2 ^ 22 := by decide
  have hheight : 1 ≤ (3 : UInt32).toNat ∧ (3 : UInt32).toNat ≤ 2 ^ 22 := by decide
  rcases thumbs_show_middle 30 (show (Color.solid 0.4 0.6 1).alpha = 1 from rfl) hwidth hheight with
    ⟨hrest, hheld⟩
  exact ⟨rfl, hwidth, hheight, hrest, hheld, by decide +kernel⟩

end Sprite

end OverlayScrollbar
