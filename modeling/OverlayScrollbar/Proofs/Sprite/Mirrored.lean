import OverlayScrollbar.Proofs.Single.Halves
import OverlayScrollbar.Proofs.Sprite.Bytes

/-!
# Bitmaps in a mirror

The centre of a pixel and the middle of a bitmap are whole numbers of halves, which are held exactly in
bitmaps of up to `2 ^ 23` pixels a side, and so is their difference. Two pixels that lie mirrored in the
middle are equally far from it, and a shape asks for nothing else.

- `Single.abs_sub_half_mirror` : two pixels of a side that lie mirrored in its middle
- `Bar.beyond_mirror`          : what a bar makes of them
- `Sprite.shade_mirror_column`, `Sprite.shade_mirror_row` : two pixels of a shape

Main statement: `Sprite.rasterize_mirrored`.
-/

namespace OverlayScrollbar

namespace Single

/-- The centres of two pixels that lie mirrored in the middle of a side are equally far from it. -/
theorem abs_sub_half_mirror {i j : Nat} (hi : i < j) (hj : j ≤ 2 ^ 23) :
    (ofNat (j - 1 - i) + 0.5 - ofNat j / 2).abs = (ofNat i + 0.5 - ofNat j / 2).abs := by
  have hmirrored := halves_sub_half (show j - 1 - i < j by omega) hj
  exact hmirrored.abs_eq_abs (halves_sub_half hi hj) (by omega)

end Single

/-- Of a coordinate, a bar looks only at how far it is from the middle. -/
theorem Bar.beyond_mirror (bar : Bar) (half : Single) {i length : Nat} (hi : i < length)
    (hlength : length ≤ 2 ^ 23) :
    bar.beyond half (Sprite.centre (length - 1 - i)) (.ofNat length) =
      bar.beyond half (Sprite.centre i) (.ofNat length) := by
  unfold beyond Sprite.centre
  rw [Single.abs_sub_half_mirror hi hlength]

namespace Sprite

section

variable (d : Drawable) (tint : Color) {width height : UInt32} {x : Nat}

theorem shade_mirror_column (y : Nat) (hx : x < width.toNat) (hwidth : width.toNat ≤ 2 ^ 23) :
    shade d width height tint (width.toNat - 1 - x) y = shade d width height tint x y := by
  unfold shade alphaAt Drawable.coverage
  dsimp only
  rw [Bar.beyond_mirror _ _ hx hwidth]

theorem shade_mirror_row (x : Nat) {y : Nat} (hy : y < height.toNat) (hheight : height.toNat ≤ 2 ^ 23) :
    shade d width height tint x (height.toNat - 1 - y) = shade d width height tint x y := by
  unfold shade alphaAt Drawable.coverage
  dsimp only
  rw [Bar.beyond_mirror _ _ hy hheight]

end

/-- Every shape has a bitmap of every size up to `2 ^ 23` pixels a side, and its pixels are the same from
left to right and from right to left, and from top to bottom and from bottom to top. -/
theorem rasterize_mirrored (d : Drawable) (tint : Color) {width height : UInt32}
    (hwidth : 1 ≤ width.toNat ∧ width.toNat ≤ 2 ^ 23)
    (hheight : 1 ≤ height.toNat ∧ height.toNat ≤ 2 ^ 23) :
    ∃ sprite, rasterize d width height tint = .ok (.ok sprite) ∧
      ∀ x y, x < width.toNat → y < height.toNat →
        ∃ pixel, sprite.pixelAt? x y = some pixel ∧
          sprite.pixelAt? (width.toNat - 1 - x) y = some pixel ∧
          sprite.pixelAt? x (height.toNat - 1 - y) = some pixel := by
  have hvalid : ¬(width = 0 ∨ height = 0) := by
    rintro (rfl | rfl)
    · exact absurd hwidth.1 (by decide)
    · exact absurd hheight.1 (by decide)
  have hpixels : width.toNat * height.toNat ≤ 2 ^ 23 * 2 ^ 23 := Nat.mul_le_mul hwidth.2 hheight.2
  -- Even the largest of these sizes has fewer bytes than can be addressed.
  have hdrawn : rasterize d width height tint = .ok (.ok _) :=
    rasterize_of_valid hvalid (by omega)
  refine ⟨_, hdrawn, fun x y hx hy => ⟨shade d width height tint x y, ?_, ?_, ?_⟩⟩
  · exact pixelAt?_of_rasterize hdrawn hx hy
  · rw [← shade_mirror_column d tint y hx hwidth.2]
    exact pixelAt?_of_rasterize hdrawn (by omega) hy
  · rw [← shade_mirror_row d tint x hy hheight.2]
    exact pixelAt?_of_rasterize hdrawn hx (by omega)

/-- The theorem speaks of a thumb of an odd width and an even height. -/
theorem rasterize_mirrored_odd :
    (1 ≤ (7 : UInt32).toNat ∧ (7 : UInt32).toNat ≤ 2 ^ 23) ∧
      (1 ≤ (4 : UInt32).toNat ∧ (4 : UInt32).toNat ≤ 2 ^ 23) ∧
      ∃ sprite, rasterize ⟨48, 2, 0.5, 1⟩ 7 4 (.solid 0.4 0.6 1) = .ok (.ok sprite) ∧
        sprite.pixelAt? 1 0 = some ⟨102, 153, 255, 178⟩ ∧
        sprite.pixelAt? 5 0 = sprite.pixelAt? 1 0 ∧ sprite.pixelAt? 1 3 = sprite.pixelAt? 1 0 := by
  have hwidth : 1 ≤ (7 : UInt32).toNat ∧ (7 : UInt32).toNat ≤ 2 ^ 23 := by decide
  have hheight : 1 ≤ (4 : UInt32).toNat ∧ (4 : UInt32).toNat ≤ 2 ^ 23 := by decide
  rcases rasterize_mirrored ⟨48, 2, 0.5, 1⟩ (.solid 0.4 0.6 1) hwidth hheight with
    ⟨sprite, hdrawn, hmirrored⟩
  rcases hmirrored 1 0 (by decide) (by decide) with ⟨pixel, hpixel, hcolumn, hrow⟩
  have hshade : shade ⟨48, 2, 0.5, 1⟩ 7 4 (.solid 0.4 0.6 1) 1 0 = ⟨102, 153, 255, 178⟩ := by
    decide +kernel
  refine ⟨hwidth, hheight, sprite, hdrawn, ?_, hcolumn.trans hpixel.symm, hrow.trans hpixel.symm⟩
  rw [← hshade]
  exact pixelAt?_of_rasterize hdrawn (by decide) (by decide)

end Sprite

end OverlayScrollbar
