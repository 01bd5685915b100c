import OverlayScrollbar.Proofs.Sprite.Cache

/-!
# The bytes of a bitmap

The bytes lie row by row, four for each pixel. A pixel is looked up at a place that is computed in 32 bits:
that is the place of its bytes as long as the place fits, and a fault beyond that.

- `length_flatMap_of_length`, `getElem?_flatMap_of_length` : lists that are glued of pieces of one length
- `Sprite.pixelAt?`         : the pixel at its exact place in the buffer
- `Sprite.alphaAt`          : the alpha of a pixel of a shape
- `Sprite.size_paint`, `Sprite.getElem?_paint` : what is painted
- `Sprite.Holds`, `Sprite.holds_of_rasterize` : the bytes of a bitmap that is drawn
- `Sprite.pixel?_of_inside` : what is found when they are looked at

Main statement: `Sprite.pixel?_of_rasterize`.
-/

namespace OverlayScrollbar

/-! ## Tables of pieces of one length -/

section

variable {α β γ : Type} {n : Nat}

theorem length_flatMap_of_length {f : α → List γ} (h : ∀ a, (f a).length = n) (as : List α) :
    (as.flatMap f).length = n * as.length := by
  induction as with
  | nil => rfl
  | cons a as ih =>
      rw [List.flatMap_cons, List.length_append, h, ih, List.length_cons, Nat.mul_add_one, Nat.add_comm]

theorem getElem?_flatMap_of_length {f : α → List γ} (h : ∀ a, (f a).length = n) (as : List α) (i : Nat)
    {j : Nat} (hj : j < n) : (as.flatMap f)[n * i + j]? = as[i]?.bind fun a => (f a)[j]? := by
  induction as generalizing i with
  | nil => simp
  | cons a as ih =>
      rw [List.flatMap_cons]
      cases i with
      | zero =>
          rw [Nat.mul_zero, Nat.zero_add, List.getElem?_append_left (by rw [h]; exact hj)]
          rfl
      | succ i =>
          -- The first block is skipped whole.
          have hplace : n * (i + 1) + j = n + (n * i + j) := by
            rw [Nat.mul_add_one]
            omega
          rw [hplace, List.getElem?_append_right (by rw [h]; omega), h, Nat.add_sub_cancel_left, ih]
          rfl

variable {piece : α → β → List γ} {w : Nat} (h : ∀ a b, (piece a b).length = n) (rows : List α)
  {columns : List β} (hcolumns : columns.length = w)

include h hcolumns

theorem length_table : (rows.flatMap fun a => columns.flatMap fun b => piece a b).length =
    n * (w * rows.length) := by
  rw [length_flatMap_of_length (fun a => length_flatMap_of_length (h a) columns), hcolumns,
    Nat.mul_assoc]

/-- The piece of a row and a column comes after all rows above, and after the row's pieces before it. -/
theorem getElem?_table (y : Nat) {x k : Nat} (hx : x < w) (hk : k < n) :
    (rows.flatMap fun a => columns.flatMap fun b => piece a b)[n * (y * w + x) + k]? =
      rows[y]?.bind fun a => columns[x]?.bind fun b => (piece a b)[k]? := by
  have hplace : n * (y * w + x) + k = n * columns.length * y + (n * x + k) := by
    rw [hcolumns, Nat.mul_add, Nat.mul_comm y, Nat.mul_assoc, Nat.add_assoc]
  have hrow : n * x + k < n * columns.length := by
    calc
      n * x + k < n * (x + 1) := by
        rw [Nat.mul_add_one]
        omega
      _ ≤ n * columns.length := Nat.mul_le_mul_left n (hcolumns ▸ hx)
  rw [hplace, getElem?_flatMap_of_length (fun a => length_flatMap_of_length (h a) columns) rows y hrow]
  simp only [getElem?_flatMap_of_length (h _) columns x hk]

end

namespace Sprite

variable {d : Drawable} {width height : UInt32} {tint : Color} {sprite : Sprite}

/-! ## Pixels -/

/-- The pixel of column `x` and row `y`, at its exact place in the buffer. -/
def pixelAt? (s : Sprite) (x y : Nat) : Option Pixel :=
  let start := 4 * (y * s.width.toNat + x)
  match s.bytes[start]?, s.bytes[start + 1]?, s.bytes[start + 2]?, s.bytes[start + 3]? with
  | some red, some green, some blue, some alpha => some ⟨red, green, blue, alpha⟩
  | _, _, _, _ => none

/-- The alpha of the pixel of column `x` and row `y` of a shape. Of the tint, only its alpha counts. -/
def alphaAt (d : Drawable) (tintAlpha : Single) (width height : UInt32) (x y : Nat) : UInt8 :=
  alphaByte (tintAlpha.clampUnit * d.opacity.clampUnit)
    (d.coverage (centre x) (centre y) (.ofNat width.toNat) (.ofNat height.toNat))

/-- The pixel of column `x` and row `y` of a shape: the colour of the tint, with the alpha of the shape. -/
def shade (d : Drawable) (width height : UInt32) (tint : Color) (x y : Nat) : Pixel :=
  { tint.toPixel with alpha := alphaAt d tint.alpha width height x y }

/-! ## Painting -/

theorem size_paint (d : Drawable) (width height : UInt32) (tint : Color) :
    (paint d width height tint).size = 4 * (width.toNat * height.toNat) := by
  unfold paint
  dsimp only
  rw [List.size_toArray]
  refine (length_table (n := 4) ?_ _ (List.length_map _)).trans ?_
  · exact fun _ _ => rfl
  · rw [List.length_map, List.length_range, List.length_range]

/-- The four bytes of a pixel. -/
theorem getElem?_paint (d : Drawable) (tint : Color) {x y k : Nat} (hx : x < width.toNat)
    (hy : y < height.toNat) (hk : k < 4) :
    (paint d width height tint)[4 * (y * width.toNat + x) + k]? =
      [tint.toPixel.red, tint.toPixel.green, tint.toPixel.blue,
        alphaAt d tint.alpha width height x y][k]? := by
  unfold paint
  dsimp only
  rw [List.getElem?_toArray]
  refine (getElem?_table (n := 4) ?_ _ ?_ y hx hk).trans ?_
  · exact fun _ _ => rfl
  · rw [List.length_map, List.length_range]
  · rw [List.getElem?_map, List.getElem?_map, List.getElem?_range hx, List.getElem?_range hy]
    rfl

/-- Where the four bytes of a pixel lie in a buffer. -/
def Holds (bytes : Array UInt8) (start : Nat) (pixel : Pixel) : Prop :=
  bytes[start]? = some pixel.red ∧ bytes[start + 1]? = some pixel.green ∧
    bytes[start + 2]? = some pixel.blue ∧ bytes[start + 3]? = some pixel.alpha

theorem holds_paint (d : Drawable) (tint : Color) {x y : Nat} (hx : x < width.toNat)
    (hy : y < height.toNat) :
    Holds (paint d width height tint) (4 * (y * width.toNat + x)) (shade d width height tint x y) :=
  ⟨getElem?_paint d tint hx hy (k := 0) (by decide), getElem?_paint d tint hx hy (k := 1) (by decide),
    getElem?_paint d tint hx hy (k := 2) (by decide), getElem?_paint d tint hx hy (k := 3) (by decide)⟩

theorem pixelAt?_of_holds {x y : Nat} {pixel : Pixel}
    (h : Holds sprite.bytes (4 * (y * sprite.width.toNat + x)) pixel) :
    sprite.pixelAt? x y = some pixel := by
  rcases h with ⟨hred, hgreen, hblue, halpha⟩
  unfold pixelAt?
  simp only [hred, hgreen, hblue, halpha]

/-! ## Bitmaps that are drawn -/

section

variable (h : rasterize d width height tint = .ok (.ok sprite))

include h

theorem size_bytes_of_rasterize : sprite.bytes.size = 4 * (width.toNat * height.toNat) := by
  rw [(eq_paint_of_rasterize h).2]
  exact size_paint d width height tint

/-- Every pixel that is drawn has its bytes. -/
theorem holds_of_rasterize {x y : Nat} (hx : x < width.toNat) (hy : y < height.toNat) :
    Holds sprite.bytes (4 * (y * sprite.width.toNat + x)) (shade d width height tint x y) := by
  rw [(eq_paint_of_rasterize h).2]
  exact holds_paint d tint hx hy

theorem pixelAt?_of_rasterize {x y : Nat} (hx : x < width.toNat) (hy : y < height.toNat) :
    sprite.pixelAt? x y = some (shade d width height tint x y) :=
  pixelAt?_of_holds (holds_of_rasterize h hx hy)

end

/-! ## Looking at pixels -/

section

variable {x y : UInt32}

theorem pixel?_of_outside (h : sprite.width ≤ x ∨ sprite.height ≤ y) :
    sprite.pixel? x y = .ok none := by
  unfold pixel?
  rw [if_pos h]
  rfl

variable (hinside : ¬(sprite.width ≤ x ∨ sprite.height ≤ y))

include hinside

/-- A place of 32 bits is the exact one, and so are the parts that it is computed of. -/
theorem pixel?_of_holds {pixel : Pixel}
    (hfits : 4 * (y.toNat * sprite.width.toNat + x.toNat) < 2 ^ 32)
    (h : Holds sprite.bytes (4 * (y.toNat * sprite.width.toNat + x.toNat)) pixel) :
    sprite.pixel? x y = .ok (some pixel) := by
  rcases h with ⟨hred, hgreen, hblue, halpha⟩
  unfold pixel?
  rw [if_neg hinside, Checked.bind_of_ok (Checked.halfWord_of_lt (by omega)),
    Checked.bind_of_ok (Checked.halfWord_of_lt (by omega)),
    Checked.bind_of_ok (Checked.halfWord_of_lt (by omega)), Nat.mul_comm _ 4]
  simp only [hred, hgreen, hblue, halpha]
  rfl

/-- A larger place is a fault, whichever part of it is the first that does not fit. -/
theorem pixel?_of_overflow (h : 2 ^ 32 ≤ 4 * (y.toNat * sprite.width.toNat + x.toNat)) :
    sprite.pixel? x y = .error .overflow := by
  unfold pixel?
  rw [if_neg hinside]
  rcases Nat.lt_or_ge (y.toNat * sprite.width.toNat) (2 ^ 32) with hrow | hrow
  · rw [Checked.bind_of_ok (Checked.halfWord_of_lt hrow)]
    rcases Nat.lt_or_ge (y.toNat * sprite.width.toNat + x.toNat) (2 ^ 32) with hcolumn | hcolumn
    · rw [Checked.bind_of_ok (Checked.halfWord_of_lt hcolumn),
        Checked.bind_of_error (Checked.halfWord_of_le (by omega))]
    · exact Checked.bind_of_error (Checked.halfWord_of_le hcolumn) _
  · exact Checked.bind_of_error (Checked.halfWord_of_le hrow) _

end

/-- The last pixel has its place in 32 bits exactly if there are no more than `2 ^ 30` pixels. -/
theorem last_place_lt_iff {columns rows : Nat} (hcolumns : 0 < columns) (hrows : 0 < rows) :
    4 * ((rows - 1) * columns + (columns - 1)) < 2 ^ 32 ↔ columns * rows ≤ 2 ^ 30 := by
  rcases Nat.exists_eq_add_of_lt hrows with ⟨rows, rfl⟩
  rw [Nat.zero_add, Nat.add_sub_cancel, Nat.mul_add_one, Nat.mul_comm columns]
  omega

theorem toNat_lt_of_inside {x y : UInt32} (hinside : ¬(width ≤ x ∨ height ≤ y)) :
    x.toNat < width.toNat ∧ y.toNat < height.toNat := by
  rw [not_or, UInt32.not_le, UInt32.not_le] at hinside
  exact ⟨UInt32.lt_iff_toNat_lt.1 hinside.1, UInt32.lt_iff_toNat_lt.1 hinside.2⟩

theorem toNat_pos_of_valid (hvalid : ¬(width = 0 ∨ height = 0)) :
    0 < width.toNat ∧ 0 < height.toNat := by
  rw [not_or, ← UInt32.toNat_inj, ← UInt32.toNat_inj] at hvalid
  exact ⟨Nat.pos_of_ne_zero hvalid.1, Nat.pos_of_ne_zero hvalid.2⟩

/-- A pixel that is drawn is found if its place fits 32 bits; else looking at it is a fault. -/
theorem pixel?_of_inside (h : rasterize d width height tint = .ok (.ok sprite)) {x y : UInt32}
    (hinside : ¬(width ≤ x ∨ height ≤ y)) :
    sprite.pixel? x y =
      if 4 * (y.toNat * width.toNat + x.toNat) < 2 ^ 32 then
        .ok (some (shade d width height tint x.toNat y.toNat))
      else .error .overflow := by
  rcases size_of_rasterize h with ⟨rfl, rfl⟩
  rcases toNat_lt_of_inside hinside with ⟨hx, hy⟩
  split
  · rename_i hfits
    exact pixel?_of_holds hinside hfits (holds_of_rasterize h hx hy)
  · rename_i hlarge
    exact pixel?_of_overflow hinside (Nat.le_of_not_lt hlarge)

theorem exists_pixel?_iff (h : rasterize d width height tint = .ok (.ok sprite)) :
    (∀ x y, ∃ pixel?, sprite.pixel? x y = .ok pixel?) ↔ width.toNat * height.toNat ≤ 2 ^ 30 := by
  rcases toNat_pos_of_valid (eq_paint_of_rasterize h).1 with ⟨hwidth, hheight⟩
  rw [← last_place_lt_iff hwidth hheight]
  constructor
  · intro hall
    -- The last pixel has the largest place.
    have hx : (width - 1).toNat = width.toNat - 1 :=
      UInt32.toNat_sub_of_le _ _ (UInt32.le_iff_toNat_le.2 hwidth)
    have hy : (height - 1).toNat = height.toNat - 1 :=
      UInt32.toNat_sub_of_le _ _ (UInt32.le_iff_toNat_le.2 hheight)
    have hinside : ¬(width ≤ width - 1 ∨ height ≤ height - 1) := by
      rw [UInt32.le_iff_toNat_le, UInt32.le_iff_toNat_le, hx, hy]
      omega
    rcases hall (width - 1) (height - 1) with ⟨pixel?, hpixel⟩
    rw [pixel?_of_inside h hinside, hx, hy] at hpixel
    split at hpixel
    · assumption
    · cases hpixel
  · intro hsmall x y
    by_cases houtside : width ≤ x ∨ height ≤ y
    · rcases size_of_rasterize h with ⟨rfl, rfl⟩
      exact ⟨_, pixel?_of_outside houtside⟩
    · rcases toNat_lt_of_inside houtside with ⟨hx, hy⟩
      have hrow : y.toNat * width.toNat ≤ (height.toNat - 1) * width.toNat :=
        Nat.mul_le_mul_right _ (by omega)
      rw [pixel?_of_inside h houtside, if_pos (by omega)]
      exact ⟨_, rfl⟩

/-- A place outside has no pixel. A place inside has the pixel whose bytes lie there, as long as four times
its number fits 32 bits; so all places can be looked at exactly in a bitmap of at most `2 ^ 30` pixels. -/
theorem pixel?_of_rasterize (h : rasterize d width height tint = .ok (.ok sprite)) :
    (∀ x y, sprite.pixel? x y = .ok none ↔ width ≤ x ∨ height ≤ y) ∧
      (∀ x y, ¬(width ≤ x ∨ height ≤ y) →
        ∃ pixel, sprite.pixelAt? x.toNat y.toNat = some pixel ∧
          sprite.pixel? x y =
            if 4 * (y.toNat * width.toNat + x.toNat) < 2 ^ 32 then .ok (some pixel)
            else .error .overflow) ∧
      ((∀ x y, ∃ pixel?, sprite.pixel? x y = .ok pixel?) ↔
        width.toNat * height.toNat ≤ 2 ^ 30) := by
  refine ⟨?_, ?_, exists_pixel?_iff h⟩
  · intro x y
    constructor
    · intro hnone
      refine Decidable.byContradiction fun hinside => ?_
      rw [pixel?_of_inside h hinside] at hnone
      split at hnone <;> cases hnone
    · intro houtside
      rcases size_of_rasterize h with ⟨rfl, rfl⟩
      exact pixel?_of_outside houtside
  · intro x y hinside
    rcases toNat_lt_of_inside hinside with ⟨hx, hy⟩
    exact ⟨_, pixelAt?_of_rasterize h hx hy, pixel?_of_inside h hinside⟩

/-- The theorem speaks of a thumb of 24 pixels. -/
theorem pixel?_of_rasterize_small :
    ∃ sprite, rasterize .held 6 4 (.solid 0.4 0.6 1) = .ok (.ok sprite) ∧
      (∀ x y, ∃ pixel?, sprite.pixel? x y = .ok pixel?) ∧
      sprite.pixel? 3 1 = .ok (some ⟨102, 153, 255, 128⟩) ∧ sprite.pixel? 6 1 = .ok none := by
  have hdrawn : rasterize .held 6 4 (.solid 0.4 0.6 1) = .ok (.ok _) :=
    rasterize_of_valid (by decide) (by decide)
  refine ⟨_, hdrawn, ?_⟩
  rcases pixel?_of_rasterize hdrawn with ⟨houtside, hinside, hall⟩
  refine ⟨hall.2 (by decide), ?_, (houtside 6 1).2 (by decide)⟩
  rcases hinside 3 1 (by decide) with ⟨pixel, hpixel, hfound⟩
  have hvalue : pixelAt? ⟨6, 4, .mk fun _ => paint .held 6 4 (.solid 0.4 0.6 1)⟩ 3 1 =
      some ⟨102, 153, 255, 128⟩ := by
    decide +kernel
  cases hpixel.symm.trans hvalue
  exact hfound

/-- In a bitmap of more than `2 ^ 30` pixels there are places that cannot be looked at, although their
bytes are there. -/
theorem pixel?_faults_of_large :
    ∃ sprite, rasterize ⟨48, 1, 0, 1⟩ 32768 32770 (.solid 1 1 1) = .ok (.ok sprite) ∧
      ¬((32768 : UInt32) ≤ 0 ∨ (32770 : UInt32) ≤ 32768) ∧
      sprite.pixelAt? 0 32768 = some ⟨255, 255, 255, 255⟩ ∧
      sprite.pixel? 0 32768 = .error .overflow := by
  have hdrawn : rasterize ⟨48, 1, 0, 1⟩ 32768 32770 (.solid 1 1 1) = .ok (.ok _) :=
    rasterize_of_valid (by decide) (by decide)
  have hshade : shade ⟨48, 1, 0, 1⟩ 32768 32770 (.solid 1 1 1) 0 32768 = ⟨255, 255, 255, 255⟩ := by
    decide +kernel
  refine ⟨_, hdrawn, by decide, ?_, ?_⟩
  · rw [← hshade]
    exact pixelAt?_of_rasterize hdrawn (by decide) (by decide)
  · exact pixel?_of_overflow (by decide) (by decide)

end Sprite

end OverlayScrollbar
