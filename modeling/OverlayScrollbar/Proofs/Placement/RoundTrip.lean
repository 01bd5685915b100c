import OverlayScrollbar.Proofs.Placement.Order
import OverlayScrollbar.Proofs.Single.Errors

/-!
# There and back again

A thumb that is dragged asks for an offset, and when the offset is measured the thumb is placed by it. Both
ways are computed on their own, with whole numbers of pixels cut off on the way there and a rounding on the
way back, so that the thumb does not come back to where it was. It is never more than three pixels away.

The error of the offset, less than two pixels of the content, is scaled by the track over the range. The
range is not shorter than the track, so that a long track adds no more than a fifth to it; and a track of
at most three pixels has no place further away.

- `ScrollMetrics.Moderate`    : views and content of lengths that are told apart well
- `ScrollMetrics.exactTrack`, `ScrollMetrics.exactRange` : the track and the range before they are rounded
- `ScrollMetrics.Moderate.approximates_offset` : the offset for a fraction of the track
- `ScrollMetrics.Moderate.approximates_place` : the place for an offset near it

Main statement: `ScrollMetrics.thumbTop_of_targetOffset`.
-/

namespace OverlayScrollbar

open Single (Approximates)

/-! ## Errors that are scaled -/

/-- The error of an offset is scaled by the track over the range. -/
theorem abs_part_sub_le {track range offset fraction : ℚ} (htrack : 3 < track)
    (hrange : track - 1 / 2 ≤ range) (hoffset : |offset - fraction * range| ≤ 15 / 8) :
    |track * (offset / range) - track * fraction| ≤ 9 / 4 := by
  have hpositive : 0 < range := by linarith
  -- The track is longer than three pixels, so that half a pixel less of range is little.
  have hscale : track / range ≤ 6 / 5 := by
    rw [div_le_iff₀ hpositive]
    linarith
  have hscaled : track * (offset / range) - track * fraction =
      track / range * (offset - fraction * range) := by
    field_simp
  calc
    |track * (offset / range) - track * fraction| = track / range * |offset - fraction * range| := by
      rw [hscaled, abs_mul, abs_of_pos (show 0 < track / range by positivity)]
    _ ≤ 6 / 5 * (15 / 8) := mul_le_mul hscale hoffset (abs_nonneg _) (by norm_num)
    _ = 9 / 4 := by norm_num

namespace ScrollMetrics

variable {m : ScrollMetrics} {thumbHeight top offset fraction : Single}

/-- The length of the track before it is rounded. -/
def exactTrack (m : ScrollMetrics) (thumbHeight : Single) : ℚ :=
  m.viewHeight.value - thumbHeight.value

/-- The largest scroll offset before it is rounded. -/
def exactRange (m : ScrollMetrics) : ℚ :=
  m.contentHeight.value - m.hostHeight.value + m.lineHeight.value

/-- A view that is longer than its thumb, and content that is not shorter than the part of it that is seen,
of lengths at which single pixels are told apart well. -/
structure Moderate (m : ScrollMetrics) (thumbHeight : Single) : Prop where
  thumb : 0 ≤ thumbHeight
  track : thumbHeight < m.viewHeight
  view : m.viewHeight ≤ .ofNat (2 ^ 16)
  line : 0 < m.lineHeight
  host : m.lineHeight ≤ m.hostHeight
  content : m.hostHeight ≤ m.contentHeight
  limit : m.contentHeight ≤ .ofNat (2 ^ 22)

namespace Moderate

section

variable (h : m.Moderate thumbHeight)

include h

/-! ## Lengths -/

theorem isFinite_view : m.viewHeight.IsFinite :=
  Single.isFinite_of_mem (Single.le_trans h.thumb (Single.le_of_lt h.track)) h.view
    (Single.isFinite_ofNat (by decide))

theorem isFinite_thumb : thumbHeight.IsFinite :=
  Single.isFinite_of_mem h.thumb (Single.le_of_lt h.track) h.isFinite_view

theorem zero_le_host : 0 ≤ m.hostHeight :=
  Single.le_trans (Single.le_of_lt h.line) h.host

theorem isFinite_content : m.contentHeight.IsFinite :=
  Single.isFinite_of_mem (Single.le_trans h.zero_le_host h.content) h.limit
    (Single.isFinite_ofNat (by decide))

theorem isFinite_host : m.hostHeight.IsFinite :=
  Single.isFinite_of_mem h.zero_le_host h.content h.isFinite_content

theorem isFinite_line : m.lineHeight.IsFinite :=
  Single.isFinite_of_mem (Single.le_of_lt h.line) h.host h.isFinite_host

theorem isFinite_atOffset (hoffset : offset.IsFinite) : (m.atOffset offset).IsFinite :=
  ⟨h.isFinite_view, h.isFinite_content, hoffset, h.isFinite_host, h.isFinite_line⟩

theorem value_view_le : m.viewHeight.value ≤ 2 ^ 16 := by
  have hvalue := Single.value_le_value h.isFinite_view (Single.isFinite_ofNat (by decide)) h.view
  rw [Single.value_ofNat (by decide)] at hvalue
  exact_mod_cast hvalue

/-- The lengths of the content and of its parts, in order. -/
theorem values_mem : 0 < m.lineHeight.value ∧ m.lineHeight.value ≤ m.hostHeight.value ∧
    m.hostHeight.value ≤ m.contentHeight.value ∧ m.contentHeight.value ≤ 2 ^ 22 := by
  have hvalue := Single.value_le_value h.isFinite_content (Single.isFinite_ofNat (by decide)) h.limit
  rw [Single.value_ofNat (by decide)] at hvalue
  refine ⟨Single.value_pos h.isFinite_line h.line, ?_, ?_, by exact_mod_cast hvalue⟩
  · exact Single.value_le_value h.isFinite_line h.isFinite_host h.host
  · exact Single.value_le_value h.isFinite_host h.isFinite_content h.content

/-! ## The track and the range -/

theorem track_pos : 0 < m.track thumbHeight :=
  Single.sub_pos_of_lt h.isFinite_view h.isFinite_thumb h.thumb h.track

theorem isFinite_track : (m.track thumbHeight).IsFinite :=
  (Single.sub_mem h.isFinite_view h.isFinite_thumb h.thumb (Single.le_of_lt h.track)).1

theorem value_track_le : (m.track thumbHeight).value ≤ 2 ^ 16 := by
  have hmost := (Single.sub_mem h.isFinite_view h.isFinite_thumb h.thumb (Single.le_of_lt h.track)).2.2
  exact (Single.value_le_value h.isFinite_track h.isFinite_view hmost).trans h.value_view_le

theorem approximates_track :
    Approximates (m.track thumbHeight) (m.exactTrack thumbHeight) (2 ^ 16 / 2 ^ 25) := by
  have hview := h.value_view_le
  have hthumb := Single.value_nonneg h.isFinite_thumb h.thumb
  have hlonger := Single.value_le_value h.isFinite_thumb h.isFinite_view (Single.le_of_lt h.track)
  apply Single.approximates_sub h.isFinite_view h.isFinite_thumb (by decide)
  exact abs_le.2 ⟨by linarith, by linarith⟩

theorem range_pos : 0 < m.range := by
  have hrest := Single.sub_mem h.isFinite_content h.isFinite_host h.zero_le_host h.content
  exact Single.lt_of_lt_of_le h.line (Single.le_add_left hrest.1 hrest.2.1 h.isFinite_line)

/-- The range is rounded twice. -/
theorem approximates_range : Approximates m.range m.exactRange (3 / 8) := by
  rcases h.values_mem with ⟨hline, hhost, hcontent, hlimit⟩
  have hrest : Approximates (m.contentHeight - m.hostHeight)
      (m.contentHeight.value - m.hostHeight.value) (2 ^ 22 / 2 ^ 25) := by
    apply Single.approximates_sub h.isFinite_content h.isFinite_host (by decide)
    exact abs_le.2 ⟨by linarith, by linarith⟩
  rcases abs_le.1 hrest.error_le with ⟨hlow, hhigh⟩
  have hsum := hrest.add (e := 23) (.refl h.isFinite_line) (by decide)
    (abs_le.2 ⟨by linarith, by linarith⟩)
  exact hsum.mono (by norm_num)

/-! ## There -/

/-- The offset for a fraction of the track: both the content and the view without a line are multiplied by
it, and what is not whole is cut off. -/
theorem approximates_offset (hlow : 0 ≤ fraction) (hhigh : fraction ≤ 1) :
    Approximates
      ((m.contentHeight * fraction).trunc - (fraction * (m.hostHeight - m.lineHeight)).trunc)
      (fraction.value * m.exactRange) (3 / 2) := by
  rcases h.values_mem with ⟨hline, hhost, hcontent, hlimit⟩
  rcases Single.value_mem_of_le_one hlow hhigh with ⟨hpart, hpart'⟩
  have hnonneg := Single.le_trans h.zero_le_host h.content
  have hrest : Approximates (m.hostHeight - m.lineHeight)
      (m.hostHeight.value - m.lineHeight.value) (2 ^ 22 / 2 ^ 25) := by
    apply Single.approximates_sub h.isFinite_host h.isFinite_line (by decide)
    exact abs_le.2 ⟨by linarith, by linarith⟩
  rcases Single.sub_mem h.isFinite_host h.isFinite_line (Single.le_of_lt h.line) h.host with
    ⟨_, hrestLow, hrestHigh⟩
  have hrestMost := Single.value_le_value hrest.isFinite h.isFinite_host hrestHigh
  have habove := Single.approximates_trunc_mul (e := 22) h.isFinite_content hnonneg hlow hhigh
    (by decide) hlimit
  have hbelow := Single.approximates_trunc_mul (e := 22) hrest.isFinite hrestLow hlow hhigh
    (by decide) (by linarith)
  rcases Single.value_trunc_mul_mem h.isFinite_content hnonneg hlow hhigh with ⟨hleast, hmost⟩
  rcases Single.value_trunc_mul_mem hrest.isFinite hrestLow hlow hhigh with ⟨hleast', hmost'⟩
  rw [Single.mul_comm fraction]
  -- What is cut off on average is the same on both sides.
  have hdifference := habove.sub (e := 22) hbelow (by decide) (abs_le.2 ⟨by linarith, by linarith⟩)
  have hscaled := abs_mul_sub_le hpart hpart' hrest.error_le
  have hexact : m.contentHeight.value * fraction.value - 1 / 2 -
      ((m.hostHeight - m.lineHeight).value * fraction.value - 1 / 2) - fraction.value * m.exactRange =
        fraction.value * (m.hostHeight.value - m.lineHeight.value) -
          fraction.value * (m.hostHeight - m.lineHeight).value := by
    unfold exactRange
    ring
  rw [abs_sub_comm, ← hexact] at hscaled
  exact (hdifference.trans hscaled).mono (by norm_num)

/-! ## And back again -/

/-- The place for an offset that is near the one of a fraction of the track. -/
theorem approximates_place (hpart : 0 ≤ fraction.value) (hpart' : fraction.value ≤ 1)
    (hfraction : Approximates fraction (top.value / (m.track thumbHeight).value) (2 ^ 0 / 2 ^ 25))
    (hlong : 3 < (m.track thumbHeight).value)
    (hroom : (m.track thumbHeight).value - 1 / 2 ≤ m.range.value)
    (hoffset : Approximates offset (fraction.value * m.range.value) (15 / 8)) :
    Approximates (m.track thumbHeight * (offset / m.range)).nearest top.value 3 := by
  have htrack := h.value_track_le
  have hpositive : 0 ≤ (m.track thumbHeight).value := by linarith
  have hrange : 0 < m.range.value := by linarith
  have hwhole : |offset.value / m.range.value| ≤ 2 ^ 1 := by
    have hmost : fraction.value * m.range.value ≤ m.range.value :=
      mul_le_of_le_one_left hrange.le hpart'
    have hleast : 0 ≤ fraction.value * m.range.value := mul_nonneg hpart hrange.le
    rcases abs_le.1 hoffset.error_le with ⟨hlow, hhigh⟩
    rw [abs_div, abs_of_pos hrange, div_le_iff₀ hrange]
    exact abs_le.2 ⟨by linarith, by linarith⟩
  have hquotient := Single.approximates_div hoffset.isFinite h.approximates_range.isFinite
    (by decide) h.range_pos hwhole
  have hproduct : |(m.track thumbHeight).value * (offset / m.range).value| ≤ 2 ^ 18 := by
    have hbound : |(offset / m.range).value| ≤ 3 := by
      rcases abs_le.1 hwhole with ⟨hlow, hhigh⟩
      rcases abs_le.1 hquotient.error_le with ⟨hlow', hhigh'⟩
      exact abs_le.2 ⟨by linarith, by linarith⟩
    calc
      _ = (m.track thumbHeight).value * |(offset / m.range).value| := by
        rw [abs_mul, abs_of_nonneg hpositive]
      _ ≤ 2 ^ 16 * 3 := mul_le_mul htrack hbound (abs_nonneg _) (by norm_num)
      _ ≤ 2 ^ 18 := by norm_num
  have hplace := Single.Approximates.mul_left h.isFinite_track hpositive htrack hquotient (by decide)
    hproduct
  have hstart := abs_mul_sub_le hpositive htrack hfraction.error_le
  rw [mul_div_cancel₀ top.value (by linarith)] at hstart
  -- From the whole pixel to the product, to the place of the exact offset, to that of the fraction.
  have hwholePixel := (Single.approximates_nearest hplace.isFinite).trans hplace.error_le
  have htotal := (hwholePixel.trans (abs_part_sub_le hlong hroom hoffset.error_le)).trans hstart
  exact htotal.mono (by norm_num)

/-- Where the range is not shorter than the track, rounding makes it shorter by no more than a half. -/
theorem value_track_sub_le
    (hrange : m.track thumbHeight ≤ m.range ∨ m.exactTrack thumbHeight ≤ m.exactRange) :
    (m.track thumbHeight).value - 1 / 2 ≤ m.range.value := by
  rcases hrange with hrounded | hexact
  · have hvalue := Single.value_le_value h.isFinite_track h.approximates_range.isFinite hrounded
    linarith
  · rcases abs_le.1 h.approximates_track.error_le with ⟨_, htrack⟩
    rcases abs_le.1 h.approximates_range.error_le with ⟨hrange, _⟩
    linarith

theorem thumbTop_eq (offset : Single) : (m.atOffset offset).thumbTop thumbHeight =
    (m.track thumbHeight * (offset / m.range)).nearest.clamp 0 (m.track thumbHeight) := by
  refine if_neg ?_
  rintro (hnone | hnone)
  · exact Single.not_lt_of_le hnone h.track_pos
  · exact Single.not_lt_of_le hnone h.range_pos

/-- A thumb that is placed lies on the track. -/
theorem value_thumbTop_mem (hoffset : offset.IsFinite)
    (htop : (m.atOffset offset).thumbTop thumbHeight = .ok top) :
    top.IsFinite ∧ 0 ≤ top.value ∧ top.value ≤ (m.track thumbHeight).value := by
  rcases thumbTop_mem (h.isFinite_atOffset hoffset) h.isFinite_thumb h.thumb htop with ⟨hlow, hhigh⟩
  have hmost : top ≤ m.track thumbHeight :=
    Single.le_trans hhigh (Single.max_le (Single.le_of_lt h.track_pos)
      (Single.le_refl_iff.2 h.isFinite_track.isNaN))
  have hfinite := Single.isFinite_of_mem hlow hmost h.isFinite_track
  exact ⟨hfinite, Single.value_nonneg hfinite hlow,
    Single.value_le_value hfinite h.isFinite_track hmost⟩

end

end Moderate

/-- A place on the track that a thumb is dragged to comes back from the offset that it asks for, but for
three pixels, as long as the range is not shorter than the track. Whether lengths are compared as they are
rounded or before that does not matter. -/
theorem thumbTop_of_targetOffset (h : m.Moderate thumbHeight)
    (hrange : m.track thumbHeight ≤ m.range ∨ m.exactTrack thumbHeight ≤ m.exactRange)
    (hlow : 0 ≤ top)
    (hhigh : top ≤ m.track thumbHeight ∨ top.IsFinite ∧ top.value ≤ m.exactTrack thumbHeight) :
    ∃ offset top', m.targetOffset? thumbHeight top = some offset ∧
      (m.atOffset offset).thumbTop thumbHeight = .ok top' ∧ top'.IsFinite ∧
        |top'.value - top.value| ≤ 3 := by
  have htrack := h.isFinite_track
  replace hhigh : top ≤ m.track thumbHeight :=
    hhigh.elim id fun hexact =>
      Single.le_sub_of_value_le h.isFinite_view h.isFinite_thumb hexact.1 hexact.2
  have htop := Single.isFinite_of_mem hlow hhigh htrack
  have hleast := Single.value_nonneg htop hlow
  have hmost := Single.value_le_value htop htrack hhigh
  rcases Single.div_mem htrack h.track_pos hlow hhigh with ⟨hpart, hpart'⟩
  obtain ⟨offset, htarget, hoffset⟩ : ∃ offset, m.targetOffset? thumbHeight top = some offset ∧
      Approximates offset ((top / m.track thumbHeight).value * m.exactRange) (3 / 2) :=
    ⟨_, if_neg fun hnone => Single.not_lt_of_le hnone h.track_pos, h.approximates_offset hpart hpart'⟩
  rcases exists_thumbTop (m.atOffset offset) h.isFinite_view.isNaN h.isFinite_thumb with ⟨top', hplace⟩
  rcases h.value_thumbTop_mem hoffset.isFinite hplace with ⟨hfinite, hleast', hmost'⟩
  refine ⟨offset, top', htarget, hplace, hfinite, ?_⟩
  -- On a track of at most three pixels any two places will do.
  by_cases hlong : 3 < (m.track thumbHeight).value
  · rcases Single.value_mem_of_le_one hpart hpart' with ⟨hvalue, hvalue'⟩
    have hroom := h.value_track_sub_le hrange
    have hwhole : |top.value / (m.track thumbHeight).value| ≤ 2 ^ 0 := by
      rw [abs_of_nonneg (div_nonneg hleast (by linarith)), pow_zero]
      exact div_le_one_of_le₀ hmost (by linarith)
    have hfraction := Single.approximates_div htop htrack (by decide) h.track_pos hwhole
    -- The offset is near the fraction of the rounded range too.
    have hrounded := abs_mul_sub_le hvalue hvalue' h.approximates_range.error_le
    rw [abs_sub_comm] at hrounded
    have hclose := (hoffset.trans hrounded).mono (show (3 : ℚ) / 2 + 1 * (3 / 8) ≤ 15 / 8 by norm_num)
    have hback := h.approximates_place hvalue hvalue' hfraction hlong hroom hclose
    rw [h.thumbTop_eq offset] at hplace
    have hzero : (0 : Single).value ≤ top.value := Single.value_zero ▸ hleast
    exact (hback.clamp Single.measures_zero.isFinite htrack hzero hmost hplace).error_le
  · exact abs_le.2 ⟨by linarith, by linarith⟩

/-- The theorem speaks of a range that is a pixel longer than the track: a thumb that is dragged to 79.4
asks for the offset 79, and comes back to 78. -/
theorem thumbTop_of_targetOffset_short :
    (ScrollMetrics.mk 200 333 0 200 20).Moderate 48 ∧
      (ScrollMetrics.mk 200 333 0 200 20).track 48 ≤ (ScrollMetrics.mk 200 333 0 200 20).range ∧
      (0 : Single) ≤ 79.4 ∧ 79.4 ≤ (ScrollMetrics.mk 200 333 0 200 20).track 48 ∧
      (ScrollMetrics.mk 200 333 0 200 20).targetOffset? 48 79.4 = some 79 ∧
      (ScrollMetrics.mk 200 333 79 200 20).thumbTop 48 = .ok 78 ∧
      |(78 : Single).value - (79.4 : Single).value| ≤ 3 := by
  have hmoderate : (ScrollMetrics.mk 200 333 0 200 20).Moderate 48 := by
    constructor <;> decide +kernel
  have hrange : (ScrollMetrics.mk 200 333 0 200 20).track 48 ≤
      (ScrollMetrics.mk 200 333 0 200 20).range := by decide +kernel
  have hlow : (0 : Single) ≤ 79.4 := by decide +kernel
  have hhigh : 79.4 ≤ (ScrollMetrics.mk 200 333 0 200 20).track 48 := by decide +kernel
  have hoffset : (ScrollMetrics.mk 200 333 0 200 20).targetOffset? 48 79.4 = some 79 := by
    decide +kernel
  have hplace : ((ScrollMetrics.mk 200 333 0 200 20).atOffset 79).thumbTop 48 = .ok 78 := by
    decide +kernel
  rcases thumbTop_of_targetOffset hmoderate (Or.inl hrange) hlow (Or.inl hhigh) with
    ⟨offset, top', htarget, htop, _, hclose⟩
  cases hoffset.symm.trans htarget
  cases hplace.symm.trans htop
  exact ⟨hmoderate, hrange, hlow, hhigh, hoffset, hplace, hclose⟩

end ScrollMetrics

end OverlayScrollbar
