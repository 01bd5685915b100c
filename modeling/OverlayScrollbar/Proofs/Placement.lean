import OverlayScrollbar.Placement
import OverlayScrollbar.Proofs.Single.Finite

/-!
# The thumb on its track

Each of the two ways to place the thumb keeps it on the track of the height that was measured.

- `ScrollMetrics.exists_thumbTop` : a thumb can be placed in a strip whose height is a number
- `ScrollMetrics.thumbTop_mem`    : the place that the offset gives
- `draggedTop_mem`                : the place that a pointer gives
-/

namespace OverlayScrollbar

namespace ScrollMetrics

variable {m : ScrollMetrics} {thumbHeight top : Single}

/-- All that was measured is finite. -/
structure IsFinite (m : ScrollMetrics) : Prop where
  viewHeight : m.viewHeight.IsFinite
  contentHeight : m.contentHeight.IsFinite
  offset : m.offset.IsFinite
  hostHeight : m.hostHeight.IsFinite
  lineHeight : m.lineHeight.IsFinite

theorem isNaN_track (hview : m.viewHeight.isNaN = false) (hthumb : thumbHeight.IsFinite) :
    (m.track thumbHeight).isNaN = false :=
  Single.isNaN_sub hview hthumb

theorem IsFinite.isNaN_range (h : m.IsFinite) : m.range.isNaN = false := by
  have hhidden : (m.contentHeight - m.hostHeight).isNaN = false :=
    Single.isNaN_sub h.contentHeight.isNaN h.hostHeight
  exact Single.isNaN_add hhidden h.lineHeight

theorem exists_thumbTop (m : ScrollMetrics) (hview : m.viewHeight.isNaN = false)
    (hthumb : thumbHeight.IsFinite) : ∃ top, m.thumbTop thumbHeight = .ok top := by
  unfold thumbTop
  dsimp only
  split
  · exact ⟨0, rfl⟩
  · rename_i hlong
    have hzero : ¬m.track thumbHeight ≤ 0 := fun htrack => hlong (Or.inl htrack)
    have htrack := Single.lt_of_not_le (isNaN_track hview hthumb) Single.isNaN_zero hzero
    exact Single.exists_clamp_eq_ok _ (Single.le_of_lt htrack)

theorem thumbTop_mem (h : m.IsFinite) (hthumb : thumbHeight.IsFinite) (hlength : 0 ≤ thumbHeight)
    (htop : m.thumbTop thumbHeight = .ok top) : 0 ≤ top ∧ top ≤ max 0 (m.track thumbHeight) := by
  unfold thumbTop at htop
  dsimp only at htop
  split at htop
  · cases htop
    exact ⟨Single.le_refl_iff.2 Single.isNaN_zero, Single.zero_le_max_right _⟩
  · rename_i hlong
    have htrack : 0 < m.track thumbHeight := by
      apply Single.lt_of_not_le (isNaN_track h.viewHeight.isNaN hthumb) Single.isNaN_zero
      exact fun htrack => hlong (Or.inl htrack)
    have hrange : 0 < m.range := by
      apply Single.lt_of_not_le h.isNaN_range Single.isNaN_zero
      exact fun hrange => hlong (Or.inr hrange)
    -- The fraction is a number, as the range is not zero, and so is its part of the track.
    have hfraction : (m.offset / m.range).isNaN = false := Single.isNaN_div h.offset hrange
    have hfinite := Single.isFinite_sub h.viewHeight hthumb hlength htrack
    have hplace := Single.isNaN_nearest (Single.isNaN_mul hfinite htrack hfraction)
    rcases Single.clamp_mem hplace htop with ⟨hlow, hhigh⟩
    exact ⟨hlow, Single.le_max_right hhigh⟩

end ScrollMetrics

theorem draggedTop_mem (pointer : Single) (thumbHeight : UInt32) {viewHeight : Single}
    (htrack : (viewHeight - Single.ofNat thumbHeight.toNat).isNaN = false) :
    0 ≤ draggedTop pointer thumbHeight viewHeight ∧
      draggedTop pointer thumbHeight viewHeight ≤
        max 0 (viewHeight - Single.ofNat thumbHeight.toNat) := by
  unfold draggedTop
  refine ⟨Single.zero_le_max_left _, ?_⟩
  apply Single.max_le
  · exact Single.le_max_right (Single.min_le_right _ htrack)
  · exact Single.zero_le_max_right _

end OverlayScrollbar
