import OverlayScrollbar.Single.Arithmetic
import OverlayScrollbar.Single.Order
import OverlayScrollbar.Single.Whole

/-!
# Placement of the thumb

All lengths are pixels. The track is the part of the strip that the thumb's top edge can move along:
the height of the view less the height of the thumb.

- `ScrollMetrics`                : what is measured before the thumb is placed
- `ScrollMetrics.thumbTop`       : where the thumb lies for the current scroll offset
- `ScrollMetrics.targetOffset?`  : the scroll offset for a thumb that was dragged
- `ScrollMetrics.isLong`         : whether the content is long enough for a thumb
- `draggedTop`                   : where the thumb lies under a pointer
-/

namespace OverlayScrollbar

/-- Measurements of the view, its content and its scroll offset. -/
structure ScrollMetrics where
  /-- The height of the strip that the thumb moves in. -/
  viewHeight : Single
  /-- The height of the whole content. -/
  contentHeight : Single
  /-- The scroll offset. -/
  offset : Single
  /-- The height of the part of the content that is seen. -/
  hostHeight : Single
  /-- The height of one line. -/
  lineHeight : Single
  deriving DecidableEq, Repr

namespace ScrollMetrics

/-- Nothing has been measured. -/
def empty : ScrollMetrics :=
  ⟨0, 0, 0, 0, 0⟩

instance : Inhabited ScrollMetrics where
  default := empty

/-- The length of the track for a thumb of the given height. -/
def track (m : ScrollMetrics) (thumbHeight : Single) : Single :=
  m.viewHeight - thumbHeight

/-- The largest scroll offset: there, the last line is at the top of the view. -/
def range (m : ScrollMetrics) : Single :=
  (m.contentHeight - m.hostHeight) + m.lineHeight

/-- The top of the thumb for the scroll offset: the same fraction of the track as the offset is of
the range, as a whole number of pixels. -/
def thumbTop (m : ScrollMetrics) (thumbHeight : Single) : Checked Single :=
  let track := m.track thumbHeight
  let range := m.range
  if track ≤ 0 ∨ range ≤ 0 then .ok 0
  else (track * (m.offset / range)).nearest.clamp 0 track

/-- The scroll offset for a thumb with its top at `top`, unless the track has no length. -/
def targetOffset? (m : ScrollMetrics) (thumbHeight top : Single) : Option Single :=
  let track := m.track thumbHeight
  if track ≤ 0 then none
  else
    let fraction := top / track
    some ((m.contentHeight * fraction).trunc - (fraction * (m.hostHeight - m.lineHeight)).trunc)

/-- The content is at least `minRatio` times as high as the view. -/
def isLong (m : ScrollMetrics) (minRatio : Single) : Bool :=
  decide (0 < m.hostHeight) && decide (minRatio ≤ m.contentHeight / m.hostHeight)

end ScrollMetrics

/-- The top of a thumb whose middle is held by the pointer, kept on the track. -/
def draggedTop (pointer : Single) (thumbHeight : UInt32) (viewHeight : Single) : Single :=
  let top := pointer.trunc - Single.ofNat (thumbHeight.toNat / 2)
  max (min top (viewHeight - Single.ofNat thumbHeight.toNat)) 0

end OverlayScrollbar
