import OverlayScrollbar.Fault
import OverlayScrollbar.Single.Arithmetic
import OverlayScrollbar.Single.Order
import OverlayScrollbar.Single.Whole

/-!
# Scrolling by lines

An editor scrolls by whole lines. The tracker knows the first line that is seen, and a fling that
goes on after a turn of the wheel until it has died down.

- `ScrollTracker`            : the offset in lines, the measures, and the fling
- `ScrollTracker.scrollBy`   : scrolls by a number of lines
- `ScrollTracker.followLine` : scrolls as little as brings a line into view
- `ScrollTracker.deltaTo`    : the number of lines to an offset in pixels
- `ScrollTracker.flingStep`  : one frame of a fling

Line numbers are 64-bit words and differences are signed ones; a number of lines to scroll by is
given and told in 32 bits.
-/

namespace OverlayScrollbar

/-- The scroll offset of an editor, in lines. -/
structure ScrollTracker where
  /-- The first line that is seen. -/
  firstLine : Nat
  /-- The number of lines. -/
  lineCount : Nat
  /-- The height of a line in pixels. -/
  lineHeight : Single
  /-- The height of the view in pixels. -/
  viewport : Single
  /-- The lines that a fling scrolls in a frame. -/
  velocity : Single
  /-- The part of a line that a fling has still to scroll. -/
  remainder : Single
  deriving DecidableEq, Repr

namespace ScrollTracker

/-! ## Constants of a fling -/

/-- The part of a wheel scroll that goes on as a fling, in each frame. -/
def flingBoost : Single :=
  0.5

/-- The part of its velocity that a fling keeps from one frame to the next. -/
def flingDecay : Single :=
  0.85

/-- A fling slower than this stops. -/
def flingStop : Single :=
  0.05

/-! ## Words -/

/-- A 64-bit word as a signed number. -/
def signed (n : Nat) : Int :=
  Int.bmod n (2 ^ 64)

/-- The lower 32 bits of a number, as a signed number. -/
def lowBits (i : Int) : Int :=
  Int.bmod i (2 ^ 32)

/-! ## Values -/

/-- A tracker at the first line. There is always a line. -/
def new (lineCount : Nat) (lineHeight : Single) : ScrollTracker :=
  ⟨0, max lineCount 1, lineHeight, 0, 0, 0⟩

/-- The last line. -/
def lastLine (t : ScrollTracker) : Nat :=
  t.lineCount - 1

/-- The scroll offset in pixels. -/
def scrollY (t : ScrollTracker) : Single :=
  Single.ofNat t.firstLine * t.lineHeight

/-- The height of all lines, as soon as the view has a height. -/
def layoutHeight? (t : ScrollTracker) : Option Single :=
  if 0 < t.viewport then some (Single.ofNat t.lineCount * t.lineHeight) else none

/-- The number of whole lines in the view, at least one. -/
def visibleLines (t : ScrollTracker) : Nat :=
  if t.lineHeight ≤ 0 then 1
  else max ((t.viewport / t.lineHeight).floor.wholeUpTo (2 ^ 64 - 1)) 1

/-! ## Measures -/

/-- Sets the height of the view. -/
def setViewport (t : ScrollTracker) (height : Single) : ScrollTracker :=
  { t with viewport := max height 0 }

/-- Sets the number of lines; the first line seen stays one of them. -/
def setLineCount (t : ScrollTracker) (count : Nat) : ScrollTracker :=
  let t := { t with lineCount := max count 1 }
  { t with firstLine := min t.firstLine t.lastLine }

/-! ## Scrolling -/

/-- Scrolls by a number of lines, within the document, and tells by how many it did. -/
def scrollBy (t : ScrollTracker) (lines : Int) : Checked (ScrollTracker × Int) := do
  let target ← Checked.signedWord (signed t.firstLine + lines)
  let last := signed t.lastLine
  if last < 0 then
    .error .limitsOutOfOrder
  let target := max 0 (min target last)
  let applied ← Checked.signedWord (target - signed t.firstLine)
  return ({ t with firstLine := target.toNat }, lowBits applied)

/-- Scrolls as little as brings a line into view, and tells by how many lines it did. -/
def followLine (t : ScrollTracker) (line : Nat) : Checked (ScrollTracker × Int) := do
  let line := min line t.lastLine
  let visible := t.visibleLines
  if line < t.firstLine then
    moveTo line
  else
    let beyond ← Checked.word (t.firstLine + visible)
    if beyond ≤ line then moveTo (line + 1 - visible) else return (t, 0)
where
  /-- Makes a line the first one that is seen. -/
  moveTo (target : Nat) : Checked (ScrollTracker × Int) := do
    let applied ← Checked.signedWord (signed target - signed t.firstLine)
    return ({ t with firstLine := target }, lowBits applied)

/-- The number of lines to scroll by, for an offset in pixels to be at the top. -/
def deltaTo (t : ScrollTracker) (y : Single) : Checked Int := do
  if t.lineHeight ≤ 0 then
    return 0
  let target ← (y / t.lineHeight).nearest.clamp 0 (Single.ofNat t.lastLine)
  let delta ← Checked.signedWord (target.toInt64 - signed t.firstLine)
  return lowBits delta

/-! ## Flings -/

/-- Starts a fling in the direction of a wheel scroll. -/
def startFling (t : ScrollTracker) (lines : Int) : ScrollTracker :=
  { t with velocity := Single.ofInt lines * flingBoost, remainder := 0 }

/-- A fling goes on. -/
def isFlinging (t : ScrollTracker) : Bool :=
  !t.velocity.sameSize 0

/-- Stops a fling. -/
def abortFling (t : ScrollTracker) : ScrollTracker :=
  { t with velocity := 0, remainder := 0 }

/-- One frame of a fling, and the number of whole lines to scroll by. -/
def flingStep (t : ScrollTracker) : ScrollTracker × Int :=
  if t.isFlinging then
    let distance := t.remainder + t.velocity
    let step := distance.trunc
    let slower := t.velocity * flingDecay
    let t := { t with velocity := slower, remainder := distance - step }
    (if slower.abs < flingStop then t.abortFling else t, step.toInt32)
  else (t, 0)

end ScrollTracker

end OverlayScrollbar
