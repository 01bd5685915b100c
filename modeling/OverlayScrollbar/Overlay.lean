import OverlayScrollbar.Plane
import OverlayScrollbar.Scrollbar

/-!
# The overlay

The overlay is an invisible strip over the editor. It turns pointer events into touches relative to
the strip, takes the presses that hit the thumb, and tells when its size changes.

- `PointerEvent`           : what a window reports
- `PointerEvent.touch?`    : the touch that an event stands for
- `Overlay`                : the strip with the rectangle of the thumb
- `Overlay.update`         : handles an event
- `Overlay.interaction`    : the shape of the pointer
-/

namespace OverlayScrollbar

/-! ## Events -/

/-- The buttons of a mouse. -/
inductive MouseButton
  | left
  | right
  | middle
  | back
  | forward
  | other (number : UInt16)
  deriving DecidableEq, Repr

/-- What a window reports. -/
inductive PointerEvent
  | mouseDown (button : MouseButton)
  | mouseUp (button : MouseButton)
  | mouseMove (place : Point)
  | mouseLeft
  | mouseEntered
  | wheel
  | fingerDown (place : Point)
  | fingerMove (place : Point)
  | fingerUp (place : Point)
  | fingerLost
  | key
  deriving DecidableEq, Repr

/-- The place of the mouse relative to a strip, if it is over it. -/
def overStrip? (bounds : Rect) (cursor : Option Point) : Option Point :=
  match cursor with
  | some p => if bounds.contains p then some (bounds.relative p) else none
  | none => none

/-- The touch that an event stands for. Moves and releases count only while a press is held. -/
def PointerEvent.touch? (event : PointerEvent) (bounds : Rect) (cursor : Option Point)
    (pressed : Bool) : Option Touch :=
  let touchAt (make : Single → Single → Touch) (p : Point) : Touch := make p.x p.y
  let whilePressed (touch : Touch) : Option Touch := if pressed then some touch else none
  match event with
  | .mouseDown .left => (overStrip? bounds cursor).map (touchAt .pressed)
  | .mouseMove place => whilePressed (touchAt .moved (bounds.relative place))
  | .mouseUp .left =>
      whilePressed (touchAt .released ((cursor.map bounds.relative).getD ⟨0, 0⟩))
  | .mouseLeft => whilePressed .cancelled
  | .fingerDown place =>
      if bounds.contains place then some (touchAt .pressed (bounds.relative place)) else none
  | .fingerMove place => whilePressed (touchAt .moved (bounds.relative place))
  | .fingerUp place => whilePressed (touchAt .released (bounds.relative place))
  | .fingerLost => whilePressed .cancelled
  | _ => none

/-! ## The strip -/

/-- The strip. -/
structure Overlay where
  /-- The rectangle of the thumb relative to the strip, if a thumb is painted. -/
  thumb? : Option Rect
  deriving DecidableEq, Repr

/-- What the strip remembers from one event to the next. -/
structure OverlayState where
  /-- The size that was told last. -/
  size? : Option Size
  /-- A press on the thumb is held. -/
  pressed : Bool
  deriving DecidableEq, Repr

/-- Nothing was told, and nothing is held. -/
def OverlayState.start : OverlayState :=
  ⟨none, false⟩

/-- What the strip tells the application. -/
inductive OverlayMessage
  | touch (touch : Touch)
  | resized (size : Size)
  deriving DecidableEq, Repr

/-- The shapes of the pointer. -/
inductive Interaction
  | none
  | grab
  | grabbing
  deriving DecidableEq, Repr

/-- What becomes of an event. -/
structure OverlayOutcome where
  /-- The event goes no further. -/
  captured : Bool
  message? : Option OverlayMessage
  deriving DecidableEq, Repr

namespace Overlay

/-- The point, relative to the strip, lies on the thumb. -/
def isOverThumb (overlay : Overlay) (p : Point) : Bool :=
  match overlay.thumb? with
  | some thumb => thumb.contains p
  | none => false

/-- Handles an event. A press beside the thumb is left to others, and an event that is no touch lets
the strip tell a new size. -/
def update (overlay : Overlay) (state : OverlayState) (event : PointerEvent) (bounds : Rect)
    (cursor : Option Point) : OverlayState × OverlayOutcome :=
  match event.touch? bounds cursor state.pressed with
  | some (.pressed x y) =>
      if overlay.isOverThumb ⟨x, y⟩ then
        ({ state with pressed := true }, ⟨true, some (.touch (.pressed x y))⟩)
      else (state, ⟨false, none⟩)
  | some (.moved x y) => (state, ⟨true, some (.touch (.moved x y))⟩)
  | some touch => ({ state with pressed := false }, ⟨false, some (.touch touch)⟩)
  | none =>
      if state.size?.any bounds.size.same then (state, ⟨false, none⟩)
      else ({ state with size? := some bounds.size }, ⟨false, some (.resized bounds.size)⟩)

/-- The shape of the pointer. -/
def interaction (overlay : Overlay) (state : OverlayState) (bounds : Rect)
    (cursor : Option Point) : Interaction :=
  if state.pressed then .grabbing
  else
    match overStrip? bounds cursor with
    | some p => if overlay.isOverThumb p then .grab else .none
    | none => .none

end Overlay

end OverlayScrollbar
