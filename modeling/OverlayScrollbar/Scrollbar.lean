import OverlayScrollbar.Host
import OverlayScrollbar.Placement
import OverlayScrollbar.Settings.Basic
import OverlayScrollbar.Sprite.Cache
import OverlayScrollbar.Timers

/-!
# The scrollbar

The thumb is hidden until the host scrolls. It is then visible until the auto-hide delay is over,
fades out while it is exiting, and is hidden again; a press on it starts a drag, and a release ends
the drag. Every change of visibility cancels the timers and asks for a new frame, and content that
is not long enough keeps the thumb from becoming visible.

- `Visibility`  : the four states of a thumb
- `Touch`       : pointer input
- `Frame`       : what is to be painted
- `Scrollbar`   : the state of a scrollbar
- `Scrollbar.link`, `Scrollbar.hostScrolled`, `Scrollbar.touch`, `Scrollbar.timerElapsed`,
  `Scrollbar.enter`, `Scrollbar.resize`, `Scrollbar.recolor`, `Scrollbar.draw`,
  `Scrollbar.takeRequests` : its operations
-/

namespace OverlayScrollbar

/-! ## States, input and output -/

/-- How much of the thumb is to be seen. -/
inductive Visibility
  | hidden
  | visible
  | dragging
  | exiting
  deriving DecidableEq, Repr

/-- Pointer input, in coordinates of the strip. -/
inductive Touch
  | pressed (x y : Single)
  | moved (x y : Single)
  | released (x y : Single)
  /-- The gesture was taken away. -/
  | cancelled
  deriving DecidableEq, Repr

/-- What is to be painted. -/
structure Frame where
  sprite : SpriteKind
  /-- The top of the thumb. -/
  top : Single
  alpha : UInt8
  /-- The generation of the sprites that the frame was made with. -/
  generation : Nat
  deriving DecidableEq, Repr

/-- The state of a scrollbar. -/
structure Scrollbar where
  /-- The listener that the scrollbar is to its host. -/
  id : ListenerId
  settings : ScrollbarSettings
  visibility : Visibility
  /-- A host was linked. -/
  linked : Bool
  /-- The width of the strip. -/
  width : Single
  /-- The height of the strip. -/
  height : Single
  /-- The top of the thumb. -/
  top : Single
  /-- What was measured last. -/
  metrics : ScrollMetrics
  alpha : UInt8
  /-- The thumb is held. -/
  pressed : Bool
  /-- A new frame was asked for. -/
  needsRedraw : Bool
  timers : Timers
  sprites : SpriteCache
  tint : Color
  deriving DecidableEq, Repr

namespace Scrollbar

/-! ## Values -/

/-- A hidden scrollbar without a host. -/
def new (id : ListenerId) (settings : ScrollbarSettings) (tint : Color) : Scrollbar where
  id := id
  settings := settings
  visibility := .hidden
  linked := false
  width := 0
  height := 0
  top := 0
  metrics := ScrollMetrics.empty
  alpha := settings.maxAlpha
  pressed := false
  needsRedraw := false
  timers := Timers.empty
  sprites := SpriteCache.new (Drawable.atRest.withHeight settings.thumbHeight)
    (Drawable.held.withHeight settings.thumbHeight)
  tint := tint

/-- The height of the thumb in pixels. -/
def thumbHeight (bar : Scrollbar) : UInt32 :=
  bar.settings.thumbHeight

/-- The height of the thumb as a length. -/
def thumbLength (bar : Scrollbar) : Single :=
  Single.ofNat bar.thumbHeight.toNat

/-- The content that was measured last is long enough for a thumb. -/
def isJustified (bar : Scrollbar) : Bool :=
  bar.metrics.isLong bar.settings.minContentRatio

/-- The point lies on the thumb, its edges included. -/
def isOnThumb (bar : Scrollbar) (x y : Single) : Bool :=
  decide (0 ≤ x) && decide (x ≤ bar.width) && decide (bar.top ≤ y) &&
    decide (y ≤ bar.top + bar.thumbLength)

/-! ## Steps that operations share -/

/-- Asks for a new frame. -/
def invalidate (bar : Scrollbar) : Scrollbar :=
  { bar with needsRedraw := true }

/-- Schedules the next timer. -/
def schedule (bar : Scrollbar) (delay : UInt64) : Checked Scrollbar := do
  let (timers, _) ← bar.timers.schedule delay
  return { bar with timers := timers }

/-- Changes the visibility, cancels the timers and asks for a new frame. A thumb does not become
visible over content that is too short. -/
def enter (bar : Scrollbar) (visibility : Visibility) : Scrollbar :=
  -- A refusal changes nothing: the timers run on.
  if visibility = .visible ∧ ¬bar.isJustified then bar
  else invalidate { bar with visibility := visibility, timers := bar.timers.cancelAll }

theorem enter_visible_of_not_isJustified {bar : Scrollbar} (h : bar.isJustified = false) :
    bar.enter .visible = bar := by
  simp [enter, h]

theorem enter_of_ne_visible {bar : Scrollbar} {visibility : Visibility} (h : visibility ≠ .visible) :
    bar.enter visibility =
      invalidate { bar with visibility := visibility, timers := bar.timers.cancelAll } := by
  simp [enter, h]

theorem enter_of_isJustified {bar : Scrollbar} (h : bar.isJustified = true)
    (visibility : Visibility) :
    bar.enter visibility =
      invalidate { bar with visibility := visibility, timers := bar.timers.cancelAll } := by
  simp [enter, h]

/-- Starts the auto-hide delay, unless the thumb is hidden. -/
def scheduleAutoHide (bar : Scrollbar) : Checked Scrollbar :=
  if bar.visibility = .hidden then .ok bar
  else bar.schedule bar.settings.autoHideDelay

/-- Ends a drag: the thumb is visible, with a new auto-hide delay. -/
def release (bar : Scrollbar) : Checked Scrollbar :=
  scheduleAutoHide { bar.enter .visible with pressed := false }

section Host

variable {H : Type} [ScrollHost H]

/-- Measures the host and places the thumb, as soon as the host is laid out. -/
def measure (bar : Scrollbar) (host : H) : Checked Scrollbar :=
  if bar.linked then
    match ScrollHost.layoutHeight? host with
    | none => .ok bar
    | some contentHeight => do
        let metrics : ScrollMetrics :=
          { viewHeight := bar.height
            contentHeight := contentHeight
            offset := ScrollHost.scrollY host
            hostHeight := ScrollHost.height host
            lineHeight := ScrollHost.lineHeight host }
        let top ← metrics.thumbTop bar.thumbLength
        return { bar with metrics := metrics, top := top }
  else .ok bar

/-- Scrolls the host to where the thumb is. -/
def scrollHost (bar : Scrollbar) (host : H) : Checked H :=
  match bar.metrics.targetOffset? bar.thumbLength bar.top with
  | none => .ok host
  | some y => ScrollHost.scrollTo host (ScrollHost.scrollX host) y

/-! ## Operations with a host -/

/-- Registers the scrollbar with a host, once; tells whether it did. -/
def link (bar : Scrollbar) : Option H → Scrollbar × Option H × Bool
  | none => (bar, none, false)
  | some host =>
      if bar.linked then (bar, some host, false)
      else ({ bar with linked := true }, some (ScrollHost.addListener host bar.id).1, true)

/-- The host has scrolled: the thumb is placed and shown, unless it is being dragged. -/
def hostScrolled (bar : Scrollbar) (host : H) : Checked Scrollbar :=
  if !bar.linked || bar.visibility = .dragging then .ok bar
  else do
    let bar ← bar.measure host
    (bar.enter .visible).scheduleAutoHide

/-- Handles pointer input and tells whether the scrollbar has used it. -/
def touch (bar : Scrollbar) (host : H) (event : Touch) : Checked (Scrollbar × H × Bool) :=
  if !bar.linked || bar.visibility = .hidden then .ok (bar, host, false)
  else do
    -- The thumb is hit where the host's offset puts it now.
    let bar ← bar.measure host
    match event with
    | .pressed x y =>
        if bar.isOnThumb x y then
          return ({ bar.enter .dragging with pressed := true }, ScrollHost.abortFling host, true)
        else return (bar, host, false)
    | .moved _ y =>
        if bar.visibility = .dragging then
          -- The pointer moves the thumb, and the thumb moves the host.
          let bar := { bar with
            pressed := true
            top := draggedTop y bar.thumbHeight bar.metrics.viewHeight }
          let host ← bar.scrollHost (ScrollHost.abortFling host)
          return (bar.invalidate, host, true)
        else return (bar, host, false)
    | .released _ _ => return (← bar.release, host, false)
    | .cancelled =>
        if bar.visibility = .dragging then return (← bar.release, host, false)
        else return (bar, host, false)

end Host

/-! ## Operations without a host -/

/-- A timer is over: if it is live, the thumb starts or goes on to fade. -/
def timerElapsed (bar : Scrollbar) (token : TimerToken) : Scrollbar :=
  let (timers, live) := bar.timers.fire token
  if live then enter { bar with timers := timers } .exiting
  else bar

/-- A timer that was cancelled, or came back before, changes nothing. -/
theorem timerElapsed_of_not_mem {bar : Scrollbar} {token : TimerToken}
    (h : token ∉ bar.timers.live) : bar.timerElapsed token = bar := by
  simp [timerElapsed, Timers.fire_of_not_mem h]

/-- Sets the size of the strip. Another size drops the sprites. -/
def resize (bar : Scrollbar) (width height : Single) : Scrollbar :=
  if bar.width.sameSize width && bar.height.sameSize height then bar
  else
    invalidate { bar with width := width, height := height, sprites := bar.sprites.clear }

/-- Sets the colour of the thumb. Another colour drops the sprites. -/
def recolor (bar : Scrollbar) (tint : Color) : Scrollbar :=
  if bar.tint.sameChannels tint then bar
  else invalidate { bar with tint := tint, sprites := bar.sprites.clear }

/-- The width of the strip as a whole number of pixels. -/
def spriteWidth (bar : Scrollbar) : UInt32 :=
  (max bar.width.nearest 0).toUInt32

/-- The frame that shows a look of the thumb, if it can be painted. -/
def frame? (bar : Scrollbar) (paintable : Bool) (sprite : SpriteKind) : Option Frame :=
  if paintable then some ⟨sprite, bar.top, bar.alpha, bar.sprites.generation⟩ else none

/-- Makes a frame. The sprites are drawn if they are missing, and a thumb that is exiting fades by
one step, whether or not its sprites can be drawn. -/
def draw (bar : Scrollbar) : Checked (Scrollbar × Option Frame) :=
  let bar := { bar with needsRedraw := false }
  if !bar.linked || bar.visibility = .hidden then .ok (bar, none)
  else do
    -- Without sprites nothing is painted, but the fade still runs.
    let (sprites, drawn) ← bar.sprites.ensure bar.spriteWidth bar.thumbHeight bar.tint
    let paintable := drawn.isOk
    let bar := { bar with sprites := sprites }
    match bar.visibility with
    | .hidden => return (bar, none)
    | .visible =>
        let bar := { bar with alpha := bar.settings.maxAlpha }
        return (bar, bar.frame? paintable .normal)
    | .dragging =>
        let bar := { bar with alpha := bar.settings.maxAlpha }
        return (bar, bar.frame? paintable .dragging)
    | .exiting =>
        if bar.settings.fadeFloor < bar.alpha then
          -- A step that is larger than what is left takes the alpha to zero.
          let alpha := UInt8.ofNat (bar.alpha.toNat - bar.settings.fadeStep.toNat)
          let bar ← { bar with alpha := alpha }.schedule bar.settings.fadeTick
          return (bar, bar.frame? paintable .normal)
        else return (enter { bar with alpha := 0 } .hidden, none)

/-- Hands out the timers to arm. -/
def takeRequests (bar : Scrollbar) : Scrollbar × List TimerRequest :=
  let (timers, requests) := bar.timers.drain
  ({ bar with timers := timers }, requests)

end Scrollbar

end OverlayScrollbar
