import OverlayScrollbar.Editor.Host
import OverlayScrollbar.Scrollbar
import OverlayScrollbar.Theme.Basic

/-!
# The application

The application owns an editor and the scrollbar over it. After each message it tells the scrollbar
what has scrolled, makes a new frame if one was asked for, and hands out the timers to arm.

- `Launch`      : what the application starts with
- `AppMessage`  : what reaches it
- `App`         : its state
- `App.new`, `App.update` : the start, and one message
-/

namespace OverlayScrollbar

/-! ## Start values -/

/-- The height of a window at the start. -/
def windowHeight : Single :=
  720

/-- The height of the status bar below the editor. -/
def statusBarHeight : Single :=
  28

/-- A text to scroll in. -/
def sampleText : String :=
  let line (i : Nat) : String :=
    let number := String.ofList (decimalText i)
    s!"line {number}: the quick brown fox jumps over the lazy dog\n"
  "// Drag the thumb on the right edge to jump through the file.\n" ++
    String.join ((List.range 2000).map fun i => line (i + 1))
where
  /-- A number on at least four places. -/
  decimalText (n : Nat) : List Char :=
    let digits := Nat.toDigits 10 n
    List.replicate (4 - digits.length) ' ' ++ digits

/-- What the application starts with. -/
structure Launch where
  /-- The name of the file that is shown. -/
  fileName? : Option String
  /-- The text of the file. -/
  text? : Option String
  settings : Settings
  theme : Theme
  deriving DecidableEq, Repr

/-! ## Messages -/

/-- What reaches the application. -/
inductive AppMessage (E : Type)
  | editor (action : EditorAction E)
  | overlay (touch : Touch)
  | overlayResized (width height : Single)
  | timerFired (token : TimerToken)
  | windowResized (width height : Single)
  | flingTick
  deriving DecidableEq, Repr

/-! ## States -/

/-- The state of the application. -/
structure App (D : Type) where
  host : EditorHost D
  bar : Scrollbar
  /-- The frame that is painted. -/
  frame? : Option Frame
  images : ThumbImages
  theme : Theme
  settings : Settings
  fileName : String
  deriving DecidableEq, Repr

namespace App

variable {D E : Type} [TextEditor D E]

/-- The height of the editor at the start. -/
def startHeight : Single :=
  windowHeight - statusBarHeight

/-- The editor at the start. -/
def startHost (launch : Launch) : EditorHost D :=
  (EditorHost.new (launch.text?.getD sampleText) launch.settings.editor.linePixels).setViewport
    startHeight

/-- The scrollbar at the start, before it is linked. -/
def startBar (launch : Launch) : Scrollbar :=
  (Scrollbar.new 0 launch.settings.scrollbar launch.theme.accent).resize
    (Single.ofNat launch.settings.scrollbar.thumbWidth.toNat) startHeight

/-- The application of an editor and a scrollbar, which are linked. -/
def assemble (launch : Launch) (host : EditorHost D) (bar : Scrollbar) : App D :=
  let (bar, linked, _) := bar.link (some host)
  { host := linked.getD host
    bar := bar
    frame? := none
    images := ThumbImages.empty
    theme := launch.theme
    settings := launch.settings
    fileName := launch.fileName?.getD "untitled" }

/-- The application before its first message. -/
def new (launch : Launch) : App D :=
  assemble launch (startHost launch) (startBar launch)

/-- The title of the window. -/
def title (app : App D) : String :=
  app.fileName ++ " - Fastscroll"

/-- How many sources of events the application listens to: changes of the window's size, and frames
while a fling goes on. -/
def subscriptions (app : App D) : Nat :=
  if app.host.isFlinging then 2 else 1

/-! ## One message -/

/-- The effect of a message on the editor and the scrollbar. -/
def handle (app : App D) : AppMessage E → Checked (App D)
  | .editor action => do return { app with host := ← app.host.perform action }
  | .overlay touch => do
      let (bar, host, _) ← app.bar.touch app.host touch
      return { app with bar := bar, host := host }
  | .overlayResized width height => .ok { app with bar := app.bar.resize width height }
  | .timerFired token => .ok { app with bar := app.bar.timerElapsed token }
  | .windowResized _ height =>
      -- The strip keeps its width and is as high as the editor.
      let viewport := max (height - statusBarHeight) 0
      .ok { app with
        host := app.host.setViewport viewport
        bar := app.bar.resize app.bar.width viewport }
  | .flingTick => do return { app with host := ← app.host.tickFling }

/-- Tells the scrollbar the changes that are meant for it. -/
def deliver (app : App D) : List (ListenerId × ScrollChange) → Checked (App D)
  | [] => .ok app
  | (id, _) :: rest =>
      if id = app.bar.id then do
        deliver { app with bar := ← app.bar.hostScrolled app.host } rest
      else deliver app rest

/-- Makes a new frame, if one was asked for. -/
def redraw (app : App D) : Checked (App D) :=
  if app.bar.needsRedraw then do
    let (bar, frame?) ← app.bar.draw
    return { app with bar := bar, frame? := frame?, images := app.images.sync bar.sprites }
  else .ok app

/-- Handles a message, and gives the timers to arm. -/
def update (app : App D) (message : AppMessage E) : Checked (App D × List TimerRequest) := do
  let app ← app.handle message
  -- The scrollbar learns of a scroll before its frame is made, and of its timers after that.
  let (host, changes) := app.host.drainChanges
  let app ← deliver { app with host := host } changes
  let app ← app.redraw
  let (bar, requests) := app.bar.takeRequests
  return ({ app with bar := bar }, requests)

end App

end OverlayScrollbar
