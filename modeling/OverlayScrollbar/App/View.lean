import OverlayScrollbar.App.Basic
import OverlayScrollbar.Decimal.Text
import OverlayScrollbar.Overlay

/-!
# The view of the application

The editor fills the window but for a status bar below it; the thumb is painted over the right edge
of the editor.

- `AppView`     : what is painted in a window
- `App.status`  : the text of the status bar
- `App.overlay` : the strip that takes the pointer
- `App.view`    : the view of the application in a window of some size
-/

namespace OverlayScrollbar

/-- A filled rectangle. -/
structure Fill where
  bounds : Rect
  color : Color
  deriving DecidableEq, Repr

/-- The thumb as it is painted. -/
structure PaintedThumb where
  sprite : SpriteKind
  bounds : Rect
  opacity : Single
  deriving DecidableEq, Repr

/-- What is painted in a window. -/
structure AppView where
  /-- The ground of the editor. -/
  editor : Fill
  /-- The status bar. -/
  statusBar : Fill
  /-- The colour of the status bar's border. -/
  border : Color
  /-- The width of the status bar's border. -/
  borderWidth : Single
  /-- The texts in the status bar, from left to right. -/
  labels : List String
  /-- The colour of the labels. -/
  labelColor : Color
  thumb? : Option PaintedThumb
  /-- The colour of the editor's text, if there is any. -/
  textColor? : Option Color
  deriving DecidableEq, Repr

/-- The name of a state in the status bar. -/
def Visibility.name : Visibility → String
  | .hidden => "Hidden"
  | .visible => "Visible"
  | .dragging => "Dragging"
  | .exiting => "Exiting"

namespace App

variable {D E : Type} [TextEditor D E]

/-- The text of the status bar: the state of the thumb, its place and alpha, and the first line that
is seen. -/
def status (app : App D) : String :=
  let top := app.bar.top.roundedText
  let tracker := app.host.tracker
  s!"{app.bar.visibility.name} | thumb {top}px | alpha {app.bar.alpha.toNat} | " ++
    s!"line {tracker.firstLine + 1}/{tracker.lineCount}"

/-- The frame that is painted: it needs an image. -/
def painted? (app : App D) : Option Frame :=
  app.frame?.filter fun frame => (app.images.get? frame.sprite).isSome

/-- The width of the strip over the right edge of the editor. -/
def stripWidth (app : App D) : Single :=
  Single.ofNat app.settings.scrollbar.thumbWidth.toNat

/-- The strip that takes the pointer, with the rectangle of the painted thumb. -/
def overlay (app : App D) : Overlay where
  thumb? := app.painted?.map fun frame => ⟨0, frame.top, app.stripWidth, app.bar.thumbLength⟩

/-- The painted thumb in a window of the given width. -/
def paintedThumb? (app : App D) (width : Single) : Option PaintedThumb :=
  app.painted?.map fun frame =>
    { sprite := frame.sprite
      bounds := ⟨width - app.stripWidth, frame.top, app.stripWidth, app.bar.thumbLength⟩
      opacity := Single.ofNat frame.alpha.toNat / 255 }

/-- The view of the application in a window of the given size. -/
def view (app : App D) (width height : Single) : AppView :=
  let editorHeight := height - statusBarHeight
  { editor := ⟨⟨0, 0, width, editorHeight⟩, app.theme.background⟩
    statusBar := ⟨⟨0, editorHeight, width, statusBarHeight⟩, app.theme.statusBar⟩
    border := app.theme.border
    borderWidth := 1
    labels := [app.fileName, app.status]
    labelColor := app.theme.muted
    thumb? := app.paintedThumb? width
    textColor? := if TextEditor.isEmpty app.host.document then none else some app.theme.foreground }

end App

end OverlayScrollbar
