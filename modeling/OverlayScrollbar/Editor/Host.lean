import OverlayScrollbar.Editor.Basic
import OverlayScrollbar.Editor.Tracker
import OverlayScrollbar.Host

/-!
# The editor as a host

An editor does not tell its scroll offset. Its host keeps a tracker in step with the actions that
pass through it: a wheel scrolls by lines and starts a fling, and any other action scrolls as little
as keeps a moved cursor in view.

- `EditorHost`              : an editor with its tracker and the listeners for scroll changes
- `EditorHost.perform`      : an action
- `EditorHost.tickFling`    : a frame of a fling
- `EditorHost.drainChanges` : what the listeners are to be told
-/

namespace OverlayScrollbar

/-- An editor that a scrollbar can scroll. -/
structure EditorHost (D : Type) where
  document : D
  tracker : ScrollTracker
  listeners : Listeners
  deriving DecidableEq, Repr

namespace EditorHost

variable {D E : Type} [TextEditor D E]

/-- A host for a text, at its first line. -/
def new (text : String) (lineHeight : Single) : EditorHost D :=
  let document : D := TextEditor.ofText text
  ⟨document, ScrollTracker.new (TextEditor.lineCount document) lineHeight, Listeners.empty⟩

/-- Sets the height of the view. -/
def setViewport (host : EditorHost D) (height : Single) : EditorHost D :=
  { host with tracker := host.tracker.setViewport height }

/-- Tells the listeners if the offset is another than it was. -/
def notifyIfMoved (host : EditorHost D) (oldY : Single) : EditorHost D :=
  let y := host.tracker.scrollY
  if y.sameSize oldY then host
  else { host with listeners := host.listeners.notify ⟨0, y, 0, oldY⟩ }

/-- Scrolls by a number of lines, within the document. The editor is told by how many it was. -/
def scrollLines (host : EditorHost D) (lines : Int) : Checked (EditorHost D) := do
  let oldY := host.tracker.scrollY
  let (tracker, applied) ← host.tracker.scrollBy lines
  let host := { host with tracker := tracker }
  if applied = 0 then
    return host
  let document := TextEditor.perform host.document (.scroll applied)
  return { host with document := document }.notifyIfMoved oldY

/-- Carries out an action other than a scroll, and follows the cursor if its place has changed. -/
def edit (host : EditorHost D) (edit : E) : Checked (EditorHost D) := do
  let oldY := host.tracker.scrollY
  let document := TextEditor.perform host.document (.edit edit)
  let tracker := host.tracker.setLineCount (TextEditor.lineCount document)
  let tracker ←
    if TextEditor.position document = TextEditor.position host.document then pure tracker
    else do
      let (tracker, _) ← tracker.followLine (TextEditor.position document).1
      pure tracker
  return { host with document := document, tracker := tracker }.notifyIfMoved oldY

/-- Carries out an action. -/
def perform (host : EditorHost D) : EditorAction E → Checked (EditorHost D)
  | .scroll lines => do
      let host ← host.scrollLines lines
      return { host with tracker := host.tracker.startFling lines }
  | .edit edit => host.edit edit

/-- A fling goes on. -/
def isFlinging (host : EditorHost D) : Bool :=
  host.tracker.isFlinging

/-- One frame of a fling. -/
def tickFling (host : EditorHost D) : Checked (EditorHost D) :=
  let (tracker, step) := host.tracker.flingStep
  let host := { host with tracker := tracker }
  if step = 0 then .ok host else host.scrollLines step

/-- Hands out the changes that listeners are to be told. -/
def drainChanges (host : EditorHost D) : EditorHost D × List (ListenerId × ScrollChange) :=
  let (listeners, changes) := host.listeners.drain
  ({ host with listeners := listeners }, changes)

instance : ScrollHost (EditorHost D) where
  addListener host id :=
    let (listeners, added) := host.listeners.add id
    ({ host with listeners := listeners }, added)
  scrollX _ := 0
  scrollY host := host.tracker.scrollY
  layoutHeight? host := host.tracker.layoutHeight?
  height host := host.tracker.viewport
  lineHeight host := host.tracker.lineHeight
  abortFling host := { host with tracker := host.tracker.abortFling }
  scrollTo host _ y := do host.scrollLines (← host.tracker.deltaTo y)

end EditorHost

end OverlayScrollbar
