import OverlayScrollbar.Fault
import OverlayScrollbar.Listeners
import OverlayScrollbar.Single.Order

/-!
# Hosts

A host is the view that a scrollbar lies over. The scrollbar does not own its host: every operation
that needs the host is handed it.

- `ScrollHost`   : what a scrollbar asks of its host
- `RecordedHost` : a host that is measured by hand and keeps a record of the calls
-/

namespace OverlayScrollbar

/-- What a scrollbar asks of the view that it lies over. -/
class ScrollHost (H : Type) where
  /-- Registers a listener for scroll changes and tells whether it was new. -/
  addListener : H → ListenerId → H × Bool
  /-- The horizontal scroll offset. -/
  scrollX : H → Single
  /-- The vertical scroll offset. -/
  scrollY : H → Single
  /-- The height of the whole content, once it is laid out. -/
  layoutHeight? : H → Option Single
  /-- The height of the part that is seen. -/
  height : H → Single
  /-- The height of a line. -/
  lineHeight : H → Single
  /-- Stops a scroll that goes on by itself. -/
  abortFling : H → H
  /-- Scrolls to an offset. -/
  scrollTo : H → Single → Single → Checked H

/-- A host with given measurements that records what is asked of it. -/
structure RecordedHost where
  x : Single
  y : Single
  layout? : Option Single
  height : Single
  lineHeight : Single
  /-- The listeners that were registered. -/
  listeners : Listeners
  /-- How often a fling was to be stopped. -/
  aborts : Nat
  /-- The offsets that were scrolled to, oldest first. -/
  scrolls : List (Single × Single)
  deriving DecidableEq, Repr

namespace RecordedHost

/-- A host without content, of which nothing was asked. -/
def empty : RecordedHost :=
  ⟨0, 0, none, 0, 0, Listeners.empty, 0, []⟩

instance : ScrollHost RecordedHost where
  addListener host id :=
    let (listeners, added) := host.listeners.add id
    ({ host with listeners := listeners }, added)
  scrollX := RecordedHost.x
  scrollY := RecordedHost.y
  layoutHeight? := RecordedHost.layout?
  height := RecordedHost.height
  lineHeight := RecordedHost.lineHeight
  abortFling host := { host with aborts := host.aborts + 1 }
  scrollTo host x y := .ok { host with x := x, y := y, scrolls := host.scrolls ++ [(x, y)] }

/-- The host without its record of scrolls. -/
def forgetScrolls (host : RecordedHost) : RecordedHost :=
  { host with scrolls := [] }

end RecordedHost

end OverlayScrollbar
