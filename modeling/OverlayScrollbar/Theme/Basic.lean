import OverlayScrollbar.Color

/-!
# Themes

- `Theme`       : the colours of the editor and of the scrollbar
- `Theme.dark`, `Theme.light` : the built-in themes
- `Theme.named` : the built-in theme of some name
-/

namespace OverlayScrollbar

/-- The colours of the editor and of the scrollbar. -/
structure Theme where
  name : String
  /-- The theme is made for light text on a dark ground. -/
  isDark : Bool
  /-- The ground of the editor. -/
  background : Color
  /-- The text of the editor. -/
  foreground : Color
  /-- The text of the status bar. -/
  muted : Color
  /-- The tint of the thumb. -/
  accent : Color
  /-- The border of the status bar. -/
  border : Color
  /-- The ground of the status bar. -/
  statusBar : Color
  deriving DecidableEq, Repr

namespace Theme

/-- The built-in dark theme. -/
def dark : Theme where
  name := "Fastscroll Dark"
  isDark := true
  background := Color.solid 0.10 0.10 0.12
  foreground := Color.solid 0.9 0.9 0.9
  muted := Color.solid 0.5 0.5 0.5
  accent := Color.solid 0.4 0.6 1.0
  border := Color.solid 0.25 0.25 0.28
  statusBar := Color.solid 0.15 0.15 0.17

/-- The built-in light theme. -/
def light : Theme where
  name := "Fastscroll Light"
  isDark := false
  background := Color.solid 1.0 1.0 1.0
  foreground := Color.solid 0.1 0.1 0.1
  muted := Color.solid 0.5 0.5 0.5
  accent := Color.solid 0.2 0.4 0.8
  border := Color.solid 0.85 0.85 0.85
  statusBar := Color.solid 0.92 0.92 0.92

instance : Inhabited Theme where
  default := dark

/-- The built-in theme of the given name, or the dark one. -/
def named (name : String) : Theme :=
  if name = "light" then light else dark

/-- Both themes have the same name and colours. A theme with a channel that is not a number is not
even the same as itself. -/
def same (a b : Theme) : Bool :=
  a.name == b.name && a.isDark == b.isDark && a.background.sameChannels b.background &&
    a.foreground.sameChannels b.foreground && a.muted.sameChannels b.muted &&
    a.accent.sameChannels b.accent && a.border.sameChannels b.border &&
    a.statusBar.sameChannels b.statusBar

end Theme

end OverlayScrollbar
