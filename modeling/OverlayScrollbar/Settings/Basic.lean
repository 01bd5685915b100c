import OverlayScrollbar.Single.Arithmetic
import OverlayScrollbar.Single.Order

/-!
# Settings

- `ScrollbarSettings` : timing, fade and size of the scrollbar
- `EditorSettings`    : font and theme of the editor
- `Settings`          : both sections
- `Settings.validate` : refuses values that the scrollbar cannot work with
-/

namespace OverlayScrollbar

/-- Timing, fade and size of the scrollbar. -/
structure ScrollbarSettings where
  /-- Milliseconds without scrolling before the thumb starts to fade. -/
  autoHideDelay : UInt64
  /-- Milliseconds between two steps of the fade. -/
  fadeTick : UInt64
  /-- Alpha taken off by a step of the fade. -/
  fadeStep : UInt8
  /-- Alpha at or below which the fade ends. -/
  fadeFloor : UInt8
  /-- Alpha of a thumb that does not fade. -/
  maxAlpha : UInt8
  /-- The thumb shows only if the content is this many times as high as the view. -/
  minContentRatio : Single
  /-- The width of the strip in pixels. -/
  thumbWidth : UInt32
  /-- The height of the thumb in pixels. -/
  thumbHeight : UInt32
  deriving DecidableEq, Repr

/-- Font and theme of the editor. -/
structure EditorSettings where
  /-- The size of the font in points. -/
  fontSize : Single
  /-- The height of a line as a multiple of the font size. -/
  lineHeight : Single
  /-- The name of a built-in theme. -/
  theme : String
  deriving DecidableEq, Repr

/-- All settings. -/
structure Settings where
  scrollbar : ScrollbarSettings
  editor : EditorSettings
  deriving DecidableEq, Repr

/-! ## Defaults -/

/-- The settings of a scrollbar that nobody has set. -/
def ScrollbarSettings.standard : ScrollbarSettings :=
  ⟨2000, 17, 25, 25, 225, 1.5, 24, 48⟩

/-- The settings of an editor that nobody has set. -/
def EditorSettings.standard : EditorSettings :=
  ⟨14, 1.4, "dark"⟩

/-- The settings where nothing is set. -/
def Settings.standard : Settings :=
  ⟨ScrollbarSettings.standard, EditorSettings.standard⟩

instance : Inhabited Settings where
  default := Settings.standard

/-! ## Values -/

/-- The height of a line in pixels. -/
def EditorSettings.linePixels (editor : EditorSettings) : Single :=
  editor.fontSize * editor.lineHeight

/-- All settings of both have the same values. Settings with a ratio or length that is not a number
are not even the same as themselves. -/
def Settings.same (a b : Settings) : Bool :=
  a.scrollbar.autoHideDelay == b.scrollbar.autoHideDelay &&
    a.scrollbar.fadeTick == b.scrollbar.fadeTick &&
    a.scrollbar.fadeStep == b.scrollbar.fadeStep &&
    a.scrollbar.fadeFloor == b.scrollbar.fadeFloor &&
    a.scrollbar.maxAlpha == b.scrollbar.maxAlpha &&
    a.scrollbar.minContentRatio.sameSize b.scrollbar.minContentRatio &&
    a.scrollbar.thumbWidth == b.scrollbar.thumbWidth &&
    a.scrollbar.thumbHeight == b.scrollbar.thumbHeight &&
    a.editor.fontSize.sameSize b.editor.fontSize &&
    a.editor.lineHeight.sameSize b.editor.lineHeight &&
    a.editor.theme == b.editor.theme

/-! ## Validation -/

/-- The settings that cannot be worked with. -/
inductive InvalidSetting
  | fadeStepZero
  | fadeTickZero
  | ratioNotPositive
  | thumbSizeZero
  | editorSizeNotPositive
  deriving DecidableEq, Repr

/-- The text that says what must be changed. -/
def InvalidSetting.message : InvalidSetting → String
  | .fadeStepZero => "fade_step must be non-zero"
  | .fadeTickZero => "fade_tick_ms must be non-zero"
  | .ratioNotPositive => "min_content_ratio must be positive"
  | .thumbSizeZero => "thumb size must be non-zero"
  | .editorSizeNotPositive => "editor font_size and line_height must be positive"

/-- Checks the settings of the scrollbar, in the order of their fields. -/
def ScrollbarSettings.validate (s : ScrollbarSettings) : Except InvalidSetting Unit :=
  if s.fadeStep = 0 then .error .fadeStepZero
  else if s.fadeTick = 0 then .error .fadeTickZero
  else if s.minContentRatio.isNaN ∨ s.minContentRatio ≤ 0 then .error .ratioNotPositive
  else if s.thumbWidth = 0 ∨ s.thumbHeight = 0 then .error .thumbSizeZero
  else .ok ()

/-- Checks the settings of the scrollbar, then those of the editor. -/
def Settings.validate (s : Settings) : Except InvalidSetting Unit := do
  s.scrollbar.validate
  if s.editor.fontSize ≤ 0 ∨ s.editor.lineHeight ≤ 0 then
    .error .editorSizeNotPositive

end OverlayScrollbar
