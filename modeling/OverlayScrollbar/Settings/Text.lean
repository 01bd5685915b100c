import OverlayScrollbar.Settings.Basic
import OverlayScrollbar.Toml.Format

/-!
# The text of settings

Settings are written as two TOML tables. When they are read, a missing key has its standard value and
unknown keys are passed over; a table may also be an array of its values in order.

- `Section`               : the values of one table
- `Settings.ofDocument?`  : the settings in a document
- `Settings.toSections`   : what settings are written from
-/

namespace OverlayScrollbar

/-! ## Sections -/

/-- The values of one table of settings. -/
inductive Section
  | named (fields : TomlTable)
  | placed (items : List TomlValue)

namespace Section

/-- The values that a document has for a section. A date has no values of its own. -/
def ofValue? : TomlValue → Option Section
  | .table fields => some (.named fields)
  | .array items => some (.placed items)
  | .dateTime => some (.named [])
  | _ => none

/-- The value of a key, which is also the value in some place. -/
def get? (s : Section) (place : Nat) (key : String) : Option TomlValue :=
  match s with
  | .named fields => fields.lookup key
  | .placed items => items[place]?

/-- The value of a key as `read?` reads it, or the standard value if there is none. -/
def read {α : Type} (s : Section) (place : Nat) (key : String) (standard : α)
    (read? : TomlValue → Option α) : Option α :=
  match s.get? place key with
  | none => some standard
  | some value => read? value

end Section

/-! ## Values -/

/-- A whole number up to a limit. -/
def TomlValue.natural? (limit : Nat) : TomlValue → Option Nat
  | .integer i => if 0 ≤ i ∧ i ≤ limit then some i.toNat else none
  | _ => none

/-- A byte. -/
def TomlValue.uint8? (value : TomlValue) : Option UInt8 :=
  (value.natural? 255).map UInt8.ofNat

/-- An unsigned number of 32 bits. -/
def TomlValue.uint32? (value : TomlValue) : Option UInt32 :=
  (value.natural? (2 ^ 32 - 1)).map UInt32.ofNat

/-- An unsigned number of 64 bits. -/
def TomlValue.uint64? (value : TomlValue) : Option UInt64 :=
  (value.natural? (2 ^ 64 - 1)).map UInt64.ofNat

/-- A number, which may be a whole one. -/
def TomlValue.single? : TomlValue → Option Single
  | .integer i => some (Single.ofInt i)
  | .float x => some x.toSingle
  | _ => none

/-- A text. -/
def TomlValue.text? : TomlValue → Option String
  | .string text => some text
  | _ => none

/-! ## Reading -/

/-- The settings of the scrollbar in their section. -/
def ScrollbarSettings.ofSection? (s : Section) : Option ScrollbarSettings := do
  let d := ScrollbarSettings.standard
  return {
    autoHideDelay := ← s.read 0 "auto_hide_delay_ms" d.autoHideDelay TomlValue.uint64?
    fadeTick := ← s.read 1 "fade_tick_ms" d.fadeTick TomlValue.uint64?
    fadeStep := ← s.read 2 "fade_step" d.fadeStep TomlValue.uint8?
    fadeFloor := ← s.read 3 "fade_floor" d.fadeFloor TomlValue.uint8?
    maxAlpha := ← s.read 4 "max_alpha" d.maxAlpha TomlValue.uint8?
    minContentRatio := ← s.read 5 "min_content_ratio" d.minContentRatio TomlValue.single?
    thumbWidth := ← s.read 6 "thumb_width" d.thumbWidth TomlValue.uint32?
    thumbHeight := ← s.read 7 "thumb_height" d.thumbHeight TomlValue.uint32? }

/-- The settings of the editor in their section. -/
def EditorSettings.ofSection? (s : Section) : Option EditorSettings := do
  let d := EditorSettings.standard
  return {
    fontSize := ← s.read 0 "font_size" d.fontSize TomlValue.single?
    lineHeight := ← s.read 1 "line_height" d.lineHeight TomlValue.single?
    theme := ← s.read 2 "theme" d.theme TomlValue.text? }

/-- The settings in a document. -/
def Settings.ofDocument? (fields : TomlTable) : Option Settings := do
  let document := Section.named fields
  return {
    scrollbar := ← document.read 0 "scroller" ScrollbarSettings.standard
      fun value => (Section.ofValue? value).bind ScrollbarSettings.ofSection?
    editor := ← document.read 1 "editor" EditorSettings.standard
      fun value => (Section.ofValue? value).bind EditorSettings.ofSection? }

/-! ## Writing -/

/-- The section of the scrollbar's settings. -/
def ScrollbarSettings.toSection (s : ScrollbarSettings) : TomlSection where
  name := "scroller"
  fields := [("auto_hide_delay_ms", .integer s.autoHideDelay.toNat),
    ("fade_tick_ms", .integer s.fadeTick.toNat), ("fade_step", .integer s.fadeStep.toNat),
    ("fade_floor", .integer s.fadeFloor.toNat), ("max_alpha", .integer s.maxAlpha.toNat),
    ("min_content_ratio", .float s.minContentRatio), ("thumb_width", .integer s.thumbWidth.toNat),
    ("thumb_height", .integer s.thumbHeight.toNat)]

/-- The section of the editor's settings. -/
def EditorSettings.toSection (s : EditorSettings) : TomlSection where
  name := "editor"
  fields := [("font_size", .float s.fontSize), ("line_height", .float s.lineHeight),
    ("theme", .string s.theme)]

/-- The sections of settings, in the order in which they are written. -/
def Settings.toSections (s : Settings) : List TomlSection :=
  [s.scrollbar.toSection, s.editor.toSection]

end OverlayScrollbar
