import OverlayScrollbar.Files
import OverlayScrollbar.Json.Format
import OverlayScrollbar.Theme.Basic

/-!
# Theme files

A theme is one JSON object. Every field is needed, other fields are passed over, and an object may
also be an array of its fields in order. The library that reads and writes JSON is a parameter.

- `Json.record?`    : the fields of an object by name
- `Theme.ofJson?`   : the theme that a value writes
- `Theme.toJson`    : the value of a theme
- `Theme.load`, `Theme.save` : theme files
-/

namespace OverlayScrollbar

/-! ## Records -/

namespace Json

variable {N : Type}

/-- The value of the only field of some name. -/
def onlyField? (fields : List (JsonString × Json N)) (name : String) : Option (Json N) :=
  match fields.filter fun field => field.1 == some name with
  | [field] => some field.2
  | _ => none

/-- The values of the given fields, each of which must be there once. Every name must be a text. -/
def record? (names : List String) : Json N → Option (List (Json N))
  | .object fields =>
      if fields.all fun field => field.1.isSome then names.mapM (onlyField? fields) else none
  | .array items => if items.length = names.length then some items else none
  | _ => none

end Json

variable (format : JsonFormat)

/-! ## Colours -/

/-- The channel that a value writes. -/
def JsonFormat.channel? (value : Json format.Number) : Option Single :=
  value.number?.bind format.single?

/-- The value of a channel, which is null if JSON has no such number. -/
def JsonFormat.channel (x : Single) : Json format.Number :=
  match format.ofSingle? x with
  | some n => .number n
  | none => .null

/-- The colour that a value writes. -/
def Color.ofJson? (value : Json format.Number) : Option Color := do
  match ← value.record? ["r", "g", "b", "a"] with
  | [red, green, blue, alpha] =>
      return ⟨← format.channel? red, ← format.channel? green, ← format.channel? blue,
        ← format.channel? alpha⟩
  | _ => none

/-- The value of a colour. -/
def Color.toJson (color : Color) : Json format.Number :=
  .object [(some "r", format.channel color.red), (some "g", format.channel color.green),
    (some "b", format.channel color.blue), (some "a", format.channel color.alpha)]

namespace Theme

/-! ## Reading -/

/-- The theme that a value writes. -/
def ofJson? (value : Json format.Number) : Option Theme := do
  match ← value.record? ["name", "is_dark", "background", "foreground", "ui"] with
  | [name, isDark, background, foreground, ui] =>
      match ← background.record? ["primary"], ← foreground.record? ["primary", "muted", "accent"],
          ← ui.record? ["border", "status_bar"] with
      | [ground], [text, muted, accent], [border, statusBar] =>
          return {
            name := ← name.text?
            isDark := ← isDark.bool?
            background := ← Color.ofJson? format ground
            foreground := ← Color.ofJson? format text
            muted := ← Color.ofJson? format muted
            accent := ← Color.ofJson? format accent
            border := ← Color.ofJson? format border
            statusBar := ← Color.ofJson? format statusBar }
      | _, _, _ => none
  | _ => none

/-- The theme that a text writes. -/
def ofText? (text : String) : Option Theme :=
  (format.read? text).bind (ofJson? format)

/-! ## Writing -/

/-- The value of a theme. -/
def toJson (theme : Theme) : Json format.Number :=
  .object [(some "name", .string (some theme.name)), (some "is_dark", .bool theme.isDark),
    (some "background", .object [(some "primary", theme.background.toJson format)]),
    (some "foreground", .object [(some "primary", theme.foreground.toJson format),
      (some "muted", theme.muted.toJson format), (some "accent", theme.accent.toJson format)]),
    (some "ui", .object [(some "border", theme.border.toJson format),
      (some "status_bar", theme.statusBar.toJson format)])]

/-- The text of a theme. -/
def toText (theme : Theme) : String :=
  format.write (theme.toJson format)

end Theme

/-! ## Files -/

/-- Why a theme cannot be loaded. -/
inductive ThemeError
  | file (error : FileError)
  /-- The text is not that of a theme. -/
  | malformed
  deriving DecidableEq, Repr

namespace Theme

/-- The theme in a file. -/
def load (tree : FileTree) (path : Path) : Except ThemeError Theme :=
  match tree.readText path with
  | .error error => .error (.file error)
  | .ok text =>
      match ofText? format text with
      | some theme => .ok theme
      | none => .error .malformed

/-- Writes a theme to a file. -/
def save (theme : Theme) (tree : FileTree) (path : Path) : Except FileError FileTree :=
  tree.writeText path (theme.toText format)

end Theme

end OverlayScrollbar
