import OverlayScrollbar.Files
import OverlayScrollbar.Settings.Text

/-!
# Settings files

- `SettingsError`        : why settings cannot be loaded or saved
- `Settings.load`        : reads settings and checks them
- `Settings.save`        : writes settings, and makes the directories for the file
- `Settings.loadDefault` : the settings in the user's configuration directory

The library that reads and writes TOML is a parameter of all of them.
-/

namespace OverlayScrollbar

/-- Why settings cannot be loaded or saved. -/
inductive SettingsError
  | file (error : FileError)
  /-- The text is not that of settings. -/
  | malformed
  /-- The settings have no text, for the reason that is told. -/
  | unwritable (reason : String)
  | invalid (setting : InvalidSetting)
  deriving DecidableEq, Repr

/-- The text of an error; what is wrong with a malformed text is not told. -/
def SettingsError.message : SettingsError → String
  | .file error => "IO error: " ++ error.message
  | .malformed => "Parse error"
  | .unwritable reason => "Serialize error: " ++ reason
  | .invalid setting => "Invalid config: " ++ setting.message

namespace Settings

variable (format : TomlFormat)

/-- The settings in a text, if they can be worked with. -/
def ofText (text : String) : Except SettingsError Settings :=
  match (format.read? text).bind ofDocument? with
  | none => .error .malformed
  | some settings =>
      match settings.validate with
      | .ok () => .ok settings
      | .error setting => .error (.invalid setting)

/-- The settings in a file, if they can be worked with. -/
def load (tree : FileTree) (path : Path) : Except SettingsError Settings :=
  match tree.readText path with
  | .error error => .error (.file error)
  | .ok text => ofText format text

/-- Writes settings to a file. The directories above it are made first. -/
def save (settings : Settings) (tree : FileTree) (path : Path) :
    Except SettingsError FileTree :=
  match tree.makeDirectories [] path.parent with
  | .error error => .error (.file error)
  | .ok tree =>
      match format.write settings.toSections with
      | .error reason => .error (.unwritable reason)
      | .ok text =>
          match tree.writeText path text with
          | .error error => .error (.file error)
          | .ok tree => .ok tree

/-- The file with the settings that are used if no other file is named. -/
def defaultPath (configDirectory : String) : Path :=
  Path.ofString (configDirectory ++ "/fastscroll/config.toml")

/-- The settings in the default file, or the standard ones if that file is missing or cannot be
used. -/
def loadDefault (tree : FileTree) (configDirectory : String) : Settings :=
  match load format tree (defaultPath configDirectory) with
  | .ok settings => settings
  | .error _ => standard

end Settings

end OverlayScrollbar
