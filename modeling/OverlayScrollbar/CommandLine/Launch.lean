import OverlayScrollbar.App.Basic
import OverlayScrollbar.CommandLine.Arguments
import OverlayScrollbar.Settings.File
import OverlayScrollbar.Theme.File

/-!
# Starting from the command line

- `LaunchError`      : why the application is not started
- `Arguments.launch` : reads the files that the command line names
-/

namespace OverlayScrollbar

/-- Why the application is not started. -/
inductive LaunchError
  | config (path : Path) (error : SettingsError)
  | theme (path : Path) (error : ThemeError)
  | text (path : Path) (error : FileError)
  deriving DecidableEq, Repr

/-- The text of an error; what is wrong with a malformed theme is not told. -/
def LaunchError.message : LaunchError → String
  | .config path error => "Failed to load config " ++ path.text ++ ": " ++ error.message
  | .theme path (.file error) => "Failed to load theme " ++ path.text ++ ": " ++ error.message
  | .theme path .malformed => "Failed to load theme " ++ path.text
  | .text path error => "Failed to read " ++ path.text ++ ": " ++ error.message

/-- The outcome of loading a file, with the error that belongs to it. -/
def orFail {α ε : Type} (result : Except ε α) (error : ε → LaunchError) : Except LaunchError α :=
  match result with
  | .ok a => .ok a
  | .error e => .error (error e)

namespace Arguments

/-- The settings that the command line asks for. -/
def settings (toml : TomlFormat) (a : Arguments) (tree : FileTree) (configDirectory : String) :
    Except LaunchError Settings :=
  match a.config? with
  | some text =>
      let path := Path.ofString text
      orFail (Settings.load toml tree path) (.config path)
  | none => .ok (Settings.loadDefault toml tree configDirectory)

/-- The theme that the command line asks for, or else the settings. -/
def theme (json : JsonFormat) (a : Arguments) (tree : FileTree) (settings : Settings) :
    Except LaunchError Theme :=
  match a.theme? with
  | some text =>
      let path := Path.ofString text
      orFail (Theme.load json tree path) (.theme path)
  | none => .ok (Theme.named settings.editor.theme)

/-- The file that the command line asks for: its name and its text. -/
def document? (a : Arguments) (tree : FileTree) : Except LaunchError (Option (String × String)) :=
  match a.file? with
  | some name => do
      let path := Path.ofString name
      let text ← orFail (tree.readText path) (.text path)
      return some (path.displayName, text)
  | none => .ok none

/-- What the application starts with. Settings, theme and text are read in this order. -/
def launch (toml : TomlFormat) (json : JsonFormat) (a : Arguments) (tree : FileTree)
    (configDirectory : String) : Except LaunchError Launch := do
  let settings ← a.settings toml tree configDirectory
  let theme ← a.theme json tree settings
  let document? ← a.document? tree
  return ⟨document?.map Prod.fst, document?.map Prod.snd, settings, theme⟩

end Arguments

end OverlayScrollbar
