import OverlayScrollbar.App.View
import OverlayScrollbar.CommandLine.Launch
import OverlayScrollbar.Editor.Action
import OverlayScrollbar.Json.Standard
import OverlayScrollbar.Toml.Standard

/-!
# The program

- `FileTree.ofDisk`   : the files and directories on the way of a path
- `settingsDirectory` : where the user's settings are kept
- `main`              : starts the application and prints its title and its status bar

A file is read when its turn comes, so that no file is read after one that cannot be.
-/

namespace OverlayScrollbar

/-- Follows names on the disk and adds what is found to a tree. What cannot be read is left out. -/
def FileTree.follow (tree : FileTree) (place : List String) (directory : String) :
    List String → IO FileTree
  | [] => return tree
  | name :: rest => do
      let place :=
        if name = "." then place else if name = ".." then place.dropLast else place ++ [name]
      match ← (IO.FS.readBinFile (directory ++ name)).toBaseIO with
      | .ok content => return tree.put place (.file content)
      | .error (.inappropriateType ..) =>
          (tree.put place .directory).follow place (directory ++ name ++ "/") rest
      | .error _ => return tree

/-- The files and directories on the way of a path. -/
def FileTree.ofDisk (path : Path) : IO FileTree :=
  FileTree.empty.follow [] (if path.text.startsWith "/" then "/" else "") path.names

/-- The files and directories on the way of a path, if there is one. -/
def FileTree.ofDisk? (text? : Option String) : IO FileTree :=
  match text? with
  | some text => FileTree.ofDisk (Path.ofString text)
  | none => return FileTree.empty

/-- The directory that the user's settings are kept in. -/
def settingsDirectory : IO String := do
  match ← IO.getEnv "XDG_CONFIG_HOME" with
  | some directory =>
      if directory.startsWith "/" then return directory else homeDirectory
  | none => homeDirectory
where
  /-- The directory for settings in the user's home. -/
  homeDirectory : IO String := do
    return (← IO.getEnv "HOME").getD "" ++ "/.config"

/-- Starts the application as the command line says, or stops at the first file that cannot be
used. -/
def Arguments.start (a : Arguments) : IO (Except LaunchError (App Document)) := do
  let directory ← settingsDirectory
  let configText := a.config?.getD (Settings.defaultPath directory).text
  match a.settings .standard (← FileTree.ofDisk? (some configText)) directory with
  | .error error => return .error error
  | .ok settings =>
      match a.theme .standard (← FileTree.ofDisk? a.theme?) settings with
      | .error error => return .error error
      | .ok theme =>
          match a.document? (← FileTree.ofDisk? a.file?) with
          | .error error => return .error error
          | .ok document? =>
              return .ok (App.new
                ⟨document?.map Prod.fst, document?.map Prod.snd, settings, theme⟩)

end OverlayScrollbar

/-- Follows the command line and prints the title and the status bar of the application, or what
keeps it from being started. -/
def main (args : List String) : IO UInt32 := do
  match OverlayScrollbar.Arguments.read args with
  | .error error =>
      if error = .displayHelp ∨ error = .displayVersion then
        IO.print error.message
        return 0
      else
        IO.eprintln ("error: " ++ error.message)
        return 2
  | .ok arguments =>
      match ← arguments.start with
      | .error error =>
          IO.eprintln ("Error: " ++ error.message)
          return 1
      | .ok app =>
          IO.println app.title
          IO.println app.status
          return 0
