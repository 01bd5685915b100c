/-!
# Files

Files are kept in a tree of directories whose root is also the working directory.

- `Path`       : the parts of a path's text
- `FileTree`   : which files and directories there are
- `FileError`  : why a file cannot be read or written
- `FileTree.readText`, `FileTree.write`, `FileTree.makeDirectories` : operations on files
-/

namespace OverlayScrollbar

/-! ## Paths -/

/-- A path, cut at its slashes. -/
structure Path where
  /-- The text of the path. -/
  text : String
  /-- The names in the path; those without characters are left out. -/
  names : List String
  /-- A slash ends the path, so that it must lead to a directory. -/
  endsInSlash : Bool
  deriving DecidableEq, Repr

namespace Path

/-- Cuts a text at its slashes. -/
def cutAtSlashes (name : List Char) : List Char → List (List Char)
  | [] => [name.reverse]
  | '/' :: rest => name.reverse :: cutAtSlashes [] rest
  | c :: rest => cutAtSlashes (c :: name) rest

/-- The path with the given text. -/
def ofString (text : String) : Path :=
  let pieces := cutAtSlashes [] text.toList
  ⟨text, (pieces.filter (!·.isEmpty)).map String.ofList,
    !text.isEmpty && pieces.getLast? == some []⟩

/-- The names without those of the current directory, other than a first one. -/
def significant (path : Path) : List String :=
  match path.names with
  | [] => []
  | first :: rest => first :: rest.filter (· != ".")

/-- The names of the directory that a path lies in. -/
def parent (path : Path) : List String :=
  path.significant.dropLast

/-- The last name of a path, if it is the name of a file. -/
def fileName? (path : Path) : Option String :=
  match path.significant.getLast? with
  | some name => if name = "." ∨ name = ".." then none else some name
  | none => none

/-- The name that a file is shown with. -/
def displayName (path : Path) : String :=
  path.fileName?.getD path.text

end Path

/-! ## Errors -/

/-- Why a file cannot be read or written. -/
inductive FileError
  | notFound
  | isADirectory
  | notADirectory
  | alreadyExists
  | invalidText
  | nulInName
  deriving DecidableEq, Repr

/-- The words of the operating system and of the text decoder. -/
def FileError.message : FileError → String
  | .notFound => "No such file or directory (os error 2)"
  | .isADirectory => "Is a directory (os error 21)"
  | .notADirectory => "Not a directory (os error 20)"
  | .alreadyExists => "File exists (os error 17)"
  | .invalidText => "stream did not contain valid UTF-8"
  | .nulInName => "file name contained an unexpected NUL byte"

/-! ## Trees -/

/-- What a path can lead to. -/
inductive FileEntry
  | directory
  | file (content : ByteArray)

/-- Files and directories by the names that lead to them from the root. The root itself is not
listed. -/
structure FileTree where
  entries : List (List String × FileEntry)

namespace FileTree

/-- No files. -/
def empty : FileTree :=
  ⟨[]⟩

/-- What is found under some names. -/
def entry? (tree : FileTree) (place : List String) : Option FileEntry :=
  if place.isEmpty then some .directory else tree.entries.lookup place

/-- Puts an entry in its place. -/
def put (tree : FileTree) (place : List String) (entry : FileEntry) : FileTree :=
  ⟨(place, entry) :: tree.entries.filter (·.1 != place)⟩

/-- Follows names from a directory. All but the last must lead to directories; nothing need be where
the last one leads. -/
def walk (tree : FileTree) (place : List String) : List String → Except FileError (List String)
  | [] => .ok place
  | name :: rest =>
      match tree.entry? place with
      | none => .error .notFound
      | some (.file _) => .error .notADirectory
      | some .directory =>
          if name = "." then tree.walk place rest
          else if name = ".." then tree.walk place.dropLast rest
          else tree.walk (place ++ [name]) rest

/-- The place that a path leads to. -/
def resolve (tree : FileTree) (path : Path) : Except FileError (List String) :=
  if path.text.isEmpty then .error .notFound
  else if path.text.toList.contains '\x00' then .error .nulInName
  else tree.walk [] path.names

/-! ## Reading -/

/-- The content of the file that a path leads to. -/
def read (tree : FileTree) (path : Path) : Except FileError ByteArray := do
  match tree.entry? (← tree.resolve path) with
  | none => .error .notFound
  | some .directory => .error .isADirectory
  | some (.file content) => if path.endsInSlash then .error .notADirectory else .ok content

/-- The text of the file that a path leads to. -/
def readText (tree : FileTree) (path : Path) : Except FileError String := do
  match String.fromUTF8? (← tree.read path) with
  | some text => .ok text
  | none => .error .invalidText

/-- A path leads to a file or a directory. -/
def pathExists (tree : FileTree) (path : Path) : Bool :=
  match tree.resolve path with
  | .error _ => false
  | .ok place =>
      match tree.entry? place with
      | none => false
      | some .directory => true
      | some (.file _) => !path.endsInSlash

/-! ## Writing -/

/-- Writes a file, in the place of one that is there. A path that ends in a slash could only name a
directory. -/
def write (tree : FileTree) (path : Path) (content : ByteArray) : Except FileError FileTree := do
  let place ← tree.resolve path
  match tree.entry? place with
  | some .directory => .error .isADirectory
  | _ => if path.endsInSlash then .error .isADirectory else .ok (tree.put place (.file content))

/-- Writes a text to a file. -/
def writeText (tree : FileTree) (path : Path) (text : String) : Except FileError FileTree :=
  tree.write path text.toUTF8

/-- Makes the directory that some names lead to, with those above it. The names are walked one by
one: a directory is passed, and what is missing is made. -/
def makeDirectories (tree : FileTree) (place : List String) :
    List String → Except FileError FileTree
  | [] => .ok tree
  | name :: rest =>
      if name = "." then tree.makeDirectories place rest
      else if name = ".." then tree.makeDirectories place.dropLast rest
      else
        let next := place ++ [name]
        match tree.entry? next with
        | some .directory => tree.makeDirectories next rest
        | some (.file _) => .error (if rest.isEmpty then .alreadyExists else .notADirectory)
        | none => (tree.put next .directory).makeDirectories next rest

end FileTree

end OverlayScrollbar
