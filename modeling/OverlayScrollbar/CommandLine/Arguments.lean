/-!
# Command-line arguments

Arguments are read from left to right. The value of an option, like the name of the file, is kept
until the next argument and only then taken, so that a fault in it is told later than one that stops
the reading at once.

- `Arguments`       : what the command line says
- `ArgumentError`   : why it is not followed
- `ReadArguments`   : arguments that are partly read
- `Arguments.read`  : reads a command line
-/

namespace OverlayScrollbar

/-- What the command line says. -/
structure Arguments where
  /-- The file to open. -/
  file? : Option String
  /-- The file with the settings. -/
  config? : Option String
  /-- The file with the theme. -/
  theme? : Option String
  /-- How often more log output was asked for. -/
  verbosity : Nat
  deriving DecidableEq, Repr

/-- Why a command line is not followed. -/
inductive ArgumentError
  | unknownArgument
  | invalidValue
  | argumentConflict
  | tooManyValues
  /-- The help is to be shown. -/
  | displayHelp
  /-- The version is to be shown. -/
  | displayVersion
  deriving DecidableEq, Repr

/-- The text that the help shows. -/
def helpText : String :=
  String.intercalate "\n" [
    "A draggable, auto-hiding fast scroller for text editors",
    "",
    "Usage: fastscroll [OPTIONS] [FILE]",
    "",
    "Arguments:",
    "  [FILE]  File to open",
    "",
    "Options:",
    "  -c, --config <PATH>  Config file (defaults to the user config directory)",
    "  -t, --theme <PATH>   Theme file (JSON)",
    "  -v, --verbose...     Verbose logging",
    "  -h, --help           Print help",
    "  -V, --version        Print version",
    ""]

/-- The text that names the version. -/
def versionText : String :=
  "fastscroll 0.1.0\n"

/-- What is told instead of following a command line. -/
def ArgumentError.message : ArgumentError → String
  | .unknownArgument => "unexpected argument"
  | .invalidValue => "an option or the file needs a value"
  | .argumentConflict => "an option is given more than once"
  | .tooManyValues => "an option that takes no value is given one"
  | .displayHelp => helpText
  | .displayVersion => versionText

/-- The arguments that have a value. -/
inductive ValueSlot
  | file
  | config
  | theme
  deriving DecidableEq, Repr

/-- Arguments that are partly read. -/
structure ReadArguments where
  arguments : Arguments
  /-- An argument whose value is not taken yet, and the value if there is one. -/
  pending? : Option (ValueSlot × Option String)
  deriving DecidableEq, Repr

namespace ReadArguments

/-- Nothing has been read. -/
def start : ReadArguments :=
  ⟨⟨none, none, none, 0⟩, none⟩

/-- The value that an argument has. -/
def valueOf? (a : Arguments) : ValueSlot → Option String
  | .file => a.file?
  | .config => a.config?
  | .theme => a.theme?

/-- The arguments with a value for one of them. -/
def withValue (a : Arguments) (slot : ValueSlot) (value : String) : Arguments :=
  match slot with
  | .file => { a with file? := some value }
  | .config => { a with config? := some value }
  | .theme => { a with theme? := some value }

/-- Takes a value. There may be one for each argument, and it must have characters. -/
def take (r : ReadArguments) (slot : ValueSlot) (value : String) :
    Except ArgumentError ReadArguments :=
  if (valueOf? r.arguments slot).isSome then .error .argumentConflict
  else if value.isEmpty then .error .invalidValue
  else .ok ⟨withValue r.arguments slot value, none⟩

/-- Takes the value that is kept, if there is one. -/
def settle (r : ReadArguments) : Except ArgumentError ReadArguments :=
  match r.pending? with
  | none => .ok r
  | some (_, none) => .error .invalidValue
  | some (slot, some value) => take { r with pending? := none } slot value

/-- Counts a request for more log output. -/
def addVerbosity (r : ReadArguments) : ReadArguments :=
  { r with arguments := { r.arguments with verbosity := min (r.arguments.verbosity + 1) 255 } }

/-- An option with a value, which may be attached to it. -/
def option (r : ReadArguments) (slot : ValueSlot) (attached : Option String) :
    Except ArgumentError ReadArguments := do
  let r ← r.settle
  match attached with
  | some value => r.take slot value
  | none => return { r with pending? := some (slot, none) }

/-- An option without a value. -/
def flag (r : ReadArguments) (attached : Option String)
    (effect : ReadArguments → Except ArgumentError ReadArguments) :
    Except ArgumentError ReadArguments :=
  match attached with
  | some _ => .error .tooManyValues
  | none => do effect (← r.settle)

/-- An option by its long name, and a value after an equals sign. -/
def long (r : ReadArguments) (name : String) (attached : Option String) :
    Except ArgumentError ReadArguments :=
  match name with
  | "config" => r.option .config attached
  | "theme" => r.option .theme attached
  | "verbose" => r.flag attached fun r => .ok r.addVerbosity
  | "help" => r.flag attached fun _ => .error .displayHelp
  | "version" => r.flag attached fun _ => .error .displayVersion
  | _ => .error .unknownArgument

/-- The value attached to the letter of an option. -/
def attachedValue : List Char → Option String
  | [] => none
  | '=' :: rest => some (String.ofList rest)
  | rest => some (String.ofList rest)

/-- Options by their letters. What follows the letter of an option with a value is its value. -/
def short (r : ReadArguments) : List Char → Except ArgumentError ReadArguments
  | [] => .ok r
  | letter :: rest =>
      match letter with
      | 'c' => r.option .config (attachedValue rest)
      | 't' => r.option .theme (attachedValue rest)
      | 'v' => do
          let r ← r.settle
          r.addVerbosity.short rest
      | 'h' => do
          let _ ← r.settle
          .error .displayHelp
      | 'V' => do
          let _ ← r.settle
          .error .displayVersion
      | _ => .error .unknownArgument

/-- The name of the file, of which there is one. -/
def operand (r : ReadArguments) (value : String) : Except ArgumentError ReadArguments :=
  let given := r.arguments.file?.isSome || (r.pending?.any fun p => p.1 == .file)
  if given then .error .unknownArgument
  else do
    let r ← r.settle
    return { r with pending? := some (.file, some value) }

/-- An argument without a dash: the value of the option before it, or the name of the file. -/
def plain (r : ReadArguments) (value : String) : Except ArgumentError ReadArguments :=
  match r.pending? with
  | some (slot, none) => .ok { r with pending? := some (slot, some value) }
  | _ => r.operand value

/-- The text up to the first equals sign, and the text after it. -/
def cutAtEquals (name : List Char) : List Char → List Char × Option String
  | [] => (name.reverse, none)
  | '=' :: rest => (name.reverse, some (String.ofList rest))
  | c :: rest => cutAtEquals (c :: name) rest

/-- The arguments after two dashes. -/
def operands (r : ReadArguments) : List String → Except ArgumentError ReadArguments
  | [] => .ok r
  | value :: rest => do (← r.operand value).operands rest

/-- All arguments. -/
def all (r : ReadArguments) : List String → Except ArgumentError ReadArguments
  | [] => .ok r
  | argument :: rest =>
      match argument.toList with
      | ['-', '-'] => r.operands rest
      | '-' :: '-' :: text => do
          let (name, attached) := cutAtEquals [] text
          (← r.long (String.ofList name) attached).all rest
      | '-' :: c :: letters => do (← r.short (c :: letters)).all rest
      | _ => do (← r.plain argument).all rest

end ReadArguments

/-- Reads a command line without the name of the program. -/
def Arguments.read (arguments : List String) : Except ArgumentError Arguments := do
  let r ← ReadArguments.start.all arguments
  return (← r.settle).arguments

end OverlayScrollbar
