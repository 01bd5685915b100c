import OverlayScrollbar.Decimal.Text
import OverlayScrollbar.Toml.Format

/-!
# Writing TOML

- `TomlWriter.StringStyle`  : the four kinds of strings, and which of them a text is written in
- `TomlWriter.string`       : a string
- `TomlWriter.float`        : a floating-point number
- `TomlWriter.pair`         : a key with its value, on a line of its own
- `TomlWriter.document`     : sections
-/

namespace OverlayScrollbar

namespace TomlWriter

/-! ## Kinds of strings -/

/-- The longest run of a character, given the runs that were seen before. -/
def longestRun (c : Char) (best run : Nat) : List Char → Nat
  | [] => max best run
  | d :: rest =>
      if d = c then longestRun c best (run + 1) rest else longestRun c (max best run) 0 rest

/-- A control character of ASCII. -/
def isAsciiControl (c : Char) : Bool :=
  c < ' ' || c == '\x7f'

/-- The kinds of strings: basic ones have escapes, literal ones have none, and long ones may have line
ends. -/
inductive StringStyle
  | basic
  | literal
  | longBasic
  | longLiteral
  deriving DecidableEq, Repr

/-- The kind of string that a text is written in: the plainest that needs no escapes, or else a basic
one. -/
def StringStyle.of (text : List Char) : StringStyle :=
  let doubles := longestRun '"' 0 0 text
  let singles := longestRun '\'' 0 0 text
  let coded := text.any fun c => isAsciiControl c && c != '\t' && c != '\n'
  let backslash := text.contains '\\'
  let newline := text.contains '\n'
  if !coded && !backslash && doubles == 0 && !newline then .basic
  else if !coded && singles == 0 && !newline then .literal
  else if !coded && !backslash && doubles ≤ 2 then .longBasic
  else if !coded && singles ≤ 2 then .longLiteral
  else if newline then .longBasic
  else .basic

/-! ## Strings -/

/-- A character of a basic string other than a quote or a line feed. -/
def escaped (c : Char) : List Char :=
  if c = '\x08' then ['\\', 'b']
  else if c = '\t' then ['\\', 't']
  else if c = '\x0c' then ['\\', 'f']
  else if c = '\r' then ['\\', 'r']
  else if c = '\\' then ['\\', '\\']
  else if isAsciiControl c then '\\' :: 'u' :: hexDigits true 4 c.toNat
  else [c]

/-- The characters of a basic string. -/
def basicBody : List Char → List Char
  | [] => []
  | '"' :: rest => '\\' :: '"' :: basicBody rest
  | '\n' :: rest => '\\' :: 'n' :: basicBody rest
  | c :: rest => escaped c ++ basicBody rest

/-- The characters of a long basic string, after `run` quotes on end. Every third quote on end is
escaped. -/
def longBasicBody (run : Nat) : List Char → List Char
  | [] => []
  | '"' :: rest =>
      if run = 2 then '\\' :: '"' :: longBasicBody 0 rest else '"' :: longBasicBody (run + 1) rest
  | '\n' :: rest => '\n' :: longBasicBody 0 rest
  | c :: rest => escaped c ++ longBasicBody 0 rest

/-- A string in quotes. A long string that has a line end starts on a new line. -/
def string (text : List Char) : List Char :=
  let start := if text.contains '\n' then ['\n'] else []
  match StringStyle.of text with
  | .basic => '"' :: (basicBody text ++ ['"'])
  | .literal => '\'' :: (text ++ ['\''])
  | .longBasic => ['"', '"', '"'] ++ start ++ longBasicBody 0 text ++ ['"', '"', '"']
  | .longLiteral => ['\'', '\'', '\''] ++ start ++ text ++ ['\'', '\'', '\'']

/-! ## Numbers -/

/-- A number, with the fewest digits that read back in double precision and without an exponent. -/
def float : Single → List Char
  | .nan => ['n', 'a', 'n']
  | .infinity negative => (if negative then ['-'] else []) ++ ['i', 'n', 'f']
  | .finite negative size =>
      let (coefficient, exponent) := Single.shortestDouble size
      (if negative then ['-'] else []) ++ positional coefficient exponent

/-! ## Lines -/

/-- A key with its value, on a line of its own. -/
def pair (key : String) (value : List Char) : List Char :=
  key.toList ++ ' ' :: '=' :: ' ' :: (value ++ ['\n'])

/-- The header of a table, on a line of its own. -/
def header (name : String) : List Char :=
  '[' :: (name.toList ++ [']', '\n'])

/-! ## Documents -/

/-- The value of a key. -/
def scalar : TomlScalar → List Char
  | .integer n => decimalDigits n
  | .float x => float x
  | .string text => string text.toList

/-- A section under its header. -/
def sectionLines (s : TomlSection) : List Char :=
  header s.name ++ s.fields.flatMap fun field => pair field.1 (scalar field.2)

/-- Sections, with an empty line between two of them. -/
def document : List TomlSection → List Char
  | [] => []
  | [s] => sectionLines s
  | s :: more => sectionLines s ++ '\n' :: document more

end TomlWriter

end OverlayScrollbar
