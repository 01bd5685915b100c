/-!
# Documents

A document is a list of lines with a cursor and a selection. Columns count characters; every
character takes one place on its line.

- `splitLines`        : the lines of a text
- `Cursor`, `Bounds`  : places in a document
- `Selection`         : what is selected
- `Document`          : lines, cursor and selection
- `Document.replace`  : puts other text in the place of a stretch of text
-/

namespace OverlayScrollbar

/-! ## Lines of text -/

/-- The lines of a text, which end at `\r\n`, `\n\r`, `\n` or `\r`. A line end that closes the text
starts no further line. -/
def splitEnded (line : List Char) : List Char → List (List Char)
  | [] => if line.isEmpty then [] else [line.reverse]
  | '\r' :: '\n' :: rest => line.reverse :: splitEnded [] rest
  | '\n' :: '\r' :: rest => line.reverse :: splitEnded [] rest
  | '\n' :: rest => line.reverse :: splitEnded [] rest
  | '\r' :: rest => line.reverse :: splitEnded [] rest
  | c :: rest => splitEnded (c :: line) rest

/-- The lines of a text; there is always one. -/
def splitLines (text : List Char) : List (List Char) :=
  match splitEnded [] text with
  | [] => [[]]
  | lines => lines

theorem splitLines_ne_nil (text : List Char) : splitLines text ≠ [] := by
  unfold splitLines
  split <;> simp_all

/-- The control characters. -/
def isControl (c : Char) : Bool :=
  c.toNat < 0x20 || (0x7f ≤ c.toNat && c.toNat < 0xa0)

/-- The pieces of a text that is put into a document: each ends after a line feed, and the last one
may be empty. -/
def cutPieces (piece : List Char) : List Char → List (List Char)
  | [] => [piece.reverse]
  | '\n' :: rest => ('\n' :: piece).reverse :: cutPieces [] rest
  | c :: rest => cutPieces (c :: piece) rest

/-- The piece without its last character, if that is a control character. -/
def trimControl (piece : List Char) : List Char :=
  match piece.getLast? with
  | some c => if isControl c then piece.dropLast else piece
  | none => piece

/-- Glues the first of some lines to `before`, and the last one to `after`. -/
def glue (before : List Char) (lines : List (List Char)) (after : List Char) : List (List Char) :=
  match lines with
  | [] => [before ++ after]
  | [line] => [before ++ line ++ after]
  | line :: rest => (before ++ line) :: (rest.dropLast ++ [rest.getLastD [] ++ after])

theorem glue_ne_nil (before after : List Char) (lines : List (List Char)) :
    glue before lines after ≠ [] := by
  unfold glue
  split <;> simp

/-! ## Places -/

/-- The side on which a place belongs to its neighbour. -/
inductive Affinity
  | before
  | after
  deriving DecidableEq, Repr

/-- A place in a document. -/
structure Cursor where
  line : Nat
  column : Nat
  affinity : Affinity
  deriving DecidableEq, Repr

namespace Cursor

/-- The start of a document. -/
def start : Cursor :=
  ⟨0, 0, .before⟩

/-- Both are the same place, on either side. -/
def samePlace (a b : Cursor) : Bool :=
  a.line == b.line && a.column == b.column

/-- The first place lies before the second. -/
def isBefore (a b : Cursor) : Bool :=
  a.line < b.line || (a.line == b.line && a.column < b.column)

end Cursor

/-- The two ends of a stretch of text. -/
structure Bounds where
  lower : Cursor
  upper : Cursor
  deriving DecidableEq, Repr

/-- What is selected. -/
inductive Selection
  | none
  /-- The text between the anchor and the cursor. -/
  | range (anchor : Cursor)
  /-- The lines from the anchor to the cursor. -/
  | lines (anchor : Cursor)
  deriving DecidableEq, Repr

/-- A text that is being edited. -/
structure Document where
  lines : List (List Char)
  cursor : Cursor
  selection : Selection
  /-- The column that moves up and down aim for. -/
  wanted? : Option Nat
  /-- There is always a line. -/
  lines_ne_nil : lines ≠ []
  deriving DecidableEq, Repr

namespace Document

/-! ## Contents -/

/-- A text with the cursor at its start. -/
def ofText (text : String) : Document :=
  ⟨splitLines text.toList, Cursor.start, .none, none, splitLines_ne_nil _⟩

/-- The number of lines. -/
def lineCount (d : Document) : Nat :=
  d.lines.length

theorem lineCount_pos (d : Document) : 0 < d.lineCount :=
  List.length_pos_iff.2 d.lines_ne_nil

/-- A line, or no text if there is no such line. -/
def lineAt (d : Document) (line : Nat) : List Char :=
  d.lines.getD line []

/-- The number of characters of a line. -/
def lineLength (d : Document) (line : Nat) : Nat :=
  (d.lineAt line).length

/-- The last line's number. -/
def lastLine (d : Document) : Nat :=
  d.lineCount - 1

/-- The document is one line without text. -/
def isEmpty (d : Document) : Bool :=
  d.lines == [[]]

/-- The lines with a line feed between them, and one at the end. -/
def toText (d : Document) : String :=
  let text := ['\n'].intercalate d.lines
  String.ofList (if text.getLast? = some '\n' then text else text ++ ['\n'])

/-- The cursor's line, and the number of bytes before it on that line. -/
def position (d : Document) : Nat × Nat :=
  (d.cursor.line, (String.ofList ((d.lineAt d.cursor.line).take d.cursor.column)).utf8ByteSize)

/-! ## Selected text -/

/-- The ends of the selection. Whole lines reach from the start of the first to the end of the
last. -/
def bounds? (d : Document) : Option Bounds :=
  match d.selection with
  | .none => none
  | .range anchor =>
      some (if anchor.isBefore d.cursor then ⟨anchor, d.cursor⟩ else ⟨d.cursor, anchor⟩)
  | .lines anchor =>
      let first := min anchor.line d.cursor.line
      let last := max anchor.line d.cursor.line
      some ⟨⟨first, 0, .before⟩, ⟨last, d.lineLength last, .before⟩⟩

/-- The lines of the text between two places. -/
def stretch (d : Document) (b : Bounds) : List (List Char) :=
  if b.lower.line = b.upper.line then
    [((d.lineAt b.lower.line).take b.upper.column).drop b.lower.column]
  else
    (d.lineAt b.lower.line).drop b.lower.column ::
      ((d.lines.take b.upper.line).drop (b.lower.line + 1) ++
        [(d.lineAt b.upper.line).take b.upper.column])

/-- The selected text. -/
def selectedText? (d : Document) : Option String :=
  d.bounds?.map fun b => String.ofList (['\n'].intercalate (d.stretch b))

/-! ## Replacing text -/

/-- Puts lines in the place of the text between two places. -/
def replace (d : Document) (b : Bounds) (inserted : List (List Char)) : Document :=
  { d with
    lines := d.lines.take b.lower.line ++
      (glue ((d.lineAt b.lower.line).take b.lower.column) inserted
        ((d.lineAt b.upper.line).drop b.upper.column) ++ d.lines.drop (b.upper.line + 1))
    lines_ne_nil := by simp [glue_ne_nil] }

/-- Removes the selected text; the cursor goes to its start. -/
def deleteSelection (d : Document) : Document :=
  match d.bounds? with
  | none => d
  | some b => { d.replace b [[]] with cursor := b.lower, selection := .none }

/-- Puts text in the place of the selection; the cursor goes to its end. A piece of the text loses a
control character at its end. -/
def paste (d : Document) (text : List Char) : Document :=
  let d := d.deleteSelection
  if text.isEmpty then d
  else
    let pieces := (cutPieces [] text).map trimControl
    let last := (pieces.getLastD []).length
    let column := if pieces.length = 1 then d.cursor.column + last else last
    { d.replace ⟨d.cursor, d.cursor⟩ pieces with
      cursor := { d.cursor with line := d.cursor.line + (pieces.length - 1), column := column } }

end Document

end OverlayScrollbar
