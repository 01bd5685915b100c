import OverlayScrollbar.Editor.Basic
import OverlayScrollbar.Editor.Document

/-!
# Editing

The editor that the program runs with: documents without a view of their own, so that there are no
pages to move by and no points to click at.

- `Motion`            : the moves of a cursor
- `Document.moved`    : carries out a move
- `Edit`              : what a user does to a document
- `Document.perform`  : carries it out
- `TextEditor Document Edit` : documents as an editor
-/

namespace OverlayScrollbar

/-- The moves of a cursor. -/
inductive Motion
  | left
  | right
  | up
  | down
  | home
  | lineEnd
  | pageUp
  | pageDown
  | documentStart
  | documentEnd
  deriving DecidableEq, Repr

/-- What a user does to a document. -/
inductive Edit
  | move (motion : Motion)
  | select (motion : Motion)
  | selectLine
  | selectAll
  | insert (c : Char)
  | paste (text : String)
  | enter
  | backspace
  | delete
  deriving DecidableEq, Repr

namespace Document

/-! ## Moves -/

/-- The column that the cursor is seen at. -/
def seenColumn (d : Document) : Nat :=
  match d.cursor.affinity with
  | .after => if d.cursor.column < d.lineLength d.cursor.line then d.cursor.column else 0
  | .before => d.cursor.column

/-- The place on a line that is nearest to a column. -/
def nearestPlace (d : Document) (line column : Nat) : Cursor :=
  let length := d.lineLength line
  if column < length then ⟨line, column, .after⟩
  else if 0 < length then ⟨line, length, .before⟩
  else ⟨line, 0, .after⟩

/-- Moves to another line and keeps the wanted column. -/
def toLine (d : Document) (line : Nat) : Document :=
  let column := d.wanted?.getD d.seenColumn
  { d with cursor := d.nearestPlace line column, wanted? := some column }

/-- One character back, over line ends. -/
def stepLeft (d : Document) : Cursor :=
  let c := d.cursor
  if 0 < c.column then ⟨c.line, c.column - 1, .after⟩
  else if 0 < c.line then ⟨c.line - 1, d.lineLength (c.line - 1), .after⟩
  else c

/-- One character on, over line ends. -/
def stepRight (d : Document) : Cursor :=
  let c := d.cursor
  if c.column < d.lineLength c.line then ⟨c.line, c.column + 1, .before⟩
  else if c.line < d.lastLine then ⟨c.line + 1, 0, .before⟩
  else c

/-- The document after a move of its cursor. Without a view there are no pages to move by. -/
def moved (d : Document) : Motion → Document
  | .left => { d with cursor := d.stepLeft, wanted? := none }
  | .right => { d with cursor := d.stepRight, wanted? := none }
  | .up => d.toLine (d.cursor.line - 1)
  | .down => d.toLine (min (d.cursor.line + 1) d.lastLine)
  | .home => { d with cursor := d.nearestPlace d.cursor.line 0, wanted? := none }
  | .lineEnd =>
      { d with
        cursor := d.nearestPlace d.cursor.line (d.lineLength d.cursor.line)
        wanted? := none }
  | .pageUp => d
  | .pageDown => d
  | .documentStart => { d with cursor := ⟨0, 0, d.cursor.affinity⟩, wanted? := none }
  | .documentEnd =>
      { d with
        cursor := ⟨d.lastLine, d.lineLength d.lastLine, d.cursor.affinity⟩
        wanted? := none }

/-! ## Selections -/

/-- Moves the cursor. If there is a selection, it is dropped, and a move by a character, line or page
only goes to one of its ends. -/
def move (d : Document) (motion : Motion) : Document :=
  match d.bounds? with
  | none => d.moved motion
  | some b =>
      let d := { d with selection := .none }
      match motion with
      | .left | .up | .pageUp => { d with cursor := b.lower }
      | .right | .down | .pageDown => { d with cursor := b.upper }
      | .home | .lineEnd | .documentStart | .documentEnd => d.moved motion

/-- Moves the cursor and leaves the other end of the selection. A selection whose ends meet is
dropped. -/
def select (d : Document) (motion : Motion) : Document :=
  let d := if d.selection = .none then { d with selection := .range d.cursor } else d
  let d := d.moved motion
  match d.bounds? with
  | some b => if b.lower.samePlace b.upper then { d with selection := .none } else d
  | none => d

/-- Selects the whole text, if there is any. -/
def selectAll (d : Document) : Document :=
  if d.isEmpty then d
  else
    { d with selection := .range ⟨0, 0, d.cursor.affinity⟩ }.moved .documentEnd

/-! ## Changes of the text -/

/-- Puts a character into the text. Control characters other than the tab and the line feed are
refused, save for one. -/
def insert (d : Document) (c : Char) : Document :=
  if isControl c && c != '\t' && c != '\n' && c != '\x92' then d else d.paste [c]

/-- Removes the selection, or the text between the cursor and another place. -/
def deleteTo (d : Document) (lower upper : Cursor) : Document :=
  match d.bounds? with
  | some _ => d.deleteSelection
  | none =>
      { d.replace ⟨lower, upper⟩ [[]] with
        cursor := { d.cursor with line := lower.line, column := lower.column } }

/-- The document after an edit. -/
def perform (d : Document) : Edit → Document
  | .move motion => d.move motion
  | .select motion => d.select motion
  | .selectLine => { d with selection := .lines d.cursor }
  | .selectAll => d.selectAll
  | .insert c => d.insert c
  | .paste text => d.paste text.toList
  | .enter => d.paste ['\n']
  | .backspace => d.deleteTo d.stepLeft d.cursor
  | .delete => d.deleteTo d.cursor d.stepRight

/-! ## Documents as an editor -/

/-- A document has no view, so that a scroll leaves it as it is. -/
instance : TextEditor Document Edit where
  ofText := ofText
  perform d
    | .scroll _ => d
    | .edit edit => d.perform edit
  lineCount := lineCount
  position := position
  isEmpty := isEmpty

end Document

end OverlayScrollbar
