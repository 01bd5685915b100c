/-!
# Text editors

An editor holds a text and a cursor. What its actions do to them is its own affair: a host only hands
the actions on, and asks for the number of lines and for the place of the cursor.

- `EditorAction`       : a scroll by lines, or any other action
- `TextEditor`         : what a host asks of an editor
- `TextEditor.Reached` : the contents that actions lead to from a text
- `LawfulTextEditor`   : what a host relies on
-/

namespace OverlayScrollbar

/-- What reaches an editor whose actions other than scrolls are of the given type. -/
inductive EditorAction (E : Type)
  | scroll (lines : Int)
  /-- Any other action: a move, a click, a drag, a selection or a change of the text. -/
  | edit (edit : E)
  deriving DecidableEq, Repr

/-- What a host asks of an editor with contents of the first type and with actions, other than
scrolls, of the second. An action may bring with it whatever its effect depends on, such as the point
of a click or how the lines are laid out when it is made. -/
class TextEditor (D : Type) (E : outParam Type) where
  /-- The content for a text. -/
  ofText : String → D
  /-- The content after an action. -/
  perform : D → EditorAction E → D
  /-- The number of lines. -/
  lineCount : D → Nat
  /-- The cursor's line, and its place on that line. -/
  position : D → Nat × Nat
  /-- There is no text. -/
  isEmpty : D → Bool

/-- The contents that come up from a text by the given actions, one after the other, with any scrolls
between them. -/
inductive TextEditor.Reached {D E : Type} [TextEditor D E] (text : String) : List E → D → Prop
  | ofText : Reached text [] (TextEditor.ofText text)
  | scrolled {edits : List E} {d : D} (reached : Reached text edits d) (lines : Int) :
      Reached text edits (TextEditor.perform d (.scroll lines))
  | edited {edits : List E} {d : D} (reached : Reached text edits d) (edit : E) :
      Reached text (edits ++ [edit]) (TextEditor.perform d (.edit edit))

/-- What a host relies on. A scroll moves the view of an editor and leaves its text, and the cursor
is always on a line. -/
class LawfulTextEditor (D : Type) {E : Type} [TextEditor D E] : Prop where
  /-- A scroll leaves the number of lines. -/
  lineCount_scroll (d : D) (lines : Int) :
    TextEditor.lineCount (TextEditor.perform d (.scroll lines)) = TextEditor.lineCount d
  /-- The cursor's line is below the number of lines. -/
  line_lt {text : String} {edits : List E} {d : D} (reached : TextEditor.Reached text edits d) :
    (TextEditor.position d).1 < TextEditor.lineCount d

end OverlayScrollbar
