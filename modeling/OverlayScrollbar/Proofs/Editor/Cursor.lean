import OverlayScrollbar.Editor.Action
import OverlayScrollbar.Proofs.Editor.Lines

/-!
# The cursor of a document

The cursor of a document, and the other end of its selection, lie on lines of the document, whatever
is done to it.

- `Document.Placed`            : both places lie on lines of the document
- `Document.placed_ofText`     : a new document
- `Document.Placed.moved`      : a move
- `Document.placed_replace`    : text in the place of other text
- `Document.Placed.perform`    : an edit
- `LawfulTextEditor Document`  : documents do what a host relies on
-/

namespace OverlayScrollbar

/-- The end of a selection that is not the cursor. -/
def Selection.anchor? : Selection → Option Cursor
  | .none => Option.none
  | .range anchor => some anchor
  | .lines anchor => some anchor

namespace Document

variable {d : Document}

/-- The cursor and the other end of the selection lie on lines of the document. -/
structure Placed (d : Document) : Prop where
  cursor_lt : d.cursor.line < d.lineCount
  anchor_lt : ∀ anchor, d.selection.anchor? = some anchor → anchor.line < d.lineCount

theorem placed_ofText (text : String) : (ofText text).Placed := by
  refine ⟨(ofText text).lineCount_pos, ?_⟩
  intro anchor hanchor
  cases hanchor

theorem lastLine_lt (d : Document) : d.lastLine < d.lineCount :=
  Nat.sub_lt d.lineCount_pos Nat.one_pos

theorem lineCount_of_lines {after : Document} (h : after.lines = d.lines) :
    after.lineCount = d.lineCount :=
  congrArg List.length h

/-! ## Moves -/

theorem line_nearestPlace (d : Document) (line column : Nat) :
    (d.nearestPlace line column).line = line := by
  unfold nearestPlace
  dsimp only
  split
  · rfl
  · split
    · rfl
    · rfl

theorem line_stepRight_lt (h : d.cursor.line < d.lineCount) : d.stepRight.line < d.lineCount := by
  unfold stepRight
  dsimp only
  split
  · exact h
  · split
    · rename_i hline
      exact Nat.lt_of_le_of_lt hline d.lastLine_lt
    · exact h

theorem selection_moved (d : Document) (motion : Motion) :
    (d.moved motion).selection = d.selection := by
  cases motion <;> rfl

/-- A move leads to a line of the document. -/
theorem line_moved_lt (h : d.cursor.line < d.lineCount) (motion : Motion) :
    (d.moved motion).cursor.line < d.lineCount := by
  -- Up and down are kept within the document before a column is looked for.
  cases motion with
  | left => exact Nat.lt_of_le_of_lt d.line_stepLeft_le h
  | right => exact line_stepRight_lt h
  | up =>
      show (d.nearestPlace (d.cursor.line - 1) _).line < d.lineCount
      rw [line_nearestPlace]
      exact Nat.lt_of_le_of_lt (Nat.sub_le _ _) h
  | down =>
      show (d.nearestPlace (min (d.cursor.line + 1) d.lastLine) _).line < d.lineCount
      rw [line_nearestPlace]
      exact Nat.lt_of_le_of_lt (Nat.min_le_right _ _) d.lastLine_lt
  | home =>
      show (d.nearestPlace d.cursor.line 0).line < d.lineCount
      rw [line_nearestPlace]
      exact h
  | lineEnd =>
      show (d.nearestPlace d.cursor.line _).line < d.lineCount
      rw [line_nearestPlace]
      exact h
  | pageUp => exact h
  | pageDown => exact h
  | documentStart => exact d.lineCount_pos
  | documentEnd => exact d.lastLine_lt

theorem Placed.moved (h : d.Placed) (motion : Motion) : (d.moved motion).Placed := by
  have hcount := lineCount_of_lines (d.lines_moved motion)
  constructor
  · rw [hcount]
    exact line_moved_lt h.cursor_lt motion
  · rw [hcount, selection_moved]
    exact h.anchor_lt

/-! ## Selections -/

theorem Placed.withCursor (h : d.Placed) {cursor : Cursor} (hcursor : cursor.line < d.lineCount) :
    Placed { d with cursor := cursor } :=
  ⟨hcursor, h.anchor_lt⟩

theorem Placed.withSelection (h : d.Placed) {selection : Selection}
    (hselection : ∀ anchor, selection.anchor? = some anchor → anchor.line < d.lineCount) :
    Placed { d with selection := selection } :=
  ⟨h.cursor_lt, hselection⟩

theorem Placed.unselected (h : d.Placed) : Placed { d with selection := .none } := by
  apply h.withSelection
  intro anchor hanchor
  cases hanchor

theorem anchor?_of_bounds? (h : d.bounds? = none) : d.selection.anchor? = none := by
  cases hselection : d.selection with
  | none => rfl
  | range anchor => simp [bounds?, hselection] at h
  | lines anchor => simp [bounds?, hselection] at h

/-- Both ends of a selection lie on lines of the document. -/
theorem Placed.bounds?_lt (h : d.Placed) {b : Bounds} (hbounds : d.bounds? = some b) :
    b.lower.line < d.lineCount ∧ b.upper.line < d.lineCount := by
  have hcursor := h.cursor_lt
  unfold bounds? at hbounds
  cases hselection : d.selection with
  | none =>
      rw [hselection] at hbounds
      cases hbounds
  | range anchor =>
      have hanchor := h.anchor_lt anchor (by rw [hselection]; rfl)
      rw [hselection] at hbounds
      cases hbounds
      split
      · exact ⟨hanchor, hcursor⟩
      · exact ⟨hcursor, hanchor⟩
  | lines anchor =>
      have hanchor := h.anchor_lt anchor (by rw [hselection]; rfl)
      rw [hselection] at hbounds
      cases hbounds
      exact ⟨Nat.lt_of_le_of_lt (Nat.min_le_right _ _) hcursor, Nat.max_lt.2 ⟨hanchor, hcursor⟩⟩

theorem Placed.move (h : d.Placed) (motion : Motion) : (d.move motion).Placed := by
  unfold Document.move
  split
  · exact h.moved motion
  · rename_i b hbounds
    rcases h.bounds?_lt hbounds with ⟨hlower, hupper⟩
    -- A selection sends the cursor to one of its ends; the other motions start from the cursor.
    cases motion with
    | left => exact h.unselected.withCursor hlower
    | up => exact h.unselected.withCursor hlower
    | pageUp => exact h.unselected.withCursor hlower
    | right => exact h.unselected.withCursor hupper
    | down => exact h.unselected.withCursor hupper
    | pageDown => exact h.unselected.withCursor hupper
    | home => exact h.unselected.moved .home
    | lineEnd => exact h.unselected.moved .lineEnd
    | documentStart => exact h.unselected.moved .documentStart
    | documentEnd => exact h.unselected.moved .documentEnd

theorem Placed.select (h : d.Placed) (motion : Motion) : (d.select motion).Placed := by
  -- A selection that is begun starts at the cursor.
  have hanchored :
      (if d.selection = .none then { d with selection := .range d.cursor } else d).Placed := by
    split
    · apply h.withSelection
      intro anchor hanchor
      cases hanchor
      exact h.cursor_lt
    · exact h
  have hmoved := hanchored.moved motion
  unfold Document.select
  dsimp only
  split
  · split
    · exact hmoved.unselected
    · exact hmoved
  · exact hmoved

theorem Placed.selectAll (h : d.Placed) : d.selectAll.Placed := by
  unfold Document.selectAll
  split
  · exact h
  · apply Placed.moved
    apply h.withSelection
    intro anchor hanchor
    cases hanchor
    exact d.lineCount_pos

/-! ## Changes of the text -/

/-- A cursor in the text that was put in the place of other text lies on a line of the document. -/
theorem placed_replace {b : Bounds} {inserted : List (List Char)} {cursor : Cursor}
    {selection : Selection} (hlower : b.lower.line < d.lineCount)
    (hcursor : cursor.line < b.lower.line + max inserted.length 1)
    (hselection : selection.anchor? = none) :
    Placed { d.replace b inserted with cursor := cursor, selection := selection } := by
  constructor
  · show cursor.line < (d.replace b inserted).lineCount
    rw [lineCount_replace, Nat.min_eq_left (Nat.le_of_lt hlower)]
    omega
  · intro anchor hanchor
    cases hselection.symm.trans hanchor

theorem Placed.deleteSelection (h : d.Placed) : d.deleteSelection.Placed := by
  unfold Document.deleteSelection
  split
  · exact h
  · rename_i b hbounds
    exact placed_replace (h.bounds?_lt hbounds).1 (by omega) rfl

/-- Nothing is selected once the selection was removed. -/
theorem anchor?_deleteSelection (d : Document) : d.deleteSelection.selection.anchor? = none := by
  unfold deleteSelection
  split
  · rename_i hbounds
    exact anchor?_of_bounds? hbounds
  · rfl

theorem Placed.deleteTo (h : d.Placed) {lower : Cursor} (hlower : lower.line < d.lineCount)
    (upper : Cursor) : (d.deleteTo lower upper).Placed := by
  unfold Document.deleteTo
  split
  · exact h.deleteSelection
  · rename_i hbounds
    have hnone : d.selection.anchor? = none := anchor?_of_bounds? hbounds
    have hline : lower.line < lower.line + max 1 1 := Nat.lt_succ_self _
    exact placed_replace (b := ⟨lower, upper⟩) hlower hline hnone

theorem Placed.paste (h : d.Placed) (text : List Char) : (d.paste text).Placed := by
  have hdeleted := h.deleteSelection
  unfold Document.paste
  dsimp only
  split
  · exact hdeleted
  · refine placed_replace hdeleted.cursor_lt ?_ d.anchor?_deleteSelection
    dsimp only
    omega

theorem Placed.insert (h : d.Placed) (c : Char) : (d.insert c).Placed := by
  unfold Document.insert
  split
  · exact h
  · exact h.paste [c]

theorem Placed.perform (h : d.Placed) (edit : Edit) : (d.perform edit).Placed := by
  cases edit with
  | move motion => exact h.move motion
  | select motion => exact h.select motion
  | selectLine =>
      apply h.withSelection
      intro anchor hanchor
      cases hanchor
      exact h.cursor_lt
  | selectAll => exact h.selectAll
  | insert c => exact h.insert c
  | paste text => exact h.paste text.toList
  | enter => exact h.paste ['\n']
  | backspace => exact h.deleteTo (Nat.lt_of_le_of_lt d.line_stepLeft_le h.cursor_lt) d.cursor
  | delete => exact h.deleteTo h.cursor_lt d.stepRight

/-! ## Documents as an editor -/

theorem placed_of_reached {text : String} {edits : List Edit}
    (h : TextEditor.Reached text edits d) : d.Placed := by
  induction h with
  | ofText => exact placed_ofText text
  | scrolled _ lines ih => exact ih
  | edited _ edit ih => exact ih.perform edit

instance : LawfulTextEditor Document where
  lineCount_scroll _ _ := rfl
  line_lt reached := (placed_of_reached reached).cursor_lt

end Document

end OverlayScrollbar
