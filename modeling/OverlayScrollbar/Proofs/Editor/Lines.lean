import OverlayScrollbar.Editor.Action

/-!
# How many lines an edit makes

Moves and selections leave the lines of a document. To remove text makes no more lines, and to put
text in makes at most one line for each character, and a few more where the places lie outside.

- `Edit.characters`                : how many characters an edit puts in
- `Document.lineCount_replace_le`  : the lines after text was put in the place of other text
- `Document.lineCount_perform_le`  : the lines after an edit
- `Document.lineCount_le_of_reached` : the lines after some edits
-/

namespace OverlayScrollbar

/-- How many characters an edit puts into a document. -/
def Edit.characters : Edit → Nat
  | .insert _ => 1
  | .paste text => text.toList.length
  | .enter => 1
  | _ => 0

theorem length_cutPieces_le (piece text : List Char) :
    (cutPieces piece text).length ≤ text.length + 1 := by
  fun_induction cutPieces piece text with
  | case1 piece => exact Nat.le_refl 1
  | case2 piece rest ih => exact Nat.succ_le_succ ih
  | case3 piece c rest hother ih => exact Nat.le_succ_of_le ih

theorem length_glue (before after : List Char) (lines : List (List Char)) :
    (glue before lines after).length = max lines.length 1 := by
  unfold glue
  split
  · rfl
  · rfl
  · rename_i line rest hrest
    have hsome : rest ≠ [] := hrest
    have hpos := List.length_pos_iff.2 hsome
    simp only [List.length_cons, List.length_append, List.length_dropLast, List.length_nil]
    omega

namespace Document

variable {d : Document} {b : Bounds}

/-! ## Moves and selections -/

theorem lines_moved (d : Document) (motion : Motion) : (d.moved motion).lines = d.lines := by
  cases motion <;> rfl

theorem lines_move (d : Document) (motion : Motion) : (d.move motion).lines = d.lines := by
  unfold move
  split
  · exact lines_moved d motion
  · cases motion <;> rfl

theorem lines_select (d : Document) (motion : Motion) : (d.select motion).lines = d.lines := by
  have hanchored : (if d.selection = .none then { d with selection := .range d.cursor } else d).lines =
      d.lines := by
    split <;> rfl
  unfold select
  dsimp only
  split
  · split
    · exact (lines_moved _ motion).trans hanchored
    · exact (lines_moved _ motion).trans hanchored
  · exact (lines_moved _ motion).trans hanchored

theorem lines_selectAll (d : Document) : d.selectAll.lines = d.lines := by
  unfold selectAll
  split <;> rfl

/-! ## Changes of the text -/

/-- The lines after text was put in the place of other text. -/
theorem lineCount_replace (d : Document) (b : Bounds) (inserted : List (List Char)) :
    (d.replace b inserted).lineCount =
      min b.lower.line d.lineCount +
        (max inserted.length 1 + (d.lineCount - (b.upper.line + 1))) := by
  unfold replace lineCount
  simp only [List.length_append, List.length_take, List.length_drop, length_glue]

/-- If the places are in order, there are at most as many lines more as were put in. -/
theorem lineCount_replace_le (horder : b.lower.line ≤ b.upper.line) (inserted : List (List Char)) :
    (d.replace b inserted).lineCount ≤ d.lineCount + max inserted.length 1 := by
  rw [lineCount_replace]
  omega

theorem line_le_of_isBefore {first last : Cursor} (h : first.isBefore last = true) :
    first.line ≤ last.line := by
  unfold Cursor.isBefore at h
  rcases Bool.or_eq_true_iff.1 h with hless | hsame
  · exact Nat.le_of_lt (of_decide_eq_true hless)
  · exact Nat.le_of_eq (of_decide_eq_true (Bool.and_eq_true_iff.1 hsame).1)

theorem line_le_of_not_isBefore {first last : Cursor} (h : first.isBefore last = false) :
    last.line ≤ first.line := by
  unfold Cursor.isBefore at h
  have hnot := (Bool.or_eq_false_iff.1 h).1
  exact Nat.le_of_not_lt (of_decide_eq_false hnot)

/-- The ends of a selection are in order. -/
theorem line_le_of_bounds? (h : d.bounds? = some b) : b.lower.line ≤ b.upper.line := by
  unfold bounds? at h
  split at h
  · cases h
  · cases h
    split
    · rename_i hbefore
      exact line_le_of_isBefore hbefore
    · rename_i hafter
      exact line_le_of_not_isBefore (eq_false_of_ne_true hafter)
  · cases h
    exact Nat.le_trans (Nat.min_le_left _ _) (Nat.le_max_left _ _)

theorem lineCount_deleteSelection_le (d : Document) :
    d.deleteSelection.lineCount ≤ d.lineCount + 1 := by
  unfold deleteSelection
  split
  · exact Nat.le_succ _
  · rename_i bounds hbounds
    exact lineCount_replace_le (line_le_of_bounds? hbounds) [[]]

theorem lineCount_deleteTo_le {lower upper : Cursor} (horder : lower.line ≤ upper.line) :
    (d.deleteTo lower upper).lineCount ≤ d.lineCount + 1 := by
  unfold deleteTo
  split
  · exact lineCount_deleteSelection_le d
  · exact lineCount_replace_le (b := ⟨lower, upper⟩) horder [[]]

theorem lineCount_paste_le (d : Document) (text : List Char) :
    (d.paste text).lineCount ≤ d.lineCount + (text.length + 2) := by
  have hdeleted := lineCount_deleteSelection_le d
  unfold paste
  dsimp only
  split
  · omega
  · have hpieces := length_cutPieces_le [] text
    have hreplaced := lineCount_replace_le (d := d.deleteSelection)
      (b := ⟨d.deleteSelection.cursor, d.deleteSelection.cursor⟩) (Nat.le_refl _)
      ((cutPieces [] text).map trimControl)
    rw [List.length_map] at hreplaced
    calc
      lineCount _ ≤ d.deleteSelection.lineCount + max (cutPieces [] text).length 1 := hreplaced
      _ ≤ d.lineCount + (text.length + 2) := by omega

theorem line_stepLeft_le (d : Document) : d.stepLeft.line ≤ d.cursor.line := by
  unfold stepLeft
  dsimp only
  split
  · exact Nat.le_refl _
  · split
    · exact Nat.sub_le _ _
    · exact Nat.le_refl _

theorem le_line_stepRight (d : Document) : d.cursor.line ≤ d.stepRight.line := by
  unfold stepRight
  dsimp only
  split
  · exact Nat.le_refl _
  · split
    · exact Nat.le_succ _
    · exact Nat.le_refl _

/-- An edit makes at most one line for each character that it puts in, and two more. -/
theorem lineCount_perform_le (d : Document) (edit : Edit) :
    (d.perform edit).lineCount ≤ d.lineCount + (edit.characters + 2) := by
  -- Moves and selections leave the text as it is.
  have of_lines : (d.perform edit).lines = d.lines →
      (d.perform edit).lineCount ≤ d.lineCount + (edit.characters + 2) := by
    intro hlines
    unfold lineCount
    rw [hlines]
    exact Nat.le_add_right _ _
  cases edit with
  | move motion => exact of_lines (lines_move d motion)
  | select motion => exact of_lines (lines_select d motion)
  | selectLine => exact of_lines rfl
  | selectAll => exact of_lines (lines_selectAll d)
  | insert c =>
      show (d.insert c).lineCount ≤ d.lineCount + (1 + 2)
      unfold insert
      split
      · exact Nat.le_add_right _ _
      · exact lineCount_paste_le d [c]
  | paste text => exact lineCount_paste_le d text.toList
  | enter => exact lineCount_paste_le d ['\n']
  | backspace =>
      have hdeleted := lineCount_deleteTo_le (d := d) (line_stepLeft_le d)
      exact Nat.le_succ_of_le hdeleted
  | delete =>
      have hdeleted := lineCount_deleteTo_le (d := d) (le_line_stepRight d)
      exact Nat.le_succ_of_le hdeleted

/-- So do edits that are made one after the other. -/
theorem lineCount_le_of_reached {text : String} {edits : List Edit}
    (h : TextEditor.Reached text edits d) :
    d.lineCount ≤
      edits.foldl (fun count edit => count + (edit.characters + 2)) (ofText text).lineCount := by
  induction h with
  | ofText => exact Nat.le_refl _
  | scrolled _ lines ih => exact ih
  | @edited edits d _ edit ih =>
      rw [List.foldl_append, List.foldl_cons, List.foldl_nil]
      exact Nat.le_trans (d.lineCount_perform_le edit) (Nat.add_le_add_right ih _)

end Document

end OverlayScrollbar
