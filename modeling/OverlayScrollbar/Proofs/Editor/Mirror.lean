import OverlayScrollbar.Proofs.Editor.Cursor
import OverlayScrollbar.Proofs.Editor.Operations

/-!
# A tracker in step with its document

The tracker of an editor counts the lines of the document as it is, the first line that is seen is
one of them, and a cursor that an edit has moved is in view.

- `EditorHost.Mirrors`          : the tracker counts the document's lines, and its place is a line
- `EditorHost.Mirrors.of_doing` : every operation keeps this
- `EditorHost.exists_operate_of_counted` : an operation does not fault while the words for lines suffice

Main statement: `run_tracker_mirrors_document`.
-/

namespace OverlayScrollbar

namespace EditorHost

variable {D E : Type} [TextEditor D E] {host after : EditorHost D} {operation : Operation E}
  {handed : Changes}

/-- The editor came from a text, the tracker counts its lines, and the first line that is seen is one of
them. -/
structure Mirrors (host : EditorHost D) : Prop where
  reached : ∃ (text : String) (edits : List E), TextEditor.Reached text edits host.document
  tracked : host.tracker.lineCount = max (TextEditor.lineCount host.document) 1
  firstLine_lt : host.tracker.firstLine < host.tracker.lineCount

theorem mirrors_new (text : String) (lineHeight : Single) :
    (new text lineHeight : EditorHost D).Mirrors :=
  ⟨⟨text, [], .ofText⟩, rfl, firstLine_lt_new text lineHeight⟩

/-! ## One operation -/

section Lawful

variable [LawfulTextEditor D]

theorem Mirrors.of_doing (h : host.Mirrors) (hdoing : Doing host operation after handed) :
    after.Mirrors := by
  rcases h.reached with ⟨text, edits, hreached⟩
  have hfirst := hdoing.firstLine_lt h.firstLine_lt
  cases hdoing with
  | scrolled scrolling _ =>
      -- The editor was scrolled or not, so that the count of its lines stays right.
      rcases scrolling.document_cases with hsame | ⟨lines, hscrolled⟩
      · refine ⟨⟨text, edits, ?_⟩, ?_, hfirst⟩
        · rw [hsame]
          exact hreached
        · rw [scrolling.lineCount_eq, hsame]
          exact h.tracked
      · refine ⟨⟨text, edits, ?_⟩, ?_, hfirst⟩
        · rw [hscrolled]
          exact hreached.scrolled lines
        · rw [scrolling.lineCount_eq, hscrolled, LawfulTextEditor.lineCount_scroll]
          exact h.tracked
  | @edited edit _ editing =>
      refine ⟨⟨text, edits ++ [edit], ?_⟩, editing.lineCount_eq, hfirst⟩
      rw [editing.document_eq]
      exact hreached.edited edit
  | drained => exact ⟨⟨text, edits, hreached⟩, h.tracked, hfirst⟩
  | registered id => exact ⟨⟨text, edits, hreached⟩, h.tracked, hfirst⟩

theorem Mirrors.line_le (h : host.Mirrors) :
    (TextEditor.position host.document).1 ≤ host.tracker.lastLine := by
  rcases h.reached with ⟨text, edits, hreached⟩
  have hline := LawfulTextEditor.line_lt hreached
  rw [ScrollTracker.lastLine, h.tracked]
  omega

/-- A cursor that an edit has moved is in view. -/
theorem Mirrors.line_mem_view (h : after.Mirrors) {edit : E} (hediting : Editing host edit after)
    (hmoved : TextEditor.position after.document ≠ TextEditor.position host.document) :
    after.tracker.firstLine ≤ (TextEditor.position after.document).1 ∧
      (TextEditor.position after.document).1 <
        after.tracker.firstLine + after.tracker.visibleLines := by
  have hfollows := hediting.follows hmoved
  rw [Nat.min_eq_left h.line_le] at hfollows
  exact hfollows

end Lawful

/-! ## Operations that do not fault -/

theorem Mirrors.counted (h : host.Mirrors) (hlines : TextEditor.lineCount host.document < 2 ^ 62) :
    host.tracker.Counted := by
  refine ⟨Nat.le_sub_one_of_lt h.firstLine_lt, ?_⟩
  rw [h.tracked]
  exact Nat.max_lt.2 ⟨hlines, by decide⟩

theorem exists_scrollLines_of_counted (h : host.tracker.Counted) {lines : Int}
    (hlines : IsShort lines) : ∃ after, host.scrollLines lines = .ok after := by
  rcases ScrollTracker.exists_scrollBy h hlines with ⟨line, applied, hscrolled, _⟩
  unfold scrollLines
  rw [hscrolled]
  dsimp only [bind, Except.bind, pure, Except.pure]
  split
  · exact ⟨_, rfl⟩
  · exact ⟨_, rfl⟩

theorem exists_tickFling_of_counted (h : host.tracker.Counted) :
    ∃ after, host.tickFling = .ok after := by
  have hshort := host.tracker.isShort_flingStep
  have hcounted : host.tracker.flingStep.1.Counted := by
    rcases host.tracker.flingStep_eq with ⟨velocity, remainder, hstep⟩
    rw [hstep]
    exact ⟨h.firstLine_le, h.lineCount_lt⟩
  unfold EditorHost.tickFling
  dsimp only
  split
  · exact ⟨_, rfl⟩
  · exact exists_scrollLines_of_counted hcounted hshort

theorem exists_edit_of_view {edit : E}
    (hview : host.tracker.firstLine + host.tracker.visibleLines < 2 ^ 64)
    (hcount : TextEditor.lineCount (TextEditor.perform host.document (.edit edit)) < 2 ^ 62) :
    ∃ after, host.edit edit = .ok after := by
  unfold EditorHost.edit
  generalize TextEditor.perform host.document (.edit edit) = document at hcount
  have hcounted := host.tracker.counted_setLineCount hcount
  -- A shorter document can only move the view up.
  have hfollowed : (host.tracker.setLineCount (TextEditor.lineCount document)).firstLine +
      (host.tracker.setLineCount (TextEditor.lineCount document)).visibleLines < 2 ^ 64 := by
    calc
      _ ≤ host.tracker.firstLine + host.tracker.visibleLines := by
        apply Nat.add_le_add (Nat.min_le_left _ _)
        exact Nat.le_of_eq (ScrollTracker.visibleLines_congr rfl rfl)
      _ < 2 ^ 64 := hview
  dsimp only
  split
  · exact ⟨_, rfl⟩
  · rcases ScrollTracker.exists_followLine hcounted hfollowed (TextEditor.position document).1 with
      ⟨line, applied, hline, _⟩
    exact Checked.exists_bind_eq_ok hline ⟨_, rfl⟩

/-- An operation does not fault as long as a word suffices for the line below the view, and a signed
one for the lines of the document before an edit and after it. -/
theorem exists_operate_of_counted (h : host.tracker.Counted) (hfits : operation.Fits)
    (hview : host.tracker.firstLine + host.tracker.visibleLines < 2 ^ 64)
    (hcount : ∀ edit, operation = .perform (.edit edit) →
      TextEditor.lineCount (TextEditor.perform host.document (.edit edit)) < 2 ^ 62) :
    ∃ result, host.operate operation = .ok result := by
  cases operation with
  | perform action =>
      cases action with
      | scroll lines =>
          rcases exists_scrollLines_of_counted h hfits with ⟨scrolled, hscrolled⟩
          exact Checked.exists_bind_eq_ok (Checked.bind_eq_ok_iff.2 ⟨scrolled, hscrolled, rfl⟩)
            ⟨_, rfl⟩
      | edit edit =>
          rcases exists_edit_of_view hview (hcount edit rfl) with ⟨edited, hedited⟩
          exact Checked.exists_bind_eq_ok hedited ⟨_, rfl⟩
  | tickFling =>
      rcases exists_tickFling_of_counted h with ⟨ticked, hticked⟩
      exact Checked.exists_bind_eq_ok hticked ⟨_, rfl⟩
  | scrollTo x y =>
      rcases ScrollTracker.exists_deltaTo h y with ⟨delta, hdelta, hshort⟩
      rcases exists_scrollLines_of_counted h hshort with ⟨scrolled, hscrolled⟩
      exact Checked.exists_bind_eq_ok (Checked.bind_eq_ok_iff.2 ⟨delta, hdelta, hscrolled⟩) ⟨_, rfl⟩
  | abortFling => exact ⟨_, rfl⟩
  | setViewport height => exact ⟨_, rfl⟩
  | drainChanges => exact ⟨_, rfl⟩
  | addListener id => exact ⟨_, rfl⟩

/-! ## Runs -/

/-- After every operation of a run over an editor that keeps its cursor on a line, the tracker counts
the lines of the document, and the first line that is seen is one of them; an edit that moves the cursor
leaves it in view. No operation faults, wherever a run has led, as long as the words for lines
suffice. -/
theorem run_tracker_mirrors_document [LawfulTextEditor D] {text : String} {lineHeight : Single}
    {operations : List (Operation E)} {last : EditorHost D}
    {steps : List (Step (EditorHost D) (Operation E) Changes)}
    (hfits : ∀ operation ∈ operations, operation.Fits)
    (h : (new text lineHeight).run operations = .ok (last, steps)) :
    (∀ step ∈ steps,
      step.after.tracker.lineCount = max 1 (TextEditor.lineCount step.after.document) ∧
      step.after.tracker.firstLine < step.after.tracker.lineCount ∧
      ∀ edit, step.input = .perform (.edit edit) →
        TextEditor.position step.after.document ≠ TextEditor.position step.before.document →
          step.after.tracker.firstLine ≤ (TextEditor.position step.after.document).1 ∧
            (TextEditor.position step.after.document).1 <
              step.after.tracker.firstLine + step.after.tracker.visibleLines) ∧
      ∀ operation : Operation E, operation.Fits →
        last.tracker.firstLine + last.tracker.visibleLines < 2 ^ 64 →
          TextEditor.lineCount last.document < 2 ^ 62 →
            (∀ edit, operation = .perform (.edit edit) →
              TextEditor.lineCount (TextEditor.perform last.document (.edit edit)) < 2 ^ 62) →
              ∃ result, last.operate operation = .ok result := by
  have hkept : ∀ step : Step (EditorHost D) (Operation E) Changes, step.before.Mirrors →
      step.input.Fits → step.before.operate step.input = .ok (step.after, step.output) →
        step.after.Mirrors := by
    intro step hbefore hstep hoperate
    exact hbefore.of_doing (operate_eq_ok hstep hoperate)
  have hallowed := Machine.allowed_of_mem_steps hfits h
  have hstart : (new text lineHeight : EditorHost D).Mirrors := mirrors_new text lineHeight
  constructor
  · intro step hmem
    rcases Machine.invariant_of_mem_steps Mirrors hstart hkept hallowed h step hmem with
        ⟨_, hafter, hoperate⟩
    refine ⟨?_, hafter.firstLine_lt, ?_⟩
    · rw [hafter.tracked, Nat.max_comm]
    · intro edit hinput hmoved
      have hdoing := operate_eq_ok (hallowed step hmem) hoperate
      rw [hinput] at hdoing
      generalize step.output = handed at hdoing
      -- An edit is no scroll, so that only one of the ways is left.
      cases hdoing with
      | scrolled _ no_edit => exact absurd rfl (no_edit edit)
      | edited editing => exact hafter.line_mem_view editing hmoved
  · intro operation hoperation hview hlines hedited
    have hlast := Machine.invariant_of_steps Mirrors hstart hkept hallowed h
    exact exists_operate_of_counted (hlast.counted hlines) hoperation hview hedited

/-- A wheel, a fling and a scrollbar between edits that lengthen the document, leave the view and
shorten the document. -/
def mixedOperations : List (Operation Edit) :=
  [.setViewport 60, .perform (.scroll 2), .tickFling, .perform (.edit (.paste "7\n8\n9")),
    .scrollTo 0 200, .perform (.edit (.move .documentEnd)), .abortFling, .perform (.edit .selectAll),
    .perform (.edit .backspace)]

/-- The theorem speaks of a run over six lines that become eight, and then one. -/
theorem run_tracker_mirrors_document_mixed :
    ∃ last steps,
      (new "1\n2\n3\n4\n5\n6" 20 : EditorHost Document).run mixedOperations = .ok (last, steps) ∧
      steps.map (fun step => (step.after.document.lineCount, step.after.tracker.firstLine)) =
        [(6, 0), (6, 2), (6, 3), (8, 2), (8, 7), (8, 7), (8, 7), (8, 7), (1, 0)] ∧
      ∀ step ∈ steps, step.after.tracker.lineCount = max 1 step.after.document.lineCount ∧
        step.after.tracker.firstLine < step.after.tracker.lineCount := by
  have hfits : ∀ operation ∈ mixedOperations, operation.Fits := by
    decide +kernel
  have hmap : ((new "1\n2\n3\n4\n5\n6" 20 : EditorHost Document).run mixedOperations).map
      (fun reached =>
        reached.2.map fun step => (step.after.document.lineCount, step.after.tracker.firstLine)) =
      .ok [(6, 0), (6, 2), (6, 3), (8, 2), (8, 7), (8, 7), (8, 7), (8, 7), (1, 0)] := by
    decide +kernel
  rcases Checked.map_eq_ok_iff.1 hmap with ⟨⟨last, steps⟩, hrun, hlines⟩
  refine ⟨last, steps, hrun, hlines, ?_⟩
  intro step hmem
  rcases (run_tracker_mirrors_document hfits hrun).1 step hmem with ⟨hcount, hfirst, _⟩
  exact ⟨hcount, hfirst⟩

end EditorHost

end OverlayScrollbar
