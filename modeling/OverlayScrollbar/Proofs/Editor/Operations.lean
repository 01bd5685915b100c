import OverlayScrollbar.Proofs.Editor.Scrolling
import OverlayScrollbar.Proofs.Run

/-!
# Operations of an editor

A run of an editor is a list of operations: actions of the user, frames of a fling, scrolls of a
scrollbar, changes of the view, and the taking of listeners and of what they are to be told.

- `EditorHost.Operation`, `EditorHost.operate` : an operation, and what it does and hands out
- `EditorHost.run`           : one operation after another
- `EditorHost.Doing`         : the ways in which an operation changes an editor
- `EditorHost.operate_eq_ok` : every operation that does not fault changes it in one of these ways
- `EditorHost.Doing.firstLine_lt` : every operation leaves the first line one of the lines
-/

namespace OverlayScrollbar

namespace EditorHost

/-! ## Operations and runs -/

/-- What can be done to an editor. -/
inductive Operation (E : Type)
  | perform (action : EditorAction E)
  | tickFling
  | scrollTo (x y : Single)
  | abortFling
  | setViewport (height : Single)
  | drainChanges
  | addListener (id : ListenerId)
  deriving DecidableEq, Repr

/-- What listeners are to be told. -/
abbrev Changes : Type :=
  List (ListenerId × ScrollChange)

variable {D E : Type} [TextEditor D E]

/-- Carries out an operation, which may hand out changes. -/
def operate (host : EditorHost D) : Operation E → Checked (EditorHost D × Changes)
  | .perform action => do return (← host.perform action, [])
  | .tickFling => do return (← host.tickFling, [])
  | .scrollTo x y => do return (← ScrollHost.scrollTo host x y, [])
  | .abortFling => .ok (ScrollHost.abortFling host, [])
  | .setViewport height => .ok (host.setViewport height, [])
  | .drainChanges => .ok host.drainChanges
  | .addListener id => .ok ((ScrollHost.addListener host id).1, [])

/-- Carries out operations one after another. -/
abbrev run (host : EditorHost D) (operations : List (Operation E)) :
    Checked (EditorHost D × List (Step (EditorHost D) (Operation E) Changes)) :=
  Machine.run operate host operations

/-- A number of lines to scroll by fits a word. -/
def Operation.Fits : Operation E → Prop
  | .perform action => action.Fits
  | _ => True

instance (operation : Operation E) : Decidable operation.Fits := by
  cases operation <;> unfold Operation.Fits <;> infer_instance

/-! ## What an operation does -/

/-- How an operation changes an editor, and what it hands out. -/
inductive Doing (host : EditorHost D) : Operation E → EditorHost D → Changes → Prop
  /-- The view moves over the document, or stays. -/
  | scrolled {operation : Operation E} {after : EditorHost D} (scrolling : Scrolling host after)
      (no_edit : ∀ edit, operation ≠ .perform (.edit edit)) : Doing host operation after []
  /-- The document is edited. -/
  | edited {edit : E} {after : EditorHost D} (editing : Editing host edit after) :
      Doing host (.perform (.edit edit)) after []
  /-- What the listeners are to be told is handed out. -/
  | drained : Doing host .drainChanges host.drainChanges.1 host.listeners.queue
  /-- A listener is taken. -/
  | registered (id : ListenerId) :
      Doing host (.addListener id) (ScrollHost.addListener host id).1 []

variable {host after : EditorHost D}

theorem resting_refl (host : EditorHost D) : Resting host host :=
  ⟨rfl, rfl, rfl, rfl, rfl⟩

/-- Neither a fling nor the height of the view moves the view. -/
theorem resting_of_tracker {tracker : ScrollTracker} {viewport velocity remainder : Single}
    (htracker : tracker =
      { host.tracker with viewport := viewport, velocity := velocity, remainder := remainder }) :
    Resting host { host with tracker := tracker } := by
  subst htracker
  exact ⟨rfl, rfl, rfl, rfl, rfl⟩

theorem resting_startFling (host : EditorHost D) (lines : Int) :
    Resting host { host with tracker := host.tracker.startFling lines } := by
  apply resting_of_tracker
  unfold ScrollTracker.startFling
  rfl

theorem resting_abortFling (host : EditorHost D) :
    Resting host { host with tracker := host.tracker.abortFling } := by
  apply resting_of_tracker
  unfold ScrollTracker.abortFling
  rfl

theorem resting_setViewport (host : EditorHost D) (height : Single) :
    Resting host (host.setViewport height) := by
  apply resting_of_tracker
  unfold ScrollTracker.setViewport
  rfl

theorem resting_flingStep (host : EditorHost D) :
    Resting host { host with tracker := host.tracker.flingStep.1 } := by
  rcases host.tracker.flingStep_eq with ⟨velocity, remainder, hstep⟩
  exact resting_of_tracker hstep

theorem perform_scroll_eq_ok {lines : Int} (hlines : IsShort lines)
    (h : host.perform (.scroll lines) = .ok after) : Scrolling host after := by
  rcases Checked.bind_eq_ok_iff.1 h with ⟨scrolled, hscrolled, hafter⟩
  cases Except.ok.inj hafter
  exact (scrollLines_eq_ok hlines hscrolled).of_resting (resting_refl host)
    (resting_startFling scrolled lines)

theorem tickFling_eq_ok (h : host.tickFling = .ok after) : Scrolling host after := by
  have hshort : IsShort host.tracker.flingStep.2 := ScrollTracker.isShort_flingStep host.tracker
  unfold EditorHost.tickFling at h
  dsimp only at h
  split at h
  · cases Except.ok.inj h
    exact (resting_flingStep host).scrolling
  · exact (scrollLines_eq_ok hshort h).of_resting (resting_flingStep host) (resting_refl after)

theorem scrollTo_eq_ok {x y : Single} (h : ScrollHost.scrollTo host x y = .ok after) :
    Scrolling host after := by
  rcases Checked.bind_eq_ok_iff.1 h with ⟨delta, hdelta, hscrolled⟩
  exact scrollLines_eq_ok (ScrollTracker.isShort_of_deltaTo hdelta) hscrolled

/-- An operation scrolls, edits, hands out what is to be told, or takes a listener. -/
theorem operate_eq_ok {operation : Operation E} {handed : Changes} (hfits : operation.Fits)
    (h : host.operate operation = .ok (after, handed)) : Doing host operation after handed := by
  cases operation with
  | perform action =>
      rcases Checked.bind_eq_ok_iff.1 h with ⟨performed, hperformed, hafter⟩
      cases Except.ok.inj hafter
      cases action with
      | scroll lines => exact .scrolled (perform_scroll_eq_ok hfits hperformed) (by simp)
      | edit edit => exact .edited (edit_eq_ok hperformed)
  | tickFling =>
      rcases Checked.bind_eq_ok_iff.1 h with ⟨ticked, hticked, hafter⟩
      cases Except.ok.inj hafter
      exact .scrolled (tickFling_eq_ok hticked) (by simp)
  | scrollTo x y =>
      rcases Checked.bind_eq_ok_iff.1 h with ⟨scrolled, hscrolled, hafter⟩
      cases Except.ok.inj hafter
      exact .scrolled (scrollTo_eq_ok hscrolled) (by simp)
  | abortFling =>
      cases Except.ok.inj h
      exact .scrolled (resting_abortFling host).scrolling (by simp)
  | setViewport height =>
      cases Except.ok.inj h
      exact .scrolled (resting_setViewport host height).scrolling (by simp)
  | drainChanges =>
      cases Except.ok.inj h
      exact .drained
  | addListener id =>
      cases Except.ok.inj h
      exact .registered id

/-! ## What operations keep -/

/-- The first line is one of the lines, if it was before. -/
theorem Doing.firstLine_lt {operation : Operation E} {handed : Changes}
    (h : Doing host operation after handed)
    (hbefore : host.tracker.firstLine < host.tracker.lineCount) :
    after.tracker.firstLine < after.tracker.lineCount := by
  have hafter : after.tracker.firstLine ≤ after.tracker.lastLine ∧ 0 < after.tracker.lineCount := by
    cases h with
    | scrolled scrolling _ =>
        refine ⟨scrolling.firstLine_le (Nat.le_sub_one_of_lt hbefore), ?_⟩
        rw [scrolling.lineCount_eq]
        exact Nat.zero_lt_of_lt hbefore
    | edited editing =>
        refine ⟨editing.firstLine_le, ?_⟩
        rw [editing.lineCount_eq]
        exact Nat.le_max_right _ _
    | drained => exact ⟨Nat.le_sub_one_of_lt hbefore, Nat.zero_lt_of_lt hbefore⟩
    | registered id => exact ⟨Nat.le_sub_one_of_lt hbefore, Nat.zero_lt_of_lt hbefore⟩
  exact Nat.lt_of_le_sub_one hafter.2 hafter.1

/-- No operation changes the height of a line. -/
theorem Doing.lineHeight_eq {operation : Operation E} {handed : Changes}
    (h : Doing host operation after handed) :
    after.tracker.lineHeight = host.tracker.lineHeight := by
  cases h with
  | scrolled scrolling _ => exact scrolling.lineHeight_eq
  | edited editing => exact editing.lineHeight_eq
  | drained => rfl
  | registered other => rfl

/-- The first line of a new host is one of the lines, of which there is one at least. -/
theorem firstLine_lt_new (text : String) (lineHeight : Single) :
    (new text lineHeight : EditorHost D).tracker.firstLine <
      (new text lineHeight : EditorHost D).tracker.lineCount :=
  Nat.le_max_right _ 1

end EditorHost

end OverlayScrollbar
