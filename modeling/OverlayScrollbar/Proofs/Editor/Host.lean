import OverlayScrollbar.Editor.Host
import OverlayScrollbar.Proofs.Editor.Tracker

/-!
# An editor that does not fault

A host whose tracker is within its words carries out every action without a fault, as long as the
contents that its editor comes to have not too many lines, and tells its one listener at most one
change.

- `EditorAction.edits`          : the actions other than scrolls
- `EditorHost.Sound`            : the tracker is within its words, and the editor came from a text
- `EditorHost.Yields`           : an operation that gives a sound host, with at most one change more
- `EditorHost.exists_perform`   : an action
- `EditorHost.exists_scrollTo`  : a scroll to an offset
- `EditorHost.exists_tickFling` : a frame of a fling
-/

namespace OverlayScrollbar

variable {D E : Type} [TextEditor D E]

namespace EditorAction

/-- A number of lines to scroll by fits a word. -/
def Fits : EditorAction E → Prop
  | .scroll count => IsShort count
  | .edit _ => True

instance (action : EditorAction E) : Decidable action.Fits := by
  cases action <;> unfold Fits <;> infer_instance

/-- The action, if it is no scroll. -/
def edits : EditorAction E → List E
  | .scroll _ => []
  | .edit change => [change]

end EditorAction

namespace EditorHost

/-- The editor came from a text by some edits, the tracker is within its words, and there is at most one
listener. -/
structure Sound (text : String) (edits : List E) (lineHeight : Single) (host : EditorHost D) :
    Prop where
  reached : TextEditor.Reached text edits host.document
  inRange : host.tracker.InRange
  lineHeight_eq : host.tracker.lineHeight = lineHeight
  alone : host.listeners.ids.length ≤ 1

/-- The operation gives a sound host that has at most one change more to tell. -/
def Yields (text : String) (edits : List E) (lineHeight : Single) (host : EditorHost D)
    (result : Checked (EditorHost D)) : Prop :=
  ∃ after, result = .ok after ∧ after.Sound text edits lineHeight ∧
    after.listeners.queue.length ≤ host.listeners.queue.length + 1

variable {text : String} {edits : List E} {lineHeight : Single} {host : EditorHost D}

/-! ## A new host -/

/-- A host at the start of a text, with a view that has not too many lines. -/
theorem sound_new {height : Single} (hview : ScrollTracker.linesIn lineHeight height ≤ 2 ^ 63)
    (hcount : TextEditor.lineCount (TextEditor.ofText text : D) < 2 ^ 62) :
    ((new text lineHeight : EditorHost D).setViewport height).Sound text [] lineHeight := by
  refine ⟨.ofText, ⟨Nat.zero_le _, ?_, ?_⟩, rfl, Nat.zero_le 1⟩
  · exact Nat.max_lt.2 ⟨hcount, by decide⟩
  · exact Nat.le_trans (Nat.le_of_eq (ScrollTracker.visibleLines_congr rfl rfl)) hview

theorem Sound.addListener (h : host.Sound text edits lineHeight) (hnone : host.listeners.ids = [])
    (id : ListenerId) : (ScrollHost.addListener host id).1.Sound text edits lineHeight := by
  refine ⟨h.reached, h.inRange, h.lineHeight_eq, ?_⟩
  simp [ScrollHost.addListener, Listeners.add, hnone]

/-! ## Parts of operations -/

theorem Sound.withFirstLine (h : host.Sound text edits lineHeight) {line : Nat}
    (hline : line ≤ host.tracker.lastLine) :
    Sound text edits lineHeight { host with tracker := { host.tracker with firstLine := line } } :=
  ⟨h.reached, h.inRange.withFirstLine hline, h.lineHeight_eq, h.alone⟩

theorem Sound.withFling (h : host.Sound text edits lineHeight) (velocity remainder : Single) :
    Sound text edits lineHeight
      { host with tracker := { host.tracker with velocity := velocity, remainder := remainder } } :=
  ⟨h.reached, h.inRange.withFling velocity remainder, h.lineHeight_eq, h.alone⟩

theorem Sound.setViewport (h : host.Sound text edits lineHeight) {height : Single}
    (hview : ScrollTracker.linesIn lineHeight height ≤ 2 ^ 63) :
    (host.setViewport height).Sound text edits lineHeight :=
  ⟨h.reached, h.inRange.setViewport (h.lineHeight_eq ▸ hview), h.lineHeight_eq, h.alone⟩

theorem Sound.drainChanges (h : host.Sound text edits lineHeight) :
    host.drainChanges.1.Sound text edits lineHeight :=
  ⟨h.reached, h.inRange, h.lineHeight_eq, h.alone⟩

/-- The editor has scrolled. -/
theorem Sound.scrolled (h : host.Sound text edits lineHeight) (lines : Int) :
    Sound text edits lineHeight
      { host with document := TextEditor.perform host.document (.scroll lines) } :=
  ⟨h.reached.scrolled lines, h.inRange, h.lineHeight_eq, h.alone⟩

/-- The editor has carried out another action, and its lines are counted again. -/
theorem Sound.edited (h : host.Sound text edits lineHeight) {edit : E}
    (hcount : TextEditor.lineCount (TextEditor.perform host.document (.edit edit)) < 2 ^ 62) :
    Sound text (edits ++ [edit]) lineHeight
      { host with
        document := TextEditor.perform host.document (.edit edit)
        tracker := host.tracker.setLineCount
          (TextEditor.lineCount (TextEditor.perform host.document (.edit edit))) } :=
  ⟨h.reached.edited edit, h.inRange.setLineCount hcount, h.lineHeight_eq, h.alone⟩

theorem Sound.notifyIfMoved (h : host.Sound text edits lineHeight) (oldY : Single) :
    (host.notifyIfMoved oldY).Sound text edits lineHeight ∧
      (host.notifyIfMoved oldY).listeners.queue.length ≤ host.listeners.queue.length + 1 := by
  unfold EditorHost.notifyIfMoved
  dsimp only
  split
  · exact ⟨h, Nat.le_succ _⟩
  · refine ⟨⟨h.reached, h.inRange, h.lineHeight_eq, h.alone⟩, ?_⟩
    -- The change is queued once for each listener, of which there is one at most.
    have halone := h.alone
    simp only [Listeners.notify, List.length_append, List.length_map]
    omega

/-! ## Operations -/

theorem exists_scrollLines (h : host.Sound text edits lineHeight) {count : Int}
    (hcount : IsShort count) : host.Yields text edits lineHeight (host.scrollLines count) := by
  rcases ScrollTracker.exists_scrollBy h.inRange.counted hcount with ⟨line, applied, hscrolled, hline⟩
  have hsound := h.withFirstLine hline
  unfold Yields scrollLines
  rw [hscrolled]
  dsimp only [bind, Except.bind, pure, Except.pure]
  split
  · exact ⟨_, rfl, hsound, Nat.le_succ _⟩
  · exact ⟨_, rfl, (hsound.scrolled applied).notifyIfMoved _⟩

theorem exists_edit (h : host.Sound text edits lineHeight) {edit : E}
    (hcount : TextEditor.lineCount (TextEditor.perform host.document (.edit edit)) < 2 ^ 62) :
    host.Yields text (edits ++ [edit]) lineHeight (host.edit edit) := by
  have hsound := h.edited hcount
  unfold Yields EditorHost.edit
  dsimp only
  split
  · exact ⟨_, rfl, hsound.notifyIfMoved _⟩
  · -- The cursor has moved, and is followed.
    rcases ScrollTracker.exists_followLine hsound.inRange.counted hsound.inRange.view_lt
      (TextEditor.position (TextEditor.perform host.document (.edit edit))).1 with
        ⟨line, applied, hfollowed, hline⟩
    rw [hfollowed]
    exact ⟨_, rfl, (hsound.withFirstLine hline).notifyIfMoved _⟩

/-- The contents that an action can lead to have not too many lines. -/
theorem exists_perform (h : host.Sound text edits lineHeight) {action : EditorAction E}
    (hfits : action.Fits)
    (hcounts : ∀ d : D, TextEditor.Reached text (edits ++ action.edits) d →
      TextEditor.lineCount d < 2 ^ 62) :
    host.Yields text (edits ++ action.edits) lineHeight (host.perform action) := by
  cases action with
  | edit edit => exact exists_edit h (hcounts _ (h.reached.edited edit))
  | scroll count =>
      rcases exists_scrollLines h hfits with ⟨scrolled, hscrolled, hsound, hqueue⟩
      refine ⟨_, Checked.bind_eq_ok_iff.2 ⟨scrolled, hscrolled, rfl⟩, ?_, hqueue⟩
      rw [EditorAction.edits, List.append_nil]
      exact hsound.withFling _ _

theorem exists_tickFling (h : host.Sound text edits lineHeight) :
    host.Yields text edits lineHeight host.tickFling := by
  rcases ScrollTracker.inRange_flingStep h.inRange with ⟨hinRange, hshort, hheight, _⟩
  have hsound : Sound text edits lineHeight { host with tracker := host.tracker.flingStep.1 } :=
    ⟨h.reached, hinRange, hheight.trans h.lineHeight_eq, h.alone⟩
  unfold Yields tickFling
  dsimp only
  split
  · exact ⟨_, rfl, hsound, Nat.le_succ _⟩
  · exact exists_scrollLines hsound hshort

theorem exists_scrollTo (h : host.Sound text edits lineHeight) (x y : Single) :
    host.Yields text edits lineHeight
      (ScrollHost.scrollTo (ScrollHost.abortFling host) x y) := by
  have hsound := h.withFling 0 0
  rcases ScrollTracker.exists_deltaTo hsound.inRange.counted y with ⟨delta, hdelta, hshort⟩
  rcases exists_scrollLines hsound hshort with ⟨scrolled, hscrolled, hafter⟩
  exact ⟨scrolled, Checked.bind_eq_ok_iff.2 ⟨delta, hdelta, hscrolled⟩, hafter⟩

end EditorHost

end OverlayScrollbar
