import OverlayScrollbar.Proofs.Editor.Host

/-!
# What scrolling does

Scrolling changes the first line of a tracker and nothing else, and leaves it a line of the document.
Scrolls and edits hand the action on to the editor, and tell the listeners if the offset has changed;
each is taken apart once here.

- `ScrollTracker.scrollBy_eq_ok`   : scrolling by some lines
- `ScrollTracker.followLine_eq_ok` : following a line
- `EditorHost.Tells`               : the listeners are told of a change of the offset
- `EditorHost.scrollLines_eq_ok`   : a scroll by some lines
- `EditorHost.edit_eq_ok`          : an edit
-/

namespace OverlayScrollbar

namespace ScrollTracker

variable {t after : ScrollTracker} {applied : Int}

/-! ## Words -/

/-- A word that is not negative as a signed number is at most as large as the number is. -/
theorem signed_le {n : Nat} (h : 0 ≤ signed n) : signed n ≤ n := by
  unfold signed at *
  rw [Int.bmod_def] at *
  split at h
  · rename_i hlow
    rw [if_pos hlow]
    omega
  · rename_i hhigh
    rw [if_neg hhigh]
    omega

theorem signed_eq {n : Nat} (h : 0 ≤ signed n) (hword : n < 2 ^ 64) : signed n = n := by
  apply signed_of_lt
  unfold signed at h
  rw [Int.bmod_def] at h
  split at h
  · omega
  · omega

theorem signed_lt (n : Nat) : signed n < 2 ^ 63 :=
  Int.bmod_lt (by decide)

/-! ## Scrolling -/

/-- Scrolling leads to a line of the document, and tells by how many lines it did if these can be
counted. -/
theorem scrollBy_eq_ok {lines : Int} (h : t.scrollBy lines = .ok (after, applied)) :
    ∃ line, after = { t with firstLine := line } ∧ line ≤ t.lastLine ∧
      (IsShort lines → t.firstLine ≤ t.lastLine → t.lastLine < 2 ^ 64 →
        applied = (line : Int) - t.firstLine) := by
  unfold scrollBy at h
  rcases Checked.bind_eq_ok_iff.1 h with ⟨target, htarget, h⟩
  have hsum := (Checked.signedWord_eq_ok_iff.1 htarget).2
  dsimp only at h
  split at h
  · cases h
  · rename_i hlast
    rcases Checked.bind_eq_ok_iff.1 h with ⟨moved, hmoved, h⟩
    have hdifference := (Checked.signedWord_eq_ok_iff.1 hmoved).2
    rcases Prod.mk.inj (Except.ok.inj h) with ⟨hafter, happlied⟩
    have hword : signed t.lastLine ≤ t.lastLine := signed_le (Int.not_lt.1 hlast)
    have hlastLine : t.lastLine < 2 ^ 64 → signed t.lastLine = t.lastLine :=
      signed_eq (Int.not_lt.1 hlast)
    have hfirstLine : t.firstLine < 2 ^ 63 → signed t.firstLine = t.firstLine := signed_of_lt
    have hlimit : signed t.lastLine < 2 ^ 63 := signed_lt t.lastLine
    generalize signed t.lastLine = last at *
    generalize signed t.firstLine = first at *
    refine ⟨_, hafter.symm, by omega, ?_⟩
    rintro ⟨hlower, hupper⟩ hfirst hcount
    -- From a line of the document to another, no further than was asked for.
    have hshort : IsShort moved := ⟨by omega, by omega⟩
    rw [← happlied, lowBits_of_isShort hshort]
    omega

theorem moveTo_eq_ok {target : Nat} (h : followLine.moveTo t target = .ok (after, applied)) :
    after = { t with firstLine := target } := by
  rcases Checked.bind_eq_ok_iff.1 h with ⟨moved, _, hafter⟩
  exact (Prod.mk.inj (Except.ok.inj hafter)).1.symm

/-- Following a line brings it into view, as far as there is such a line. -/
theorem followLine_eq_ok {line : Nat} (h : t.followLine line = .ok (after, applied)) :
    ∃ first, after = { t with firstLine := first } ∧ first ≤ min line t.lastLine ∧
      min line t.lastLine < first + t.visibleLines := by
  have hone := one_le_visibleLines t
  unfold followLine at h
  dsimp only at h
  split at h
  · -- A line above the view becomes the first one.
    exact ⟨_, moveTo_eq_ok h, Nat.le_refl _, by omega⟩
  · rename_i hbelow
    rcases Checked.bind_eq_ok_iff.1 h with ⟨beyond, hbeyond, h⟩
    have hsum := (Checked.word_eq_ok_iff.1 hbeyond).2
    split at h
    · -- A line below the view becomes the last one.
      exact ⟨_, moveTo_eq_ok h, by omega, by omega⟩
    · rename_i hinside
      rcases Prod.mk.inj (Except.ok.inj h) with ⟨rfl, _⟩
      exact ⟨t.firstLine, rfl, by omega, by omega⟩

theorem isShort_of_deltaTo {y : Single} {delta : Int} (h : t.deltaTo y = .ok delta) :
    IsShort delta := by
  unfold deltaTo at h
  split at h
  · rcases Except.ok.inj h with rfl
    exact isShort_zero
  · rcases Checked.bind_eq_ok_iff.1 h with ⟨target, _, h⟩
    rcases Checked.bind_eq_ok_iff.1 h with ⟨difference, _, h⟩
    rw [← Except.ok.inj h]
    exact isShort_lowBits difference

end ScrollTracker

namespace EditorHost

variable {D E : Type} [TextEditor D E] {host after : EditorHost D}

/-! ## Scrolls of an editor -/

/-- The listeners are told of the change of the offset, if there is one. -/
inductive Tells (host after : EditorHost D) : Prop
  | silent (same : after.tracker.scrollY.sameSize host.tracker.scrollY = true)
      (listeners_eq : after.listeners = host.listeners)
  | told (moved : after.tracker.scrollY.sameSize host.tracker.scrollY = false)
      (listeners_eq : after.listeners =
        host.listeners.notify ⟨0, after.tracker.scrollY, 0, host.tracker.scrollY⟩)

theorem Tells.listeners_cases (h : Tells host after) : after.listeners = host.listeners ∨
    ∃ change, after.listeners = host.listeners.notify change := by
  cases h with
  | silent _ listeners_eq => exact Or.inl listeners_eq
  | told _ listeners_eq => exact Or.inr ⟨_, listeners_eq⟩

/-- The view moves over the document, or stays where it is; the listeners are told, unless it stays. -/
structure Scrolling (host after : EditorHost D) : Prop where
  document_cases : after.document = host.document ∨
    ∃ lines, after.document = TextEditor.perform host.document (.scroll lines)
  lineCount_eq : after.tracker.lineCount = host.tracker.lineCount
  lineHeight_eq : after.tracker.lineHeight = host.tracker.lineHeight
  firstLine_le : host.tracker.firstLine ≤ host.tracker.lastLine →
    after.tracker.firstLine ≤ after.tracker.lastLine
  listeners_cases : after.listeners = host.listeners ∨
    ∃ change, after.listeners = host.listeners.notify change
  told : host.tracker.firstLine ≤ host.tracker.lastLine → host.tracker.lastLine < 2 ^ 64 →
    Tells host after ∨
      after.tracker.firstLine = host.tracker.firstLine ∧ after.listeners = host.listeners

/-- The view stays where it is, and the listeners are told nothing. -/
structure Resting (host after : EditorHost D) : Prop where
  document_eq : after.document = host.document
  lineCount_eq : after.tracker.lineCount = host.tracker.lineCount
  lineHeight_eq : after.tracker.lineHeight = host.tracker.lineHeight
  firstLine_eq : after.tracker.firstLine = host.tracker.firstLine
  listeners_eq : after.listeners = host.listeners

theorem Resting.scrollY_eq (h : Resting host after) :
    after.tracker.scrollY = host.tracker.scrollY := by
  unfold ScrollTracker.scrollY
  rw [h.firstLine_eq, h.lineHeight_eq]

theorem Resting.lastLine_eq (h : Resting host after) :
    after.tracker.lastLine = host.tracker.lastLine :=
  congrArg (· - 1) h.lineCount_eq

theorem Resting.scrolling (h : Resting host after) : Scrolling host after := by
  refine ⟨Or.inl h.document_eq, h.lineCount_eq, h.lineHeight_eq, ?_, Or.inl h.listeners_eq,
    fun _ _ => Or.inr ⟨h.firstLine_eq, h.listeners_eq⟩⟩
  intro hle
  rw [h.firstLine_eq, h.lastLine_eq]
  exact hle

theorem Tells.of_resting {started scrolled : EditorHost D} (h : Tells started scrolled)
    (hbefore : Resting host started) (hafter : Resting scrolled after) : Tells host after := by
  cases h with
  | silent same listeners_eq =>
      refine .silent ?_ ?_
      · rw [hafter.scrollY_eq, ← hbefore.scrollY_eq]
        exact same
      · rw [hafter.listeners_eq, listeners_eq, hbefore.listeners_eq]
  | told moved listeners_eq =>
      refine .told ?_ ?_
      · rw [hafter.scrollY_eq, ← hbefore.scrollY_eq]
        exact moved
      · rw [hafter.listeners_eq, listeners_eq, hbefore.listeners_eq, hafter.scrollY_eq,
          ← hbefore.scrollY_eq]

/-- What is done to a fling before a scroll, and after it, does not matter to the view. -/
theorem Scrolling.of_resting {started scrolled : EditorHost D} (h : Scrolling started scrolled)
    (hbefore : Resting host started) (hafter : Resting scrolled after) : Scrolling host after := by
  constructor
  · rw [hafter.document_eq, ← hbefore.document_eq]
    exact h.document_cases
  · exact hafter.lineCount_eq.trans (h.lineCount_eq.trans hbefore.lineCount_eq)
  · exact hafter.lineHeight_eq.trans (h.lineHeight_eq.trans hbefore.lineHeight_eq)
  · intro hle
    rw [← hbefore.firstLine_eq, ← hbefore.lastLine_eq] at hle
    rw [hafter.firstLine_eq, hafter.lastLine_eq]
    exact h.firstLine_le hle
  · rw [hafter.listeners_eq, ← hbefore.listeners_eq]
    exact h.listeners_cases
  · intro hle hword
    rw [← hbefore.firstLine_eq, ← hbefore.lastLine_eq] at hle
    rw [← hbefore.lastLine_eq] at hword
    rcases h.told hle hword with htells | ⟨hstays, hsilent⟩
    · exact Or.inl (htells.of_resting hbefore hafter)
    · exact Or.inr ⟨hafter.firstLine_eq.trans (hstays.trans hbefore.firstLine_eq),
        hafter.listeners_eq.trans (hsilent.trans hbefore.listeners_eq)⟩

theorem notifyIfMoved_of_same {oldY : Single}
    (h : host.tracker.scrollY.sameSize oldY = true) : host.notifyIfMoved oldY = host :=
  if_pos h

theorem notifyIfMoved_of_moved {oldY : Single}
    (h : host.tracker.scrollY.sameSize oldY = false) :
    host.notifyIfMoved oldY =
      { host with listeners := host.listeners.notify ⟨0, host.tracker.scrollY, 0, oldY⟩ } :=
  if_neg (Bool.eq_false_iff.1 h)

theorem document_notifyIfMoved (host : EditorHost D) (oldY : Single) :
    (host.notifyIfMoved oldY).document = host.document := by
  cases hsame : host.tracker.scrollY.sameSize oldY with
  | true => rw [notifyIfMoved_of_same hsame]
  | false => rw [notifyIfMoved_of_moved hsame]

theorem tracker_notifyIfMoved (host : EditorHost D) (oldY : Single) :
    (host.notifyIfMoved oldY).tracker = host.tracker := by
  cases hsame : host.tracker.scrollY.sameSize oldY with
  | true => rw [notifyIfMoved_of_same hsame]
  | false => rw [notifyIfMoved_of_moved hsame]

theorem tells_notifyIfMoved {moved : EditorHost D} (hlisteners : moved.listeners = host.listeners) :
    Tells host (moved.notifyIfMoved host.tracker.scrollY) := by
  cases hsame : moved.tracker.scrollY.sameSize host.tracker.scrollY with
  | true =>
      rw [notifyIfMoved_of_same hsame]
      exact .silent hsame hlisteners
  | false =>
      rw [notifyIfMoved_of_moved hsame, hlisteners]
      exact .told hsame rfl

/-- A scroll by some lines moves the view by as many, as far as the document goes. -/
theorem scrollLines_eq_ok {lines : Int} (hlines : IsShort lines)
    (h : host.scrollLines lines = .ok after) : Scrolling host after := by
  rcases Checked.bind_eq_ok_iff.1 h with ⟨⟨tracker, applied⟩, hscrolled, h⟩
  rcases ScrollTracker.scrollBy_eq_ok hscrolled with ⟨line, rfl, hline, happlied⟩
  dsimp only at h
  split at h
  · -- No line was scrolled by, so that the first line is what it was.
    rename_i hnone
    cases Except.ok.inj h
    refine ⟨Or.inl rfl, rfl, rfl, fun _ => hline, Or.inl rfl, ?_⟩
    intro hfirst hword
    refine Or.inr ⟨?_, rfl⟩
    have hsame := (happlied hlines hfirst hword).symm.trans hnone
    show line = host.tracker.firstLine
    omega
  · cases Except.ok.inj h
    let moved : EditorHost D :=
      { host with
        document := TextEditor.perform host.document (.scroll applied)
        tracker := { host.tracker with firstLine := line } }
    have htells : Tells host (moved.notifyIfMoved host.tracker.scrollY) := tells_notifyIfMoved rfl
    refine ⟨Or.inr ⟨applied, document_notifyIfMoved _ _⟩, ?_, ?_, ?_, htells.listeners_cases,
      fun _ _ => Or.inl htells⟩
    · rw [tracker_notifyIfMoved]
    · rw [tracker_notifyIfMoved]
    · intro _
      rw [tracker_notifyIfMoved]
      exact hline

/-! ## Edits -/

/-- The document is edited and its lines are counted again; a cursor that has moved is in view, as far
as its line is one of the document, and the listeners are told. -/
structure Editing (host : EditorHost D) (edit : E) (after : EditorHost D) : Prop where
  document_eq : after.document = TextEditor.perform host.document (.edit edit)
  lineCount_eq : after.tracker.lineCount = max (TextEditor.lineCount after.document) 1
  lineHeight_eq : after.tracker.lineHeight = host.tracker.lineHeight
  firstLine_le : after.tracker.firstLine ≤ after.tracker.lastLine
  follows : TextEditor.position after.document ≠ TextEditor.position host.document →
    after.tracker.firstLine ≤ min (TextEditor.position after.document).1 after.tracker.lastLine ∧
      min (TextEditor.position after.document).1 after.tracker.lastLine <
        after.tracker.firstLine + after.tracker.visibleLines
  tells : Tells host after

/-- An edit leads to a tracker for the new document, and tells the listeners at last. -/
theorem editing_of_tracker {edit : E} {document : D} {tracker : ScrollTracker}
    (hdocument : document = TextEditor.perform host.document (.edit edit))
    (hcount : tracker.lineCount = max (TextEditor.lineCount document) 1)
    (hheight : tracker.lineHeight = host.tracker.lineHeight)
    (hfirst : tracker.firstLine ≤ tracker.lastLine)
    (hfollows : TextEditor.position document ≠ TextEditor.position host.document →
      tracker.firstLine ≤ min (TextEditor.position document).1 tracker.lastLine ∧
        min (TextEditor.position document).1 tracker.lastLine <
          tracker.firstLine + tracker.visibleLines) :
    Editing host edit
      (notifyIfMoved { host with document := document, tracker := tracker }
        host.tracker.scrollY) := by
  refine ⟨?_, ?_, ?_, ?_, ?_, tells_notifyIfMoved rfl⟩
  all_goals simp only [document_notifyIfMoved, tracker_notifyIfMoved]
  · exact hdocument
  · exact hcount
  · exact hheight
  · exact hfirst
  · exact hfollows

theorem edit_eq_ok {edit : E} (h : host.edit edit = .ok after) : Editing host edit after := by
  unfold EditorHost.edit at h
  dsimp only at h
  -- The view follows the cursor only if it was moved to another place.
  split at h
  · rename_i hstays
    cases Except.ok.inj h
    refine editing_of_tracker rfl rfl rfl (Nat.min_le_right _ _) ?_
    intro hmoved
    exact absurd hstays hmoved
  · rcases Checked.bind_eq_ok_iff.1 h with ⟨⟨followed, applied⟩, hfollowed, h⟩
    cases Except.ok.inj h
    rcases ScrollTracker.followLine_eq_ok hfollowed with ⟨first, rfl, hfirst, hshown⟩
    refine editing_of_tracker rfl rfl rfl (Nat.le_trans hfirst (Nat.min_le_right _ _)) ?_
    intro _
    exact ⟨hfirst, hshown⟩

end EditorHost

end OverlayScrollbar
