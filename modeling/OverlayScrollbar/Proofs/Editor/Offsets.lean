import OverlayScrollbar.Proofs.Editor.Stepping
import OverlayScrollbar.Proofs.Single.Whole

/-!
# Scrolling to an offset

A scroll to an offset makes the line that begins nearest to it the first one, wherever the view was
before, as long as the lines are so few that the way between two of them is counted in 32 bits.

- `ScrollTracker.scrollBy_sub`      : a scroll by the way to a line
- `ScrollTracker.exists_deltaTo_eq` : the way to an offset
- `EditorHost.documentAfter`        : what the editor is told of a scroll
- `EditorHost.exists_scrollTo_line` : a scroll of the editor
-/

namespace OverlayScrollbar

namespace ScrollTracker

variable {t : ScrollTracker} {y : Single} {line : Int}

theorem isShort_sub (hfirst : t.firstLine ≤ t.lastLine) (hcount : t.lastLine ≤ 2 ^ 24)
    (hlow : 0 ≤ line) (hhigh : line ≤ t.lastLine) : IsShort (line - t.firstLine) := by
  constructor
  · omega
  · omega

/-- A scroll by the way to a line of the document leads there. -/
theorem scrollBy_sub (hfirst : t.firstLine ≤ t.lastLine) (hcount : t.lastLine ≤ 2 ^ 24)
    (hlow : 0 ≤ line) (hhigh : line ≤ t.lastLine) :
    t.scrollBy (line - t.firstLine) =
      .ok ({ t with firstLine := line.toNat }, line - t.firstLine) := by
  have hcounted : t.Counted := by
    refine ⟨hfirst, ?_⟩
    unfold lastLine at hcount
    omega
  have hreached : t.lineAfter (line - t.firstLine) = line := by
    unfold lineAfter
    omega
  rw [scrollBy_eq hcounted (isShort_sub hfirst hcount hlow hhigh), hreached]

/-- The way to an offset leads to the line nearest to it, kept within the document. -/
theorem exists_deltaTo_eq (hfirst : t.firstLine ≤ t.lastLine) (hcount : t.lastLine ≤ 2 ^ 24)
    (hheight : 0 < t.lineHeight) (hy : y.IsFinite) :
    ∃ target, (y / t.lineHeight).nearest.clamp 0 (Single.ofNat t.lastLine) = .ok target ∧
      0 ≤ target.toInt64 ∧ target.toInt64 ≤ t.lastLine ∧
      t.deltaTo y = .ok (target.toInt64 - t.firstLine) := by
  have hnumber := Single.isNaN_nearest (Single.isNaN_div hy hheight)
  rcases Single.exists_clamp_eq_ok (y / t.lineHeight).nearest (Single.zero_le_ofNat t.lastLine) with
    ⟨target, htarget⟩
  rcases Single.clamp_mem hnumber htarget with ⟨hlow, hhigh⟩
  have hwhole : 0 ≤ target.toInt64 := (Single.toInt64_mem_of_zero_le hlow).1
  -- Up to `2 ^ 24` lines the number of the last line is held exactly.
  have hlast : target.toInt64 ≤ t.lastLine := Single.toInt64_le hcount hhigh
  refine ⟨target, htarget, hwhole, hlast, ?_⟩
  unfold deltaTo
  rw [if_neg (fun hle => Single.not_lt_of_le hle hheight), signed_of_lt (by omega), htarget]
  simp only [bind, Except.bind]
  rw [Checked.signedWord_of_mem (by omega) (by omega)]
  exact congrArg Except.ok (lowBits_of_isShort (isShort_sub hfirst hcount hwhole hlast))

end ScrollTracker

namespace EditorHost

variable {D E : Type} [TextEditor D E] {host : EditorHost D} {y : Single}

/-- The document after a scroll by a number of lines. The editor is told nothing of a scroll by none. -/
def documentAfter (host : EditorHost D) (lines : Int) : D :=
  if lines = 0 then host.document else TextEditor.perform host.document (.scroll lines)

theorem exists_scrollLines_of_scrollBy {lines applied : Int} {tracker : ScrollTracker}
    (h : host.tracker.scrollBy lines = .ok (tracker, applied)) :
    ∃ scrolled, host.scrollLines lines = .ok scrolled ∧ scrolled.tracker = tracker ∧
      scrolled.document = host.documentAfter applied := by
  unfold scrollLines documentAfter
  rw [h]
  dsimp only [bind, Except.bind, pure, Except.pure]
  split
  · exact ⟨_, rfl, rfl, rfl⟩
  · exact ⟨_, rfl, tracker_notifyIfMoved _ _, document_notifyIfMoved _ _⟩

/-- An editor that is scrolled to an offset shows the line nearest to it first. -/
theorem exists_scrollTo_line (hfirst : host.tracker.firstLine ≤ host.tracker.lastLine)
    (hcount : host.tracker.lastLine ≤ 2 ^ 24) (hheight : 0 < host.tracker.lineHeight)
    (hy : y.IsFinite) (x : Single) :
    ∃ target scrolled,
      (y / host.tracker.lineHeight).nearest.clamp 0 (Single.ofNat host.tracker.lastLine) =
        .ok target ∧
      0 ≤ target.toInt64 ∧ target.toInt64 ≤ host.tracker.lastLine ∧
      ScrollHost.scrollTo host x y = .ok scrolled ∧
      scrolled.tracker = { host.tracker with firstLine := target.toInt64.toNat } ∧
      scrolled.document = host.documentAfter (target.toInt64 - host.tracker.firstLine) := by
  rcases ScrollTracker.exists_deltaTo_eq hfirst hcount hheight hy with
    ⟨target, htarget, hwhole, hlast, hdelta⟩
  rcases exists_scrollLines_of_scrollBy (ScrollTracker.scrollBy_sub hfirst hcount hwhole hlast) with
    ⟨scrolled, hscrolled, hafter⟩
  refine ⟨target, scrolled, htarget, hwhole, hlast, ?_, hafter⟩
  exact Checked.bind_eq_ok_iff.2 ⟨_, hdelta, hscrolled⟩

end EditorHost

end OverlayScrollbar
