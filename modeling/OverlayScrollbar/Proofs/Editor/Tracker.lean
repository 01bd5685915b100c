import OverlayScrollbar.Editor.Tracker
import OverlayScrollbar.Proofs.Single.Finite

/-!
# Scrolling without a fault

The words for lines are large enough as long as the first line is one of the document, and the
document and the view have not too many lines.

- `ScrollTracker.Counted`           : the first line is one of the document, whose lines a word counts
- `ScrollTracker.InRange`           : and the words suffice for the lines in the view too
- `ScrollTracker.linesIn`           : how many lines a view has
- `ScrollTracker.lineAfter`         : the first line after a scroll, limited to the document
- `ScrollTracker.scrollBy_eq`       : scrolling by some lines
- `ScrollTracker.firstToShow`       : the first line after a line was followed
- `ScrollTracker.followLine_eq`     : following a line
- `ScrollTracker.exists_deltaTo`    : the lines to an offset
- `ScrollTracker.flingStep_eq`      : a frame of a fling
-/

namespace OverlayScrollbar

/-- A signed 32-bit number. -/
def IsShort (lines : Int) : Prop :=
  -2 ^ 31 ≤ lines ∧ lines < 2 ^ 31

instance (lines : Int) : Decidable (IsShort lines) :=
  inferInstanceAs (Decidable (_ ∧ _))

namespace Checked

theorem word_of_lt {n : Nat} (h : n < 2 ^ 64) : word n = .ok n :=
  word_eq_ok_iff.2 ⟨h, rfl⟩

theorem signedWord_of_mem {i : Int} (hlower : -2 ^ 63 ≤ i) (hupper : i < 2 ^ 63) :
    signedWord i = .ok i :=
  signedWord_eq_ok_iff.2 ⟨⟨hlower, hupper⟩, rfl⟩

end Checked

theorem isShort_zero : IsShort 0 := by
  decide

namespace Single

theorem isShort_toInt32 (x : Single) : IsShort x.toInt32 := by
  unfold IsShort toInt32 wholeBetween
  cases x with
  | nan => decide
  | infinity negative => cases negative <;> decide
  | finite negative size =>
      dsimp only
      split <;> omega

theorem toInt64_mem_of_zero_le {x : Single} (h : 0 ≤ x) : 0 ≤ x.toInt64 ∧ x.toInt64 < 2 ^ 63 := by
  unfold toInt64 wholeBetween
  cases x with
  | nan => decide
  | infinity negative =>
      cases negative with
      | false => decide
      | true => exact absurd h (by decide)
  | finite negative size =>
      cases negative with
      | false =>
          have hwhole : 0 ≤ ((size.units / unitsPerOne : Nat) : Int) := Int.natCast_nonneg _
          simp only [Bool.false_eq_true, if_false]
          omega
      | true =>
          -- Only the negative zero is left here.
          rcases le_iff.1 h with ⟨zero, rank, hzero, hrank, hle⟩
          cases rank?_zero.symm.trans hzero
          cases hrank
          have hnone : size.units = 0 := by
            simp only [signedUnits, if_true] at hle
            omega
          simp only [hnone, Nat.zero_div]
          decide

/-- What is not a number is not limited, and has no whole part. -/
theorem toInt64_of_clamp {x lo hi y : Single} (hlo : 0 ≤ lo) (h : x.clamp lo hi = .ok y) :
    0 ≤ y.toInt64 ∧ y.toInt64 < 2 ^ 63 := by
  cases hnumber : x.isNaN with
  | false => exact toInt64_mem_of_zero_le (le_trans hlo (clamp_mem hnumber h).1)
  | true =>
      cases x with
      | nan =>
          have hlow : ¬nan < lo := by simp [lt_iff, rank?]
          have hhigh : ¬hi < nan := by simp [lt_iff, rank?]
          rw [clamp, if_neg hlow, if_neg hhigh] at h
          split at h
          · cases h
            decide
          · cases h
      | infinity negative => cases hnumber
      | finite negative size => cases hnumber

end Single

namespace ScrollTracker

variable {t : ScrollTracker} {lines : Int}

/-- The first line is one of the document, whose lines a signed word counts. -/
structure Counted (t : ScrollTracker) : Prop where
  firstLine_le : t.firstLine ≤ t.lastLine
  lineCount_lt : t.lineCount < 2 ^ 62

/-- The first line is one of the document, and the words for lines suffice. -/
structure InRange (t : ScrollTracker) : Prop where
  firstLine_le : t.firstLine ≤ t.lastLine
  lineCount_lt : t.lineCount < 2 ^ 62
  visibleLines_le : t.visibleLines ≤ 2 ^ 63

/-! ## Words -/

theorem signed_of_lt {n : Nat} (h : n < 2 ^ 63) : signed n = n := by
  unfold signed
  rw [Int.bmod_eq_of_le (by omega) (by omega)]

theorem isShort_lowBits (i : Int) : IsShort (lowBits i) :=
  ⟨Int.le_bmod (by decide), Int.bmod_lt (by decide)⟩

theorem lowBits_of_isShort {i : Int} (h : IsShort i) : lowBits i = i := by
  unfold lowBits
  rcases h with ⟨hlower, hupper⟩
  rw [Int.bmod_eq_of_le (by omega) (by omega)]

theorem InRange.counted (h : t.InRange) : t.Counted :=
  ⟨h.firstLine_le, h.lineCount_lt⟩

theorem lastLine_lt (h : t.Counted) : t.lastLine < 2 ^ 62 :=
  Nat.lt_of_le_of_lt (Nat.sub_le _ _) h.lineCount_lt

theorem firstLine_lt (h : t.Counted) : t.firstLine < 2 ^ 62 :=
  Nat.lt_of_le_of_lt h.firstLine_le (lastLine_lt h)

theorem one_le_visibleLines (t : ScrollTracker) : 1 ≤ t.visibleLines := by
  unfold visibleLines
  split
  · exact Nat.le_refl 1
  · exact Nat.le_max_right _ 1

/-! ## Measures -/

theorem visibleLines_congr {other : ScrollTracker} (hheight : other.lineHeight = t.lineHeight)
    (hview : other.viewport = t.viewport) : other.visibleLines = t.visibleLines := by
  unfold visibleLines
  rw [hheight, hview]

/-- How many lines a view of the given height has. -/
def linesIn (lineHeight height : Single) : Nat :=
  ((new 1 lineHeight).setViewport height).visibleLines

/-- A word suffices for the line below the view. -/
theorem InRange.view_lt (h : t.InRange) : t.firstLine + t.visibleLines < 2 ^ 64 := by
  have hfirst := firstLine_lt h.counted
  have hvisible := h.visibleLines_le
  omega

theorem InRange.setViewport (h : t.InRange) {height : Single}
    (hview : linesIn t.lineHeight height ≤ 2 ^ 63) : (t.setViewport height).InRange := by
  refine ⟨h.firstLine_le, h.lineCount_lt, ?_⟩
  calc
    (t.setViewport height).visibleLines = linesIn t.lineHeight height := visibleLines_congr rfl rfl
    _ ≤ 2 ^ 63 := hview

theorem InRange.withFirstLine (h : t.InRange) {line : Nat} (hline : line ≤ t.lastLine) :
    InRange { t with firstLine := line } :=
  ⟨hline, h.lineCount_lt, h.visibleLines_le⟩

theorem InRange.withFling (h : t.InRange) (velocity remainder : Single) :
    InRange { t with velocity := velocity, remainder := remainder } :=
  ⟨h.firstLine_le, h.lineCount_lt, h.visibleLines_le⟩

/-- Counting the lines again limits the first line to them, whatever it was. -/
theorem counted_setLineCount (t : ScrollTracker) {count : Nat} (hcount : count < 2 ^ 62) :
    (t.setLineCount count).Counted :=
  ⟨Nat.min_le_right _ _, Nat.max_lt.2 ⟨hcount, by decide⟩⟩

theorem InRange.setLineCount (h : t.InRange) {count : Nat} (hcount : count < 2 ^ 62) :
    (t.setLineCount count).InRange :=
  ⟨(t.counted_setLineCount hcount).firstLine_le, (t.counted_setLineCount hcount).lineCount_lt,
    h.visibleLines_le⟩

/-! ## Scrolling -/

/-- The first line after a scroll by some lines: their sum, limited to the lines of the document. -/
def lineAfter (t : ScrollTracker) (lines : Int) : Int :=
  min (max (t.firstLine + lines) 0) t.lastLine

theorem lineAfter_mem (t : ScrollTracker) (lines : Int) :
    0 ≤ t.lineAfter lines ∧ t.lineAfter lines ≤ t.lastLine := by
  unfold lineAfter
  omega

/-- A scroll goes no further than it was asked to, and not the other way. -/
theorem lineAfter_between (hfirst : t.firstLine ≤ t.lastLine) (lines : Int) :
    (0 ≤ lines → 0 ≤ t.lineAfter lines - t.firstLine ∧ t.lineAfter lines - t.firstLine ≤ lines) ∧
      (lines ≤ 0 →
        lines ≤ t.lineAfter lines - t.firstLine ∧ t.lineAfter lines - t.firstLine ≤ 0) := by
  unfold lineAfter
  omega

theorem isShort_lineAfter_sub (hfirst : t.firstLine ≤ t.lastLine) (hlines : IsShort lines) :
    IsShort (t.lineAfter lines - t.firstLine) := by
  have hbetween := lineAfter_between hfirst lines
  unfold IsShort at hlines ⊢
  omega

/-- A scroll adds lines to the first one, within the document, and tells exactly by how many it did. -/
theorem scrollBy_eq (h : t.Counted) (hlines : IsShort lines) :
    t.scrollBy lines = .ok ({ t with firstLine := (t.lineAfter lines).toNat },
      t.lineAfter lines - t.firstLine) := by
  have hfirst := firstLine_lt h
  have hlast := lastLine_lt h
  have hshort := isShort_lineAfter_sub h.firstLine_le hlines
  have hlimited : max 0 (min ((t.firstLine : Int) + lines) t.lastLine) = t.lineAfter lines := by
    unfold lineAfter
    omega
  rcases hlines with ⟨hlower, hupper⟩
  rcases lineAfter_mem t lines with ⟨hlow, hhigh⟩
  -- Neither the sum nor the difference leaves a signed word, so that nothing wraps.
  unfold scrollBy
  rw [signed_of_lt (n := t.firstLine) (by omega), signed_of_lt (n := t.lastLine) (by omega),
    Checked.signedWord_of_mem (by omega) (by omega)]
  simp only [bind, Except.bind]
  rw [if_neg (by omega)]
  simp only [pure, Except.pure]
  rw [hlimited, Checked.signedWord_of_mem (by omega) (by omega)]
  dsimp only
  rw [lowBits_of_isShort hshort]

theorem exists_scrollBy (h : t.Counted) (hlines : IsShort lines) :
    ∃ line applied, t.scrollBy lines = .ok ({ t with firstLine := line }, applied) ∧
      line ≤ t.lastLine := by
  have hhigh := (lineAfter_mem t lines).2
  exact ⟨_, _, scrollBy_eq h hlines, by omega⟩

/-! ## Following a line -/

theorem moveTo_eq (h : t.Counted) {line : Nat} (hline : line ≤ t.lastLine) :
    followLine.moveTo t line =
      .ok ({ t with firstLine := line }, lowBits ((line : Int) - t.firstLine)) := by
  have hfirst := firstLine_lt h
  have hlast := lastLine_lt h
  unfold followLine.moveTo
  rw [signed_of_lt (by omega), signed_of_lt (by omega), Checked.signedWord_of_mem (by omega)
    (by omega)]
  rfl

/-- The first line of the view, limited to those from which a line is seen. -/
def firstToShow (t : ScrollTracker) (line : Nat) : Nat :=
  max (min t.firstLine line) (line + 1 - t.visibleLines)

theorem firstToShow_le (t : ScrollTracker) (line : Nat) : t.firstToShow line ≤ line := by
  have hone := one_le_visibleLines t
  unfold firstToShow
  omega

/-- Following a line adds the number of lines in the view to the first one, for which a word must
suffice. -/
theorem followLine_eq (h : t.Counted) (hword : t.firstLine + t.visibleLines < 2 ^ 64) (line : Nat) :
    t.followLine line =
      .ok ({ t with firstLine := t.firstToShow (min line t.lastLine) },
        lowBits ((t.firstToShow (min line t.lastLine) : Int) - t.firstLine)) := by
  have hone := one_le_visibleLines t
  have hline : min line t.lastLine ≤ t.lastLine := Nat.min_le_right _ _
  unfold followLine
  dsimp only
  generalize min line t.lastLine = line at hline ⊢
  split
  · -- A line above the view becomes the first one.
    have hfirst : t.firstToShow line = line := by
      unfold firstToShow
      omega
    rw [hfirst]
    exact moveTo_eq h hline
  · rw [Checked.word_of_lt hword]
    dsimp only [bind, Except.bind]
    split
    · -- A line below the view becomes the last one.
      have hlast : t.firstToShow line = line + 1 - t.visibleLines := by
        unfold firstToShow
        omega
      rw [hlast]
      exact moveTo_eq h (by omega)
    · have hstays : t.firstToShow line = t.firstLine := by
        unfold firstToShow
        omega
      rw [hstays, Int.sub_self]
      rfl

theorem exists_followLine (h : t.Counted) (hword : t.firstLine + t.visibleLines < 2 ^ 64)
    (line : Nat) :
    ∃ first applied, t.followLine line = .ok ({ t with firstLine := first }, applied) ∧
      first ≤ t.lastLine :=
  ⟨_, _, followLine_eq h hword line,
    Nat.le_trans (t.firstToShow_le _) (Nat.min_le_right line t.lastLine)⟩

/-! ## Scrolling to an offset -/

theorem exists_deltaTo (h : t.Counted) (y : Single) :
    ∃ delta, t.deltaTo y = .ok delta ∧ IsShort delta := by
  have hfirst := firstLine_lt h
  have hlast := Single.zero_le_ofNat t.lastLine
  unfold deltaTo
  split
  · exact ⟨0, rfl, isShort_zero⟩
  · rcases Single.exists_clamp_eq_ok (y / t.lineHeight).nearest hlast with ⟨target, htarget⟩
    have hzero : (0 : Single) ≤ 0 := Single.le_refl_iff.2 Single.isNaN_zero
    have hwhole := Single.toInt64_of_clamp hzero htarget
    rw [signed_of_lt (by omega), htarget]
    simp only [bind, Except.bind]
    rw [Checked.signedWord_of_mem (by omega) (by omega)]
    exact ⟨_, rfl, isShort_lowBits _⟩

/-! ## Flings -/

/-- A frame of a fling changes nothing but the fling. -/
theorem flingStep_eq (t : ScrollTracker) : ∃ velocity remainder,
    t.flingStep.1 = { t with velocity := velocity, remainder := remainder } := by
  unfold flingStep
  split
  · dsimp only
    split
    · exact ⟨0, 0, rfl⟩
    · exact ⟨_, _, rfl⟩
  · exact ⟨t.velocity, t.remainder, rfl⟩

theorem isShort_flingStep (t : ScrollTracker) : IsShort t.flingStep.2 := by
  unfold flingStep
  split
  · exact Single.isShort_toInt32 _
  · exact isShort_zero

theorem inRange_flingStep (h : t.InRange) :
    t.flingStep.1.InRange ∧ IsShort t.flingStep.2 ∧
      t.flingStep.1.lineHeight = t.lineHeight ∧ t.flingStep.1.lineCount = t.lineCount := by
  have hshort := t.isShort_flingStep
  rcases t.flingStep_eq with ⟨velocity, remainder, hstep⟩
  rw [hstep]
  exact ⟨h.withFling velocity remainder, hshort, rfl, rfl⟩

end ScrollTracker

end OverlayScrollbar
