import OverlayScrollbar.Proofs.Editor.Scrolling

/-!
# Following the cursor

A view that follows a line is moved as little as brings the line into it. The first line is limited to
those from which the line is seen: the line itself, and as many lines above it as fit into the view.

- `ScrollTracker.SeesFrom` : a line is in the view that begins with another
- `ScrollTracker.seesFrom_firstToShow`, `ScrollTracker.natAbs_firstToShow_le`,
  `ScrollTracker.firstToShow_eq_self` : the line is seen from the first line that is reached, no other
  such line is nearer, and a first line from which it is seen stays the first
- `ScrollTracker.followLine_eq_told` : how far the view is moved is told exactly

Main statement: `ScrollTracker.followLine_scrolls_least`.
-/

namespace OverlayScrollbar

namespace ScrollTracker

variable {t : ScrollTracker} {first line : Nat}

/-- The line is in the view, if the view begins with the first one. -/
def SeesFrom (t : ScrollTracker) (first line : Nat) : Prop :=
  first ≤ line ∧ line < first + t.visibleLines

instance (t : ScrollTracker) (first line : Nat) : Decidable (t.SeesFrom first line) :=
  inferInstanceAs (Decidable (_ ∧ _))

/-! ## The nearest view -/

theorem seesFrom_firstToShow (t : ScrollTracker) (line : Nat) :
    t.SeesFrom (t.firstToShow line) line := by
  have hone := one_le_visibleLines t
  unfold SeesFrom firstToShow
  omega

/-- No view in which the line is seen is nearer. -/
theorem natAbs_firstToShow_le {other : Nat} (h : t.SeesFrom other line) :
    ((t.firstToShow line : Int) - t.firstLine).natAbs ≤ ((other : Int) - t.firstLine).natAbs := by
  rcases h with ⟨habove, hbelow⟩
  unfold firstToShow
  omega

/-- A view in which the line is seen is not moved. -/
theorem firstToShow_eq_self (h : t.SeesFrom t.firstLine line) : t.firstToShow line = t.firstLine := by
  rcases h with ⟨habove, hbelow⟩
  unfold firstToShow
  omega

/-- A word suffices for the view to which it was moved if one did before. -/
theorem firstToShow_add_lt (hline : line < 2 ^ 31) (hword : t.firstLine + t.visibleLines < 2 ^ 64) :
    t.firstToShow line + t.visibleLines < 2 ^ 64 := by
  unfold firstToShow
  omega

/-! ## Following -/

/-- The way to a line that 31 bits number is told exactly. -/
theorem followLine_eq_told (hfirst : t.firstLine < t.lineCount) (hcount : t.lineCount < 2 ^ 31)
    (hword : t.firstLine + t.visibleLines < 2 ^ 64) (line : Nat) :
    t.followLine line =
      .ok ({ t with firstLine := t.firstToShow (min line t.lastLine) },
        (t.firstToShow (min line t.lastLine) : Int) - t.firstLine) := by
  have hlast : t.lastLine = t.lineCount - 1 := rfl
  have hcounted : t.Counted := ⟨by omega, by omega⟩
  have hshown := t.firstToShow_le (min line t.lastLine)
  rw [followLine_eq hcounted hword, lowBits_of_isShort ⟨by omega, by omega⟩]

/-- To follow a line that is seen moves nothing. -/
theorem followLine_eq_self (hfirst : t.firstLine < t.lineCount) (hcount : t.lineCount < 2 ^ 31)
    (hword : t.firstLine + t.visibleLines < 2 ^ 64)
    (hsees : t.SeesFrom t.firstLine (min line t.lastLine)) : t.followLine line = .ok (t, 0) := by
  rw [followLine_eq_told hfirst hcount hword, firstToShow_eq_self hsees, Int.sub_self]

/-- A view that follows a line shows it, as far as there is such a line, and begins with a line of the
document. No other view that shows the line is nearer to where the view was; the lines by which it was
moved are told exactly, and to follow the line once more moves nothing. -/
theorem followLine_scrolls_least (hfirst : t.firstLine < t.lineCount) (hcount : t.lineCount < 2 ^ 31)
    (hword : t.firstLine + t.visibleLines < 2 ^ 64) (line : Nat) :
    ∃ first, t.followLine line = .ok ({ t with firstLine := first }, (first : Int) - t.firstLine) ∧
      first < t.lineCount ∧ t.SeesFrom first (min line t.lastLine) ∧
      (∀ other ≤ t.lastLine, t.SeesFrom other (min line t.lastLine) →
        ((first : Int) - t.firstLine).natAbs ≤ ((other : Int) - t.firstLine).natAbs) ∧
      followLine { t with firstLine := first } line = .ok ({ t with firstLine := first }, 0) := by
  have hsees := seesFrom_firstToShow t (min line t.lastLine)
  have hlast : min line t.lastLine < t.lineCount := by
    unfold lastLine
    omega
  have hshown : t.firstToShow (min line t.lastLine) < t.lineCount :=
    Nat.lt_of_le_of_lt hsees.1 hlast
  refine ⟨_, followLine_eq_told hfirst hcount hword line, hshown, hsees, ?_, ?_⟩
  · intro other _ hother
    exact natAbs_firstToShow_le hother
  · -- The line is in the view to which it was moved.
    have hword' : t.firstToShow (min line t.lastLine) + t.visibleLines < 2 ^ 64 :=
      firstToShow_add_lt (by omega) hword
    generalize t.firstToShow (min line t.lastLine) = first at hsees hshown hword' ⊢
    exact followLine_eq_self (t := { t with firstLine := first }) hshown hcount hword' hsees

/-- A view of ten lines, in the middle of three hundred. -/
def middleTracker : ScrollTracker :=
  { (new 300 20).setViewport 210 with firstLine := 51 }

/-- The theorem speaks of a line that the document does not have, for which the last one is shown. -/
theorem followLine_scrolls_least_beyond :
    middleTracker.firstLine < middleTracker.lineCount ∧ middleTracker.lineCount < 2 ^ 31 ∧
      middleTracker.firstLine + middleTracker.visibleLines < 2 ^ 64 ∧
      ∃ first,
        middleTracker.followLine 1000 =
            .ok ({ middleTracker with firstLine := first }, (first : Int) - 51) ∧
          first = 290 ∧ middleTracker.SeesFrom first 299 ∧
          followLine { middleTracker with firstLine := first } 1000 =
            .ok ({ middleTracker with firstLine := first }, 0) := by
  have hfirst : middleTracker.firstLine < middleTracker.lineCount := by decide +kernel
  have hcount : middleTracker.lineCount < 2 ^ 31 := by decide +kernel
  have hword : middleTracker.firstLine + middleTracker.visibleLines < 2 ^ 64 := by decide +kernel
  rcases followLine_scrolls_least hfirst hcount hword 1000 with
    ⟨first, hfollow, _, hsees, hleast, hagain⟩
  -- The last ten lines are seen from the line 290, and from no line that is nearer to the line 51.
  have hother := hleast 290 (by decide +kernel) (by decide +kernel)
  have hten : middleTracker.visibleLines = 10 := by decide +kernel
  have hlast : min 1000 middleTracker.lastLine = 299 := by decide +kernel
  have hstart : middleTracker.firstLine = 51 := rfl
  rw [hlast] at hsees
  have hshown := hsees.2
  rw [hten] at hshown
  rw [hstart] at hother
  exact ⟨hfirst, hcount, hword, first, hfollow, by omega, hsees, hagain⟩

end ScrollTracker

end OverlayScrollbar
