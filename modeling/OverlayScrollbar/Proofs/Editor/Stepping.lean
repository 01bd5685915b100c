import OverlayScrollbar.Proofs.Editor.Scrolling
import OverlayScrollbar.Proofs.Run

/-!
# Scrolling by a number of lines

To scroll by some lines is to add them to the first line, and to limit the sum to the lines of the
document; the lines that were scrolled by are told exactly. This rests on the first line being one of
the document, which every operation of a tracker keeps so.

- `ScrollTracker.sign_lineAfter_sub` : the direction of a scroll
- `ScrollTracker.exists_scrollBy_add` : two scrolls in one direction are one
- `ScrollTracker.Operation`, `ScrollTracker.operate` : what can be done to a tracker
- `ScrollTracker.operate_eq_ok` : how an operation changes a tracker
- `ScrollTracker.firstLine_lt_of_operate`, `ScrollTracker.bounded_of_run` : what operations keep

Main statement: `ScrollTracker.run_scrollBy_clamps`.
-/

namespace OverlayScrollbar

namespace ScrollTracker

variable {t after : ScrollTracker} {lines told : Int}

/-! ## Scrolling -/

/-- The lines that were scrolled by have the sign of those that were asked for, if there are any. -/
theorem sign_lineAfter_sub (hfirst : t.firstLine ≤ t.lastLine) (lines : Int) :
    t.lineAfter lines - t.firstLine = 0 ∨
      (t.lineAfter lines - t.firstLine).sign = lines.sign := by
  have hbetween := lineAfter_between hfirst lines
  by_cases hnone : t.lineAfter lines - t.firstLine = 0
  · exact Or.inl hnone
  · refine Or.inr ?_
    rcases Int.lt_trichotomy lines 0 with hless | rfl | hmore
    · rw [Int.sign_eq_neg_one_of_neg hless]
      exact Int.sign_eq_neg_one_of_neg (by omega)
    · exact absurd (by omega) hnone
    · rw [Int.sign_eq_one_of_pos hmore]
      exact Int.sign_eq_one_of_pos (by omega)

theorem Counted.scrolled (h : t.Counted) (lines : Int) :
    Counted { t with firstLine := (t.lineAfter lines).toNat } := by
  refine ⟨?_, h.lineCount_lt⟩
  show (t.lineAfter lines).toNat ≤ t.lastLine
  have hhigh := (lineAfter_mem t lines).2
  omega

/-- Two scrolls in one direction lead where one by all their lines leads, be it to an end of the
document or not. -/
theorem exists_scrollBy_add {a b : Int} (h : t.Counted) (ha : IsShort a) (hb : IsShort b)
    (hsum : IsShort (a + b)) (hsign : (0 ≤ a ∧ 0 ≤ b) ∨ (a ≤ 0 ∧ b ≤ 0)) :
    ∃ mid last first second, t.scrollBy a = .ok (mid, first) ∧ mid.scrollBy b = .ok (last, second) ∧
      t.scrollBy (a + b) = .ok (last, first + second) := by
  have hfirst := h.firstLine_le
  -- Once an end is reached, a further scroll in the same direction stays there.
  have hreached : ({ t with firstLine := (t.lineAfter a).toNat } : ScrollTracker).lineAfter b =
      t.lineAfter (a + b) := by
    unfold lineAfter lastLine at *
    dsimp only
    omega
  have htold : t.lineAfter (a + b) - t.firstLine =
      t.lineAfter a - t.firstLine + (t.lineAfter (a + b) - (t.lineAfter a).toNat) := by
    have hlow := (lineAfter_mem t a).1
    omega
  refine ⟨_, _, _, _, scrollBy_eq h ha, scrollBy_eq (h.scrolled a) hb, ?_⟩
  rw [hreached, scrollBy_eq h hsum, htold]

/-! ## Operations -/

/-- What can be done to a tracker. -/
inductive Operation
  | setViewport (height : Single)
  | setLineCount (count : Nat)
  | scrollBy (lines : Int)
  | followLine (line : Nat)
  | startFling (lines : Int)
  | abortFling
  | flingStep
  deriving DecidableEq, Repr

/-- Carries out an operation, which may tell a number of lines. -/
def operate (t : ScrollTracker) : Operation → Checked (ScrollTracker × Int)
  | .setViewport height => .ok (t.setViewport height, 0)
  | .setLineCount count => .ok (t.setLineCount count, 0)
  | .scrollBy lines => t.scrollBy lines
  | .followLine line => t.followLine line
  | .startFling lines => .ok (t.startFling lines, 0)
  | .abortFling => .ok (t.abortFling, 0)
  | .flingStep => .ok t.flingStep

/-- The lines of the document are fewer than `2 ^ 62`. -/
def Operation.Fits : Operation → Prop
  | .setLineCount count => count < 2 ^ 62
  | _ => True

instance (operation : Operation) : Decidable operation.Fits := by
  cases operation <;> unfold Operation.Fits <;> infer_instance

/-- An operation counts the lines again, or makes a line the first one; it is a line of the document if
the first one was. -/
theorem operate_eq_ok {operation : Operation} (h : t.operate operation = .ok (after, told)) :
    (∃ count, operation = .setLineCount count ∧ after = t.setLineCount count) ∨
      ∃ first viewport velocity remainder, (t.firstLine ≤ t.lastLine → first ≤ t.lastLine) ∧
        after = { t with
          firstLine := first
          viewport := viewport
          velocity := velocity
          remainder := remainder } := by
  cases operation with
  | setViewport height =>
      rw [← (Prod.mk.inj (Except.ok.inj h)).1, setViewport]
      exact Or.inr ⟨_, _, _, _, id, rfl⟩
  | setLineCount count => exact Or.inl ⟨count, rfl, (Prod.mk.inj (Except.ok.inj h)).1.symm⟩
  | scrollBy lines =>
      rcases scrollBy_eq_ok h with ⟨line, rfl, hline, _⟩
      exact Or.inr ⟨_, _, _, _, fun _ => hline, rfl⟩
  -- The line that is followed to is limited to the last one in any case.
  | followLine line =>
      rcases followLine_eq_ok h with ⟨first, rfl, hshown, _⟩
      exact Or.inr ⟨_, _, _, _, fun _ => Nat.le_trans hshown (Nat.min_le_right _ _), rfl⟩
  | startFling lines =>
      rw [← (Prod.mk.inj (Except.ok.inj h)).1, startFling]
      exact Or.inr ⟨_, _, _, _, id, rfl⟩
  | abortFling =>
      rw [← (Prod.mk.inj (Except.ok.inj h)).1, abortFling]
      exact Or.inr ⟨_, _, _, _, id, rfl⟩
  | flingStep =>
      have hstepped : t.flingStep = (after, told) := Except.ok.inj h
      rcases t.flingStep_eq with ⟨velocity, remainder, hstep⟩
      rw [hstepped] at hstep
      exact Or.inr ⟨_, _, _, _, id, hstep⟩

/-- Each operation leaves the first line a line of the document, or brings it back to one. -/
theorem firstLine_lt_of_operate {operation : Operation} (hfirst : t.firstLine < t.lineCount)
    (h : t.operate operation = .ok (after, told)) : after.firstLine < after.lineCount := by
  rcases operate_eq_ok h with ⟨count, _, rfl⟩ | ⟨first, _, _, _, hkept, rfl⟩
  · have hone : 1 ≤ max count 1 := Nat.le_max_right _ _
    show min t.firstLine (max count 1 - 1) < max count 1
    omega
  · show first < t.lineCount
    unfold lastLine at hkept
    omega

theorem lineCount_lt_of_operate {operation : Operation} (hcount : t.lineCount < 2 ^ 62)
    (hfits : operation.Fits) (h : t.operate operation = .ok (after, told)) :
    after.lineCount < 2 ^ 62 := by
  rcases operate_eq_ok h with ⟨count, rfl, rfl⟩ | ⟨_, _, _, _, _, rfl⟩
  · exact Nat.max_lt.2 ⟨hfits, by decide⟩
  · exact hcount

/-- A tracker for fewer than `2 ^ 62` lines, to which such things are done, is at a line of its
document. -/
theorem bounded_of_run {count : Nat} {lineHeight : Single} {operations : List Operation}
    {steps : List (Step ScrollTracker Operation Int)} (hcount : count < 2 ^ 62)
    (hfits : ∀ operation ∈ operations, operation.Fits)
    (h : Machine.run operate (new count lineHeight) operations = .ok (t, steps)) :
    t.firstLine < t.lineCount ∧ t.lineCount < 2 ^ 62 := by
  -- Both bounds are kept by each operation, as long as it fits.
  refine Machine.run_invariant (fun tracker _ =>
    tracker.firstLine < tracker.lineCount ∧ tracker.lineCount < 2 ^ 62) ?_ ?_ hfits h
  · exact ⟨Nat.lt_of_lt_of_le Nat.one_pos (Nat.le_max_right count 1),
      Nat.max_lt.2 ⟨hcount, by decide⟩⟩
  · intro before _ operation told after hbefore hallowed hoperate
    exact ⟨firstLine_lt_of_operate hbefore.1 hoperate,
      lineCount_lt_of_operate hbefore.2 hallowed hoperate⟩

/-- Whatever was done to a tracker of fewer than `2 ^ 62` lines, to scroll by some lines adds them to the
first one and limits the sum to the document, and tells exactly by how many lines it did; these have
the sign of the lines that were asked for and are no more. Two scrolls in one direction are one by all
their lines. No operation takes the first line out of the document. -/
theorem run_scrollBy_clamps {count : Nat} {lineHeight : Single} {operations : List Operation}
    {steps : List (Step ScrollTracker Operation Int)} (hcount : count < 2 ^ 62)
    (hfits : ∀ operation ∈ operations, operation.Fits)
    (h : Machine.run operate (new count lineHeight) operations = .ok (t, steps)) :
    t.firstLine < t.lineCount ∧
      (∀ lines, IsShort lines → ∃ line : Nat,
        t.scrollBy lines = .ok ({ t with firstLine := line }, (line : Int) - t.firstLine) ∧
          (line : Int) = min (max (t.firstLine + lines) 0) (t.lineCount - 1) ∧
          ((line : Int) - t.firstLine = 0 ∨ ((line : Int) - t.firstLine).sign = lines.sign) ∧
          ((line : Int) - t.firstLine).natAbs ≤ lines.natAbs) ∧
      (∀ a b, IsShort a → IsShort b → IsShort (a + b) → ((0 ≤ a ∧ 0 ≤ b) ∨ (a ≤ 0 ∧ b ≤ 0)) →
        ∃ mid last first second, t.scrollBy a = .ok (mid, first) ∧
          mid.scrollBy b = .ok (last, second) ∧
          t.scrollBy (a + b) = .ok (last, first + second)) ∧
      ∀ (before after : ScrollTracker) (operation : Operation) (told : Int),
        before.firstLine < before.lineCount → before.operate operation = .ok (after, told) →
          after.firstLine < after.lineCount := by
  rcases bounded_of_run hcount hfits h with ⟨hfirst, hlines⟩
  have hlast : (t.lastLine : Int) = t.lineCount - 1 := by
    unfold lastLine
    omega
  have hcounted : t.Counted := ⟨by omega, hlines⟩
  refine ⟨hfirst, ?_, ?_, ?_⟩
  · intro lines hshort
    have hreached : ((t.lineAfter lines).toNat : Int) = t.lineAfter lines :=
      Int.toNat_of_nonneg (lineAfter_mem t lines).1
    refine ⟨(t.lineAfter lines).toNat, ?_, ?_, ?_, ?_⟩
    · rw [hreached]
      exact scrollBy_eq hcounted hshort
    · rw [hreached, ← hlast]
      rfl
    · rw [hreached]
      exact sign_lineAfter_sub hcounted.firstLine_le lines
    · have hbetween := lineAfter_between hcounted.firstLine_le lines
      omega
  · intro a b ha hb hsum hsign
    exact exists_scrollBy_add hcounted ha hb hsum hsign
  · intro before after operation told hbefore hoperate
    exact firstLine_lt_of_operate hbefore hoperate

/-- A document becomes shorter than what was scrolled by, and a fling goes on. -/
def shorteningOperations : List Operation :=
  [.setViewport 100, .scrollBy 2147483647, .startFling (-8), .setLineCount 6, .flingStep,
    .followLine 2, .scrollBy (-1)]

/-- The theorem speaks of a tracker that was beyond the end of its document. -/
theorem run_scrollBy_clamps_shortened :
    1000 < 2 ^ 62 ∧ (∀ operation ∈ shorteningOperations, operation.Fits) ∧
      ∃ t steps, Machine.run operate (new 1000 20) shorteningOperations = .ok (t, steps) ∧
        steps.map (fun step => (step.after.firstLine, step.output)) =
          [(0, 0), (999, 999), (999, 0), (5, 0), (5, -4), (2, -3), (1, -1)] ∧
        t.scrollBy 2147483647 = .ok ({ t with firstLine := 5 }, 4) := by
  have hfits : ∀ operation ∈ shorteningOperations, operation.Fits := by
    decide
  have hmap : (Machine.run operate (new 1000 20) shorteningOperations).map (fun reached =>
      (reached.1.firstLine, reached.1.lineCount,
        reached.2.map fun step => (step.after.firstLine, step.output))) =
      .ok (1, 6, [(0, 0), (999, 999), (999, 0), (5, 0), (5, -4), (2, -3), (1, -1)]) := by
    decide +kernel
  rcases Checked.map_eq_ok_iff.1 hmap with ⟨⟨t, steps⟩, hrun, hreached⟩
  have hfirst : t.firstLine = 1 := congrArg Prod.fst hreached
  have hcount : t.lineCount = 6 := congrArg (fun r => r.2.1) hreached
  have hsteps := congrArg (fun r => r.2.2) hreached
  rcases (run_scrollBy_clamps (by decide) hfits hrun).2.1 2147483647 (by decide) with
    ⟨line, hscrolled, hline, _⟩
  rw [hfirst, hcount] at hline
  obtain rfl : line = 5 := by omega
  rw [hfirst] at hscrolled
  exact ⟨by decide, hfits, t, steps, hrun, hsteps, hscrolled⟩

end ScrollTracker

end OverlayScrollbar
