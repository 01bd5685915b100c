import Mathlib.Algebra.BigOperators.Group.Finset.Basic
import OverlayScrollbar.Proofs.Editor.Tracker
import OverlayScrollbar.Proofs.Single.Multiples
import OverlayScrollbar.Proofs.Single.Parts

/-!
# A fling dies down

A fling goes on in the direction of the scroll that it was started by, and each frame leaves it slower by
a factor. What it has still to give is bounded by what is left of a line and seven times its velocity, out
of which the lines of every frame are paid.

- `ScrollTracker.afterFrames`, `ScrollTracker.linesInFrame` : the frames of a fling
- `ScrollTracker.Flings`         : a fling in one direction, with its velocity and what is left of a line
- `ScrollTracker.exists_slower`  : what a frame keeps of the velocity
- `ScrollTracker.Flings.frame`   : what one frame does
- `ScrollTracker.Flings.afterFrames` : what frames do one after another
- `ScrollTracker.flings_start`   : the start of a fling

Main statement: `ScrollTracker.fling_dies_down`.
-/

namespace OverlayScrollbar

namespace ScrollTracker

open Single (unitsPerOne)

variable {t : ScrollTracker} {negative : Bool} {speed rest frames : Nat}

/-! ## Frames -/

/-- The tracker after some frames of its fling. -/
def afterFrames (t : ScrollTracker) (frames : Nat) : ScrollTracker :=
  (fun tracker => tracker.flingStep.1)^[frames] t

/-- The lines that a fling scrolls by in the frame that follows so many others. -/
def linesInFrame (t : ScrollTracker) (frames : Nat) : Int :=
  (t.afterFrames frames).flingStep.2

theorem afterFrames_succ (t : ScrollTracker) (frames : Nat) :
    t.afterFrames (frames + 1) = (t.afterFrames frames).flingStep.1 :=
  Function.iterate_succ_apply' _ frames t

theorem flingStep_of_rest (h : t.isFlinging = false) : t.flingStep = (t, 0) := by
  unfold flingStep
  rw [h]
  rfl

theorem isFlinging_abortFling (t : ScrollTracker) : t.abortFling.isFlinging = false := by
  show (!(0 : Single).sameSize 0) = false
  decide +kernel

/-! ## The constants -/

/-- The least velocity of a fling, in units. -/
def stopUnits : Nat :=
  13421773 * 2 ^ 121

/-- The part of a velocity that is kept, in units. -/
def decayUnits : Nat :=
  14260634 * 2 ^ 125

/-- The part of a scroll that goes on in a frame, in units. -/
def boostUnits : Nat :=
  2 ^ 148

theorem flingStop_eq : flingStop = .finite false ⟨stopUnits, by decide +kernel⟩ := by
  decide +kernel

theorem flingDecay_eq : flingDecay = .finite false ⟨decayUnits, by decide +kernel⟩ := by
  decide +kernel

theorem flingBoost_eq : flingBoost = .finite false ⟨boostUnits, by decide +kernel⟩ := by
  decide +kernel

/-! ## One frame -/

/-- A fling is over, or goes on in one direction with a velocity that is not too small; then less than a
line is left over from the frames before. Velocity and rest are in units. -/
inductive Flings (negative : Bool) (t : ScrollTracker) : Nat → Nat → Prop
  | ended (h : t.isFlinging = false) : Flings negative t 0 0
  | going {sign : Bool} {speed rest : Magnitude} (velocity_eq : t.velocity = .finite negative speed)
      (remainder_eq : t.remainder = .finite sign rest) (sign_eq : sign = negative ∨ rest.units = 0)
      (stop_le : stopUnits ≤ speed.units) (speed_le : speed.units ≤ 2 ^ 30 * unitsPerOne)
      (rest_lt : rest.units < unitsPerOne) : Flings negative t speed.units rest.units

/-- A frame keeps little more than 0.85 of the velocity. -/
theorem exists_slower (negative : Bool) {speed : Magnitude} (hstop : stopUnits ≤ speed.units)
    (hspeed : speed.units ≤ 2 ^ 30 * unitsPerOne) :
    ∃ slower : Magnitude, .finite negative speed * flingDecay = .finite negative slower ∧
      1000 * slower.units ≤ 851 * speed.units := by
  have hdecay : decayUnits ≤ unitsPerOne := by decide +kernel
  have hhigh : speed.units * decayUnits ≤ unitsPerOne * (2 ^ 30 * unitsPerOne) := by
    rw [Nat.mul_comm unitsPerOne]
    exact Nat.mul_le_mul hspeed hdecay
  -- Both numbers are multiples of the last place of the factor.
  obtain ⟨place, hplace⟩ : ∃ place, place = 2 ^ 125 := ⟨_, rfl⟩
  have hpositive : 0 < place := hplace ▸ Nat.two_pow_pos 125
  have hone : unitsPerOne = place * 2 ^ 24 := by
    rw [hplace]
    decide +kernel
  have hkept : speed.units * decayUnits = place * (14260634 * speed.units) := by
    unfold decayUnits
    rw [← hplace, Nat.mul_comm speed.units, Nat.mul_right_comm, Nat.mul_comm _ place]
  have hfast : 2 ^ 24 ≤ speed.units := Nat.le_trans (by decide +kernel) hstop
  have hlow : unitsPerOne * 2 ^ 23 ≤ speed.units * decayUnits := by
    rw [hone, hkept, Nat.mul_assoc]
    exact Nat.mul_le_mul_left place (by omega)
  rcases Single.exists_mul_near negative ⟨decayUnits, by decide +kernel⟩
    (show Single.Fits (2 ^ 30 * unitsPerOne) by decide +kernel) hhigh hlow with
    ⟨slower, hslower, hnear, _⟩
  rw [hone, Nat.mul_assoc] at hnear
  simp only [hkept] at hnear
  rcases hnear.cancel hpositive with ⟨hmost, _⟩
  exact ⟨slower, flingDecay_eq ▸ hslower, by omega⟩

/-- A frame moves by what is left of a line and the velocity, but for a rounding. -/
theorem exists_distance {sign : Bool} {speed rest : Magnitude}
    (hsign : sign = negative ∨ rest.units = 0) (hstop : stopUnits ≤ speed.units)
    (hspeed : speed.units ≤ 2 ^ 30 * unitsPerOne) (hrest : rest.units < unitsPerOne) :
    ∃ distance : Magnitude,
      Single.finite sign rest + .finite negative speed = .finite negative distance ∧
        2 ^ 24 * distance.units ≤ (2 ^ 24 + 1) * (rest.units + speed.units) := by
  have hpositive : 0 < stopUnits := by decide +kernel
  have hsum := Single.add_eq_round hsign (show 0 < speed.units by omega)
  have hhigh : rest.units + speed.units ≤ 1 * (2 ^ 31 * unitsPerOne) := by omega
  rcases Single.exists_round_eq negative (show Single.Fits (2 ^ 31 * unitsPerOne) by decide +kernel)
    hhigh with ⟨distance, hround, hunits, _⟩
  have hnear := near_roundBits_mul (p := 24) (by decide) Nat.one_pos (rest.units + speed.units)
  rw [Nat.one_mul, ← hunits] at hnear
  rcases hnear with ⟨hmost, _⟩
  exact ⟨distance, hsum.trans hround, by omega⟩

/-- A frame pays for the lines that it scrolls by out of what the fling has still to give. -/
theorem paid_of_near {distance speed slower rest : Nat} (hstop : stopUnits ≤ speed)
    (hrest : rest < unitsPerOne) (hdistance : 2 ^ 24 * distance ≤ (2 ^ 24 + 1) * (rest + speed))
    (hslower : 1000 * slower ≤ 851 * speed) : distance + 7 * slower ≤ rest + 7 * speed := by
  -- A line is less than 21 times the least velocity.
  have hline : unitsPerOne ≤ 21 * stopUnits := by decide +kernel
  omega

theorem isFlinging_of_velocity {speed : Magnitude} (hvelocity : t.velocity = .finite negative speed)
    (hpositive : 0 < speed.units) : t.isFlinging = true := by
  unfold isFlinging
  rw [hvelocity, Bool.not_eq_true', Bool.eq_false_iff]
  intro hsame
  have hzero : some (Single.signedUnits negative speed) = some 0 :=
    (Single.rank?_of_sameSize hsame).trans Single.rank?_zero
  have hnone := Option.some.inj hzero
  unfold Single.signedUnits at hnone
  split at hnone <;> omega

theorem abs_lt_flingStop_iff {slower : Magnitude} :
    (Single.finite negative slower).abs < flingStop ↔ slower.units < stopUnits := by
  rw [flingStop_eq, Single.lt_iff]
  constructor
  · rintro ⟨_, _, hx, hy, hlt⟩
    cases hx
    cases hy
    exact Int.ofNat_lt.1 hlt
  · intro hless
    exact ⟨_, _, rfl, rfl, Int.ofNat_lt.2 hless⟩

/-- What one frame does: the fling goes on in its direction or is over, the velocity is less by a factor,
and the lines are paid for. -/
theorem Flings.frame (h : Flings negative t speed rest) :
    ∃ slower left lines, Flings negative t.flingStep.1 slower left ∧ 1000 * slower ≤ 851 * speed ∧
      lines * unitsPerOne + (left + 7 * slower) ≤ rest + 7 * speed ∧ t.flingStep.2.natAbs ≤ lines ∧
      (t.flingStep.2 = 0 ∨ t.flingStep.2.sign = if negative then -1 else 1) := by
  cases h with
  | ended h =>
      rw [flingStep_of_rest h]
      exact ⟨0, 0, 0, .ended h, Nat.le_refl _, Nat.le_refl _, Nat.le_refl _, Or.inl rfl⟩
  | @going sign speed rest hvelocity hremainder hsign hstop hspeed hrest =>
      rcases exists_distance hsign hstop hspeed hrest with ⟨distance, hdistance, hmost⟩
      rcases exists_slower negative hstop hspeed with ⟨slower, hslower, hless⟩
      rcases Single.exists_sub_trunc negative distance with ⟨sign', left, hleft, hsign', hunits⟩
      have hpositive : 0 < stopUnits := by decide +kernel
      -- The distance is paid for; its whole lines are told, and the rest of it is left.
      have hpaid := paid_of_near hstop hrest hmost hless
      have hsplit := Nat.div_add_mod' distance.units unitsPerOne
      have hstep : t.flingStep =
          (if slower.units < stopUnits then
              abortFling { t with velocity := .finite negative slower, remainder := .finite sign' left }
            else { t with velocity := .finite negative slower, remainder := .finite sign' left },
            (Single.finite negative distance).trunc.toInt32) := by
        unfold flingStep
        rw [if_pos (isFlinging_of_velocity hvelocity (by omega)), hremainder, hvelocity, hdistance,
          hslower]
        dsimp only
        rw [hleft]
        simp only [abs_lt_flingStop_iff]
      rw [hstep, Single.trunc_finite]
      rcases Single.toInt32_finite negative
        ⟨distance.units / unitsPerOne * unitsPerOne, (Single.fits_cut distance.fits).1⟩ with
        ⟨htold, hdirection⟩
      rw [Nat.mul_div_cancel _ Single.unitsPerOne_pos] at htold
      by_cases hends : slower.units < stopUnits
      · rw [if_pos hends]
        exact ⟨0, 0, _, .ended (isFlinging_abortFling _), by omega, by omega, htold, hdirection⟩
      · rw [if_neg hends]
        have hrest' : left.units < unitsPerOne := by
          rw [hunits]
          exact Nat.mod_lt _ Single.unitsPerOne_pos
        exact ⟨slower.units, left.units, _,
          .going rfl rfl hsign' (by omega) (by omega) hrest', hless, by omega, htold, hdirection⟩

/-! ## Frames one after another -/

theorem afterFrames_of_rest (h : t.isFlinging = false) (frames : Nat) : t.afterFrames frames = t := by
  induction frames with
  | zero => rfl
  | succ frames ih => rw [afterFrames_succ, ih, flingStep_of_rest h]

/-- A fling that is over stays so, and scrolls by no line. -/
theorem afterFrames_of_ended {later : Nat} (h : (t.afterFrames frames).isFlinging = false)
    (hlater : frames ≤ later) :
    t.afterFrames later = t.afterFrames frames ∧ t.linesInFrame later = 0 := by
  have hsame : t.afterFrames later = t.afterFrames frames := by
    have hparts : t.afterFrames (later - frames + frames) =
        (t.afterFrames frames).afterFrames (later - frames) := Function.iterate_add_apply _ _ _ t
    rw [Nat.sub_add_cancel hlater] at hparts
    rw [hparts, afterFrames_of_rest h]
  refine ⟨hsame, ?_⟩
  unfold linesInFrame
  rw [hsame, flingStep_of_rest h]

/-- What some frames do: the velocity is less by a factor for each of them, and all their lines are paid
for. -/
theorem Flings.afterFrames (h : Flings negative t speed rest) (frames : Nat) :
    ∃ slower left, Flings negative (t.afterFrames frames) slower left ∧
      1000 ^ frames * slower ≤ 851 ^ frames * speed ∧
      (∑ frame ∈ Finset.range frames, (t.linesInFrame frame).natAbs) * unitsPerOne +
        (left + 7 * slower) ≤ rest + 7 * speed := by
  -- By induction on the frames: each of them pays out of what the ones before have left.
  induction frames with
  | zero => exact ⟨speed, rest, h, Nat.le_refl _, by simp⟩
  | succ frames ih =>
      rcases ih with ⟨speed', rest', hflings, hfactor, hpaid⟩
      rcases hflings.frame with ⟨slower, left, lines, hnext, hless, hcost, htold, _⟩
      rw [afterFrames_succ]
      refine ⟨slower, left, hnext, ?_, ?_⟩
      · calc
          1000 ^ (frames + 1) * slower = 1000 ^ frames * (1000 * slower) := by
            rw [Nat.pow_succ, Nat.mul_assoc]
          _ ≤ 1000 ^ frames * (851 * speed') := Nat.mul_le_mul_left _ hless
          _ = 851 * (1000 ^ frames * speed') := Nat.mul_left_comm _ _ _
          _ ≤ 851 * (851 ^ frames * speed) := Nat.mul_le_mul_left _ hfactor
          _ = 851 ^ (frames + 1) * speed := by
            rw [Nat.pow_succ, Nat.mul_right_comm, Nat.mul_comm]
      · have hscrolled : (t.linesInFrame frames).natAbs * unitsPerOne ≤ lines * unitsPerOne :=
          Nat.mul_le_mul_right _ htold
        rw [Finset.sum_range_succ, Nat.add_mul]
        omega

/-- After 150 frames a fling is over, however fast it was. -/
theorem Flings.isFlinging_eq_false (h : Flings negative t speed rest)
    (hspeed : speed ≤ 2 ^ 30 * unitsPerOne) : (t.afterFrames 150).isFlinging = false := by
  rcases h.afterFrames 150 with ⟨slower, left, hflings, hfactor, _⟩
  cases hflings with
  | ended h => exact h
  | going _ _ _ hstop _ _ =>
      -- A velocity that is not too small would be above what so many frames leave of any.
      have hlow := Nat.mul_le_mul_left (1000 ^ 150) hstop
      have hhigh := Nat.mul_le_mul_left (851 ^ 150) hspeed
      have hgone : 851 ^ 150 * (2 ^ 30 * unitsPerOne) < 1000 ^ 150 * stopUnits := by decide +kernel
      omega

/-! ## The start -/

/-- A scroll goes on with half of it in a frame, but for a rounding. -/
theorem exists_boosted (negative : Bool) {scrolled : Magnitude} (hline : 2 * 2 ^ 23 ≤ scrolled.units)
    (hmost : scrolled.units ≤ 2 ^ 31 * unitsPerOne) :
    ∃ speed : Magnitude, .finite negative scrolled * flingBoost = .finite negative speed ∧
      Near 1 24 (2 * speed.units) scrolled.units ∧ speed.units ≤ 2 ^ 30 * unitsPerOne := by
  have hone : unitsPerOne = boostUnits * 2 := by decide +kernel
  have hhigh : scrolled.units * boostUnits ≤ unitsPerOne * (2 ^ 30 * unitsPerOne) := by
    rw [hone, Nat.mul_comm scrolled.units, Nat.mul_assoc, ← hone]
    exact Nat.mul_le_mul_left boostUnits (by omega)
  have hlow : unitsPerOne * 2 ^ 23 ≤ scrolled.units * boostUnits := by
    rw [hone, Nat.mul_comm scrolled.units, Nat.mul_assoc]
    exact Nat.mul_le_mul_left boostUnits hline
  rcases Single.exists_mul_near negative ⟨boostUnits, by decide +kernel⟩
    (show Single.Fits (2 ^ 30 * unitsPerOne) by decide +kernel) hhigh hlow with
    ⟨speed, hspeed, hnear, hbound⟩
  rw [hone, Nat.mul_assoc] at hnear
  simp only [Nat.mul_comm scrolled.units] at hnear
  exact ⟨speed, flingBoost_eq ▸ hspeed, hnear.cancel (by decide +kernel), hbound⟩

/-- A fling starts with half the lines of the scroll, but for two roundings. -/
theorem flings_start (t : ScrollTracker) {lines : Int} (h : IsShort lines) :
    ∃ speed, Flings (decide (lines < 0)) (t.startFling lines) speed 0 ∧
      speed ≤ 2 ^ 30 * unitsPerOne ∧ 7 * speed ≤ 4 * lines.natAbs * unitsPerOne := by
  by_cases hnone : lines = 0
  · subst hnone
    have hstill : (t.startFling 0).isFlinging = false := by
      show (!(Single.ofInt 0 * flingBoost).sameSize 0) = false
      decide +kernel
    exact ⟨0, .ended hstill, Nat.zero_le _, Nat.zero_le _⟩
  · have hcount : lines.natAbs ≤ 2 ^ 31 := by
      unfold IsShort at h
      omega
    have hhigh : lines.natAbs * unitsPerOne ≤ 1 * (2 ^ 31 * unitsPerOne) := by
      rw [Nat.one_mul]
      exact Nat.mul_le_mul_right _ hcount
    rcases Single.exists_round_eq (decide (lines < 0))
      (show Single.Fits (2 ^ 31 * unitsPerOne) by decide +kernel) hhigh with
      ⟨scrolled, hround, hunits, hmost⟩
    -- The number of lines is rounded once, and the half of it once more.
    have hnear := near_roundBits_mul (p := 24) (by decide) Nat.one_pos (lines.natAbs * unitsPerOne)
    rw [Nat.one_mul, ← hunits] at hnear
    rcases hnear with ⟨hnear, hnear'⟩
    have hline : unitsPerOne ≤ lines.natAbs * unitsPerOne :=
      Nat.le_mul_of_pos_left _ (Int.natAbs_pos.2 hnone)
    have hfast : 2 ^ 25 ≤ unitsPerOne := by decide +kernel
    rcases exists_boosted (decide (lines < 0)) (by omega) hmost with
      ⟨speed, hspeed, ⟨hhalf, hhalf'⟩, hbound⟩
    have hstop : 4 * stopUnits ≤ unitsPerOne := by decide +kernel
    have hgoes : stopUnits ≤ speed.units := by omega
    have hgiven : 7 * speed.units ≤ 4 * (lines.natAbs * unitsPerOne) := by omega
    have hremainder : (t.startFling lines).remainder = .finite false ⟨0, Single.fits_zero⟩ := by
      show (0 : Single) = _
      decide +kernel
    have hflings : Flings (decide (lines < 0)) (t.startFling lines) speed.units 0 :=
      .going (hspeed ▸ hround ▸ rfl) hremainder (Or.inr rfl) hgoes hbound Single.unitsPerOne_pos
    rw [Nat.mul_assoc]
    exact ⟨speed.units, hflings, hbound, hgiven⟩

/-- Every fling stops after at most 150 frames, whatever the scroll that started it, and once it is over it
changes nothing and scrolls by no line. It never turns back, and all its frames together scroll by at most
four times the lines of the scroll. -/
theorem fling_dies_down (t : ScrollTracker) {lines : Int} (h : IsShort lines) :
    (∃ frames ≤ 150, ((t.startFling lines).afterFrames frames).isFlinging = false) ∧
      (∀ frames later, ((t.startFling lines).afterFrames frames).isFlinging = false →
        frames ≤ later →
          (t.startFling lines).afterFrames later = (t.startFling lines).afterFrames frames ∧
            (t.startFling lines).linesInFrame later = 0) ∧
      (∀ frame, (t.startFling lines).linesInFrame frame = 0 ∨
        ((t.startFling lines).linesInFrame frame).sign = lines.sign) ∧
      ∀ frames, ∑ frame ∈ Finset.range frames, ((t.startFling lines).linesInFrame frame).natAbs ≤
        4 * lines.natAbs := by
  rcases flings_start t h with ⟨speed, hflings, hspeed, hgiven⟩
  refine ⟨⟨150, Nat.le_refl _, hflings.isFlinging_eq_false hspeed⟩, ?_, ?_, ?_⟩
  · intro frames later hover hlater
    exact afterFrames_of_ended hover hlater
  · intro frame
    rcases hflings.afterFrames frame with ⟨slower, left, hreached, _, hpaid⟩
    rcases hreached.frame with ⟨_, _, told, _, _, hcost, htold, hdirection⟩
    rcases Int.lt_trichotomy lines 0 with hup | rfl | hdown
    · rw [Int.sign_eq_neg_one_of_neg hup]
      rwa [if_pos (decide_eq_true hup)] at hdirection
    · -- A scroll by no line gives nothing to pay with.
      left
      have hnothing : told * unitsPerOne = 0 := by
        rw [Int.natAbs_zero, Nat.mul_zero, Nat.zero_mul] at hgiven
        omega
      have hnone := (Nat.mul_eq_zero.1 hnothing).resolve_right (Nat.ne_of_gt Single.unitsPerOne_pos)
      exact Int.natAbs_eq_zero.1 (Nat.le_zero.1 (hnone ▸ htold))
    · rw [Int.sign_eq_one_of_pos hdown]
      rwa [if_neg (by simp only [decide_eq_true_eq]; omega)] at hdirection
  · intro frames
    rcases hflings.afterFrames frames with ⟨slower, left, _, _, hpaid⟩
    have hlines : (∑ frame ∈ Finset.range frames,
        ((t.startFling lines).linesInFrame frame).natAbs) * unitsPerOne ≤
          4 * lines.natAbs * unitsPerOne := by
      omega
    exact Nat.le_of_mul_le_mul_right hlines Single.unitsPerOne_pos

/-- The theorem speaks of the largest scroll there is, upwards, in an editor that was flung down. -/
theorem fling_dies_down_largest :
    IsShort (-2147483648) ∧
      (∃ frames ≤ 150, ((((new 1000 20).startFling 6).flingStep.1.startFling (-2147483648)).afterFrames
        frames).isFlinging = false) ∧
      (((new 1000 20).startFling 6).flingStep.1.startFling (-2147483648)).linesInFrame 0 =
        -1073741824 ∧
      ∑ frame ∈ Finset.range 150,
        ((((new 1000 20).startFling 6).flingStep.1.startFling (-2147483648)).linesInFrame
          frame).natAbs ≤ 8589934592 := by
  have hshort : IsShort (-2147483648) := by decide
  rcases fling_dies_down ((new 1000 20).startFling 6).flingStep.1 hshort with ⟨hstops, _, _, hsum⟩
  exact ⟨hshort, hstops, by decide +kernel, hsum 150⟩

end ScrollTracker

end OverlayScrollbar
