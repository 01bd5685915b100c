import Mathlib.Algebra.Order.Floor.Div
import OverlayScrollbar.Proofs.Scrollbar.Operations
import OverlayScrollbar.Proofs.Settings.Valid

/-!
# The length of a fade

A thumb that fades loses some alpha with every frame, until it is at the floor; the next frame hides
it. How many frames are left follows from its alpha.

- `ScrollbarSettings.fadeSteps`  : the frames that lower an alpha to the floor
- `ScrollbarSettings.fadeLimit`  : the frames that hide a thumb
- `Scrollbar.remaining`          : the frames, and so the timers, until the thumb is hidden
- `Scrollbar.remaining_of_draw`  : each frame of a fade is one of them
-/

namespace OverlayScrollbar

namespace ScrollbarSettings

/-- The frames that lower an alpha to the floor. -/
def fadeSteps (settings : ScrollbarSettings) (alpha : UInt8) : Nat :=
  (alpha.toNat - settings.fadeFloor.toNat) ⌈/⌉ settings.fadeStep.toNat

/-- The frames that hide a thumb that did not fade before. -/
def fadeLimit (settings : ScrollbarSettings) : Nat :=
  1 + settings.fadeSteps settings.maxAlpha

variable {settings : ScrollbarSettings} {alpha : UInt8}

/-- An alpha at the floor is not lowered. -/
theorem fadeSteps_of_not_lt (h : ¬settings.fadeFloor < alpha) : settings.fadeSteps alpha = 0 := by
  have hle : alpha.toNat ≤ settings.fadeFloor.toNat := Nat.le_of_not_lt h
  rw [fadeSteps, Nat.sub_eq_zero_of_le hle, zero_ceilDiv]

theorem fadeSteps_le {other : UInt8} (h : alpha.toNat ≤ other.toNat) :
    settings.fadeSteps alpha ≤ settings.fadeSteps other := by
  unfold fadeSteps
  rw [Nat.ceilDiv_eq_add_pred_div, Nat.ceilDiv_eq_add_pred_div]
  have hsub := Nat.sub_le_sub_right h settings.fadeFloor.toNat
  exact Nat.div_le_div_right (Nat.sub_le_sub_right (Nat.add_le_add_right hsub _) 1)

/-- To take some off an amount takes off one of the steps into which it can be divided. -/
theorem ceilDiv_sub_add_one {amount step : Nat} (hstep : 0 < step) (hamount : 0 < amount) :
    (amount - step) ⌈/⌉ step + 1 = amount ⌈/⌉ step := by
  have hwhole : amount + step - 1 = amount - 1 + step := by omega
  rw [Nat.ceilDiv_eq_add_pred_div, Nat.ceilDiv_eq_add_pred_div, hwhole,
    Nat.add_div_right _ hstep]
  -- If less than a step is left, the difference is zero, and one step was counted for it.
  by_cases hle : step ≤ amount
  · have hsame : amount - step + step - 1 = amount - 1 := by omega
    rw [hsame]
  · -- Both are less than a whole step.
    have hleft : amount - step + step - 1 < step := by omega
    have hright : amount - 1 < step := by omega
    rw [Nat.div_eq_of_lt hleft, Nat.div_eq_of_lt hright]

theorem fadeStep_pos (hstep : settings.fadeStep ≠ 0) : 0 < settings.fadeStep.toNat := by
  refine Nat.pos_of_ne_zero ?_
  intro hzero
  exact hstep (UInt8.toNat_inj.1 hzero)

/-- A step takes the alpha to zero at most. -/
theorem toNat_faded (settings : ScrollbarSettings) (alpha : UInt8) :
    (UInt8.ofNat (alpha.toNat - settings.fadeStep.toNat)).toNat =
      alpha.toNat - settings.fadeStep.toNat := by
  rw [UInt8.toNat_ofNat']
  exact Nat.mod_eq_of_lt (Nat.lt_of_le_of_lt (Nat.sub_le _ _) alpha.toNat_lt)

/-- A frame of the fade is one of them. -/
theorem fadeSteps_sub (hstep : settings.fadeStep ≠ 0) (habove : settings.fadeFloor < alpha) :
    settings.fadeSteps (UInt8.ofNat (alpha.toNat - settings.fadeStep.toNat)) + 1 =
      settings.fadeSteps alpha := by
  have hamount : 0 < alpha.toNat - settings.fadeFloor.toNat := Nat.sub_pos_of_lt habove
  unfold fadeSteps
  rw [toNat_faded, Nat.sub_right_comm]
  exact ceilDiv_sub_add_one (fadeStep_pos hstep) hamount

/-- A number of steps lowers an alpha to the floor if it takes off all that is above it. -/
theorem fadeSteps_le_iff (hstep : settings.fadeStep ≠ 0) {frames : Nat} :
    settings.fadeSteps alpha ≤ frames ↔
      alpha.toNat - frames * settings.fadeStep.toNat ≤ settings.fadeFloor.toNat := by
  unfold fadeSteps
  rw [ceilDiv_le_iff_le_mul (fadeStep_pos hstep), Nat.mul_comm]
  omega

/-- Settings that can be worked with fade. -/
theorem fadeStep_ne_zero_of_validate {settings : Settings} (h : settings.validate = .ok ()) :
    settings.scrollbar.fadeStep ≠ 0 :=
  ((Settings.validate_eq_ok_iff settings).1 h).1.fadeStep_ne

end ScrollbarSettings

namespace Scrollbar

variable {bar after : Scrollbar} {frame? : Option Frame}

/-- The frames, and so the timers, until the thumb is hidden. -/
def remaining (bar : Scrollbar) : Nat :=
  if bar.visibility = .hidden then 0 else 1 + bar.settings.fadeSteps bar.alpha

theorem remaining_of_hidden (h : bar.visibility = .hidden) : bar.remaining = 0 :=
  if_pos h

theorem remaining_of_seen (h : bar.visibility ≠ .hidden) :
    bar.remaining = 1 + bar.settings.fadeSteps bar.alpha :=
  if_neg h

theorem remaining_le_fadeLimit (h : bar.alpha.toNat ≤ bar.settings.maxAlpha.toNat) :
    bar.remaining ≤ bar.settings.fadeLimit := by
  by_cases hhidden : bar.visibility = .hidden
  · rw [remaining_of_hidden hhidden]
    exact Nat.zero_le _
  · rw [remaining_of_seen hhidden]
    exact Nat.add_le_add_left (ScrollbarSettings.fadeSteps_le h) 1

theorem hidden_of_remaining (h : bar.remaining = 0) : bar.visibility = .hidden := by
  by_contra hseen
  rw [remaining_of_seen hseen] at h
  exact absurd h (by simp)

/-- A frame of a fade leaves one less, and schedules no more timers than it takes off. -/
theorem remaining_of_draw (hstep : bar.settings.fadeStep ≠ 0) (hlinked : bar.linked = true)
    (hexiting : bar.visibility = .exiting) (h : bar.draw = .ok (after, frame?)) :
    after.remaining + 1 = bar.remaining ∧ after.visibility ≠ .dragging ∧
      after.timers.issued + after.remaining ≤ bar.timers.issued + bar.remaining := by
  have hseen : bar.visibility ≠ .hidden := by simp [hexiting]
  cases draw_eq_ok h with
  | blank inactive =>
      rcases inactive with hunlinked | hhidden
      · cases hlinked.symm.trans hunlinked
      · exact absurd hhidden hseen
  | steady _ _ not_exiting _ _ => exact absurd hexiting not_exiting
  | faded _ _ above _ after_eq =>
      -- One step less, and one token more.
      have hless := ScrollbarSettings.fadeSteps_sub hstep above
      have hfaded : after.remaining = 1 + bar.settings.fadeSteps after.alpha := by
        rw [remaining_of_seen (by simp [after_eq, hexiting]), after_eq]
      have halpha : bar.settings.fadeSteps after.alpha + 1 = bar.settings.fadeSteps bar.alpha := by
        rw [after_eq]
        exact hless
      have hafter : after.remaining + 1 = bar.remaining := by
        rw [hfaded, remaining_of_seen hseen, ← halpha, Nat.add_assoc]
      have hissued : after.timers.issued = bar.timers.issued + 1 := by simp [after_eq]
      refine ⟨hafter, by simp [after_eq, hexiting], ?_⟩
      calc
        after.timers.issued + after.remaining = bar.timers.issued + (after.remaining + 1) := by
          rw [hissued, Nat.add_right_comm, Nat.add_assoc]
        _ ≤ bar.timers.issued + bar.remaining := Nat.le_of_eq (congrArg _ hafter)
  | vanished _ _ below _ after_eq =>
      -- At the floor, only the frame that hides the thumb was left.
      have hhidden : after.visibility = .hidden := by simp [after_eq]
      have hnone := ScrollbarSettings.fadeSteps_of_not_lt below
      have hafter : after.remaining + 1 = bar.remaining := by
        rw [remaining_of_hidden hhidden, remaining_of_seen hseen, hnone]
      refine ⟨hafter, by simp [hhidden], ?_⟩
      have hissued : after.timers.issued = bar.timers.issued := by simp [after_eq]
      rw [hissued, ← hafter]
      exact Nat.add_le_add_left (Nat.le_succ _) _

/-- The frame of a fade is made, while there is a word for the next token and if its sprites need
not be drawn any more. -/
theorem exists_draw_of_exiting (hexiting : bar.visibility = .exiting)
    (hword : bar.timers.issued + 1 < 2 ^ 64)
    (hdrawn : ∃ drawn?, bar.sprites.ensure bar.spriteWidth bar.thumbHeight bar.tint =
      .ok (bar.sprites, drawn?)) :
    ∃ drawn, bar.draw = .ok drawn := by
  rcases hdrawn with ⟨drawn?, hensure⟩
  unfold draw
  dsimp only
  split
  · exact ⟨_, rfl⟩
  · refine Checked.exists_bind_eq_ok hensure ?_
    by_cases habove : bar.settings.fadeFloor < bar.alpha
    · simp only [hexiting, habove, if_true]
      have hschedule := Timers.schedule_eq_ok bar.settings.fadeTick hword
      exact Checked.exists_bind_eq_ok (Checked.bind_eq_ok_iff.2 ⟨_, hschedule, rfl⟩) ⟨_, rfl⟩
    · simp only [hexiting, habove, if_false]
      exact ⟨_, rfl⟩

end Scrollbar

end OverlayScrollbar
