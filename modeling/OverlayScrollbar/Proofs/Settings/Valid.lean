import OverlayScrollbar.Proofs.Single.Finite
import OverlayScrollbar.Settings.Basic

/-!
# Settings that are not refused

Settings pass the check exactly if no step and no size is zero, the ratio is above zero, and neither length
of the editor is zero or less. A length that is not a number is not zero or less, and passes.

- `Single.zero_lt_iff_of_not_le`           : what is above zero of all that is not zero or less
- `ScrollbarSettings.validate_eq_ok_iff`   : the scrollbar's settings
- `Settings.validate_eq_ok_iff`            : all settings
-/

namespace OverlayScrollbar

/-- What is not zero or less is above zero, or not a number. -/
theorem Single.zero_lt_iff_of_not_le {a : Single} (h : ¬a ≤ 0) : 0 < a ↔ a.isNaN = false := by
  constructor
  · intro hpos
    exact isNaN_of_le_right (le_of_lt hpos)
  · intro hnumber
    exact lt_of_not_le hnumber isNaN_zero h

/-- No step and no size is zero, and the ratio is above zero. -/
structure ScrollbarSettings.Accepted (s : ScrollbarSettings) : Prop where
  fadeStep_ne : s.fadeStep ≠ 0
  fadeTick_ne : s.fadeTick ≠ 0
  ratio_pos : 0 < s.minContentRatio
  thumbWidth_ne : s.thumbWidth ≠ 0
  thumbHeight_ne : s.thumbHeight ≠ 0

/-- Neither length is zero or less. -/
structure EditorSettings.Accepted (s : EditorSettings) : Prop where
  fontSize_not_le : ¬s.fontSize ≤ 0
  lineHeight_not_le : ¬s.lineHeight ≤ 0

/-- The check of a ratio looks for what is not a number, and so lets pass what is above zero only. -/
theorem ScrollbarSettings.ratio_accepted_iff {ratio : Single} :
    ¬(ratio.isNaN = true ∨ ratio ≤ 0) ↔ 0 < ratio := by
  constructor
  · intro h
    rcases not_or.1 h with ⟨hnumber, hmore⟩
    exact (Single.zero_lt_iff_of_not_le hmore).2 (Bool.eq_false_iff.2 hnumber)
  · intro hpos
    rintro (hnan | hnone)
    · rw [Single.isNaN_of_le_right (Single.le_of_lt hpos)] at hnan
      cases hnan
    · exact Single.not_lt_of_le hnone hpos

theorem ScrollbarSettings.validate_eq_ok_iff (s : ScrollbarSettings) :
    s.validate = .ok () ↔ s.Accepted := by
  constructor
  · intro h
    unfold validate at h
    -- Every check is passed, in the order of the fields.
    split at h
    · cases h
    · rename_i hstep
      split at h
      · cases h
      · rename_i htick
        split at h
        · cases h
        · rename_i hratio
          split at h
          · cases h
          · rename_i hsize
            rcases not_or.1 hsize with ⟨hwidth, hheight⟩
            exact ⟨hstep, htick, ratio_accepted_iff.1 hratio, hwidth, hheight⟩
  · intro h
    unfold validate
    rw [if_neg h.fadeStep_ne, if_neg h.fadeTick_ne,
      if_neg (ratio_accepted_iff.2 h.ratio_pos),
      if_neg (not_or.2 ⟨h.thumbWidth_ne, h.thumbHeight_ne⟩)]

/-- Settings are those that the check lets pass. -/
theorem Settings.validate_eq_ok_iff (s : Settings) :
    s.validate = .ok () ↔ s.scrollbar.Accepted ∧ s.editor.Accepted := by
  rw [← ScrollbarSettings.validate_eq_ok_iff]
  unfold validate
  cases hscrollbar : s.scrollbar.validate with
  | error setting => simp [bind, Except.bind]
  | ok checked =>
      by_cases hrefused : s.editor.fontSize ≤ 0 ∨ s.editor.lineHeight ≤ 0
      · simp only [bind, Except.bind, if_pos hrefused, reduceCtorEq, false_iff, not_and]
        rintro - ⟨hfont, hline⟩
        exact hrefused.elim hfont hline
      · rcases not_or.1 hrefused with ⟨hfont, hline⟩
        simp only [bind, Except.bind, if_neg hrefused]
        exact ⟨fun _ => ⟨trivial, hfont, hline⟩, fun _ => rfl⟩

end OverlayScrollbar
