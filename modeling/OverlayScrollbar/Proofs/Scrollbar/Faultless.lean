import OverlayScrollbar.Proofs.Scrollbar.Track

/-!
# Operations that do not fault

An operation faults only where a height is not a number, where the words for the tokens are used up,
where the bitmaps cannot be held, or where the host faults.

- `Scrollbar.exists_measure`      : measuring a host
- `Scrollbar.exists_release`      : the end of a gesture
- `Scrollbar.exists_hostScrolled` : a scroll
- `Scrollbar.exists_touch`        : a touch
- `Scrollbar.exists_draw`         : a frame
-/

namespace OverlayScrollbar

namespace Scrollbar

variable {bar measured : Scrollbar}

/-! ## Timers -/

theorem exists_scheduleAutoHide (hword : bar.timers.issued + 1 < 2 ^ 64) :
    ∃ after, bar.scheduleAutoHide = .ok after := by
  unfold scheduleAutoHide
  split
  · exact ⟨bar, rfl⟩
  · have hschedule := Timers.schedule_eq_ok bar.settings.autoHideDelay hword
    exact ⟨_, Checked.bind_eq_ok_iff.2 ⟨_, hschedule, rfl⟩⟩

theorem issued_enter (bar : Scrollbar) (visibility : Visibility) :
    (bar.enter visibility).timers.issued = bar.timers.issued := by
  unfold enter
  split <;> rfl

theorem exists_release (hword : bar.timers.issued + 1 < 2 ^ 64) :
    ∃ after, bar.release = .ok after := by
  apply exists_scheduleAutoHide
  rw [← issued_enter bar .visible] at hword
  exact hword

/-! ## Sizes -/

theorem isNaN_height_resize (width : Single) {height : Single} (hbefore : bar.height.isNaN = false)
    (hheight : height.isNaN = false) : (bar.resize width height).height.isNaN = false := by
  unfold resize
  split
  · exact hbefore
  · exact hheight

/-! ## Frames -/

theorem exists_draw (hword : bar.visibility = .exiting → bar.timers.issued + 1 < 2 ^ 64)
    (hensure : ∃ drawn, bar.sprites.ensure bar.spriteWidth bar.thumbHeight bar.tint = .ok drawn) :
    ∃ after frame?, bar.draw = .ok (after, frame?) := by
  rcases hensure with ⟨drawn, hensure⟩
  suffices hdraw : ∃ result, bar.draw = .ok result by
    rcases hdraw with ⟨⟨after, frame?⟩, hdraw⟩
    exact ⟨after, frame?, hdraw⟩
  unfold draw
  dsimp only
  split
  · exact ⟨_, rfl⟩
  · refine Checked.exists_bind_eq_ok hensure ?_
    split
    · exact ⟨_, rfl⟩
    · exact ⟨_, rfl⟩
    · exact ⟨_, rfl⟩
    · -- Only a step of the fade schedules a timer.
      rename_i hexiting
      split
      · have hschedule := Timers.schedule_eq_ok bar.settings.fadeTick (hword hexiting)
        exact Checked.exists_bind_eq_ok (Checked.bind_eq_ok_iff.2 ⟨_, hschedule, rfl⟩) ⟨_, rfl⟩
      · exact ⟨_, rfl⟩

/-- A frame leaves a dragged thumb as it is, if its bitmaps are there. -/
theorem exists_draw_of_dragging (hdragging : bar.visibility = .dragging)
    (hready : bar.sprites.isReady = true) :
    ∃ after frame?, bar.draw = .ok (after, frame?) ∧ after.visibility = .dragging ∧
      after.pressed = bar.pressed := by
  have hensure := SpriteCache.ensure_of_isReady hready bar.spriteWidth bar.thumbHeight bar.tint
  have hsteady : bar.visibility = .exiting → bar.timers.issued + 1 < 2 ^ 64 := by
    intro hexiting
    cases hdragging.symm.trans hexiting
  rcases exists_draw hsteady ⟨_, hensure⟩ with ⟨after, frame?, hdraw⟩
  refine ⟨after, frame?, hdraw, ?_⟩
  cases draw_eq_ok hdraw with
  | blank => exact ⟨hdragging, rfl⟩
  | steady _ _ _ _ after_eq =>
      subst after_eq
      exact ⟨hdragging, rfl⟩
  | faded _ exiting => cases hdragging.symm.trans exiting
  | vanished _ exiting => cases hdragging.symm.trans exiting

/-! ## Scrolls and touches -/

section Host

variable {H : Type} [ScrollHost H] {host : H}

theorem exists_measure (host : H) (hheight : bar.height.isNaN = false) :
    ∃ measured, bar.measure host = .ok measured := by
  by_cases hlinked : bar.linked = true
  · cases hreading : bar.reading? host with
    | none => exact ⟨bar, measure_of_reading_none hreading⟩
    | some metrics =>
        have hview : metrics.viewHeight.isNaN = false := by
          rcases Option.map_eq_some_iff.1 hreading with ⟨_, _, rfl⟩
          exact hheight
        rcases metrics.exists_thumbTop hview (isFinite_thumbLength bar) with ⟨top, htop⟩
        rw [measure_of_reading_some hlinked hreading, htop]
        exact ⟨_, rfl⟩
  · rw [measure, if_neg hlinked]
    exact ⟨bar, rfl⟩

theorem timers_of_measure (h : bar.measure host = .ok measured) : measured.timers = bar.timers := by
  rcases measuring h with rfl | ⟨_, _, _, _, rfl⟩
  · rfl
  · rfl

/-- Where the thumb is hit once the host was measured, by a point that is neither left nor right of
it. -/
theorem isOnThumb_of_measure {x y : Single} (h : bar.measure host = .ok measured) (hleft : 0 ≤ x)
    (hright : x ≤ bar.width) :
    measured.isOnThumb x y = true ↔
      measured.top ≤ y ∧ y ≤ measured.top + bar.thumbLength := by
  have hsame : measured.width = bar.width ∧ measured.thumbLength = bar.thumbLength := by
    rcases measuring h with rfl | ⟨_, _, _, _, rfl⟩
    · exact ⟨rfl, rfl⟩
    · exact ⟨rfl, rfl⟩
  unfold isOnThumb
  rw [hsame.1, hsame.2]
  simp [hleft, hright]

theorem exists_hostScrolled (host : H) (hheight : bar.height.isNaN = false)
    (hword : bar.timers.issued + 1 < 2 ^ 64) : ∃ after, bar.hostScrolled host = .ok after := by
  unfold hostScrolled
  split
  · exact ⟨bar, rfl⟩
  · rcases exists_measure host hheight with ⟨measured, hmeasure⟩
    refine Checked.exists_bind_eq_ok hmeasure (exists_scheduleAutoHide ?_)
    rw [issued_enter, timers_of_measure hmeasure]
    exact hword

/-- A press on a thumb that is seen only measures, or takes hold of the thumb. -/
theorem touch_pressed {x y : Single} (hlinked : bar.linked = true) (hseen : bar.visibility ≠ .hidden)
    (hmeasure : bar.measure host = .ok measured) :
    bar.touch host (.pressed x y) =
      if measured.isOnThumb x y then
        .ok ({ measured.enter .dragging with pressed := true }, ScrollHost.abortFling host, true)
      else .ok (measured, host, false) := by
  unfold touch
  rw [if_neg (active_iff.2 ⟨hlinked, hseen⟩), hmeasure]
  dsimp only [bind, Except.bind]
  split
  · rfl
  · rfl

theorem exists_touch (host : H) (event : Touch) (hheight : bar.height.isNaN = false)
    (hword : bar.timers.issued + 1 < 2 ^ 64)
    (hscroll : ∀ x y, ∃ host', ScrollHost.scrollTo (ScrollHost.abortFling host) x y = .ok host') :
    ∃ result, bar.touch host event = .ok result := by
  unfold touch
  split
  · exact ⟨_, rfl⟩
  · rcases exists_measure host hheight with ⟨measured, hmeasure⟩
    have hmeasured : measured.timers.issued + 1 < 2 ^ 64 := by
      rw [timers_of_measure hmeasure]
      exact hword
    refine Checked.exists_bind_eq_ok hmeasure ?_
    cases event with
    | pressed x y =>
        dsimp only
        split
        · exact ⟨_, rfl⟩
        · exact ⟨_, rfl⟩
    | moved x y =>
        dsimp only
        split
        · -- The thumb moves the host, if there is a track.
          unfold scrollHost
          split
          · exact ⟨_, rfl⟩
          · rcases hscroll (ScrollHost.scrollX (ScrollHost.abortFling host)) _ with ⟨_, hscrolled⟩
            exact Checked.exists_bind_eq_ok hscrolled ⟨_, rfl⟩
        · exact ⟨_, rfl⟩
    | released x y =>
        rcases exists_release hmeasured with ⟨_, hrelease⟩
        exact Checked.exists_bind_eq_ok hrelease ⟨_, rfl⟩
    | cancelled =>
        dsimp only
        split
        · rcases exists_release hmeasured with ⟨_, hrelease⟩
          exact Checked.exists_bind_eq_ok hrelease ⟨_, rfl⟩
        · exact ⟨_, rfl⟩

/-- A touch leaves its host as it is, or aborts the fling and may scroll. -/
theorem host_of_touch {after : Scrollbar} {host' : H} {event : Touch} {used : Bool}
    (h : bar.touch host event = .ok (after, host', used)) :
    host' = host ∨ host' = ScrollHost.abortFling host ∨
      ∃ x y, ScrollHost.scrollTo (ScrollHost.abortFling host) x y = .ok host' := by
  cases touch_eq_ok h with
  | inert => exact Or.inl rfl
  | missed => exact Or.inl rfl
  | ended => exact Or.inl rfl
  | passed => exact Or.inl rfl
  | grabbed => exact Or.inr (Or.inl rfl)
  | dragged _ _ _ _ scrolling =>
      unfold scrollHost at scrolling
      split at scrolling
      · cases scrolling
        exact Or.inr (Or.inl rfl)
      · exact Or.inr (Or.inr ⟨_, _, scrolling⟩)

end Host

end Scrollbar

end OverlayScrollbar
