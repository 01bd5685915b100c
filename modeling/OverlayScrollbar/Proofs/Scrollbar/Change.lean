import OverlayScrollbar.Proofs.Scrollbar.Operations

/-!
# What a call changes

All that a call can do to visibility, hold and timers is said once here, by one inversion lemma for
each operation and one for all of them.

- `Scrollbar.Change`      : the ways in which a call changes visibility, hold and timers
- `Scrollbar.call_change` : every call that does not fault changes them in one of these ways
-/

namespace OverlayScrollbar

namespace Scrollbar

variable {H : Type} [ScrollHost H]

/-! ## The ways to change -/

/-- How a call changes visibility, hold and timers, and the timers that it hands out. -/
inductive Change (bar : Scrollbar) : Call H → List TimerRequest → Scrollbar → Prop
  /-- Neither visibility, nor hold, nor timers change. -/
  | idle {call : Call H} {after : Scrollbar} (quiet : bar.schedules call = false)
      (visibility : after.visibility = bar.visibility) (pressed : after.pressed = bar.pressed)
      (timers : after.timers = bar.timers)
      (redraw : bar.needsRedraw = true → after.needsRedraw = true) :
      Change bar call [] after
  /-- A frame is made of a thumb that does not fade. -/
  | framed {after : Scrollbar} (steady : bar.linked = false ∨ bar.visibility ≠ .exiting)
      (visibility : after.visibility = bar.visibility) (pressed : after.pressed = bar.pressed)
      (timers : after.timers = bar.timers) (redraw : after.needsRedraw = false) :
      Change bar .draw [] after
  /-- A press takes hold of the thumb. -/
  | grabbed {host : H} {x y : Single} {after : Scrollbar} (seen : bar.visibility ≠ .hidden)
      (visibility : after.visibility = .dragging) (pressed : after.pressed = true)
      (timers : after.timers = bar.timers.cancelAll) (redraw : after.needsRedraw = true) :
      Change bar (.touch host (.pressed x y)) [] after
  /-- A drag goes on. -/
  | dragged {host : H} {x y : Single} {after : Scrollbar} (dragging : bar.visibility = .dragging)
      (visibility : after.visibility = .dragging) (pressed : after.pressed = true)
      (timers : after.timers = bar.timers) (redraw : after.needsRedraw = true) :
      Change bar (.touch host (.moved x y)) [] after
  /-- The thumb becomes visible, and only a new auto-hide delay runs. -/
  | shown {call : Call H} {after : Scrollbar} (shows : bar.shows call = true)
      (visibility : after.visibility = .visible)
      (pressed : after.pressed = (bar.pressed && !call.endsGesture))
      (timers : after.timers = bar.timers.cancelAll.scheduled bar.settings.autoHideDelay)
      (redraw : after.needsRedraw = true) :
      Change bar call [] after
  /-- The thumb does not become visible, and a new auto-hide delay runs beside the others. -/
  | refused {call : Call H} {after : Scrollbar} (refuses : bar.refuses call = true)
      (visibility : after.visibility = bar.visibility)
      (pressed : after.pressed = (bar.pressed && !call.endsGesture))
      (timers : after.timers = bar.timers.scheduled bar.settings.autoHideDelay)
      (redraw : after.needsRedraw = bar.needsRedraw) :
      Change bar call [] after
  /-- A live timer makes the thumb fade. -/
  | expired {token : TimerToken} {after : Scrollbar} (live : token ∈ bar.timers.live)
      (visibility : after.visibility = .exiting) (pressed : after.pressed = bar.pressed)
      (timers : after.timers = bar.timers.cancelAll) (redraw : after.needsRedraw = true) :
      Change bar (.timerElapsed token) [] after
  /-- A step of the fade that is not the last schedules the next. -/
  | faded {after : Scrollbar} (fades : bar.fades (.draw : Call H) = true)
      (visibility : after.visibility = .exiting) (pressed : after.pressed = bar.pressed)
      (timers : after.timers = bar.timers.scheduled bar.settings.fadeTick) :
      Change bar .draw [] after
  /-- The last step of the fade hides the thumb. -/
  | vanished {after : Scrollbar} (exiting : bar.visibility = .exiting)
      (below : ¬bar.settings.fadeFloor < bar.alpha)
      (visibility : after.visibility = .hidden) (pressed : after.pressed = bar.pressed)
      (timers : after.timers = bar.timers.cancelAll) :
      Change bar .draw [] after
  /-- The queued timers are handed out. -/
  | drained {after : Scrollbar} (after_eq : after = { bar with timers := bar.timers.drain.1 }) :
      Change bar .takeRequests bar.timers.drain.2 after
  /-- The visibility is set. -/
  | entered {visibility : Visibility} {after : Scrollbar}
      (justified : visibility = .visible → bar.isJustified = true)
      (after_eq : after =
        invalidate { bar with visibility := visibility, timers := bar.timers.cancelAll }) :
      Change bar (.enter visibility) [] after

/-- Each way to change is one transition of the timers. -/
theorem Change.transition {bar after : Scrollbar} {call : Call H} {requests : List TimerRequest}
    (h : Change bar call requests after) : bar.timers.Transition requests after.timers := by
  cases h with
  | idle _ _ _ timers _ => exact timers ▸ .stay
  | framed _ _ _ timers _ => exact timers ▸ .stay
  | grabbed _ _ _ timers _ => exact timers ▸ .cancel
  | dragged _ _ _ timers _ => exact timers ▸ .stay
  | shown _ _ _ timers _ => exact timers ▸ .restart _
  | refused _ _ _ timers _ => exact timers ▸ .schedule _
  | expired _ _ _ timers _ => exact timers ▸ .cancel
  | faded _ _ _ timers => exact timers ▸ .schedule _
  | vanished _ _ _ _ timers => exact timers ▸ .cancel
  | drained after_eq => exact after_eq ▸ .drain
  | entered _ after_eq => exact after_eq ▸ .cancel

/-- A call that shows the thumb changes it in one way. -/
theorem Change.of_shows {bar after : Scrollbar} {call : Call H} {requests : List TimerRequest}
    (h : Change bar call requests after) (hshows : bar.shows call = true) :
    after.visibility = .visible ∧ after.pressed = (bar.pressed && !call.endsGesture) ∧
      after.timers = bar.timers.cancelAll.scheduled bar.settings.autoHideDelay := by
  cases h with
  | shown _ visibility pressed timers _ => exact ⟨visibility, pressed, timers⟩
  | refused refuses _ _ _ _ =>
      have hnot := shows_eq_false_of_refuses refuses
      cases hshows.symm.trans hnot
  | idle quiet _ _ _ _ => simp [schedules, hshows] at quiet
  | _ => simp [shows, hostToShow?] at hshows

/-- So does a call that is refused. -/
theorem Change.of_refuses {bar after : Scrollbar} {call : Call H} {requests : List TimerRequest}
    (h : Change bar call requests after) (hrefuses : bar.refuses call = true) :
    after.visibility = bar.visibility ∧ after.pressed = (bar.pressed && !call.endsGesture) ∧
      after.timers = bar.timers.scheduled bar.settings.autoHideDelay := by
  cases h with
  | refused _ visibility pressed timers _ => exact ⟨visibility, pressed, timers⟩
  | shown shows _ _ _ _ =>
      have hnot := shows_eq_false_of_refuses hrefuses
      cases shows.symm.trans hnot
  | idle quiet _ _ _ _ => simp [schedules, hrefuses] at quiet
  | _ => simp [refuses, hostToShow?] at hrefuses

/-- And a step of the fade that is not the last. -/
theorem Change.of_fades {bar after : Scrollbar} {call : Call H} {requests : List TimerRequest}
    (h : Change bar call requests after) (hfades : bar.fades call = true) :
    after.timers = bar.timers.scheduled bar.settings.fadeTick := by
  rcases exiting_of_fades hfades with ⟨hlinked, hexiting, habove⟩
  cases h with
  | faded _ _ _ timers => exact timers
  | vanished _ below _ _ _ => exact absurd habove below
  | framed steady _ _ _ _ =>
      rcases steady with hunlinked | hsteady
      · cases hlinked.symm.trans hunlinked
      · exact absurd hexiting hsteady
  | idle quiet _ _ _ _ => simp [schedules, hfades] at quiet
  | shown shows _ _ _ _ =>
      -- A call that may show the thumb is not a frame.
      rcases shows_iff.1 shows with ⟨host, hhost, _⟩
      cases hfades.symm.trans (fades_of_hostToShow? hhost)
  | refused refuses _ _ _ _ =>
      rcases refuses_iff.1 refuses with ⟨_, host, hhost, _⟩
      cases hfades.symm.trans (fades_of_hostToShow? hhost)
  | _ => cases hfades

/-! ## One lemma for each operation -/

variable {bar after : Scrollbar}

/-- A call that measures the host and makes the thumb visible shows it, is refused, or leaves it
hidden. -/
theorem change_of_enter_visible {call : Call H} {host : H} {measured : Scrollbar} {pressed : Bool}
    (hshow : bar.hostToShow? call = some host) (hmeasured : bar.measure host = .ok measured)
    (hpressed : pressed = (bar.pressed && !call.endsGesture))
    (h : scheduleAutoHide { measured.enter .visible with pressed := pressed } = .ok after) :
    Change bar call [] after := by
  rcases measure_eq_ok (linked_of_hostToShow? hshow) hmeasured with ⟨⟨metrics, top, rfl⟩, hlong⟩
  rcases scheduleAutoHide_enter_visible h with ⟨hj, rfl⟩ | ⟨hj, hhidden, rfl⟩ | ⟨hj, hseen, rfl⟩
  · have hshows : bar.shows call = true := shows_iff.2 ⟨host, hshow, hlong.symm.trans hj⟩
    exact .shown hshows rfl hpressed rfl rfl
  · -- The thumb was hidden and stays so: only a scroll comes here.
    have hquiet : bar.schedules call = false := by
      simp only [schedules, shows, refuses, hshow, Option.any_some, ← hlong, hj,
        fades_of_hostToShow? hshow, Bool.false_or, Bool.or_false, Bool.not_false, Bool.and_true]
      exact decide_eq_false (not_not_intro hhidden)
    have hsame : pressed = bar.pressed := by
      simp [hpressed, endsGesture_of_hidden hshow hhidden]
    exact .idle hquiet rfl hsame rfl fun hredraw => hredraw
  · have hrefuses : bar.refuses call = true :=
      refuses_iff.2 ⟨hseen, host, hshow, hlong.symm.trans hj⟩
    exact .refused hrefuses rfl hpressed rfl rfl

@[simp]
theorem pressed_enter (bar : Scrollbar) (visibility : Visibility) :
    (bar.enter visibility).pressed = bar.pressed := by
  unfold enter
  split <;> rfl

theorem hostScrolled_change {host : H} (h : bar.hostScrolled host = .ok after) :
    Change bar (.hostScrolled host) [] after := by
  rcases hostScrolled_eq_ok h with ⟨hinactive, rfl⟩ | ⟨hlinked, hfree, measured, hmeasured, hafter⟩
  · have hnone : after.hostToShow? (.hostScrolled host) = none := by
      rcases hinactive with hunlinked | hdragging
      · simp [hostToShow?, hunlinked]
      · simp [hostToShow?, hdragging]
    exact .idle (schedules_of_none hnone rfl) rfl rfl rfl fun hredraw => hredraw
  · have hshow : bar.hostToShow? (.hostScrolled host) = some host := by
      simp [hostToShow?, hlinked, hfree]
    -- A scroll leaves the hold as it is.
    have hpressed : (measured.enter .visible).pressed = bar.pressed := by
      rcases measure_eq_ok hlinked hmeasured with ⟨⟨metrics, top, rfl⟩, _⟩
      exact pressed_enter _ _
    have hkept : bar.pressed = (bar.pressed && !(Call.hostScrolled host).endsGesture) := by
      simp [Call.endsGesture]
    exact change_of_enter_visible hshow hmeasured (hpressed.trans hkept) hafter

/-- A press on the thumb starts a drag, a drag goes on, a release ends it, and all else only
measures. -/
theorem touch_change {host host' : H} {event : Touch} {used : Bool}
    (h : bar.touch host event = .ok (after, host', used)) :
    Change bar (.touch host event) [] after := by
  cases touch_eq_ok h with
  | inert inactive =>
      -- What is inert shows nothing, also when the touch would end a gesture.
      have hnone : bar.hostToShow? (.touch host event) = none := by
        cases event with
        | released _ _ => rcases inactive with hunlinked | hhidden <;> simp [hostToShow?, *]
        | cancelled => rcases inactive with hunlinked | hhidden <;> simp [hostToShow?, *]
        | _ => rfl
      exact .idle (schedules_of_none hnone rfl) rfl rfl rfl fun hredraw => hredraw
  | missed linked _ measuring _ =>
      rcases measure_eq_ok linked measuring with ⟨⟨metrics, top, rfl⟩, _⟩
      exact .idle (schedules_of_none rfl rfl) rfl rfl rfl fun hredraw => hredraw
  | grabbed linked seen measuring _ after_eq =>
      rcases measure_eq_ok linked measuring with ⟨⟨metrics, top, rfl⟩, _⟩
      subst after_eq
      exact .grabbed seen rfl rfl rfl rfl
  | dragged linked dragging measuring after_eq _ =>
      rcases measure_eq_ok linked measuring with ⟨⟨metrics, top, rfl⟩, _⟩
      subst after_eq
      exact .dragged dragging dragging rfl rfl rfl
  | ended linked seen measuring ends releasing =>
      have hshow : bar.hostToShow? (.touch host event) = some host := by
        rcases ends with ⟨x, y, rfl⟩ | ⟨rfl, hdragging⟩
        · simp [hostToShow?, linked, seen]
        · simp [hostToShow?, linked, hdragging]
      have hends : (Call.touch host event).endsGesture = true := by
        rcases ends with ⟨x, y, rfl⟩ | ⟨rfl, _⟩
        · rfl
        · rfl
      exact change_of_enter_visible hshow measuring (by simp [hends]) releasing
  | passed linked _ measuring free passes =>
      have hnone : bar.hostToShow? (.touch host event) = none := by
        rcases passes with ⟨x, y, rfl⟩ | rfl
        · rfl
        · exact if_neg fun hdrag => free hdrag.2
      rcases measure_eq_ok linked measuring with ⟨⟨metrics, top, rfl⟩, _⟩
      exact .idle (schedules_of_none hnone rfl) rfl rfl rfl fun hredraw => hredraw

theorem timerElapsed_change (bar : Scrollbar) (token : TimerToken) :
    Change bar (.timerElapsed token : Call H) [] (bar.timerElapsed token) := by
  by_cases hlive : token ∈ bar.timers.live
  · rw [timerElapsed_of_mem hlive]
    exact .expired hlive rfl rfl rfl rfl
  · rw [timerElapsed_of_not_mem hlive]
    exact .idle (schedules_of_none rfl rfl) rfl rfl rfl fun hredraw => hredraw

theorem enter_change (bar : Scrollbar) (visibility : Visibility) :
    Change bar (.enter visibility : Call H) [] (bar.enter visibility) := by
  by_cases hallowed : visibility = .visible → bar.isJustified = true
  · refine .entered hallowed ?_
    unfold enter
    rw [if_neg]
    rintro ⟨hvisible, hshort⟩
    exact hshort (hallowed hvisible)
  · rw [Classical.not_imp, Bool.not_eq_true] at hallowed
    rcases hallowed with ⟨rfl, hshort⟩
    rw [enter_visible_of_not_isJustified hshort]
    exact .idle (schedules_of_none rfl rfl) rfl rfl rfl fun hredraw => hredraw

theorem draw_change {frame? : Option Frame} (h : bar.draw = .ok (after, frame?)) :
    Change bar (.draw : Call H) [] after := by
  cases draw_eq_ok h with
  | blank inactive =>
      have hsteady : bar.linked = false ∨ bar.visibility ≠ .exiting :=
        inactive.imp_right fun hhidden => by simp [hhidden]
      exact .framed hsteady rfl rfl rfl rfl
  | steady _ _ not_exiting _ after_eq =>
      subst after_eq
      exact .framed (Or.inr not_exiting) rfl rfl rfl rfl
  | faded linked exiting above _ after_eq =>
      subst after_eq
      have hfades : bar.fades (.draw : Call H) = true := by
        simp only [fades, Bool.and_eq_true, decide_eq_true_eq]
        exact ⟨⟨linked, exiting⟩, above⟩
      exact .faded hfades exiting rfl rfl
  | vanished _ exiting below _ after_eq =>
      subst after_eq
      exact .vanished exiting below rfl rfl rfl

/-! ## All operations -/

theorem call_change {call : Call H} {answer : Answer H} (h : bar.call call = .ok (after, answer)) :
    Change bar call answer.requests after := by
  cases call_eq_ok h with
  | scrolled scrolling => exact hostScrolled_change scrolling
  | touched touching => exact touch_change touching
  | elapsed token => exact timerElapsed_change bar token
  | drawn drawing => exact draw_change drawing
  | taken => exact .drained rfl
  | entered visibility => exact enter_change bar visibility
  -- Another size or colour asks for a frame.
  | resized => exact .idle (schedules_of_none rfl rfl) rfl rfl rfl fun _ => rfl
  | recolored => exact .idle (schedules_of_none rfl rfl) rfl rfl rfl fun _ => rfl
  | _ => exact .idle (schedules_of_none rfl rfl) rfl rfl rfl fun hredraw => hredraw

end Scrollbar

end OverlayScrollbar
