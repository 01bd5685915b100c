import OverlayScrollbar.Proofs.Scrollbar.Entering
import OverlayScrollbar.Proofs.Scrollbar.Setup

/-!
# Drags

A press that takes hold of the thumb leaves no timer behind, and while the thumb is dragged no call
schedules one. So nothing but the end of the gesture, or a visibility that is set, ends the drag.

- `Scrollbar.Held`           : the thumb is dragged, and no timer is to come
- `Scrollbar.held_of_press`  : after a press that was used
- `Scrollbar.Held.of_change` : and after each call that goes on with the drag
- `Scrollbar.Held.of_draw`   : the frames of a drag

Main statement: `run_held_of_press`.
-/

namespace OverlayScrollbar

namespace Scrollbar

variable {H : Type} [ScrollHost H] {settings : ScrollbarSettings} {bar after : Scrollbar}
  {call : Call H} {requests : List TimerRequest}

/-- The thumb is dragged, and no timer is to come. -/
structure Held (settings : ScrollbarSettings) (bar : Scrollbar) : Prop where
  linked : bar.linked = true
  dragging : bar.visibility = .dragging
  pressed : bar.pressed = true
  no_live : bar.timers.live = []
  no_requests : bar.timers.requests = []
  settings_eq : bar.settings = settings

/-- The call neither ends a gesture nor sets the visibility. -/
def Call.GoesOn {H : Type} (call : Call H) : Prop :=
  call.IsIndirect ∧ call.endsGesture = false

/-! ## One call -/

theorem held_of_press {host host' : H} {x y : Single}
    (h : bar.touch host (.pressed x y) = .ok (after, host', true)) : after.Held bar.settings := by
  cases touch_eq_ok h with
  | grabbed linked _ measuring _ after_eq =>
      rcases measure_eq_ok linked measuring with ⟨⟨metrics, top, rfl⟩, _⟩
      subst after_eq
      exact ⟨linked, rfl, rfl, rfl, rfl, rfl⟩

namespace Held

omit [ScrollHost H] in
/-- The call is not to show the thumb. -/
theorem hostToShow?_eq_none (h : bar.Held settings) (hcall : call.endsGesture = false) :
    bar.hostToShow? call = none := by
  by_contra hsome
  rcases Option.ne_none_iff_exists'.1 hsome with ⟨host, hhost⟩
  have hends := endsGesture_of_dragging hhost h.dragging
  cases hends.symm.trans hcall

omit [ScrollHost H] in
theorem idle_of_timers_eq (h : bar.Held settings) (htimers : after.timers = bar.timers) :
    after.timers.live = [] ∧ after.timers.requests = [] := by
  rw [htimers]
  exact ⟨h.no_live, h.no_requests⟩

omit [ScrollHost H] in
/-- It is enough that the call leaves the drag as it is, and no timer. -/
theorem of_kept (h : bar.Held settings)
    (hkept : after.settings = bar.settings ∧ (bar.linked = true → after.linked = true))
    (hdragging : after.visibility = .dragging) (hpressed : after.pressed = true)
    (hidle : after.timers.live = [] ∧ after.timers.requests = []) : after.Held settings :=
  ⟨hkept.2 h.linked, hdragging, hpressed, hidle.1, hidle.2, hkept.1.trans h.settings_eq⟩

theorem of_change (h : bar.Held settings) (hcall : call.GoesOn)
    (hkept : after.settings = bar.settings ∧ (bar.linked = true → after.linked = true))
    (hchange : Change bar call requests after) : after.Held settings ∧ requests = [] := by
  have hquiet := h.hostToShow?_eq_none hcall.2
  cases hchange with
  | idle _ visibility pressed timers _ =>
      refine ⟨h.of_kept hkept ?_ ?_ (h.idle_of_timers_eq timers), rfl⟩
      · exact visibility.trans h.dragging
      · exact pressed.trans h.pressed
  | framed _ visibility pressed timers _ =>
      refine ⟨h.of_kept hkept ?_ ?_ (h.idle_of_timers_eq timers), rfl⟩
      · exact visibility.trans h.dragging
      · exact pressed.trans h.pressed
  | dragged _ visibility pressed timers _ =>
      exact ⟨h.of_kept hkept visibility pressed (h.idle_of_timers_eq timers), rfl⟩
  | grabbed _ visibility pressed timers _ =>
      -- A second press takes hold of the thumb once more.
      refine ⟨h.of_kept hkept visibility pressed ?_, rfl⟩
      rw [timers]
      exact ⟨rfl, rfl⟩
  | drained after_eq =>
      subst after_eq
      exact ⟨h.of_kept hkept h.dragging h.pressed ⟨h.no_live, rfl⟩, h.no_requests⟩
  | shown shows _ _ _ _ =>
      rcases shows_iff.1 shows with ⟨host, hhost, _⟩
      cases hhost.symm.trans hquiet
  | refused refuses _ _ _ _ =>
      rcases refuses_iff.1 refuses with ⟨_, host, hhost, _⟩
      cases hhost.symm.trans hquiet
  | expired live _ _ _ _ =>
      rw [h.no_live] at live
      cases live
  | faded fades _ _ _ =>
      have hexiting := (exiting_of_fades fades).2.1
      cases hexiting.symm.trans h.dragging
  | vanished exiting _ _ _ _ => cases exiting.symm.trans h.dragging
  | entered => exact hcall.1.elim

theorem of_call {answer : Answer H} (h : bar.Held settings) (hcall : call.GoesOn)
    (hstep : bar.call call = .ok (after, answer)) :
    after.Held settings ∧ answer.requests = [] :=
  h.of_change hcall (call_settings hstep) (call_change hstep)

/-- A scroll does not even measure the host. -/
theorem hostScrolled_eq (h : bar.Held settings) (host : H) : bar.hostScrolled host = .ok bar := by
  unfold hostScrolled
  simp [h.dragging]

theorem of_draw (h : bar.Held settings) {frame : Frame}
    (hdraw : bar.draw = .ok (after, some frame)) :
    frame.sprite = .dragging ∧ frame.alpha = settings.maxAlpha := by
  generalize hframe : some frame = frame? at hdraw
  cases draw_eq_ok hdraw with
  | blank => cases hframe
  | steady _ _ _ _ after_eq =>
      rw [if_pos h.dragging] at hframe
      have hpainted := eq_of_frame?_eq_some hframe.symm
      subst hpainted
      refine ⟨rfl, ?_⟩
      rw [after_eq]
      exact congrArg ScrollbarSettings.maxAlpha h.settings_eq
  | faded _ exiting _ _ _ => cases exiting.symm.trans h.dragging
  | vanished => cases hframe

end Held

/-! ## Runs -/

/-- After a press that was used, the thumb is dragged and held, and no timer is live or queued. It
stays so in every run of calls that neither end a gesture nor set the visibility, whatever the hosts,
timers, sizes and colours: such a run hands out no timer, its scrolls change nothing, and its frames
show the dragged thumb at its full alpha. -/
theorem run_held_of_press {bar held last : Scrollbar} {host host' : H} {x y : Single}
    {calls : List (Call H)} {steps : Steps H}
    (hpress : bar.touch host (.pressed x y) = .ok (held, host', true))
    (hcalls : ∀ call ∈ calls, call.GoesOn)
    (h : held.run calls = .ok (last, steps)) :
    (held.visibility = .dragging ∧ held.pressed = true ∧ held.timers.live = [] ∧
      held.timers.requests = []) ∧
    ∀ step ∈ steps,
      step.after.visibility = .dragging ∧ step.after.pressed = true ∧
        step.after.timers.live = [] ∧ step.output.requests = [] ∧
        (∀ host, step.input = .hostScrolled host → step.after = step.before) ∧
        ∀ frame, step.output = .drawn (some frame) →
          frame.sprite = .dragging ∧ frame.alpha = bar.settings.maxAlpha := by
  have hheld := held_of_press hpress
  refine ⟨⟨hheld.dragging, hheld.pressed, hheld.no_live, hheld.no_requests⟩, ?_⟩
  have hallowed := Machine.allowed_of_mem_steps hcalls h
  have hkept := Machine.invariant_of_mem_steps (Held bar.settings) hheld
    (fun step hbefore hcall hstep => (hbefore.of_call hcall hstep).1) hallowed h
  intro step hmem
  rcases hkept step hmem with ⟨hbefore, hafter, hstep⟩
  refine ⟨hafter.dragging, hafter.pressed, hafter.no_live,
    (hbefore.of_call (hallowed step hmem) hstep).2, ?_, ?_⟩
  · intro host hinput
    rw [hinput] at hstep
    rcases Checked.bind_eq_ok_iff.1 hstep with ⟨scrolled, hscrolled, hafter⟩
    cases (hbefore.hostScrolled_eq host).symm.trans hscrolled
    exact (congrArg Prod.fst (Except.ok.inj hafter)).symm
  · intro frame houtput
    rw [houtput] at hstep
    exact hbefore.of_draw (draw_of_drawn hstep).2

/-- A scroll over long content, after which the thumb is seen and its timer runs. -/
def scrollCalls : List (Call RecordedHost) :=
  [.link (some (hostOfContent 1000)), .resize 3 200, .hostScrolled (hostOfContent 1000)]

/-- What comes during a drag: the timer, a scroll, a move, a press beside the thumb, frames, another
size and colour, and requests. -/
def dragOnCalls (host : RecordedHost) : List (Call RecordedHost) :=
  [.draw, .timerElapsed 1, .hostScrolled host, .touch host (.moved 1 60), .draw,
    .touch host (.pressed 1 199), .resize 4 100, .recolor (Color.solid 1 0 0), .link (some host),
    .takeRequests, .draw]

/-- The theorem speaks of a drag during which the content becomes short. -/
theorem run_held_of_press_short :
    ∃ bar earlier held host' last steps,
      (new 0 { ScrollbarSettings.standard with thumbHeight := 2 } (Color.solid 0 0 1)).run
          scrollCalls = .ok (bar, earlier) ∧
        bar.timers.live = [1] ∧
        bar.touch (hostOfContent 1000) (.pressed 1 1) = .ok (held, host', true) ∧
        held.run (dragOnCalls (hostOfContent 100)) = .ok (last, steps) ∧
        (∀ step ∈ steps, step.after.visibility = .dragging ∧ step.after.pressed = true ∧
          step.after.timers.live = [] ∧ step.output.requests = []) ∧
        ∃ step ∈ steps, ∃ frame, step.output = .drawn (some frame) ∧ frame.sprite = .dragging ∧
          frame.alpha = bar.settings.maxAlpha := by
  have hmap : ((new 0 { ScrollbarSettings.standard with thumbHeight := 2 }
      (Color.solid 0 0 1)).run scrollCalls >>= fun seen =>
        seen.1.touch (hostOfContent 1000) (.pressed 1 1) >>= fun touched =>
          (touched.1.run (dragOnCalls (hostOfContent 100))).map fun reached =>
            (seen.1.timers.live, touched.2.2,
              reached.2.any fun step => step.output.frame?.isSome)) =
      .ok ([1], true, true) := by
    decide +kernel
  rcases Checked.bind_eq_ok_iff.1 hmap with ⟨⟨bar, earlier⟩, hrun, hmap⟩
  rcases Checked.bind_eq_ok_iff.1 hmap with ⟨⟨held, host', used⟩, hpress, hmap⟩
  rcases Checked.map_eq_ok_iff.1 hmap with ⟨⟨last, steps⟩, hdrag, hreached⟩
  have hlive : bar.timers.live = [1] := congrArg Prod.fst hreached
  have hused : used = true := congrArg (fun r => r.2.1) hreached
  have hpainted := congrArg (fun r => r.2.2) hreached
  subst hused
  have hcalls : ∀ call ∈ dragOnCalls (hostOfContent 100), call.GoesOn := by
    simp [dragOnCalls, Call.GoesOn, Call.IsIndirect, Call.endsGesture]
  have hkept := (run_held_of_press hpress hcalls hdrag).2
  refine ⟨bar, earlier, held, host', last, steps, hrun, hlive, hpress, hdrag, ?_, ?_⟩
  · intro step hmem
    rcases hkept step hmem with ⟨hdragging, hpressed, hnone, hrequests, _⟩
    exact ⟨hdragging, hpressed, hnone, hrequests⟩
  · rcases List.any_eq_true.1 hpainted with ⟨step, hmem, hframe⟩
    rcases hkept step hmem with ⟨_, _, _, _, _, hlook⟩
    obtain ⟨frame, hframe⟩ := Option.isSome_iff_exists.1 hframe
    have houtput := Answer.frame?_eq_some_iff.1 hframe
    exact ⟨step, hmem, frame, houtput, hlook frame houtput⟩

end Scrollbar

end OverlayScrollbar
