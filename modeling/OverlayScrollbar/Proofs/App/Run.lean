import OverlayScrollbar.Proofs.App.Stages
import OverlayScrollbar.Proofs.Scrollbar.Event

/-!
# Runs of the application

A message leads to some events for the scrollbar, then to a frame if one was asked for, and last to
the timers to arm. The scrollbar of an application therefore goes through a run of calls, none of
which sets its visibility.

- `App.run`, `App.armed` : messages one after another, and the timers that were armed
- `App.Handled`          : what a message has done before a frame is made
- `App.update_eq_ok`     : the stages of a message
- `App.exists_run_of_update` : a message as a run of the scrollbar
-/

namespace OverlayScrollbar

namespace App

/-- The steps of a run. -/
abbrev Steps (D E : Type) : Type :=
  List (Step (App D) (AppMessage E) (List TimerRequest))

variable {D E : Type}

/-- The tokens of the timers that a run has armed. -/
def armed (steps : Steps D E) : List TimerToken :=
  steps.flatMap fun step => step.output.map TimerRequest.token

theorem armed_append (earlier later : Steps D E) :
    armed (earlier ++ later) = armed earlier ++ armed later :=
  List.flatMap_append

theorem armed_singleton (step : Step (App D) (AppMessage E) (List TimerRequest)) :
    armed [step] = step.output.map TimerRequest.token :=
  List.append_nil _

variable [TextEditor D E]

/-- Handles messages one after another. -/
abbrev run (app : App D) (messages : List (AppMessage E)) : Checked (App D × Steps D E) :=
  Machine.run update app messages

variable {app mid after : App D}

/-! ## Before the frame -/

/-- What a message has done before a frame is made: the scrollbar went through events, and what is
painted is as it was. -/
structure Handled (app mid : App D) : Prop where
  events : ∃ (calls : List (Scrollbar.Call (EditorHost D))) (steps : Scrollbar.Steps (EditorHost D)),
    (∀ call ∈ calls, call.IsEvent) ∧ app.bar.run calls = .ok (mid.bar, steps)
  frame_eq : mid.frame? = app.frame?
  images_eq : mid.images = app.images

namespace Handled

theorem refl (app : App D) : Handled app app :=
  ⟨⟨[], [], by simp, rfl⟩, rfl, rfl⟩

theorem trans (hfirst : Handled app mid) (hsecond : Handled mid after) : Handled app after := by
  rcases hfirst.events with ⟨calls, steps, hcalls, hrun⟩
  rcases hsecond.events with ⟨more, later, hmore, hlater⟩
  refine ⟨⟨calls ++ more, steps ++ later, ?_, Machine.run_append_eq_ok hrun hlater⟩,
    hsecond.frame_eq.trans hfirst.frame_eq, hsecond.images_eq.trans hfirst.images_eq⟩
  intro call hcall
  rcases List.mem_append.1 hcall with hmem | hmem
  · exact hcalls call hmem
  · exact hmore call hmem

/-- One event. -/
theorem of_call (call : Scrollbar.Call (EditorHost D)) {answer : Scrollbar.Answer (EditorHost D)}
    (hevent : call.IsEvent) (hcall : app.bar.call call = .ok (mid.bar, answer))
    (hframe : mid.frame? = app.frame?) (himages : mid.images = app.images) : Handled app mid := by
  refine ⟨⟨[call], _, ?_, Machine.run_singleton_eq_ok_iff.2 ⟨answer, hcall, rfl⟩⟩, hframe, himages⟩
  intro other hother
  rw [List.mem_singleton.1 hother]
  exact hevent

/-- No event: the message has left the scrollbar alone. -/
theorem of_bar_eq (hbar : mid.bar = app.bar) (hframe : mid.frame? = app.frame?)
    (himages : mid.images = app.images) : Handled app mid :=
  ⟨⟨[], [], by simp, by rw [hbar]; rfl⟩, hframe, himages⟩

end Handled

theorem handled_of_handle {message : AppMessage E} (h : app.handle message = .ok mid) :
    Handled app mid := by
  cases handle_eq_ok h with
  | edited => exact .of_bar_eq rfl rfl rfl
  | flung => exact .of_bar_eq rfl rfl rfl
  | @touched touch bar host used touching =>
      have hcall : app.bar.call (.touch app.host touch) = .ok (bar, .touched host used) :=
        Checked.bind_eq_ok_iff.2 ⟨_, touching, rfl⟩
      exact .of_call (.touch app.host touch) trivial hcall rfl rfl
  | stripResized width height => exact .of_call (.resize width height) trivial rfl rfl rfl
  | windowResized width height => exact .of_call (.resize app.bar.width _) trivial rfl rfl rfl
  | elapsed token => exact .of_call (.timerElapsed token) trivial rfl rfl rfl

theorem handled_of_deliver {changes : List (ListenerId × ScrollChange)}
    (h : app.deliver changes = .ok mid) : Handled app mid ∧ mid.host = app.host := by
  -- By induction on the changes; each one for the scrollbar is a scroll event of the same host.
  induction changes generalizing app with
  | nil =>
      cases h
      exact ⟨Handled.refl _, rfl⟩
  | cons change rest ih =>
      unfold deliver at h
      split at h
      · rcases Checked.bind_eq_ok_iff.1 h with ⟨bar, hscrolled, hrest⟩
        rcases ih hrest with ⟨hhandled, hhost⟩
        have hcall : app.bar.call (.hostScrolled app.host) = .ok (bar, .done) :=
          Checked.bind_eq_ok_iff.2 ⟨bar, hscrolled, rfl⟩
        have hfirst : Handled app { app with bar := bar } :=
          .of_call (.hostScrolled app.host) trivial hcall rfl rfl
        exact ⟨hfirst.trans hhandled, hhost⟩
      · exact ih h

/-! ## A whole message -/

/-- The stages of a message: events, with no change left to be told, then a frame, then the timers
to arm. -/
theorem update_eq_ok {message : AppMessage E} {requests : List TimerRequest}
    (h : app.update message = .ok (after, requests)) :
    ∃ mid drawn : App D, Handled app mid ∧ mid.host.listeners.queue = [] ∧
      mid.redraw = .ok drawn ∧ after = { drawn with bar := drawn.bar.takeRequests.1 } ∧
        requests = drawn.bar.takeRequests.2 := by
  rcases exists_stages_of_update h with
    ⟨handled, mid, drawn, hhandle, hdeliver, hredraw, rfl, rfl⟩
  rcases handled_of_deliver hdeliver with ⟨hdelivered, hhost⟩
  have hdrained : Handled handled { handled with host := handled.host.drainChanges.1 } :=
    .of_bar_eq rfl rfl rfl
  have hmid : Handled app mid := (handled_of_handle hhandle).trans (hdrained.trans hdelivered)
  -- Telling a change scrolls no host, so that the queue stays as it was drained.
  have hqueue : mid.host.listeners.queue = [] := by
    rw [hhost]
    rfl
  exact ⟨mid, drawn, hmid, hqueue, hredraw, rfl, rfl⟩

/-- A frame is one call of the scrollbar, if it was asked for. -/
theorem exists_run_of_redraw {drawn : App D} (h : mid.redraw = .ok drawn) :
    ∃ (calls : List (Scrollbar.Call (EditorHost D))) (steps : Scrollbar.Steps (EditorHost D)),
      (∀ call ∈ calls, call.IsIndirect) ∧ mid.bar.run calls = .ok (drawn.bar, steps) ∧
        Scrollbar.handedOut steps = [] := by
  rcases redraw_eq_ok h with ⟨_, rfl⟩ | ⟨bar, frame?, hdraw, rfl⟩
  · exact ⟨[], [], by simp, rfl, rfl⟩
  · have hcall : mid.bar.call (.draw : Scrollbar.Call (EditorHost D)) = .ok (bar, .drawn frame?) :=
      Checked.bind_eq_ok_iff.2 ⟨_, hdraw, rfl⟩
    have hrun := Machine.run_singleton_eq_ok_iff.2 ⟨_, hcall, rfl⟩
    exact ⟨[.draw], _, by simp [Scrollbar.Call.IsIndirect], hrun, rfl⟩

/-- The scrollbar of the application goes through a run of calls that do not set its visibility, and
the run hands out the timers to arm. -/
theorem exists_run_of_update {message : AppMessage E} {requests : List TimerRequest}
    (h : app.update message = .ok (after, requests)) :
    ∃ (calls : List (Scrollbar.Call (EditorHost D))) (steps : Scrollbar.Steps (EditorHost D)),
      (∀ call ∈ calls, call.IsIndirect) ∧ app.bar.run calls = .ok (after.bar, steps) ∧
        Scrollbar.handedOut steps = requests := by
  rcases update_eq_ok h with ⟨mid, drawn, hhandled, _, hredraw, rfl, rfl⟩
  rcases hhandled.events with ⟨events, earlier, hevents, hrun⟩
  rcases exists_run_of_redraw hredraw with ⟨frames, later, hframes, hframe, hnone⟩
  have htake : drawn.bar.call (.takeRequests : Scrollbar.Call (EditorHost D)) =
      .ok (drawn.bar.takeRequests.1, .armed drawn.bar.takeRequests.2) := rfl
  have hlast := Machine.run_singleton_eq_ok_iff.2 ⟨_, htake, rfl⟩
  -- The three parts of the run: the events, the frame, and what is handed out.
  refine ⟨events ++ (frames ++ [.takeRequests]), _, ?_,
    Machine.run_append_eq_ok hrun (Machine.run_append_eq_ok hframe hlast), ?_⟩
  · intro call hcall
    rcases List.mem_append.1 hcall with hevent | hrest
    · exact (hevents call hevent).isIndirect
    · rcases List.mem_append.1 hrest with hmem | hmem
      · exact hframes call hmem
      · rw [List.mem_singleton.1 hmem]
        trivial
  · -- Only the last part hands anything out.
    have hquiet := (Scrollbar.undrawn_of_run hevents hrun).2
    rw [Scrollbar.handedOut_append, Scrollbar.handedOut_append, hquiet, hnone]
    exact List.append_nil _

end App

end OverlayScrollbar
