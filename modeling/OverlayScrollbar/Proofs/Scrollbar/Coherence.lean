import OverlayScrollbar.Proofs.Scrollbar.Change
import OverlayScrollbar.Proofs.Scrollbar.Setup

/-!
# Visibility and timers

A hidden thumb has no timer to come, and one that is seen and not held always has: it cannot stay on
the screen for ever, and it cannot start to fade when it is hidden.

- `Scrollbar.Coherent`           : the timers fit the visibility
- `Scrollbar.Coherent.keep`, `Scrollbar.coherent_of_live` and the lemmas beside them : when they do
- `Scrollbar.Coherent.of_change` : a call that does not set the visibility itself keeps them so
- `Scrollbar.Coherent.of_run`    : so does every run

Main statement: `run_timers_fit_visibility`, which also says that the requests of a run are handed
out once each.
-/

namespace OverlayScrollbar

namespace Scrollbar

variable {H : Type} [ScrollHost H]

/-- The timers fit the visibility. -/
structure Coherent (bar : Scrollbar) : Prop where
  linked_of_seen : bar.visibility ≠ .hidden → bar.linked = true
  idle_of_hidden : bar.visibility = .hidden → bar.timers.live = [] ∧ bar.timers.requests = []
  live_of_visible : bar.visibility = .visible → bar.timers.live ≠ []
  live_of_exiting : bar.visibility = .exiting → bar.timers.live ≠ [] ∨ bar.needsRedraw = true

/-! ## One call -/

theorem coherent_new (id : ListenerId) (settings : ScrollbarSettings) (tint : Color) :
    (new id settings tint).Coherent := by
  constructor <;> simp [new, Timers.empty]

theorem linked_of_shows {bar : Scrollbar} {call : Call H} (h : bar.shows call = true) :
    bar.linked = true := by
  rcases shows_iff.1 h with ⟨host, hhost, _⟩
  exact linked_of_hostToShow? hhost

/-- A thumb without a host is hidden. -/
theorem Coherent.hidden_of_unlinked {bar : Scrollbar} (h : bar.Coherent)
    (hunlinked : bar.linked = false) : bar.visibility = .hidden := by
  by_contra hseen
  have hlinked := h.linked_of_seen hseen
  cases hlinked.symm.trans hunlinked

variable {bar after : Scrollbar}

/-- A change that leaves visibility and timers leaves them fitting, if a thumb that waits to be drawn
while it fades still does so. -/
theorem Coherent.keep (h : bar.Coherent) (hlinked : bar.linked = true → after.linked = true)
    (hvisibility : after.visibility = bar.visibility) (htimers : after.timers = bar.timers)
    (hredraw : bar.visibility = .exiting → bar.needsRedraw = true → after.needsRedraw = true) :
    after.Coherent := by
  constructor
  · rw [hvisibility]
    exact fun hseen => hlinked (h.linked_of_seen hseen)
  · rw [hvisibility, htimers]
    exact h.idle_of_hidden
  · rw [hvisibility, htimers]
    exact h.live_of_visible
  · rw [hvisibility, htimers]
    exact fun hexiting => (h.live_of_exiting hexiting).imp_right (hredraw hexiting)

/-- A thumb that is held needs no timer. -/
theorem coherent_of_dragging (hlinked : after.linked = true)
    (hdragging : after.visibility = .dragging) : after.Coherent := by
  constructor <;> simp [hdragging, hlinked]

/-- A thumb that is seen may have any timers, as long as one of them is live. -/
theorem coherent_of_live (hlinked : after.linked = true) (hseen : after.visibility ≠ .hidden)
    (hlive : after.timers.live ≠ []) : after.Coherent :=
  ⟨fun _ => hlinked, fun hhidden => absurd hhidden hseen, fun _ => hlive, fun _ => Or.inl hlive⟩

/-- A thumb that fades may wait to be drawn instead. -/
theorem coherent_of_redraw (hlinked : after.linked = true) (hexiting : after.visibility = .exiting)
    (hredraw : after.needsRedraw = true) : after.Coherent := by
  constructor <;> simp [hexiting, hlinked, hredraw]

/-- A thumb that is hidden has no timers. -/
theorem coherent_of_cancelled {timers : Timers} (hhidden : after.visibility = .hidden)
    (htimers : after.timers = timers.cancelAll) : after.Coherent := by
  constructor <;> simp [hhidden, htimers]

theorem Coherent.seen_of_mem_live {token : TimerToken} (h : bar.Coherent)
    (hlive : token ∈ bar.timers.live) : bar.visibility ≠ .hidden := by
  intro hhidden
  rw [(h.idle_of_hidden hhidden).1] at hlive
  cases hlive

theorem seen_of_refuses {call : Call H} (h : bar.refuses call = true) : bar.visibility ≠ .hidden := by
  intro hhidden
  simp [refuses, hhidden] at h

theorem Coherent.of_change {call : Call H} {requests : List TimerRequest} (h : bar.Coherent)
    (hlinked : bar.linked = true → after.linked = true) (hindirect : call.IsIndirect)
    (hchange : Change bar call requests after) : after.Coherent := by
  cases hchange with
  | idle _ visibility _ timers redraw => exact h.keep hlinked visibility timers fun _ => redraw
  | framed steady visibility _ timers _ =>
      refine h.keep hlinked visibility timers fun hexiting _ => ?_
      -- A thumb that fades is linked, so that its frame takes a step of the fade.
      rcases steady with hunlinked | hsteady
      · cases (h.hidden_of_unlinked hunlinked).symm.trans hexiting
      · exact absurd hexiting hsteady
  | grabbed seen visibility _ _ _ =>
      exact coherent_of_dragging (hlinked (h.linked_of_seen seen)) visibility
  | dragged dragging visibility _ _ _ =>
      exact coherent_of_dragging (hlinked (h.linked_of_seen (by simp [dragging]))) visibility
  | shown shows visibility _ timers _ =>
      refine coherent_of_live (hlinked (linked_of_shows shows)) (by simp [visibility]) ?_
      rw [timers]
      exact Timers.live_scheduled_ne_nil _ _
  | refused refuses visibility _ timers _ =>
      -- It keeps its timers and gets one more.
      have hseen := seen_of_refuses refuses
      refine coherent_of_live (hlinked (h.linked_of_seen hseen)) (visibility ▸ hseen) ?_
      rw [timers]
      exact Timers.live_scheduled_ne_nil _ _
  | expired live visibility _ _ redraw =>
      -- The frame comes instead of the timer.
      exact coherent_of_redraw (hlinked (h.linked_of_seen (h.seen_of_mem_live live))) visibility redraw
  | faded fades visibility _ timers =>
      refine coherent_of_live (hlinked (exiting_of_fades fades).1) (by simp [visibility]) ?_
      rw [timers]
      exact Timers.live_scheduled_ne_nil _ _
  | vanished _ _ visibility _ timers => exact coherent_of_cancelled visibility timers
  | drained after_eq =>
      subst after_eq
      exact ⟨h.linked_of_seen, fun hhidden => ⟨(h.idle_of_hidden hhidden).1, rfl⟩,
        h.live_of_visible, h.live_of_exiting⟩
  | entered =>
      -- Here the invariant would break: the timers go, whatever the visibility.
      exact hindirect.elim

/-! ## Runs -/

/-- A run keeps the timers fitting the visibility and the tokens in order. -/
theorem Coherent.of_run {start bar : Scrollbar} {handed : List TimerToken} {calls : List (Call H)}
    {steps : Steps H} (hcoherent : start.Coherent) (horderly : start.timers.Orderly handed)
    (hindirect : ∀ call ∈ calls, call.IsIndirect)
    (h : start.run calls = .ok (bar, steps)) :
    bar.Coherent ∧
      bar.timers.Orderly (handed ++ (handedOut steps).map TimerRequest.token) := by
  refine Machine.run_invariant (fun bar steps =>
    bar.Coherent ∧ bar.timers.Orderly (handed ++ (handedOut steps).map TimerRequest.token))
    ?_ ?_ hindirect h
  · refine ⟨hcoherent, ?_⟩
    simpa [handedOut] using horderly
  · rintro before steps call answer after ⟨hbefore, hsofar⟩ hcall hstep
    have hchange := call_change hstep
    refine ⟨hbefore.of_change (call_settings hstep).2 hcall hchange, ?_⟩
    have hlast : handedOut [⟨before, call, answer, after⟩] = answer.requests := List.append_nil _
    rw [handedOut_append, hlast, List.map_append, ← List.append_assoc]
    exact hsofar.of_transition hchange.transition

/-- Every step of a run starts and ends with timers that fit the visibility. -/
theorem coherent_of_mem_steps {id : ListenerId} {settings : ScrollbarSettings} {tint : Color}
    {calls : List (Call H)} {bar : Scrollbar} {steps : Steps H}
    (hindirect : ∀ call ∈ calls, call.IsIndirect)
    (h : (new id settings tint).run calls = .ok (bar, steps)) :
    ∀ step ∈ steps, step.before.Coherent ∧ step.after.Coherent ∧
      step.before.call step.input = .ok (step.after, step.output) := by
  have hallowed := Machine.allowed_of_mem_steps hindirect h
  refine Machine.invariant_of_mem_steps Coherent (coherent_new id settings tint) ?_ hallowed h
  intro step hbefore hcall hstep
  exact hbefore.of_change (call_settings hstep).2 hcall (call_change hstep)

/-- In every state that a run reaches without setting the visibility itself, a hidden thumb has
neither a live timer nor a queued one, a visible thumb has a live timer, and a thumb that fades has
one or is about to be drawn. The queued tokens are live and increase, and no token is handed out
twice in the whole run. -/
theorem run_timers_fit_visibility {id : ListenerId} {settings : ScrollbarSettings} {tint : Color}
    {calls : List (Call H)} {bar : Scrollbar} {steps : Steps H}
    (hindirect : ∀ call ∈ calls, call.IsIndirect)
    (h : (new id settings tint).run calls = .ok (bar, steps)) :
    (bar.visibility = .hidden → bar.timers.live = [] ∧ bar.timers.requests = []) ∧
      (bar.visibility = .visible → bar.timers.live ≠ []) ∧
      (bar.visibility = .exiting → bar.timers.live ≠ [] ∨ bar.needsRedraw = true) ∧
      (∀ request ∈ bar.timers.requests, request.token ∈ bar.timers.live) ∧
      (bar.timers.requests.map TimerRequest.token).Nodup ∧
      (bar.timers.requests.map TimerRequest.token).Pairwise (· < ·) ∧
      ((handedOut steps).map TimerRequest.token).Nodup := by
  rcases (coherent_new id settings tint).of_run Timers.Orderly.empty hindirect h with
      ⟨hcoherent, horderly⟩
  rw [List.nil_append] at horderly
  -- The tokens that were handed out and the queued ones are two parts of one increasing list.
  have hsorted := List.pairwise_append.1 horderly.increasing
  refine ⟨hcoherent.idle_of_hidden, hcoherent.live_of_visible, hcoherent.live_of_exiting, ?_,
    hsorted.2.1.imp Nat.ne_of_lt, hsorted.2.1, hsorted.1.imp Nat.ne_of_lt⟩
  intro request hrequest
  exact horderly.queued_live request.token (List.mem_map_of_mem hrequest)

/-- A scroll, and a fade that has begun. -/
def fadingCalls : List (Call RecordedHost) :=
  [.link (some (hostOfContent 1000)), .resize 3 200, .hostScrolled (hostOfContent 1000), .draw,
    .takeRequests, .timerElapsed 1, .draw, .takeRequests]

/-- The theorem speaks of a run in which the thumb was shown and fades. -/
theorem run_timers_fit_visibility_fading :
    ∃ bar steps,
      (new 0 { ScrollbarSettings.standard with thumbHeight := 2 } (Color.solid 0 0 1)).run
          fadingCalls = .ok (bar, steps) ∧
        bar.visibility = .exiting ∧ (handedOut steps).map TimerRequest.token = [1, 2] ∧
        (bar.timers.live ≠ [] ∨ bar.needsRedraw = true) ∧
        ((handedOut steps).map TimerRequest.token).Nodup := by
  have hmap : ((new 0 { ScrollbarSettings.standard with thumbHeight := 2 }
      (Color.solid 0 0 1)).run fadingCalls).map (fun reached =>
        (reached.1.visibility, (handedOut reached.2).map TimerRequest.token)) =
      .ok (.exiting, [1, 2]) := by
    decide +kernel
  rcases Checked.map_eq_ok_iff.1 hmap with ⟨⟨bar, steps⟩, hrun, hreached⟩
  have hvisibility : bar.visibility = .exiting := congrArg Prod.fst hreached
  have hhanded := congrArg Prod.snd hreached
  have hindirect : ∀ call ∈ fadingCalls, call.IsIndirect := by
    simp [fadingCalls, Call.IsIndirect]
  have hfit := run_timers_fit_visibility hindirect hrun
  rcases hfit with ⟨_, _, hexiting, _, _, _, honce⟩
  exact ⟨bar, steps, hrun, hvisibility, hhanded, hexiting hvisibility, honce⟩

end Scrollbar

end OverlayScrollbar
