import OverlayScrollbar.Editor.Action
import OverlayScrollbar.Proofs.App.Settled
import OverlayScrollbar.Proofs.Scrollbar.Fade

/-!
# The thumb goes away

Every live timer was armed, and a thumb that is seen and not dragged has one. Each live timer that
comes back takes a step of the fade, and one that is not live changes nothing: after a number of
live timers that follows from the settings the thumb is hidden.

- `App.delivers`, `App.deliveries` : live timers that come back
- `App.update_of_stale`            : a timer that is not live changes nothing
- `App.remaining_of_update`        : a live one takes a step of the fade
- `App.remaining_of_run`           : some timers, one after another
- `App.exists_run_of_settled`      : and none of them faults

Main statement: `thumb_goes_away_of_run`.
-/

namespace OverlayScrollbar

namespace App

variable {D E : Type} [TextEditor D E] {settings : ScrollbarSettings} {handed : List TimerToken}
  {app mid after : App D} {message : AppMessage E} {requests : List TimerRequest}
  {token : TimerToken}

/-- The message brings a live timer back. -/
def delivers (app : App D) : AppMessage E → Bool
  | .timerFired token => app.bar.timers.isPending token
  | _ => false

/-- How many live timers a run has brought back. -/
def deliveries (steps : Steps D E) : Nat :=
  steps.countP fun step => step.before.delivers step.input

/-! ## One timer -/

/-- Without changes to tell, nothing is drained. -/
theorem drainChanges_of_queue_nil {host : EditorHost D} (h : host.listeners.queue = []) :
    host.drainChanges = (host, []) := by
  rcases host with ⟨document, tracker, ids, queue⟩
  dsimp only at h
  subst h
  rfl

/-- A message that leaves no change to be told leads to a frame and to the timers to arm. -/
theorem update_of_queue_nil (hhandle : app.handle message = .ok mid)
    (hqueue : mid.host.listeners.queue = []) :
    app.update message = (do
      let drawn ← mid.redraw
      return ({ drawn with bar := drawn.bar.takeRequests.1 }, drawn.bar.takeRequests.2)) := by
  unfold update
  rw [hhandle]
  dsimp only [bind, Except.bind]
  rw [drainChanges_of_queue_nil hqueue]
  rfl

/-- Between two messages a frame, if one is asked for, would be empty, as the last one was. -/
theorem redraw_of_settled (h : app.Settled settings handed) :
    app.redraw = .ok { app with bar := { app.bar with needsRedraw := false } } := by
  cases hredraw : app.bar.needsRedraw with
  | false =>
      have hsame : { app.bar with needsRedraw := false } = app.bar := by rw [← hredraw]
      rw [redraw_of_quiet hredraw, hsame]
  | true =>
      -- Only a hidden thumb is left with a frame to make.
      have hhidden := h.pictured.hidden_of_redraw hredraw
      have hdraw : app.bar.draw = .ok ({ app.bar with needsRedraw := false }, none) := by
        simp [Scrollbar.draw, hhidden]
      have hblank := h.pictured.blank_of_hidden hhidden
      rw [redraw_of_draw hredraw hdraw, ← hblank]
      dsimp only
      rw [h.synced]

/-- A timer that is not live changes nothing, but that an empty frame is not asked for again. -/
theorem update_of_stale (h : app.Settled settings handed) (hstale : token ∉ app.bar.timers.live) :
    app.update (.timerFired token) =
      .ok ({ app with bar := { app.bar with needsRedraw := false } }, []) := by
  have hhandle : app.handle (.timerFired token) = .ok app := by
    rw [handle, Scrollbar.timerElapsed_of_not_mem hstale]
  have hrequests : app.bar.timers.drain = (app.bar.timers, []) :=
    Timers.drain_of_no_requests h.no_requests
  rw [update_of_queue_nil hhandle h.no_changes, redraw_of_settled h]
  dsimp only [bind, Except.bind, pure, Except.pure, Scrollbar.takeRequests]
  rw [hrequests]

/-- Before a frame is made, a live timer that is over only makes the thumb fade. -/
theorem handle_of_live (hlive : token ∈ app.bar.timers.live) :
    app.handle (.timerFired token) = .ok { app with bar := app.bar.fading } := by
  rw [handle, Scrollbar.timerElapsed_of_mem hlive]

theorem seen_of_live (h : app.Settled settings handed) (hlive : token ∈ app.bar.timers.live) :
    app.bar.visibility ≠ .hidden := by
  intro hhidden
  rw [(h.coherent.idle_of_hidden hhidden).1] at hlive
  cases hlive

/-- A live timer that is over takes a step of the fade. -/
theorem remaining_of_live (hstep : settings.fadeStep ≠ 0) (h : app.Settled settings handed)
    (hlive : token ∈ app.bar.timers.live)
    (hupdate : app.update (.timerFired token) = .ok (after, requests)) :
    after.bar.remaining + 1 = app.bar.remaining ∧ after.bar.visibility ≠ .dragging ∧
      after.bar.timers.issued + after.bar.remaining ≤
        app.bar.timers.issued + app.bar.remaining := by
  have hseen := seen_of_live h hlive
  have hlinked : app.bar.fading.linked = true := h.coherent.linked_of_seen hseen
  have hfading : app.bar.fading.settings.fadeStep ≠ 0 := h.settings_eq ▸ hstep
  rw [update_of_queue_nil (handle_of_live hlive) h.no_changes] at hupdate
  rcases Checked.bind_eq_ok_iff.1 hupdate with ⟨drawn, hredraw, hafter⟩
  rcases redraw_eq_ok hredraw with ⟨hquiet, _⟩ | ⟨bar, frame?, hdraw, rfl⟩
  · exact absurd hquiet (by simp [Scrollbar.fading])
  · cases hafter
    have hframe := Scrollbar.remaining_of_draw hfading hlinked rfl hdraw
    -- The fade is as long as it was before it began.
    have hsame : app.bar.remaining = app.bar.fading.remaining := Scrollbar.remaining_of_seen hseen
    rw [hsame]
    exact hframe

/-- A timer that is over takes a step of the fade if it is live, and none if it is not. -/
theorem remaining_of_update (hstep : settings.fadeStep ≠ 0) (h : app.Settled settings handed)
    (hupdate : app.update (.timerFired token) = .ok (after, requests)) :
    (if app.delivers (.timerFired token : AppMessage E) = true then 1 else 0) + after.bar.remaining =
        app.bar.remaining ∧
      (app.bar.visibility ≠ .dragging → after.bar.visibility ≠ .dragging) ∧
      after.bar.timers.issued + after.bar.remaining ≤
        app.bar.timers.issued + app.bar.remaining := by
  by_cases hlive : token ∈ app.bar.timers.live
  · have hdelivers : app.delivers (.timerFired token : AppMessage E) = true :=
      Timers.isPending_iff.2 hlive
    rcases remaining_of_live hstep h hlive hupdate with ⟨hremaining, hfree, hissued⟩
    rw [if_pos hdelivers, Nat.add_comm]
    exact ⟨hremaining, fun _ => hfree, hissued⟩
  · have hdelivers : ¬app.delivers (.timerFired token : AppMessage E) = true :=
      fun hpending => hlive (Timers.isPending_iff.1 hpending)
    rw [update_of_stale h hlive] at hupdate
    cases hupdate
    rw [if_neg hdelivers, Nat.zero_add]
    exact ⟨rfl, fun hfree => hfree, Nat.le_refl _⟩

/-- A timer does not fault while there are words for the tokens of the fade. -/
theorem exists_update_of_settled (h : app.Settled settings handed)
    (hword : app.bar.timers.issued + app.bar.remaining < 2 ^ 64) (token : TimerToken) :
    ∃ result, app.update (.timerFired token) = .ok result := by
  by_cases hlive : token ∈ app.bar.timers.live
  · have hseen := seen_of_live h hlive
    have hnext : app.bar.timers.issued + 1 ≤ app.bar.timers.issued + app.bar.remaining := by
      rw [Scrollbar.remaining_of_seen hseen]
      exact Nat.add_le_add_left (Nat.le_add_right 1 _) _
    rw [update_of_queue_nil (handle_of_live hlive) h.no_changes]
    have hissued : app.bar.fading.timers.issued + 1 < 2 ^ 64 := Nat.lt_of_le_of_lt hnext hword
    -- The sprites of a thumb that is seen need not be drawn again, which might fault.
    have hdrawn := h.pictured.drawn_of_seen hseen
    rcases Scrollbar.exists_draw_of_exiting (rfl : app.bar.fading.visibility = .exiting) hissued
        hdrawn with ⟨⟨bar, frame?⟩, hdraw⟩
    exact Checked.exists_bind_eq_ok (redraw_of_draw rfl hdraw) ⟨_, rfl⟩
  · exact ⟨_, update_of_stale h hlive⟩

/-! ## Timers, one after another -/

theorem remaining_of_run (hstep : settings.fadeStep ≠ 0) (h : app.Settled settings handed)
    {tokens : List TimerToken} {steps : Steps D E}
    (hrun : app.run (tokens.map .timerFired) = .ok (after, steps)) :
    deliveries steps + after.bar.remaining = app.bar.remaining ∧
      (app.bar.visibility ≠ .dragging → after.bar.visibility ≠ .dragging) := by
  have htimers : ∀ message ∈ tokens.map (.timerFired : TimerToken → AppMessage E),
      ∃ token, message = .timerFired token := by
    intro message hmessage
    rcases List.mem_map.1 hmessage with ⟨token, _, rfl⟩
    exact ⟨token, rfl⟩
  refine (Machine.run_invariant (fun reached steps =>
    reached.Settled settings (handed ++ armed steps) ∧
      deliveries steps + reached.bar.remaining = app.bar.remaining ∧
        (app.bar.visibility ≠ .dragging → reached.bar.visibility ≠ .dragging))
    ?_ ?_ htimers hrun).2
  · refine ⟨?_, by simp [deliveries], fun hfree => hfree⟩
    simpa [armed] using h
  · -- What came back and what is left add up to what was left at first.
    rintro before sofar _ requests reached ⟨hbefore, hremaining, hfree⟩ ⟨token, rfl⟩ hupdate
    have hafter := settled_of_update hbefore hupdate
    rcases remaining_of_update hstep hbefore hupdate with ⟨hone, hkept, _⟩
    refine ⟨?_, ?_, fun happ => hkept (hfree happ)⟩
    · rw [armed_append, armed_singleton, ← List.append_assoc]
      exact hafter
    · rw [deliveries, List.countP_append, List.countP_singleton, Nat.add_assoc, hone]
      exact hremaining

theorem exists_run_of_settled (hstep : settings.fadeStep ≠ 0) (h : app.Settled settings handed)
    (hword : app.bar.timers.issued + app.bar.remaining < 2 ^ 64) (tokens : List TimerToken) :
    ∃ last later, app.run (tokens.map .timerFired) = .ok (last, later) := by
  induction tokens generalizing app handed with
  | nil => exact ⟨app, [], rfl⟩
  | cons token tokens ih =>
      rcases exists_update_of_settled h hword token with ⟨⟨after, requests⟩, hupdate⟩
      -- A token that was given out is taken off what is left, so that the words suffice further on.
      have hless := (remaining_of_update hstep h hupdate).2.2
      rcases ih (settled_of_update h hupdate) (Nat.lt_of_le_of_lt hless hword) with
          ⟨last, later, hrun⟩
      exact ⟨last, _, Machine.run_cons_eq_ok_iff.2 ⟨after, requests, later, hupdate, hrun, rfl⟩⟩

/-- Between two messages, a thumb that is seen and not dragged has a live timer, which was armed. -/
theorem exists_armed_of_seen (h : app.Settled settings handed) (hseen : app.bar.visibility ≠ .hidden)
    (hfree : app.bar.visibility ≠ .dragging) :
    ∃ token ∈ app.bar.timers.live, token ∈ handed := by
  have hlive : app.bar.timers.live ≠ [] := by
    cases hvisibility : app.bar.visibility with
    | hidden => exact absurd hvisibility hseen
    | dragging => exact absurd hvisibility hfree
    | visible => exact h.coherent.live_of_visible hvisibility
    | exiting =>
        -- A frame is not to come any more, so that it must be a timer.
        rcases h.coherent.live_of_exiting hvisibility with hlive | hredraw
        · exact hlive
        · exact absurd (h.pictured.hidden_of_redraw hredraw) hseen
  rcases List.exists_mem_of_ne_nil _ hlive with ⟨token, htoken⟩
  exact ⟨token, htoken, h.armed_of_live htoken⟩

/-- A timer of a run that is not live changes nothing. -/
theorem stale_of_mem_steps (h : app.Settled settings handed) {tokens : List TimerToken}
    {steps : Steps D E} (hrun : app.run (tokens.map .timerFired) = .ok (after, steps)) :
    ∀ step ∈ steps, step.before.delivers step.input = false →
      step.output = [] ∧
        step.after = { step.before with bar := { step.before.bar with needsRedraw := false } } ∧
        (step.before.bar.needsRedraw = true →
          step.before.bar.visibility = .hidden ∧ step.before.frame? = none) := by
  -- Each of the timers comes to an application with nothing left to be done.
  have hsettled := Machine.invariant_of_mem_steps
    (fun app : App D => ∃ handed, app.Settled settings handed) ⟨handed, h⟩
    (fun step ⟨_, hbefore⟩ (_ : True) hupdate => ⟨_, settled_of_update hbefore hupdate⟩)
    (fun _ _ => trivial) hrun
  intro step hmem hstale
  rcases hsettled step hmem with ⟨⟨_, hbefore⟩, _, hupdate⟩
  rcases List.mem_map.1 (Machine.input_mem_of_mem_steps hmem hrun) with ⟨token, _, htoken⟩
  rw [← htoken] at hstale hupdate
  have hnotlive : token ∉ step.before.bar.timers.live := by
    intro hlive
    cases (Timers.isPending_iff.2 hlive).symm.trans hstale
  rw [update_of_stale hbefore hnotlive] at hupdate
  rcases Prod.mk.inj (Except.ok.inj hupdate) with ⟨hafter, houtput⟩
  refine ⟨houtput.symm, hafter.symm, ?_⟩
  intro hredraw
  have hhidden := hbefore.pictured.hidden_of_redraw hredraw
  exact ⟨hhidden, hbefore.pictured.blank_of_hidden hhidden⟩

/-- After every run of an application with settings that can be worked with, each live timer was
armed in one message, and a thumb that is visible or fades has one. From then on, whatever timers
come back, in whatever order: none of them faults while there are words for the tokens, those that
are not live change nothing but an empty frame, at most `fadeLimit` are live, there is a live one as
long as the thumb is not hidden, and after `fadeLimit` live ones it is hidden, not painted, and no
timer is live. -/
theorem thumb_goes_away_of_run {launch : Launch} {messages : List (AppMessage E)} {app : App D}
    {steps : Steps D E} (hvalid : launch.settings.validate = .ok ())
    (hrun : (new launch).run messages = .ok (app, steps)) :
    (∀ token ∈ app.bar.timers.live, (armed steps).count token = 1) ∧
    (app.bar.visibility = .visible ∨ app.bar.visibility = .exiting →
      (∃ token ∈ app.bar.timers.live, token ∈ armed steps) ∧
      ∀ tokens : List TimerToken,
        (app.bar.timers.issued + launch.settings.scrollbar.fadeLimit < 2 ^ 64 →
          ∃ last later, app.run (tokens.map .timerFired) = .ok (last, later)) ∧
        ∀ last later, app.run (tokens.map .timerFired) = .ok (last, later) →
          (∀ step ∈ later, step.before.delivers step.input = false →
            step.output = [] ∧
              step.after =
                { step.before with bar := { step.before.bar with needsRedraw := false } } ∧
              (step.before.bar.needsRedraw = true →
                step.before.bar.visibility = .hidden ∧ step.before.frame? = none)) ∧
          deliveries later ≤ launch.settings.scrollbar.fadeLimit ∧
          (last.bar.visibility ≠ .hidden →
            ∃ token ∈ last.bar.timers.live, token ∈ armed (steps ++ later)) ∧
          (launch.settings.scrollbar.fadeLimit ≤ deliveries later →
            last.bar.visibility = .hidden ∧ last.frame? = none ∧ last.bar.timers.live = [])) := by
  have hstep := ScrollbarSettings.fadeStep_ne_zero_of_validate hvalid
  have hsettled := (settled_new D launch).of_run hrun
  rw [List.nil_append] at hsettled
  have hlimit : app.bar.remaining ≤ launch.settings.scrollbar.fadeLimit := by
    rw [← hsettled.settings_eq]
    exact Scrollbar.remaining_le_fadeLimit (hsettled.settings_eq ▸ hsettled.alpha_le)
  refine ⟨fun token hlive => hsettled.count_eq_one hlive, ?_⟩
  intro hseen
  have hshown : app.bar.visibility ≠ .hidden ∧ app.bar.visibility ≠ .dragging := by
    rcases hseen with hvisible | hexiting
    · simp [hvisible]
    · simp [hexiting]
  refine ⟨exists_armed_of_seen hsettled hshown.1 hshown.2, ?_⟩
  intro tokens
  constructor
  · intro hword
    have hless := Nat.add_le_add_left hlimit app.bar.timers.issued
    exact exists_run_of_settled hstep hsettled (Nat.lt_of_le_of_lt hless hword) tokens
  · intro last later hlater
    rcases remaining_of_run hstep hsettled hlater with ⟨hremaining, hfree⟩
    have hlast := hsettled.of_run hlater
    rw [← armed_append] at hlast
    have hdelivered : deliveries later ≤ app.bar.remaining := by
      rw [← hremaining]
      exact Nat.le_add_right _ _
    refine ⟨stale_of_mem_steps hsettled hlater, Nat.le_trans hdelivered hlimit, ?_, ?_⟩
    · intro hnothidden
      exact exists_armed_of_seen hlast hnothidden (hfree hshown.2)
    · intro hmany
      -- As many live timers came back as were left, so that none is left now.
      have hnone : last.bar.remaining = 0 := by omega
      have hhidden := Scrollbar.hidden_of_remaining hnone
      exact ⟨hhidden, hlast.pictured.blank_of_hidden hhidden,
        (hlast.coherent.idle_of_hidden hhidden).1⟩

/-- Four high lines, and a thumb that fades in two frames. -/
def highLines : Launch where
  fileName? := none
  text? := some "\n\n\n"
  settings :=
    { scrollbar :=
        { ScrollbarSettings.standard with fadeStep := 255, thumbWidth := 3, thumbHeight := 2 }
      editor := ⟨500, 1, "dark"⟩ }
  theme := Theme.dark

/-- The theorem speaks of a scroll and of timers of which the second is not live any more. -/
theorem thumb_goes_away_of_scroll :
    ∃ (app : App Document) (steps : _) (last : App Document) (later : _),
      highLines.settings.validate = .ok () ∧
        (new highLines).run [.editor (.scroll 1)] = .ok (app, steps) ∧
        app.bar.visibility = .visible ∧
        (∀ token ∈ app.bar.timers.live, (armed steps).count token = 1) ∧
        app.run ([1, 1, 2].map .timerFired) = .ok (last, later) ∧
        deliveries later ≤ highLines.settings.scrollbar.fadeLimit ∧
        last.bar.visibility = .hidden ∧ last.frame? = none ∧ last.bar.timers.live = [] := by
  have hmap : ((new highLines : App Document).run [.editor (.scroll 1)] >>= fun reached =>
      (reached.1.run ([1, 1, 2].map .timerFired)).map fun ended =>
        (reached.1.bar.visibility, deliveries ended.2)) = .ok (.visible, 2) := by
    decide +kernel
  rcases Checked.bind_eq_ok_iff.1 hmap with ⟨⟨app, steps⟩, hrun, hmap⟩
  rcases Checked.map_eq_ok_iff.1 hmap with ⟨⟨last, later⟩, hlater, hended⟩
  have hvisible : app.bar.visibility = .visible := congrArg Prod.fst hended
  have hdelivered : deliveries later = 2 := congrArg Prod.snd hended
  have hvalid : highLines.settings.validate = .ok () := by decide +kernel
  -- These settings allow no more steps of the fade than were taken.
  have hlimit : highLines.settings.scrollbar.fadeLimit = 2 := by
    simp [ScrollbarSettings.fadeLimit, ScrollbarSettings.fadeSteps, highLines,
      ScrollbarSettings.standard, Nat.ceilDiv_eq_add_pred_div]
  rcases thumb_goes_away_of_run hvalid hrun with ⟨honce, hseen⟩
  have htimers := ((hseen (Or.inl hvisible)).2 [1, 1, 2]).2 last later hlater
  rcases htimers with ⟨_, hle, _, hgone⟩
  have hhidden := hgone (by rw [hlimit, hdelivered])
  exact ⟨app, steps, last, later, hvalid, hrun, hvisible, honce, hlater, hle, hhidden⟩

end App

end OverlayScrollbar
