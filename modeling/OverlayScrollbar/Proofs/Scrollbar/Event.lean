import OverlayScrollbar.Proofs.Scrollbar.Coherence

/-!
# Events

Events are the calls that reach a scrollbar from outside: scrolls, touches, timers and new sizes. An
event either asks for a frame, or leaves all that goes into the frame as it is.

- `Scrollbar.Call.IsEvent`   : the calls that are events
- `Scrollbar.Undrawn`        : what events leave of a scrollbar that is not drawn meanwhile
- `Scrollbar.undrawn_of_run` : events, one after another
-/

namespace OverlayScrollbar

namespace Scrollbar

variable {H : Type}

/-- The call reaches a scrollbar from outside. -/
def Call.IsEvent : Call H → Prop
  | .hostScrolled _ => True
  | .touch _ _ => True
  | .timerElapsed _ => True
  | .resize _ _ => True
  | _ => False

theorem Call.IsEvent.isIndirect {call : Call H} (h : call.IsEvent) : call.IsIndirect := by
  cases call with
  | enter _ => exact h
  | _ => trivial

/-- What events leave of a scrollbar that is not drawn meanwhile. -/
structure Undrawn (before after : Scrollbar) : Prop where
  settings : after.settings = before.settings
  alpha : after.alpha = before.alpha
  same_unless_redraw : after.needsRedraw = false →
    before.needsRedraw = false ∧ after.visibility = before.visibility ∧ after.setup = before.setup

namespace Undrawn

theorem refl (bar : Scrollbar) : Undrawn bar bar :=
  ⟨rfl, rfl, fun hquiet => ⟨hquiet, rfl, rfl⟩⟩

theorem trans {before mid after : Scrollbar} (hfirst : Undrawn before mid)
    (hsecond : Undrawn mid after) : Undrawn before after := by
  refine ⟨hsecond.settings.trans hfirst.settings, hsecond.alpha.trans hfirst.alpha, ?_⟩
  intro hquiet
  rcases hsecond.same_unless_redraw hquiet with ⟨hmid, hvisibility, hsetup⟩
  rcases hfirst.same_unless_redraw hmid with ⟨hbefore, hvisibility', hsetup'⟩
  exact ⟨hbefore, hvisibility.trans hvisibility', hsetup.trans hsetup'⟩

theorem of_setup {before after : Scrollbar} (hsetup : after.setup = before.setup)
    (hsame : after.needsRedraw = false →
      before.needsRedraw = false ∧ after.visibility = before.visibility) :
    Undrawn before after := by
  refine ⟨congrArg Setup.settings hsetup, congrArg Setup.alpha hsetup, ?_⟩
  intro hquiet
  exact ⟨(hsame hquiet).1, (hsame hquiet).2, hsetup⟩

end Undrawn

variable [ScrollHost H] {bar after : Scrollbar} {call : Call H}

/-- An event that asks for no frame does not change the visibility. -/
theorem Change.visibility_of_quiet {requests : List TimerRequest}
    (h : Change bar call requests after) (hevent : call.IsEvent)
    (hquiet : after.needsRedraw = false) :
    bar.needsRedraw = false ∧ after.visibility = bar.visibility := by
  cases h with
  | idle _ visibility _ _ redraw =>
      -- A frame that was asked for before would still be asked for.
      refine ⟨?_, visibility⟩
      by_contra hredraw
      have hasked := redraw (eq_true_of_ne_false hredraw)
      cases hasked.symm.trans hquiet
  | refused _ visibility _ _ redraw => exact ⟨redraw.symm.trans hquiet, visibility⟩
  | grabbed _ _ _ _ redraw => cases redraw.symm.trans hquiet
  | dragged _ _ _ _ redraw => cases redraw.symm.trans hquiet
  | shown _ _ _ _ redraw => cases redraw.symm.trans hquiet
  | expired _ _ _ _ redraw => cases redraw.symm.trans hquiet
  | _ => exact hevent.elim

theorem undrawn_of_call {answer : Answer H} (hevent : call.IsEvent)
    (h : bar.call call = .ok (after, answer)) : Undrawn bar after := by
  have hquiet := (call_change h).visibility_of_quiet hevent
  cases call_eq_ok h with
  | scrolled scrolling => exact .of_setup (setup_hostScrolled scrolling) hquiet
  | touched touching => exact .of_setup (setup_touch touching) hquiet
  | elapsed token => exact .of_setup (setup_timerElapsed bar token) hquiet
  | kept_size => exact Undrawn.refl bar
  | resized =>
      refine ⟨rfl, rfl, ?_⟩
      intro hredraw
      cases hredraw
  | _ => exact hevent.elim

/-- Events hand out no timers. -/
theorem requests_of_event {answer : Answer H} (hevent : call.IsEvent)
    (h : bar.call call = .ok (after, answer)) : answer.requests = [] := by
  have hchange := call_change h
  generalize hrequests : answer.requests = requests at hchange
  cases hchange with
  | drained => exact hevent.elim
  | _ => rfl

theorem undrawn_of_run {calls : List (Call H)} {steps : Steps H}
    (hevents : ∀ call ∈ calls, call.IsEvent)
    (h : bar.run calls = .ok (after, steps)) : Undrawn bar after ∧ handedOut steps = [] := by
  refine Machine.run_invariant (fun reached steps => Undrawn bar reached ∧ handedOut steps = [])
    ⟨Undrawn.refl bar, rfl⟩ ?_ hevents h
  rintro before sofar call answer reached ⟨hundrawn, hnone⟩ hevent hcall
  refine ⟨hundrawn.trans (undrawn_of_call hevent hcall), ?_⟩
  -- What is handed out only grows by the answers of the events, which hand out nothing.
  have hanswer := requests_of_event hevent hcall
  rw [handedOut_append, hnone]
  simp [handedOut, hanswer]

end Scrollbar

end OverlayScrollbar
