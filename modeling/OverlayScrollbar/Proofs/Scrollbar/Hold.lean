import OverlayScrollbar.Proofs.Scrollbar.Coherence

/-!
# The hold

A thumb is dragged from the press that takes hold of it to the end of the gesture. There is one
exception: if the content has become short during the drag, the end of the gesture takes the hold
away, but the thumb stays dragged.

- `Scrollbar.HoldFits`           : the thumb is held exactly when it is dragged
- `Scrollbar.HoldFits.of_change` : every call keeps it so, but for a refusal during a drag
- `Scrollbar.not_holdFits_of_refuses` : and a refusal during a drag never does

Main statement: `run_pressed_iff_dragging`, which tells the runs in which the hold fits.
-/

namespace OverlayScrollbar

namespace Scrollbar

variable {H : Type} [ScrollHost H] {bar after : Scrollbar} {call : Call H}
  {requests : List TimerRequest}

/-- The thumb is held exactly when it is dragged, and no timer runs meanwhile. -/
structure HoldFits (bar : Scrollbar) : Prop where
  pressed_iff : bar.pressed = true ↔ bar.visibility = .dragging
  idle_of_dragging : bar.visibility = .dragging → bar.timers.live = []

/-! ## One call -/

theorem holdFits_new (id : ListenerId) (settings : ScrollbarSettings) (tint : Color) :
    (new id settings tint).HoldFits := by
  constructor <;> simp [new]

/-- A thumb that is neither held nor dragged fits. -/
theorem holdFits_of_free (hpressed : bar.pressed = false) (hfree : bar.visibility ≠ .dragging) :
    bar.HoldFits := by
  constructor
  · simp [hpressed, hfree]
  · exact fun hdragging => absurd hdragging hfree

/-- A call that changes none of the three keeps the hold. -/
theorem HoldFits.congr (h : bar.HoldFits) (hvisibility : after.visibility = bar.visibility)
    (hpressed : after.pressed = bar.pressed) (hlive : after.timers.live = bar.timers.live) :
    after.HoldFits := by
  constructor
  · rw [hpressed, hvisibility]
    exact h.pressed_iff
  · rw [hvisibility, hlive]
    exact h.idle_of_dragging

theorem HoldFits.pressed_eq_false (h : bar.HoldFits) (hfree : bar.visibility ≠ .dragging) :
    bar.pressed = false := by
  have hnot : ¬bar.pressed = true := fun hpressed => hfree (h.pressed_iff.1 hpressed)
  exact eq_false_of_ne_true hnot

omit [ScrollHost H] in
/-- What is still held of a thumb when a call that may show it is over: a drag is given up, and
nothing else was held. -/
theorem HoldFits.pressed_and_not_endsGesture (h : bar.HoldFits) {host : H}
    (hhost : bar.hostToShow? call = some host) : (bar.pressed && !call.endsGesture) = false := by
  by_cases hdragging : bar.visibility = .dragging
  · simp [endsGesture_of_dragging hhost hdragging]
  · simp [h.pressed_eq_false hdragging]

theorem HoldFits.of_change (h : bar.HoldFits) (hindirect : call.IsIndirect)
    (hfree : ¬(bar.visibility = .dragging ∧ bar.refuses call = true))
    (hchange : Change bar call requests after) : after.HoldFits := by
  cases hchange with
  | idle _ visibility pressed timers _ =>
      exact h.congr visibility pressed (congrArg Timers.live timers)
  | framed _ visibility pressed timers _ =>
      exact h.congr visibility pressed (congrArg Timers.live timers)
  | grabbed _ visibility pressed timers _ =>
      constructor <;> simp [visibility, pressed, timers]
  | dragged dragging visibility pressed timers _ =>
      constructor
      · simp [visibility, pressed]
      · rw [timers]
        exact fun _ => h.idle_of_dragging dragging
  | shown shows visibility pressed _ _ =>
      rcases shows_iff.1 shows with ⟨host, hhost, _⟩
      have hpressed := pressed.trans (h.pressed_and_not_endsGesture hhost)
      exact holdFits_of_free hpressed (by simp [visibility])
  | refused refuses visibility pressed _ _ =>
      rcases refuses_iff.1 refuses with ⟨_, host, hhost, _⟩
      have hpressed := pressed.trans (h.pressed_and_not_endsGesture hhost)
      -- A refusal leaves the thumb as it is, so that it must not have been dragged.
      have hfree : bar.visibility ≠ .dragging := fun hdragging => hfree ⟨hdragging, refuses⟩
      exact holdFits_of_free hpressed (visibility ▸ hfree)
  | expired live visibility pressed _ _ =>
      -- No timer runs during a drag.
      have hfree : bar.visibility ≠ .dragging := by
        intro hdragging
        rw [h.idle_of_dragging hdragging] at live
        cases live
      have hpressed := pressed.trans (h.pressed_eq_false hfree)
      exact holdFits_of_free hpressed (by simp [visibility])
  | faded fades visibility pressed _ =>
      have hexiting := (exiting_of_fades fades).2.1
      have hpressed := pressed.trans (h.pressed_eq_false (by simp [hexiting]))
      exact holdFits_of_free hpressed (by simp [visibility])
  | vanished exiting _ visibility pressed _ =>
      have hpressed := pressed.trans (h.pressed_eq_false (by simp [exiting]))
      exact holdFits_of_free hpressed (by simp [visibility])
  | drained after_eq =>
      subst after_eq
      exact h.congr rfl rfl rfl
  | entered => exact hindirect.elim

/-- A refusal during a drag gives up the hold of a thumb that stays dragged. -/
theorem not_holdFits_of_refuses (hdragging : bar.visibility = .dragging)
    (hrefuses : bar.refuses call = true) (hchange : Change bar call requests after) :
    after.pressed = false ∧ after.visibility = .dragging := by
  rcases hchange.of_refuses hrefuses with ⟨hvisibility, hpressed, _⟩
  rcases refuses_iff.1 hrefuses with ⟨_, host, hhost, _⟩
  have hends := endsGesture_of_dragging hhost hdragging
  constructor
  · simp [hpressed, hends]
  · exact hvisibility.trans hdragging

/-- The end of a gesture leaves a thumb dragged only if it was, and if it is refused. -/
theorem dragging_iff_of_endsGesture (h : bar.Coherent) (hends : call.endsGesture = true)
    (hchange : Change bar call requests after) :
    after.visibility = .dragging ↔ bar.visibility = .dragging ∧ bar.refuses call = true := by
  constructor
  · intro hafter
    cases hchange with
    | idle quiet visibility _ _ _ =>
        -- Over a host, the end of a drag either shows the thumb or is refused.
        have hdragging : bar.visibility = .dragging := visibility.symm.trans hafter
        have hlinked := h.linked_of_seen (by simp [hdragging])
        rcases exists_hostToShow? hends hdragging hlinked with ⟨host, hhost⟩
        simp only [schedules, Bool.or_eq_false_iff] at quiet
        cases hlong : bar.findsLong host with
        | true =>
            have hshows := shows_iff.2 ⟨host, hhost, hlong⟩
            cases hshows.symm.trans quiet.1.1
        | false =>
            exact ⟨hdragging, refuses_iff.2 ⟨by simp [hdragging], host, hhost, hlong⟩⟩
    | refused refuses visibility _ _ _ => exact ⟨visibility.symm.trans hafter, refuses⟩
    | shown _ visibility _ _ _ => cases visibility.symm.trans hafter
    | _ => cases hends
  · rintro ⟨hdragging, hrefuses⟩
    exact (not_holdFits_of_refuses hdragging hrefuses hchange).2

/-! ## Runs -/

/-- In the states of a run that does not set the visibility itself, the thumb is held exactly when
it is dragged if and only if no end of a gesture was refused during a drag: such a refusal is the
only way to leave a thumb dragged when the gesture is over. -/
theorem run_pressed_iff_dragging {id : ListenerId} {settings : ScrollbarSettings} {tint : Color}
    {calls : List (Call H)} {bar : Scrollbar} {steps : Steps H}
    (hindirect : ∀ call ∈ calls, call.IsIndirect)
    (h : (new id settings tint).run calls = .ok (bar, steps)) :
    ((∀ step ∈ steps, (step.after.pressed = true ↔ step.after.visibility = .dragging)) ↔
      ∀ step ∈ steps,
        ¬(step.before.visibility = .dragging ∧ step.before.refuses step.input = true)) ∧
    ∀ step ∈ steps, step.input.endsGesture = true →
      (step.after.visibility = .dragging ↔
        step.before.visibility = .dragging ∧ step.before.refuses step.input = true) := by
  have hcoherent := coherent_of_mem_steps hindirect h
  refine ⟨⟨?_, ?_⟩, ?_⟩
  · -- A refusal during a drag is seen at once, in the state that it leaves.
    rintro hfits step hmem ⟨hdragging, hrefuses⟩
    rcases hcoherent step hmem with ⟨_, _, hstep⟩
    have hleft := not_holdFits_of_refuses hdragging hrefuses (call_change hstep)
    have hpressed := (hfits step hmem).2 hleft.2
    cases hpressed.symm.trans hleft.1
  · -- Without a refusal during a drag, the hold fits from the first step to the last.
    intro hfree step hmem
    have hallowed : ∀ step ∈ steps, step.input.IsIndirect ∧
        ¬(step.before.visibility = .dragging ∧ step.before.refuses step.input = true) := by
      intro step hmem
      exact ⟨hindirect step.input (Machine.input_mem_of_mem_steps hmem h), hfree step hmem⟩
    have hfits := Machine.invariant_of_mem_steps HoldFits (holdFits_new id settings tint)
      (fun step hbefore hstep hcall => hbefore.of_change hstep.1 hstep.2 (call_change hcall))
      hallowed h
    exact (hfits step hmem).2.1.pressed_iff
  · intro step hmem hends
    rcases hcoherent step hmem with ⟨hbefore, _, hstep⟩
    exact dragging_iff_of_endsGesture hbefore hends (call_change hstep)

/-- A scroll over long content, a press on the thumb, and a release over content of some height. -/
def dragCalls (contentHeight : Single) : List (Call RecordedHost) :=
  [.link (some (hostOfContent 1000)), .resize 24 200, .hostScrolled (hostOfContent 1000),
    .touch (hostOfContent 1000) (.pressed 1 1),
    .touch (hostOfContent contentHeight) (.released 1 1)]

/-- The theorem speaks of a drag over content that stays long: its release is not refused. -/
theorem run_pressed_iff_dragging_long :
    ∃ bar steps,
      (new 0 ScrollbarSettings.standard (Color.solid 0 0 1)).run (dragCalls 1000) =
          .ok (bar, steps) ∧
        steps.map (fun step => step.after.visibility) =
          [.hidden, .hidden, .visible, .dragging, .visible] ∧
        ∀ step ∈ steps, (step.after.pressed = true ↔ step.after.visibility = .dragging) := by
  have hmap : ((new 0 ScrollbarSettings.standard (Color.solid 0 0 1)).run (dragCalls 1000)).map
      (fun reached =>
        (reached.2.map fun step => step.after.visibility,
          reached.2.all fun step =>
            decide ¬(step.before.visibility = .dragging ∧ step.before.refuses step.input = true))) =
      .ok ([.hidden, .hidden, .visible, .dragging, .visible], true) := by
    decide +kernel
  rcases Checked.map_eq_ok_iff.1 hmap with ⟨⟨bar, steps⟩, hrun, hreached⟩
  have hvisibility := congrArg Prod.fst hreached
  have hall := congrArg Prod.snd hreached
  have hindirect : ∀ call ∈ dragCalls 1000, call.IsIndirect := by
    simp [dragCalls, Call.IsIndirect]
  have hfree : ∀ step ∈ steps,
      ¬(step.before.visibility = .dragging ∧ step.before.refuses step.input = true) := by
    intro step hmem
    exact of_decide_eq_true (List.all_eq_true.1 hall step hmem)
  exact ⟨bar, steps, hrun, hvisibility, (run_pressed_iff_dragging hindirect hrun).1.2 hfree⟩

/-- A release over content that has become short leaves the thumb dragged, but not held. -/
theorem run_released_dragging_short :
    ∃ bar steps,
      (new 0 ScrollbarSettings.standard (Color.solid 0 0 1)).run (dragCalls 100) =
          .ok (bar, steps) ∧
        (∀ call ∈ dragCalls 100, call.IsIndirect) ∧
        ¬(bar.pressed = true ↔ bar.visibility = .dragging) ∧
        ∃ step ∈ steps, step.input.endsGesture = true ∧ step.after.visibility = .dragging := by
  have hmap : ((new 0 ScrollbarSettings.standard (Color.solid 0 0 1)).run (dragCalls 100)).map
      (fun reached =>
        (reached.1.pressed, reached.1.visibility,
          reached.2.any fun step =>
            step.input.endsGesture && decide (step.after.visibility = .dragging))) =
      .ok (false, .dragging, true) := by
    decide +kernel
  rcases Checked.map_eq_ok_iff.1 hmap with ⟨⟨bar, steps⟩, hrun, hreached⟩
  have hpressed : bar.pressed = false := congrArg Prod.fst hreached
  have hvisibility : bar.visibility = .dragging := congrArg (fun r => r.2.1) hreached
  have hstuck := congrArg (fun r => r.2.2) hreached
  have hindirect : ∀ call ∈ dragCalls 100, call.IsIndirect := by
    simp [dragCalls, Call.IsIndirect]
  refine ⟨bar, steps, hrun, hindirect, by simp [hpressed, hvisibility], ?_⟩
  simpa only [List.any_eq_true, Bool.and_eq_true, decide_eq_true_eq] using hstuck

end Scrollbar

end OverlayScrollbar
