import OverlayScrollbar.Proofs.Scrollbar.Coherence

/-!
# How the thumb appears

The thumb becomes visible only over content that was measured and found long enough. A thumb that is
hidden has no timer, cannot be hit and does not fade, so that only a scroll brings it back.

- `Scrollbar.isJustified_of_hostToShow?` : the content is as long as it was found by the call
- `Scrollbar.isJustified_of_appears`     : a call that makes the thumb visible has found it long
- `Scrollbar.exists_hostScrolled_of_seen` : a call that a hidden thumb is seen after is a scroll

Main statement: `run_appears_by_scroll`.
-/

namespace OverlayScrollbar

namespace Scrollbar

variable {H : Type} [ScrollHost H] {bar after : Scrollbar} {call : Call H}
  {requests : List TimerRequest}

/-! ## Long content -/

/-- A call that is to show the thumb measures its host, and makes the thumb visible if it can. -/
theorem exists_measured {host : H} {answer : Answer H} (hhost : bar.hostToShow? call = some host)
    (h : bar.call call = .ok (after, answer)) :
    ∃ measured pressed, bar.measure host = .ok measured ∧
      scheduleAutoHide { measured.enter .visible with pressed := pressed } = .ok after := by
  cases call_eq_ok h with
  | scrolled scrolling =>
      rcases Option.ite_none_right_eq_some.1 hhost with ⟨⟨hlinked, hfree⟩, hother⟩
      cases hother
      rcases hostScrolled_eq_ok scrolling with ⟨hinactive, _⟩ | ⟨_, _, measured, hmeasured, hshown⟩
      · simp [hlinked, hfree] at hinactive
      · exact ⟨measured, (measured.enter .visible).pressed, hmeasured, hshown⟩
  | @touched _ _ event _ _ touching =>
      cases event with
      | released x y =>
          rcases Option.ite_none_right_eq_some.1 hhost with ⟨⟨hlinked, hseen⟩, hother⟩
          cases hother
          cases touch_eq_ok touching with
          | ended _ _ measuring _ releasing => exact ⟨_, false, measuring, releasing⟩
          | inert inactive => simp [hlinked, hseen] at inactive
          | passed _ _ _ _ passes => simp at passes
      | cancelled =>
          rcases Option.ite_none_right_eq_some.1 hhost with ⟨⟨hlinked, hdragging⟩, hother⟩
          cases hother
          cases touch_eq_ok touching with
          | ended _ _ measuring _ releasing => exact ⟨_, false, measuring, releasing⟩
          | inert inactive => simp [hlinked, hdragging] at inactive
          | passed _ _ _ free _ => exact absurd hdragging free
      | _ => cases hhost
  | _ => cases hhost

theorem isJustified_of_hostToShow? {host : H} {answer : Answer H}
    (hhost : bar.hostToShow? call = some host) (h : bar.call call = .ok (after, answer)) :
    after.isJustified = bar.findsLong host := by
  rcases exists_measured hhost h with ⟨measured, pressed, hmeasured, hshown⟩
  have hafter : after.isJustified = measured.isJustified := by
    rcases scheduleAutoHide_enter_visible hshown with ⟨_, rfl⟩ | ⟨_, _, rfl⟩ | ⟨_, _, rfl⟩
    · rfl
    · rfl
    · rfl
  exact hafter.trans (measure_eq_ok (linked_of_hostToShow? hhost) hmeasured).2

theorem isJustified_of_appears {answer : Answer H} (hbefore : bar.visibility ≠ .visible)
    (hafter : after.visibility = .visible) (h : bar.call call = .ok (after, answer)) :
    after.isJustified = true := by
  -- Of all changes only a showing and an entering end with a visible thumb that was not one before.
  have hchange := call_change h
  generalize answer.requests = requests at hchange
  cases hchange with
  | shown shows _ _ _ _ =>
      rcases shows_iff.1 shows with ⟨host, hhost, hlong⟩
      exact (isJustified_of_hostToShow? hhost h).trans hlong
  | entered justified after_eq =>
      subst after_eq
      exact justified hafter
  | idle _ visibility _ _ _ => exact absurd (visibility.symm.trans hafter) hbefore
  | framed _ visibility _ _ _ => exact absurd (visibility.symm.trans hafter) hbefore
  | refused _ visibility _ _ _ => exact absurd (visibility.symm.trans hafter) hbefore
  | drained after_eq =>
      subst after_eq
      exact absurd hafter hbefore
  | grabbed _ visibility _ _ _ => cases visibility.symm.trans hafter
  | dragged _ visibility _ _ _ => cases visibility.symm.trans hafter
  | expired _ visibility _ _ _ => cases visibility.symm.trans hafter
  | faded _ visibility _ _ => cases visibility.symm.trans hafter
  | vanished _ _ visibility _ _ => cases visibility.symm.trans hafter

theorem isJustified_iff : bar.isJustified = true ↔
    0 < bar.metrics.hostHeight ∧
      bar.settings.minContentRatio ≤ bar.metrics.contentHeight / bar.metrics.hostHeight := by
  unfold isJustified ScrollMetrics.isLong
  rw [Bool.and_eq_true, decide_eq_true_eq, decide_eq_true_eq]

/-! ## Hidden thumbs -/

theorem exists_hostScrolled_of_seen (h : bar.Coherent) (hindirect : call.IsIndirect)
    (hhidden : bar.visibility = .hidden) (hseen : after.visibility ≠ .hidden)
    (hchange : Change bar call requests after) :
    (∃ host, call = .hostScrolled host) ∧ bar.linked = true ∧ after.visibility = .visible := by
  cases hchange with
  | shown shows visibility _ _ _ =>
      rcases shows_iff.1 shows with ⟨host, hhost, _⟩
      exact ⟨⟨host, eq_hostScrolled_of_hidden hhost hhidden⟩, linked_of_hostToShow? hhost, visibility⟩
  | idle _ visibility _ _ _ => exact absurd (visibility.trans hhidden) hseen
  | framed _ visibility _ _ _ => exact absurd (visibility.trans hhidden) hseen
  | drained after_eq =>
      subst after_eq
      exact absurd hhidden hseen
  | grabbed seen _ _ _ _ => exact absurd hhidden seen
  | refused refuses _ _ _ _ => exact absurd hhidden (refuses_iff.1 refuses).1
  | dragged dragging _ _ _ _ => cases dragging.symm.trans hhidden
  | faded fades _ _ _ => cases (exiting_of_fades fades).2.1.symm.trans hhidden
  | vanished exiting _ _ _ _ => cases exiting.symm.trans hhidden
  | expired live _ _ _ _ =>
      -- A late timer finds no live token.
      rw [(h.idle_of_hidden hhidden).1] at live
      cases live
  | entered => exact hindirect.elim

/-! ## Runs -/

/-- A run without scrolls leaves a hidden thumb hidden. -/
theorem hidden_of_run {start last : Scrollbar} {calls : List (Call H)} {steps : Steps H}
    (hcoherent : start.Coherent) (hhidden : start.visibility = .hidden)
    (hindirect : ∀ step ∈ steps, step.input.IsIndirect)
    (hscroll : ∀ step ∈ steps, ∀ host, step.input ≠ .hostScrolled host)
    (h : start.run calls = .ok (last, steps)) : ∀ step ∈ steps, step.after.visibility = .hidden := by
  have hallowed : ∀ step ∈ steps,
      step.input.IsIndirect ∧ ∀ host, step.input ≠ .hostScrolled host := by
    intro step hmem
    exact ⟨hindirect step hmem, hscroll step hmem⟩
  -- The invariant carries coherence with it: without it a stale timer could act on a hidden thumb.
  have hkept := Machine.invariant_of_mem_steps
    (fun bar : Scrollbar => bar.Coherent ∧ bar.visibility = .hidden) ⟨hcoherent, hhidden⟩ ?_
    hallowed h
  · intro step hmem
    exact (hkept step hmem).2.1.2
  · rintro step ⟨hbefore, hbeforehidden⟩ ⟨hcall, hother⟩ hstep
    refine ⟨hbefore.of_change (call_settings hstep).2 hcall (call_change hstep), ?_⟩
    by_contra hseen
    rcases exists_hostScrolled_of_seen hbefore hcall hbeforehidden hseen (call_change hstep) with
        ⟨⟨host, hhost⟩, _⟩
    exact hother host hhost

/-- Every step of a run that makes the thumb visible, the visibility that is set included, ends with
measurements of a host that has a height, over content that is at least as many times as high as the
settings ask for. If the run does not set the visibility itself, every step after which a hidden
thumb is seen is a scroll of a host that is linked, and makes the thumb visible; so a thumb that has
gone stays hidden, whatever else comes, until there is a scroll. -/
theorem run_appears_by_scroll {id : ListenerId} {settings : ScrollbarSettings} {tint : Color}
    {calls : List (Call H)} {bar : Scrollbar} {steps : Steps H}
    (h : (new id settings tint).run calls = .ok (bar, steps)) :
    (∀ step ∈ steps, step.before.visibility ≠ .visible → step.after.visibility = .visible →
      0 < step.after.metrics.hostHeight ∧
        settings.minContentRatio ≤
          step.after.metrics.contentHeight / step.after.metrics.hostHeight) ∧
    ((∀ call ∈ calls, call.IsIndirect) →
      (∀ step ∈ steps, step.before.visibility = .hidden → step.after.visibility ≠ .hidden →
        (∃ host, step.input = .hostScrolled host) ∧ step.before.linked = true ∧
          step.after.visibility = .visible) ∧
      ∀ earlier step later, steps = earlier ++ step :: later → step.after.visibility = .hidden →
        (∀ other ∈ later, ∀ host, other.input ≠ .hostScrolled host) →
          ∀ other ∈ later, other.after.visibility = .hidden) := by
  refine ⟨?_, ?_⟩
  · intro step hmem hbefore hafter
    rcases List.append_of_mem hmem with ⟨earlier, later, hsplit⟩
    rcases Machine.exists_run_of_append_eq hsplit h with ⟨_, _, _, _, hcall, _⟩
    have hlong := isJustified_iff.1 (isJustified_of_appears hbefore hafter hcall)
    rw [((settings_of_run h).2 step hmem).2] at hlong
    exact hlong
  · intro hindirect
    have hcoherent := coherent_of_mem_steps hindirect h
    have hinputs := Machine.allowed_of_mem_steps hindirect h
    refine ⟨?_, ?_⟩
    · intro step hmem hhidden hseen
      rcases hcoherent step hmem with ⟨hbefore, _, hcall⟩
      exact exists_hostScrolled_of_seen hbefore (hinputs step hmem) hhidden hseen
        (call_change hcall)
    · intro earlier step later hsplit hhidden hscroll
      rcases Machine.exists_run_of_append_eq hsplit h with ⟨_, _, _, _, _, hlater⟩
      subst hsplit
      have hafter := (hcoherent step (by simp)).2.1
      refine hidden_of_run hafter hhidden ?_ hscroll hlater
      intro other hother
      exact hinputs other (by simp [hother])

/-- A scroll, a fade of two frames, and what else may come then: timers, a touch, another size and
colour, and frames. -/
def goneCalls : List (Call RecordedHost) :=
  [.link (some (hostOfContent 1000)), .resize 3 200, .hostScrolled (hostOfContent 1000),
    .timerElapsed 1, .draw, .timerElapsed 2, .draw, .timerElapsed 2,
    .touch (hostOfContent 1000) (.pressed 1 1), .resize 4 100, .recolor (Color.solid 1 0 0), .draw]

/-- The visibilities before and after a step, and whether it is a scroll. -/
def passage (step : Step Scrollbar (Call H) (Answer H)) : Visibility × Visibility × Bool :=
  (step.before.visibility, step.after.visibility,
    match step.input with
    | .hostScrolled _ => true
    | _ => false)

/-- The theorem speaks of a thumb that was shown by a scroll and has gone. -/
theorem run_appears_by_scroll_gone :
    ∃ bar earlier step later,
      (new 0 { ScrollbarSettings.standard with thumbHeight := 2, fadeStep := 255 }
          (Color.solid 0 0 1)).run goneCalls = .ok (bar, earlier ++ step :: later) ∧
        step.before.visibility = .exiting ∧ step.after.visibility = .hidden ∧ later.length = 5 ∧
        (∀ other ∈ later, other.after.visibility = .hidden) ∧
        ∃ shown ∈ earlier,
          shown.before.visibility = .hidden ∧ shown.after.visibility = .visible ∧
            (∃ host, shown.input = .hostScrolled host) ∧ shown.before.linked = true ∧
            0 < shown.after.metrics.hostHeight ∧
            1.5 ≤ shown.after.metrics.contentHeight / shown.after.metrics.hostHeight := by
  have hmap : ((new 0 { ScrollbarSettings.standard with thumbHeight := 2, fadeStep := 255 }
      (Color.solid 0 0 1)).run goneCalls).map (fun reached => reached.2.map passage) =
      .ok [(.hidden, .hidden, false), (.hidden, .hidden, false), (.hidden, .visible, true),
        (.visible, .exiting, false), (.exiting, .exiting, false), (.exiting, .exiting, false),
        (.exiting, .hidden, false), (.hidden, .hidden, false), (.hidden, .hidden, false),
        (.hidden, .hidden, false), (.hidden, .hidden, false), (.hidden, .hidden, false)] := by
    decide +kernel
  rcases Checked.map_eq_ok_iff.1 hmap with ⟨⟨bar, steps⟩, hrun, hsteps⟩
  have hindirect : ∀ call ∈ goneCalls, call.IsIndirect := by
    simp [goneCalls, Call.IsIndirect]
  rcases run_appears_by_scroll hrun with ⟨hlong, hscroll⟩
  rcases hscroll hindirect with ⟨hleaves, hstays⟩
  rcases List.map_eq_append_iff.1 (hsteps.trans (List.take_append_drop 6 _).symm) with
      ⟨earlier, rest, hsplit, hearlier, hrest⟩
  rcases List.map_eq_cons_iff.1 hrest with ⟨step, later, rfl, hstep, hlater⟩
  simp only [passage, Prod.mk.injEq] at hstep
  dsimp only at hsplit
  subst hsplit
  refine ⟨bar, earlier, step, later, hrun, hstep.1, hstep.2.1, ?_, ?_, ?_⟩
  · simpa using congrArg List.length hlater
  · apply hstays earlier step later rfl hstep.2.1
    intro other hother host hinput
    have hmem : passage other ∈ later.map passage := List.mem_map_of_mem hother
    rw [hlater] at hmem
    simp [passage, hinput] at hmem
  · have hmem : (.hidden, .visible, true) ∈ earlier.map passage := by
      rw [hearlier]
      simp
    rcases List.mem_map.1 hmem with ⟨shown, hshown, hpassage⟩
    simp only [passage, Prod.mk.injEq] at hpassage
    have hin : shown ∈ earlier ++ step :: later := List.mem_append_left _ hshown
    rcases hleaves shown hin hpassage.1 (by simp [hpassage]) with ⟨hinput, hlinked, _⟩
    exact ⟨shown, hshown, hpassage.1, hpassage.2.1, hinput, hlinked,
      hlong shown hin (by simp [hpassage]) hpassage.2.1⟩

end Scrollbar

end OverlayScrollbar
