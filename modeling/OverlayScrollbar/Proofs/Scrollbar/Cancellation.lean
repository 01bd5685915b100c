import OverlayScrollbar.Proofs.Scrollbar.Entering

/-!
# Cancelled timers

A timer acts until a visibility is entered after it was scheduled, and never again from then on. To
be delivered counts as well, since a live timer makes the thumb enter its fade.

- `Scrollbar.GivesOut`         : a step schedules a token
- `Scrollbar.spent_of_run`     : a token that is spent stays so
- `Scrollbar.spent_of_entered` : a token is spent once a visibility was entered
- `Scrollbar.live_of_run`      : and live until then

Main statement: `run_timer_acts_until_entered`.
-/

namespace OverlayScrollbar

namespace Scrollbar

variable {H : Type} [ScrollHost H] {start last : Scrollbar} {calls : List (Call H)}
  {steps : Steps H} {token : TimerToken}

/-- The step schedules the token, which is given out between the states before and after it. -/
def GivesOut (step : Step Scrollbar (Call H) (Answer H)) (token : TimerToken) : Prop :=
  step.before.timers.issued < token ∧ token ≤ step.after.timers.issued

/-! ## Tokens in a run -/

theorem orderly_of_run {handed : List TimerToken} (horderly : start.timers.Orderly handed)
    (h : start.run calls = .ok (last, steps)) : ∃ handed, last.timers.Orderly handed := by
  refine Machine.invariant_of_steps (fun bar : Scrollbar => ∃ handed, bar.timers.Orderly handed)
    ⟨handed, horderly⟩ ?_ (fun _ _ => trivial) h
  rintro step ⟨_, hbefore⟩ (_ : True) hcall
  exact ⟨_, hbefore.of_transition (call_change hcall).transition⟩

theorem le_issued_of_run (hle : token ≤ start.timers.issued)
    (h : start.run calls = .ok (last, steps)) : token ≤ last.timers.issued := by
  refine Machine.invariant_of_steps (fun bar : Scrollbar => token ≤ bar.timers.issued) hle ?_
    (fun _ _ => trivial) h
  intro step hbefore (_ : True) hcall
  exact Nat.le_trans hbefore (call_change hcall).transition.issued_le

theorem spent_of_run (hspent : start.timers.Spent token) (h : start.run calls = .ok (last, steps)) :
    last.timers.Spent token := by
  refine Machine.invariant_of_steps (fun bar : Scrollbar => bar.timers.Spent token) hspent ?_
    (fun _ _ => trivial) h
  intro step hbefore (_ : True) hcall
  exact hbefore.of_transition (call_change hcall).transition

theorem live_of_run (hlive : token ∈ start.timers.live)
    (hstay : ∀ step ∈ steps, step.before.entered? step.input = none)
    (h : start.run calls = .ok (last, steps)) : token ∈ last.timers.live := by
  refine Machine.invariant_of_steps (fun bar : Scrollbar => token ∈ bar.timers.live) hlive ?_
    hstay h
  intro step hbefore hnone hcall
  have hentering := call_entering hcall
  rw [hnone] at hentering
  cases hentering with
  | stayed _ live => exact live token hbefore

/-- Wherever a visibility is entered, the run goes on with a token that is spent. -/
theorem spent_of_entered (hle : token ≤ start.timers.issued)
    (h : start.run calls = .ok (last, steps))
    (hentered : ∃ step ∈ steps, step.before.entered? step.input ≠ none) :
    last.timers.Spent token := by
  rcases hentered with ⟨step, hmem, hsome⟩
  rcases List.append_of_mem hmem with ⟨earlier, later, hsplit⟩
  rcases Machine.exists_run_of_append_eq hsplit h with ⟨_, _, _, hsofar, hcall, hmore⟩
  have hbefore : token ≤ step.before.timers.issued := le_issued_of_run hle hsofar
  have hspent : step.after.timers.Spent token := by
    have hentering := call_entering hcall
    generalize step.before.entered? step.input = visibility? at hsome hentering
    cases hentering with
    | stayed _ _ => exact absurd rfl hsome
    | entered spent => exact spent token hbefore
  exact spent_of_run hspent hmore

/-- A live timer that comes back makes the thumb enter its fade. -/
theorem entered?_of_live {bar : Scrollbar} (hlive : token ∈ bar.timers.live) :
    bar.entered? (.timerElapsed token : Call H) ≠ none := by
  have hentered : bar.entered? (.timerElapsed token : Call H) =
      if bar.timers.isPending token then some .exiting else none := rfl
  rw [hentered, if_pos (Timers.isPending_iff.2 hlive)]
  exact Option.some_ne_none _

/-! ## Delivery after a run -/

/-- After every run, whether or not it sets the visibility itself: a token that was given out in one
of its steps is ignored if some later call has entered a visibility, or was the return of the live
token. If no later call has done so, its return makes the thumb fade, with no timer left and a frame
asked for. A token that came back while it was live is ignored. -/
theorem run_timer_acts_until_entered {id : ListenerId} {settings : ScrollbarSettings} {tint : Color}
    {calls : List (Call H)} {bar : Scrollbar} {steps : Steps H}
    (h : (new id settings tint).run calls = .ok (bar, steps)) (token : TimerToken) :
    (∀ earlier step later, steps = earlier ++ step :: later → GivesOut step token →
      ((∃ other ∈ later, other.before.entered? other.input ≠ none ∨
          other.input = .timerElapsed token ∧ token ∈ other.before.timers.live) →
        bar.timerElapsed token = bar) ∧
      ((∀ other ∈ later, other.before.entered? other.input = none) →
        (bar.timerElapsed token).visibility = .exiting ∧
          (bar.timerElapsed token).timers.live = [] ∧
          (bar.timerElapsed token).timers.requests = [] ∧
          (bar.timerElapsed token).needsRedraw = true)) ∧
    ((∃ step ∈ steps, step.input = .timerElapsed token ∧ token ∈ step.before.timers.live) →
      bar.timerElapsed token = bar) := by
  refine ⟨?_, ?_⟩
  · intro earlier step later hsplit hgives
    rcases Machine.exists_run_of_append_eq hsplit h with ⟨_, _, _, _, hcall, hlater⟩
    refine ⟨?_, ?_⟩
    · rintro ⟨other, hmem, hcause⟩
      have hentered : other.before.entered? other.input ≠ none := by
        rcases hcause with hentered | ⟨hinput, hlive⟩
        · exact hentered
        · rw [hinput]
          exact entered?_of_live hlive
      have hspent := spent_of_entered hgives.2 hlater ⟨other, hmem, hentered⟩
      exact timerElapsed_of_not_mem hspent.not_live
    · intro hstay
      have hnew : token ∈ step.after.timers.live :=
        (call_change hcall).transition.mem_live hgives.1 hgives.2
      have hlive : token ∈ bar.timers.live := live_of_run hnew hstay hlater
      rw [timerElapsed_of_mem hlive]
      exact ⟨rfl, rfl, rfl, rfl⟩
  · rintro ⟨step, hmem, hinput, hlive⟩
    -- A live token was given out before, so that its return enters a visibility for it as well.
    rcases List.append_of_mem hmem with ⟨earlier, later, hsplit⟩
    rcases Machine.exists_run_of_append_eq hsplit h with ⟨_, _, _, hsofar, hcall, hlater⟩
    rcases orderly_of_run Timers.Orderly.empty hsofar with ⟨_, horderly⟩
    have hle : token ≤ step.before.timers.issued := horderly.le_issued_of_live hlive
    have hrest := Machine.run_cons_eq_ok_iff.2 ⟨_, _, _, hcall, hlater, rfl⟩
    have hentered : step.before.entered? step.input ≠ none := by
      rw [hinput]
      exact entered?_of_live hlive
    have hspent := spent_of_entered hle hrest ⟨_, List.mem_cons_self, hentered⟩
    exact timerElapsed_of_not_mem hspent.not_live

/-- Four scrolls: the first timer comes back, the fade is entered after the second, and the last
scroll finds content that has become short. -/
def cancellationCalls : List (Call RecordedHost) :=
  [.link (some (hostOfContent 1000)), .resize 24 200, .hostScrolled (hostOfContent 1000),
    .timerElapsed 1, .hostScrolled (hostOfContent 1000), .enter .exiting,
    .hostScrolled (hostOfContent 1000), .hostScrolled (hostOfContent 100)]

/-- The theorem speaks of a timer that came back, of one that was cancelled, and of one that is live
because the last scroll was refused. -/
theorem run_timer_acts_until_refused :
    ∃ bar steps,
      (new 0 ScrollbarSettings.standard (Color.solid 0 0 1)).run cancellationCalls =
          .ok (bar, steps) ∧
        bar.visibility = .visible ∧ bar.timerElapsed 1 = bar ∧ bar.timerElapsed 2 = bar ∧
        (bar.timerElapsed 3).visibility = .exiting ∧ (bar.timerElapsed 3).timers.live = [] ∧
        (bar.timerElapsed 3).timers.requests = [] ∧ (bar.timerElapsed 3).needsRedraw = true := by
  have hmap : ((new 0 ScrollbarSettings.standard (Color.solid 0 0 1)).run cancellationCalls).map
      (fun reached =>
        (reached.1.visibility,
          (reached.2.any fun step =>
            decide (step.input = .timerElapsed 1 ∧ 1 ∈ step.before.timers.live)),
          reached.2.map fun step =>
            (step.before.timers.issued, step.after.timers.issued,
              (step.before.entered? step.input).isSome))) =
      .ok (.visible, true,
        [(0, 0, false), (0, 0, false), (0, 1, true), (1, 1, true), (1, 2, true), (2, 2, true),
          (2, 3, true), (3, 4, false)]) := by
    decide +kernel
  rcases Checked.map_eq_ok_iff.1 hmap with ⟨⟨bar, steps⟩, hrun, hreached⟩
  have hvisible : bar.visibility = .visible := congrArg Prod.fst hreached
  have hreturned := congrArg (fun r => r.2.1) hreached
  have hsteps := congrArg (fun r => r.2.2) hreached
  have hdelivered : bar.timerElapsed 1 = bar := by
    apply (run_timer_acts_until_entered hrun 1).2
    simpa only [List.any_eq_true, decide_eq_true_eq] using hreturned
  have hcancelled : bar.timerElapsed 2 = bar := by
    rcases List.map_eq_append_iff.1 (hsteps.trans (List.take_append_drop 4 _).symm) with
        ⟨earlier, rest, hsplit, _, hrest⟩
    rcases List.map_eq_cons_iff.1 hrest with ⟨step, later, rfl, hstep, hlater⟩
    rcases List.map_eq_cons_iff.1 hlater with ⟨other, _, rfl, hother, _⟩
    simp only [Prod.mk.injEq] at hstep hother
    apply ((run_timer_acts_until_entered hrun 2).1 _ _ _ hsplit ?_).1
    · refine ⟨other, List.mem_cons_self, Or.inl ?_⟩
      exact Option.isSome_iff_ne_none.1 hother.2.2
    · constructor <;> simp [hstep]
  refine ⟨bar, steps, hrun, hvisible, hdelivered, hcancelled, ?_⟩
  rcases List.map_eq_append_iff.1 (hsteps.trans (List.take_append_drop 6 _).symm) with
      ⟨earlier, rest, hsplit, _, hrest⟩
  rcases List.map_eq_cons_iff.1 hrest with ⟨step, later, rfl, hstep, hlater⟩
  rcases List.map_eq_singleton_iff.1 hlater with ⟨other, rfl, hother⟩
  simp only [Prod.mk.injEq] at hstep hother
  apply ((run_timer_acts_until_entered hrun 3).1 _ _ _ hsplit ?_).2
  · intro later hmem
    rw [List.mem_singleton.1 hmem]
    simpa using hother.2.2
  · constructor <;> simp [hstep]

end Scrollbar

end OverlayScrollbar
