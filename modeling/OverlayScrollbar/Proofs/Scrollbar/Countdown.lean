import OverlayScrollbar.Proofs.Scrollbar.Coherence

/-!
# Countdowns

Whatever makes the thumb visible starts the auto-hide delay afresh, with no other timer left. A call
that is refused, or that takes a step of the fade, cancels nothing: its timer runs beside those that
are live.

- `Scrollbar.live_of_overlaps`    : a call that overlaps adds its timer to those that run
- `Scrollbar.length_live_le_one`  : any other call leaves at most one
- `Scrollbar.live_of_auto_hide`   : an auto-hide delay that does not overlap runs alone

Main statement: `run_live_length_le_one_iff`, which tells the runs with one countdown at a time.
-/

namespace OverlayScrollbar

namespace Scrollbar

variable {H : Type} [ScrollHost H] {bar after : Scrollbar} {call : Call H}
  {requests : List TimerRequest}

/-! ## One call -/

theorem live_of_overlaps (hchange : Change bar call requests after)
    (h : bar.overlaps call = true) :
    after.timers.live = bar.timers.live ++ [bar.timers.issued + 1] := by
  rcases overlaps_iff.1 h with ⟨_, hrefuses | hfades⟩
  · rw [(hchange.of_refuses hrefuses).2.2]
    rfl
  · rw [hchange.of_fades hfades]
    rfl

/-- A call that schedules without cancelling, and does not overlap, finds no timer that runs. -/
theorem idle_of_not_overlaps (h : ¬bar.overlaps call = true)
    (hschedules : bar.refuses call = true ∨ bar.fades call = true) : bar.timers.live = [] := by
  by_contra hlive
  exact h (overlaps_iff.2 ⟨hlive, hschedules⟩)

theorem length_live_le_one (hle : bar.timers.live.length ≤ 1) (hindirect : call.IsIndirect)
    (h : ¬bar.overlaps call = true) (hchange : Change bar call requests after) :
    after.timers.live.length ≤ 1 := by
  cases hchange with
  | idle _ _ _ timers _ => exact timers ▸ hle
  | framed _ _ _ timers _ => exact timers ▸ hle
  | dragged _ _ _ timers _ => exact timers ▸ hle
  | grabbed _ _ _ timers _ => simp [timers]
  | expired _ _ _ timers _ => simp [timers]
  | vanished _ _ _ _ timers => simp [timers]
  | shown _ _ _ timers _ => simp [timers]
  -- These two arm a timer without cancelling one: since they do not overlap, none is live before.
  | refused refuses _ _ timers _ =>
      have hidle := idle_of_not_overlaps h (Or.inl refuses)
      simp [timers, hidle]
  | faded fades _ _ timers =>
      have hidle := idle_of_not_overlaps h (Or.inr fades)
      simp [timers, hidle]
  | drained after_eq =>
      subst after_eq
      exact hle
  | entered => exact hindirect.elim

/-- A call that may show the thumb, and leaves it seen, shows it or is refused. -/
theorem shows_or_refuses_of_seen {host : H} (hchange : Change bar call requests after)
    (hhost : bar.hostToShow? call = some host) (hseen : after.visibility ≠ .hidden) :
    bar.shows call = true ∨ bar.refuses call = true := by
  cases hchange with
  | shown shows _ _ _ _ => exact Or.inl shows
  | refused refuses _ _ _ _ => exact Or.inr refuses
  | idle _ visibility _ _ _ =>
      cases hlong : bar.findsLong host with
      | true => exact Or.inl (shows_iff.2 ⟨host, hhost, hlong⟩)
      | false => exact Or.inr (refuses_iff.2 ⟨visibility ▸ hseen, host, hhost, hlong⟩)
  | _ => cases hhost

/-- An auto-hide delay that does not overlap leaves only its own token, and no older one comes
back. -/
theorem live_of_auto_hide (hchange : Change bar call requests after)
    (hstarts : bar.shows call = true ∨ bar.refuses call = true) (h : ¬bar.overlaps call = true) :
    after.timers.live = [bar.timers.issued + 1] ∧
      ∀ token ≤ bar.timers.issued, after.timers.Spent token := by
  rcases hstarts with hshows | hrefuses
  · have htimers := (hchange.of_shows hshows).2.2
    rw [htimers]
    exact ⟨rfl, fun token htoken => Timers.spent_of_restart htoken _⟩
  · -- Nothing was cancelled, but nothing was there to be cancelled.
    have htimers := (hchange.of_refuses hrefuses).2.2
    have hidle := idle_of_not_overlaps h (Or.inl hrefuses)
    have hspent : ∀ token ≤ bar.timers.issued, bar.timers.Spent token := by
      intro token htoken
      exact ⟨htoken, hidle ▸ List.not_mem_nil⟩
    rw [htimers]
    exact ⟨by simp [hidle], fun token htoken => (hspent token htoken).scheduled _⟩

/-! ## Runs -/

/-- A token that is spent is ignored whenever it comes back. -/
theorem after_eq_before_of_spent {start last : Scrollbar} {calls : List (Call H)}
    {steps : Steps H} {token : TimerToken} (hspent : start.timers.Spent token)
    (h : start.run calls = .ok (last, steps)) :
    ∀ step ∈ steps, step.input = .timerElapsed token → step.after = step.before := by
  have hkept := Machine.invariant_of_mem_steps (fun bar : Scrollbar => bar.timers.Spent token) hspent
    (fun step hbefore (_ : True) hcall => hbefore.of_transition (call_change hcall).transition)
    (fun _ _ => trivial) h
  intro step hmem hinput
  rcases hkept step hmem with ⟨hbefore, _, hcall⟩
  rw [hinput] at hcall
  have hafter : step.before.timerElapsed token = step.after :=
    congrArg Prod.fst (Except.ok.inj hcall)
  exact hafter.symm.trans (timerElapsed_of_not_mem hbefore.not_live)

/-- After every call of a run that does not set the visibility itself, at most one timer is live, if
and only if no call overlaps. A scroll or the end of a gesture that starts an auto-hide delay, and
does not overlap, leaves its own token as the only live one, and every older token that comes back
later in the run is ignored. A call that overlaps adds its token to those that are live. -/
theorem run_live_length_le_one_iff {id : ListenerId} {settings : ScrollbarSettings} {tint : Color}
    {calls : List (Call H)} {bar : Scrollbar} {steps : Steps H}
    (hindirect : ∀ call ∈ calls, call.IsIndirect)
    (h : (new id settings tint).run calls = .ok (bar, steps)) :
    ((∀ step ∈ steps, step.after.timers.live.length ≤ 1) ↔
      ∀ step ∈ steps, ¬step.before.overlaps step.input = true) ∧
    (∀ earlier step later, steps = earlier ++ step :: later →
      (step.before.hostToShow? step.input).isSome = true → step.after.visibility ≠ .hidden →
        ¬step.before.overlaps step.input = true →
          step.after.timers.live = [step.before.timers.issued + 1] ∧
            ∀ token ≤ step.before.timers.issued, ∀ other ∈ later,
              other.input = .timerElapsed token → other.after = other.before) ∧
    ∀ step ∈ steps, step.before.overlaps step.input = true →
      step.after.timers.live = step.before.timers.live ++ [step.before.timers.issued + 1] := by
  have hcoherent := coherent_of_mem_steps hindirect h
  refine ⟨⟨?_, ?_⟩, ?_, ?_⟩
  · -- A call that overlaps leaves two timers at least.
    intro hle step hmem hoverlaps
    rcases hcoherent step hmem with ⟨_, _, hcall⟩
    have hlive := live_of_overlaps (call_change hcall) hoverlaps
    have hpositive : 0 < step.before.timers.live.length :=
      List.length_pos_iff.2 (overlaps_iff.1 hoverlaps).1
    have hafter := hle step hmem
    rw [hlive, List.length_append, List.length_singleton] at hafter
    exact absurd hafter (Nat.not_le_of_lt (Nat.succ_lt_succ hpositive))
  · intro hfree step hmem
    have hallowed : ∀ step ∈ steps,
        step.input.IsIndirect ∧ ¬step.before.overlaps step.input = true := by
      intro step hmem
      exact ⟨hindirect step.input (Machine.input_mem_of_mem_steps hmem h), hfree step hmem⟩
    have hle := Machine.invariant_of_mem_steps
      (fun bar : Scrollbar => bar.timers.live.length ≤ 1) (by simp [new, Timers.empty])
      (fun step hbefore hstep hcall =>
        length_live_le_one hbefore hstep.1 hstep.2 (call_change hcall)) hallowed h
    exact (hle step hmem).2.1
  · -- The run is cut at the call, and goes on with tokens that are spent.
    intro earlier step later hsplit hmay hseen hfree
    rcases Machine.exists_run_of_append_eq hsplit h with ⟨_, _, _, _, hcall, hlater⟩
    rcases Option.isSome_iff_exists.1 hmay with ⟨host, hhost⟩
    have hstarts := shows_or_refuses_of_seen (call_change hcall) hhost hseen
    rcases live_of_auto_hide (call_change hcall) hstarts hfree with ⟨hlive, hspent⟩
    refine ⟨hlive, ?_⟩
    intro token htoken other hother
    exact after_eq_before_of_spent (hspent token htoken) hlater other hother
  · intro step hmem hoverlaps
    rcases hcoherent step hmem with ⟨_, _, hcall⟩
    exact live_of_overlaps (call_change hcall) hoverlaps

/-- Two scrolls over content of which the second finds some height, and the first timer's return. -/
def rescrollCalls (contentHeight : Single) : List (Call RecordedHost) :=
  [.link (some (hostOfContent 1000)), .resize 24 200, .hostScrolled (hostOfContent 1000),
    .hostScrolled (hostOfContent contentHeight), .timerElapsed 1]

/-- The theorem speaks of a second scroll over content that stays long: the first timer is
ignored. -/
theorem run_live_length_le_one_rescroll :
    ∃ bar steps,
      (new 0 ScrollbarSettings.standard (Color.solid 0 0 1)).run (rescrollCalls 1000) =
          .ok (bar, steps) ∧
        bar.timers.live = [2] ∧ bar.visibility = .visible ∧
        ∀ step ∈ steps, step.after.timers.live.length ≤ 1 := by
  have hmap : ((new 0 ScrollbarSettings.standard (Color.solid 0 0 1)).run
      (rescrollCalls 1000)).map (fun reached =>
        (reached.1.timers.live, reached.1.visibility,
          reached.2.all fun step => decide ¬step.before.overlaps step.input = true)) =
      .ok ([2], .visible, true) := by
    decide +kernel
  rcases Checked.map_eq_ok_iff.1 hmap with ⟨⟨bar, steps⟩, hrun, hreached⟩
  have hlive : bar.timers.live = [2] := congrArg Prod.fst hreached
  have hvisibility : bar.visibility = .visible := congrArg (fun r => r.2.1) hreached
  have hall := congrArg (fun r => r.2.2) hreached
  have hindirect : ∀ call ∈ rescrollCalls 1000, call.IsIndirect := by
    simp [rescrollCalls, Call.IsIndirect]
  have hfree : ∀ step ∈ steps, ¬step.before.overlaps step.input = true := by
    intro step hmem
    exact of_decide_eq_true (List.all_eq_true.1 hall step hmem)
  exact ⟨bar, steps, hrun, hlive, hvisibility, (run_live_length_le_one_iff hindirect hrun).1.2 hfree⟩

/-- A second scroll over content that has become short leaves two timers live, and the first of them
makes the thumb fade. -/
theorem run_live_two_short :
    ∃ bar steps,
      (new 0 ScrollbarSettings.standard (Color.solid 0 0 1)).run (rescrollCalls 100) =
          .ok (bar, steps) ∧
        (∀ call ∈ rescrollCalls 100, call.IsIndirect) ∧
        steps.map (fun step => step.after.timers.live) = [[], [], [1], [1, 2], []] ∧
        bar.visibility = .exiting := by
  have hmap : ((new 0 ScrollbarSettings.standard (Color.solid 0 0 1)).run
      (rescrollCalls 100)).map (fun reached =>
        (reached.2.map fun step => step.after.timers.live, reached.1.visibility)) =
      .ok ([[], [], [1], [1, 2], []], .exiting) := by
    decide +kernel
  rcases Checked.map_eq_ok_iff.1 hmap with ⟨⟨bar, steps⟩, hrun, hreached⟩
  have hlive := congrArg Prod.fst hreached
  have hvisibility : bar.visibility = .exiting := congrArg Prod.snd hreached
  have hindirect : ∀ call ∈ rescrollCalls 100, call.IsIndirect := by
    simp [rescrollCalls, Call.IsIndirect]
  exact ⟨bar, steps, hrun, hindirect, hlive, hvisibility⟩

end Scrollbar

end OverlayScrollbar
