import OverlayScrollbar.Proofs.Scrollbar.Requests

/-!
# A scrollbar without a host that is laid out

Before a host is linked, and as long as no host is laid out, a scrollbar does nothing, whatever comes:
each operation has a guard of its own against this, and none of them faults. It registers with the
first host that it is handed to link, and with no other.

- `Scrollbar.Inert`             : a hidden scrollbar that has measured nothing and scheduled nothing
- `Scrollbar.Answer.IsIdle`     : nothing comes of a call, and nothing is asked of a host but to listen
- `Scrollbar.Inert.exists_call` : a call that measures nothing leaves a scrollbar inert
- `Scrollbar.exists_run_of_blind` : so does a run, if it never measures
- `Scrollbar.registrations`     : the registrations that a run asks of its hosts
- `Scrollbar.registration_of_call` : a call registers if it links the first host
- `Scrollbar.registrations_of_run` : a run registers once, if it links a host

Main statement: `run_inert_until_laid_out`.
-/

namespace OverlayScrollbar

namespace Scrollbar

variable {H : Type} [ScrollHost H] {bar after : Scrollbar}

/-! ## Inert scrollbars -/

/-- The thumb is hidden and not held, at the top and at its full alpha; nothing was measured, and no
timer was ever scheduled. -/
structure Inert (maxAlpha : UInt8) (bar : Scrollbar) : Prop where
  hidden : bar.visibility = .hidden
  free : bar.pressed = false
  top_eq : bar.top = 0
  alpha_eq : bar.alpha = maxAlpha
  metrics_eq : bar.metrics = ScrollMetrics.empty
  timers_eq : bar.timers = Timers.empty

/-- Nothing comes of a call: no frame, no use of a touch, no timer to arm; and nothing is asked of a
host but to take a listener. -/
structure Answer.IsIdle (answer : Answer (WatchedHost H)) : Prop where
  blank : ∀ frame?, answer = .drawn frame? → frame? = none
  unused : ∀ watched used, answer = .touched watched used → used = false
  unarmed : answer.requests = []
  unasked : ∀ request ∈ answer.asked, request.isRegistration = true

omit [ScrollHost H] in
theorem isIdle_done : (.done : Answer (WatchedHost H)).IsIdle := by
  constructor <;> simp [Answer.requests, Answer.asked]

theorem inert_new (id : ListenerId) (settings : ScrollbarSettings) (tint : Color) :
    (new id settings tint).Inert settings.maxAlpha :=
  ⟨rfl, rfl, rfl, rfl, rfl, rfl⟩

/-! ## Guards -/

theorem measure_of_unlinked (hunlinked : bar.linked = false) (host : H) :
    bar.measure host = .ok bar := by
  simp [measure, hunlinked]

theorem touch_of_hidden (hhidden : bar.visibility = .hidden) (host : H) (event : Touch) :
    bar.touch host event = .ok (bar, host, false) := by
  simp [touch, hhidden]

theorem draw_of_hidden (hhidden : bar.visibility = .hidden) :
    bar.draw = .ok ({ bar with needsRedraw := false }, none) := by
  simp [draw, hhidden]

/-- A scrollbar measures nothing without a host, and nothing of a host that is not laid out. -/
theorem measure_of_not_laid_out {host : H}
    (hblind : bar.linked = false ∨ ScrollHost.layoutHeight? host = none) :
    bar.measure host = .ok bar := by
  rcases hblind with hunlinked | hlayout
  · exact measure_of_unlinked hunlinked host
  · apply measure_of_reading_none
    simp [reading?, hlayout]

namespace Inert

variable {maxAlpha : UInt8}

/-- What was never measured is not long, whatever ratio is asked for. -/
theorem isJustified_eq (h : bar.Inert maxAlpha) : bar.isJustified = false := by
  unfold isJustified ScrollMetrics.isLong
  rw [h.metrics_eq, Bool.and_eq_false_iff]
  exact Or.inl (decide_eq_false (Single.lt_irrefl 0))

theorem hostScrolled_eq (h : bar.Inert maxAlpha) {host : H}
    (hblind : bar.linked = false ∨ ScrollHost.layoutHeight? host = none) :
    bar.hostScrolled host = .ok bar := by
  unfold hostScrolled
  split
  · rfl
  · rw [measure_of_not_laid_out hblind]
    show (bar.enter .visible).scheduleAutoHide = .ok bar
    rw [enter_visible_of_not_isJustified h.isJustified_eq, scheduleAutoHide_of_hidden h.hidden]

theorem timerElapsed_eq (h : bar.Inert maxAlpha) (token : TimerToken) :
    bar.timerElapsed token = bar := by
  apply timerElapsed_of_not_mem
  rw [h.timers_eq]
  exact List.not_mem_nil

/-- A change of size, of colour or of the links leaves a scrollbar inert. -/
theorem of_kept (h : bar.Inert maxAlpha) (hvisibility : after.visibility = bar.visibility)
    (hpressed : after.pressed = bar.pressed) (hplace : after.top = bar.top)
    (halpha : after.alpha = bar.alpha) (hmetrics : after.metrics = bar.metrics)
    (htimers : after.timers = bar.timers) : after.Inert maxAlpha :=
  ⟨hvisibility.trans h.hidden, hpressed.trans h.free, hplace.trans h.top_eq, halpha.trans h.alpha_eq,
    hmetrics.trans h.metrics_eq, htimers.trans h.timers_eq⟩

/-- A call that measures nothing does not fault, and leaves a scrollbar inert. -/
theorem exists_call (h : bar.Inert maxAlpha) {call : Call H} (hindirect : call.IsIndirect)
    (hblind : bar.linked = false ∨
      ∀ host, call.host? = some host → ScrollHost.layoutHeight? host = none) :
    ∃ after answer, bar.call call.watched = .ok (after, answer) ∧ after.Inert maxAlpha ∧
      answer.IsIdle := by
  cases call with
  | link host? =>
      refine ⟨_, _, bar.call_link _, h.of_kept rfl rfl rfl rfl rfl rfl, ?_⟩
      constructor
      · simp
      · simp
      · rfl
      · rw [asked_of_link (bar.call_link _)]
        split <;> simp [HostRequest.isRegistration]
  | hostScrolled host =>
      have hscrolled : bar.hostScrolled (⟨host, []⟩ : WatchedHost H) = .ok bar :=
        h.hostScrolled_eq (hblind.imp_right fun hlayout => hlayout host rfl)
      exact ⟨bar, .done, Checked.bind_eq_ok_iff.2 ⟨bar, hscrolled, rfl⟩, h, isIdle_done⟩
  | touch host event =>
      -- A hidden thumb cannot be touched, whatever the host would tell.
      have htouched := touch_of_hidden h.hidden (⟨host, []⟩ : WatchedHost H) event
      refine ⟨bar, _, Checked.bind_eq_ok_iff.2 ⟨_, htouched, rfl⟩, h, ?_⟩
      constructor <;> simp [Answer.requests, Answer.asked]
  | timerElapsed token =>
      refine ⟨_, _, rfl, ?_, isIdle_done⟩
      rw [h.timerElapsed_eq token]
      exact h
  | resize width height =>
      refine ⟨_, _, rfl, ?_, isIdle_done⟩
      unfold resize
      split
      · exact h
      · exact h.of_kept rfl rfl rfl rfl rfl rfl
  | recolor tint =>
      refine ⟨_, _, rfl, ?_, isIdle_done⟩
      unfold recolor
      split
      · exact h
      · exact h.of_kept rfl rfl rfl rfl rfl rfl
  | draw =>
      have hdrawn := draw_of_hidden h.hidden
      refine ⟨_, _, Checked.bind_eq_ok_iff.2 ⟨_, hdrawn, rfl⟩, h.of_kept rfl rfl rfl rfl rfl rfl, ?_⟩
      constructor <;> simp [Answer.requests, Answer.asked]
  | takeRequests =>
      refine ⟨_, _, rfl, h.of_kept rfl rfl rfl rfl rfl ?_, ?_⟩
      · -- An inert scrollbar has nothing queued that could be handed out.
        show bar.timers.drain.1 = bar.timers
        rw [h.timers_eq]
        rfl
      · have hnone : bar.timers.requests = [] := by
          rw [h.timers_eq]
          rfl
        constructor <;> simp [hnone, Answer.requests, Answer.asked]
  | enter visibility => exact hindirect.elim

end Inert

/-! ## Registration -/

/-- The registrations that a run asks of its hosts. -/
def registrations (steps : Steps (WatchedHost H)) : List HostRequest :=
  steps.flatMap fun step => step.output.asked.filter HostRequest.isRegistration

omit [ScrollHost H] in
theorem registrations_append (earlier later : Steps (WatchedHost H)) :
    registrations (earlier ++ later) = registrations earlier ++ registrations later :=
  List.flatMap_append

/-- A call registers, and tells that it linked, if it is the first to be handed a host to link. -/
theorem registration_of_call {call : Call H} {answer : Answer (WatchedHost H)}
    (h : bar.call call.watched = .ok (after, answer)) :
    answer.asked.filter HostRequest.isRegistration =
        (if call.linksHost && !bar.linked then [.addListener bar.id] else []) ∧
      ((∃ watched?, answer = .linked watched? true) ↔
        (call.linksHost && !bar.linked) = true) := by
  cases call with
  | link host? =>
      have hasked := asked_of_link h
      cases (bar.call_link _).symm.trans h
      rw [hasked]
      cases host? with
      | none => simp [Call.linksHost]
      | some host =>
          cases bar.linked <;> simp [HostRequest.isRegistration, Call.linksHost]
  | touch host event =>
      cases call_eq_ok h with
      | @touched _ watched _ _ _ touching =>
          refine ⟨?_, by simp [Call.linksHost]⟩
          show watched.record.filter HostRequest.isRegistration = []
          rw [List.filter_eq_nil_iff]
          intro request hrequest
          exact Bool.eq_false_iff.1 (isRegistration_of_touch rfl touching request hrequest)
  | _ =>
      -- The calls that give back no host ask nothing.
      cases call_eq_ok h <;> simp [Answer.asked, Call.linksHost]

/-- A run has linked a scrollbar if one of its calls was handed a host to link, and has registered it
then, once. -/
theorem registrations_of_run {id : ListenerId} {settings : ScrollbarSettings} {tint : Color}
    {calls : List (Call H)} {steps : Steps (WatchedHost H)}
    (h : (new id settings tint).run (calls.map Call.watched) = .ok (bar, steps)) :
    bar.id = id ∧ bar.linked = (steps.any fun step => step.input.linksHost) ∧
      registrations steps = if bar.linked then [.addListener id] else [] := by
  have hwatched : ∀ input ∈ calls.map Call.watched, ∃ call : Call H, input = call.watched := by
    intro input hmem
    rcases List.mem_map.1 hmem with ⟨call, _, rfl⟩
    exact ⟨call, rfl⟩
  refine Machine.run_invariant (fun bar steps => bar.id = id ∧
    bar.linked = (steps.any fun step => step.input.linksHost) ∧
      registrations steps = if bar.linked then [.addListener id] else []) ⟨rfl, rfl, rfl⟩ ?_
    hwatched h
  rintro before sofar input answer after ⟨hid, hlinked, hsofar⟩ ⟨call, rfl⟩ hstep
  rcases call_wiring hstep with ⟨hkept, _, hafter⟩
  refine ⟨hkept.trans hid, ?_, ?_⟩
  · rw [hafter, hlinked, List.any_append]
    simp
  · -- The call registers only if nothing was registered before.
    have hlast : registrations [⟨before, call.watched, answer, after⟩] =
        answer.asked.filter HostRequest.isRegistration := List.append_nil _
    rw [registrations_append, hlast, hsofar, (registration_of_call hstep).1, hafter, hid,
      linksHost_watched]
    cases before.linked <;> simp

/-- The step is the first that is handed a host to link. -/
def IsFirstLink (earlier : Steps (WatchedHost H))
    (step : Step Scrollbar (Call (WatchedHost H)) (Answer (WatchedHost H))) : Prop :=
  step.input.linksHost = true ∧ ∀ other ∈ earlier, other.input.linksHost = false

/-- A scrollbar that has no host that is laid out stays inert over a whole run, which does not
fault. -/
theorem exists_run_of_blind {id : ListenerId} {settings : ScrollbarSettings} {tint : Color}
    {calls : List (Call H)} (hindirect : ∀ call ∈ calls, call.IsIndirect)
    (hblind : (∀ call ∈ calls, call.linksHost = false) ∨
      ∀ call ∈ calls, ∀ host, call.host? = some host → ScrollHost.layoutHeight? host = none) :
    ∃ bar steps, (new id settings tint).run (calls.map Call.watched) = .ok (bar, steps) ∧
      bar.Inert settings.maxAlpha ∧ ∀ step ∈ steps, step.output.IsIdle := by
  -- If no call links a host, the invariant says too that none is linked.
  suffices hrun : ∃ bar steps,
      (new id settings tint).run (calls.map Call.watched) = .ok (bar, steps) ∧
        (bar.Inert settings.maxAlpha ∧
          ((∀ call ∈ calls, call.linksHost = false) → bar.linked = false)) ∧
        ∀ step ∈ steps, step.output.IsIdle by
    rcases hrun with ⟨bar, steps, hrun, ⟨hinert, _⟩, hidle⟩
    exact ⟨bar, steps, hrun, hinert, hidle⟩
  have hwatched : ∀ input ∈ calls.map Call.watched, ∃ call ∈ calls, call.watched = input := by
    intro input hmem
    exact List.mem_map.1 hmem
  refine Machine.exists_run_of_steps (fun bar : Scrollbar => bar.Inert settings.maxAlpha ∧
    ((∀ call ∈ calls, call.linksHost = false) → bar.linked = false)) ?_ hwatched
    ⟨inert_new id settings tint, fun _ => rfl⟩
  rintro before input ⟨hbefore, hlinked⟩ ⟨call, hmem, rfl⟩
  have hnow : before.linked = false ∨
      ∀ host, call.host? = some host → ScrollHost.layoutHeight? host = none := by
    rcases hblind with hunlinked | hlayout
    · exact Or.inl (hlinked hunlinked)
    · exact Or.inr (hlayout call hmem)
  rcases hbefore.exists_call (hindirect call hmem) hnow with
      ⟨after, answer, hstep, hafter, hidle⟩
  refine ⟨after, answer, hstep, ⟨hafter, ?_⟩, hidle⟩
  intro hunlinked
  rw [(call_wiring hstep).2.2, hlinked hunlinked, linksHost_watched, hunlinked call hmem]
  rfl

theorem any_linksHost_of_run {start : Scrollbar} {calls : List (Call H)}
    {steps : Steps (WatchedHost H)} (h : start.run (calls.map Call.watched) = .ok (bar, steps)) :
    (steps.any fun step => step.input.linksHost) = calls.any Call.linksHost := by
  calc
    (steps.any fun step => step.input.linksHost) =
        (steps.map Step.input).any Call.linksHost := by rw [List.any_map]; rfl
    _ = (calls.map Call.watched).any Call.linksHost := by rw [Machine.map_input_of_run h]
    _ = calls.any Call.linksHost := by simp [List.any_map, Function.comp_def]

/-- A step tells that it linked, and asks its host for it, if it is the first to be handed a host to
link. -/
theorem link_of_run {id : ListenerId} {settings : ScrollbarSettings} {tint : Color}
    {calls : List (Call H)} {steps earlier later : Steps (WatchedHost H)}
    {step : Step Scrollbar (Call (WatchedHost H)) (Answer (WatchedHost H))}
    (hsteps : steps = earlier ++ step :: later)
    (h : (new id settings tint).run (calls.map Call.watched) = .ok (bar, steps)) :
    ((∃ watched?, step.output = .linked watched? true) ↔ IsFirstLink earlier step) ∧
      ((∃ other, HostRequest.addListener other ∈ step.output.asked) ↔ IsFirstLink earlier step) := by
  rcases Machine.exists_run_of_append_eq hsteps h with ⟨sofar, more, hcalls, hsofar, hstep, _⟩
  rcases List.map_eq_append_iff.1 hcalls with ⟨done, left, rfl, rfl, hleft⟩
  rcases List.map_eq_cons_iff.1 hleft with ⟨call, _, rfl, hcall, _⟩
  rcases registrations_of_run hsofar with ⟨_, hlinked, _⟩
  -- The scrollbar is linked before a step exactly if an earlier step has linked it.
  have hfirst : (call.linksHost && !step.before.linked) = true ↔ IsFirstLink earlier step := by
    rw [IsFirstLink, ← hcall, linksHost_watched, hlinked]
    simp
  rw [← hcall] at hstep
  rcases registration_of_call hstep with ⟨hasked, htells⟩
  refine ⟨htells.trans hfirst, Iff.trans ?_ hfirst⟩
  rw [HostRequest.exists_registration_iff, hasked]
  split
  · rename_i hlinks
    simp [hlinks]
  · rename_i hnot
    simp [hnot]

/-- As long as no host was linked, or no host was laid out, a scrollbar is inert and does not fault,
whatever comes. Of all hosts that it is handed to link, the first alone is asked to take it as a
listener, once, and that call alone tells that it linked. -/
theorem run_inert_until_laid_out {id : ListenerId} {settings : ScrollbarSettings} {tint : Color}
    {calls : List (Call H)} (hindirect : ∀ call ∈ calls, call.IsIndirect) :
    (∀ sofar, sofar <+: calls →
      ((∀ call ∈ sofar, call.linksHost = false) ∨
        ∀ call ∈ sofar, ∀ host, call.host? = some host → ScrollHost.layoutHeight? host = none) →
      ∃ bar steps, (new id settings tint).run (sofar.map Call.watched) = .ok (bar, steps) ∧
        bar.Inert settings.maxAlpha ∧ ∀ step ∈ steps, step.output.IsIdle) ∧
      ∀ bar steps, (new id settings tint).run (calls.map Call.watched) = .ok (bar, steps) →
        registrations steps = (if calls.any Call.linksHost then [.addListener id] else []) ∧
          ∀ earlier step later, steps = earlier ++ step :: later →
            ((∃ watched?, step.output = .linked watched? true) ↔ IsFirstLink earlier step) ∧
            ((∃ other, HostRequest.addListener other ∈ step.output.asked) ↔
              IsFirstLink earlier step) := by
  constructor
  · intro sofar hpart hblind
    have hsofar : ∀ call ∈ sofar, call.IsIndirect := by
      intro call hcall
      exact hindirect call (hpart.subset hcall)
    exact exists_run_of_blind hsofar hblind
  · intro bar steps hrun
    constructor
    · rcases registrations_of_run hrun with ⟨_, hlinked, hregistered⟩
      rw [hregistered, hlinked, any_linksHost_of_run hrun]
    · intro earlier step later hsteps
      exact link_of_run hsteps hrun

/-- Calls with a host that is not laid out, before and after it was linked. -/
def earlyCalls : List (Call RecordedHost) :=
  [.touch RecordedHost.empty (.pressed 1 1), .link none, .hostScrolled RecordedHost.empty,
    .link (some RecordedHost.empty), .hostScrolled RecordedHost.empty, .resize 3 200,
    .timerElapsed 1, .draw, .takeRequests]

/-- Another host to link, which is laid out, and a scroll. -/
def lateCalls : List (Call RecordedHost) :=
  [.link (some (hostOfContent 1000)), .hostScrolled (hostOfContent 1000)]

/-- The theorem speaks of a run in which the thumb is shown at the end, and in which two of three
links are in vain. -/
theorem run_inert_until_laid_out_relinked :
    ∃ bar steps shown all,
      (new 7 ScrollbarSettings.standard (Color.solid 0 0 1)).run
          (earlyCalls.map Call.watched) = .ok (bar, steps) ∧
        bar.Inert ScrollbarSettings.standard.maxAlpha ∧
        (new 7 ScrollbarSettings.standard (Color.solid 0 0 1)).run
          ((earlyCalls ++ lateCalls).map Call.watched) = .ok (shown, all) ∧
        shown.visibility = .visible ∧ registrations all = [.addListener 7] := by
  have hindirect : ∀ call ∈ earlyCalls ++ lateCalls, call.IsIndirect := by
    decide +kernel
  have hlayout : ∀ call ∈ earlyCalls, ∀ host, call.host? = some host →
      ScrollHost.layoutHeight? host = none := by
    simp [earlyCalls, Call.host?, RecordedHost.empty, ScrollHost.layoutHeight?]
  have hmap : ((new 7 ScrollbarSettings.standard (Color.solid 0 0 1)).run
      ((earlyCalls ++ lateCalls).map Call.watched)).map (fun reached => reached.1.visibility) =
        .ok .visible := by
    decide +kernel
  rcases Checked.map_eq_ok_iff.1 hmap with ⟨⟨shown, all⟩, hrun, hshown⟩
  rcases @run_inert_until_laid_out RecordedHost _ 7 ScrollbarSettings.standard
    (Color.solid 0 0 1) _ hindirect with ⟨hinert, hregistered⟩
  rcases hinert earlyCalls (List.prefix_append _ _) (Or.inr hlayout) with
      ⟨bar, steps, hearly, hbar, _⟩
  exact ⟨bar, steps, shown, all, hearly, hbar, hrun, hshown, (hregistered shown all hrun).1⟩

end Scrollbar

end OverlayScrollbar
