import OverlayScrollbar.Proofs.Scrollbar.Alike

/-!
# What a scrollbar does, whatever it paints

Two runs with the same calls, in which strips may have other widths and thumbs other colours, go
through the same states and ask the same of their hosts, even if one of them never paints anything.

- `Scrollbar.Call.Matches`  : calls that differ in width or colour alone
- `Scrollbar.SameConduct`   : two steps that do the same
- `Scrollbar.Alike.call`    : calls that match keep two scrollbars alike

Main statement: `run_conduct_of_look`.
-/

namespace OverlayScrollbar

namespace Scrollbar

variable {H : Type} [ScrollHost H] {bar other : Scrollbar}

/-! ## Calls that match -/

/-- The same call, with any two widths or colours, and hosts in which the same is read. A press is left
out: it hits the thumb or not, and this depends on the width. -/
inductive Call.Matches : Call H → Call H → Prop
  | link {host? host'? : Option H} (hsame : host'?.isSome = host?.isSome) :
      Matches (.link host?) (.link host'?)
  | hostScrolled {host host' : H} (hhost : SameReadings host host') :
      Matches (.hostScrolled host) (.hostScrolled host')
  | touch {host host' : H} {event : Touch} (hhost : SameReadings host host')
      (hevent : event.isPress = false) : Matches (.touch host event) (.touch host' event)
  | timerElapsed (token : TimerToken) : Matches (.timerElapsed token) (.timerElapsed token)
  | resize (width width' height : Single) : Matches (.resize width height) (.resize width' height)
  | recolor (tint tint' : Color) : Matches (.recolor tint) (.recolor tint')
  | draw : Matches .draw .draw
  | takeRequests : Matches .takeRequests .takeRequests
  | enter (visibility : Visibility) : Matches (.enter visibility) (.enter visibility)

/-- Two answers hand out the same timers, after the same was asked of the hosts; the other scrollbar
is the listener with the given number. -/
structure SameAnswer (id : ListenerId) (answer answer' : Answer (WatchedHost H)) : Prop where
  requests : answer'.requests = answer.requests
  asked : answer'.asked = answer.asked.map (HostRequest.withListener id)

omit [ScrollHost H] in
theorem SameAnswer.of_nothing {id : ListenerId} {answer answer' : Answer (WatchedHost H)}
    (hrequests : answer'.requests = answer.requests) (hasked : answer.asked = [])
    (hasked' : answer'.asked = []) : SameAnswer id answer answer' := by
  refine ⟨hrequests, ?_⟩
  rw [hasked, hasked', List.map_nil]

theorem SameReadings.watched {host host' : H} (h : SameReadings host host') :
    SameReadings (⟨host, []⟩ : WatchedHost H) ⟨host', []⟩ :=
  ⟨h.layoutHeight?, h.scrollY, h.height, h.lineHeight, h.scrollX⟩

namespace Alike

theorem link (h : bar.Alike other) (linked : Bool) :
    ({ bar with linked := bar.linked || linked } : Scrollbar).Alike
      { other with linked := other.linked || linked } :=
  ⟨h.settings, h.visibility, congrArg (· || linked) h.linked, h.pressed, h.alpha, h.timers,
    h.height, h.top, h.metrics⟩

/-- Linking asks a host if and only if it asks the other. -/
theorem call_link (h : bar.Alike other) {host? host'? : Option H}
    (hsame : host'?.isSome = host?.isSome) :
    Checked.Corresponds (fun x y => x.1.Alike y.1 ∧ SameAnswer other.id x.2 y.2)
      (bar.call (Call.link host?).watched) (other.call (Call.link host'?).watched) := by
  rintro ⟨after, answer⟩ ⟨after', answer'⟩ hcall hcall'
  have hasked : answer'.asked = answer.asked.map (HostRequest.withListener other.id) := by
    rw [asked_of_link hcall, asked_of_link hcall', hsame, h.linked]
    split
    · rfl
    · rfl
  cases (Scrollbar.call_link _ _).symm.trans hcall
  cases (Scrollbar.call_link _ _).symm.trans hcall'
  refine ⟨?_, rfl, hasked⟩
  rw [Option.isSome_map, Option.isSome_map, hsame]
  exact h.link _

/-- Calls that match keep two scrollbars alike. -/
theorem call {call call' : Call H} (h : bar.Alike other) (hcalls : call.Matches call') :
    Checked.Corresponds (fun x y => x.1.Alike y.1 ∧ SameAnswer other.id x.2 y.2)
      (bar.call call.watched) (other.call call'.watched) := by
  cases hcalls with
  | link hsame => exact h.call_link hsame
  | hostScrolled hhost =>
      refine (h.hostScrolled hhost.watched).bind ?_
      intro after after' hafter
      exact .ok ⟨hafter, .of_nothing rfl rfl rfl⟩
  | @touch host host' event hhost hevent =>
      have htouched : Checked.Corresponds
          (fun x y : Scrollbar × WatchedHost H × Bool => x.1.Alike y.1 ∧
            y.2.1.record = x.2.1.record.map (HostRequest.withListener other.id))
          (bar.touch ⟨host, []⟩ event) (other.touch ⟨host', []⟩ event) := by
        refine (h.touch hhost.watched rfl hevent).mono ?_
        rintro ⟨after, watched, used⟩ ⟨after', watched', used'⟩ htouch _ ⟨hafter, hrecord⟩
        -- A touch does not register, so that it asks the same whoever the listener is.
        have hasked := HostRequest.map_withListener other.id (isRegistration_of_touch rfl htouch)
        exact ⟨hafter, hrecord.trans hasked.symm⟩
      refine htouched.bind ?_
      rintro ⟨after, watched, used⟩ ⟨after', watched', used'⟩ ⟨hafter, hrecord⟩
      exact .ok ⟨hafter, rfl, hrecord⟩
  | timerElapsed token => exact .ok ⟨h.timerElapsed token, .of_nothing rfl rfl rfl⟩
  | resize width width' height => exact .ok ⟨h.resize width width' height, .of_nothing rfl rfl rfl⟩
  | recolor tint tint' => exact .ok ⟨h.recolor tint tint', .of_nothing rfl rfl rfl⟩
  | draw =>
      refine h.draw.bind ?_
      intro drawn drawn' hdrawn
      exact .ok ⟨hdrawn, .of_nothing rfl rfl rfl⟩
  | takeRequests =>
      exact .ok ⟨h.takeRequests.1, .of_nothing h.takeRequests.2 rfl rfl⟩
  | enter visibility => exact .ok ⟨h.enter visibility, .of_nothing rfl rfl rfl⟩

end Alike

/-! ## Runs -/

/-- Two steps lead to states that do not differ in conduct, and have asked the same of the hosts. The
tops are compared as numbers, so that the two zeros are one. -/
structure SameConduct (id : ListenerId)
    (step step' : Step Scrollbar (Call (WatchedHost H)) (Answer (WatchedHost H))) : Prop where
  visibility : step'.after.visibility = step.after.visibility
  linked : step'.after.linked = step.after.linked
  pressed : step'.after.pressed = step.after.pressed
  alpha : step'.after.alpha = step.after.alpha
  top : step'.after.top.rank? = step.after.top.rank?
  live : step'.after.timers.live = step.after.timers.live
  requests : step'.output.requests = step.output.requests
  asked : step'.output.asked = step.output.asked.map (HostRequest.withListener id)

omit [ScrollHost H] in
theorem Alike.sameConduct {id : ListenerId}
    {step step' : Step Scrollbar (Call (WatchedHost H)) (Answer (WatchedHost H))}
    (h : step.after.Alike step'.after) (hanswer : SameAnswer id step.output step'.output) :
    SameConduct id step step' :=
  ⟨h.visibility, h.linked, h.pressed, h.alpha, h.top, congrArg Timers.live h.timers,
    hanswer.requests, hanswer.asked⟩

/-- Two scrollbars with the same settings, of any two colours, do the same at every step of two runs
that match: their visibility, hold, alpha and place, their timers, and what they ask of their hosts do
not depend on width, colour or sprites. -/
theorem run_conduct_of_look {id id' : ListenerId} {settings : ScrollbarSettings}
    {tint tint' : Color} {calls calls' : List (Call H)} {steps steps' : Steps (WatchedHost H)}
    (hcalls : List.Forall₂ Call.Matches calls calls')
    (h : (new id settings tint).run (calls.map Call.watched) = .ok (bar, steps))
    (h' : (new id' settings tint').run (calls'.map Call.watched) = .ok (other, steps')) :
    List.Forall₂ (SameConduct id') steps steps' := by
  -- The calls of the two runs match once their hosts are watched.
  have hwatched : List.Forall₂ (fun input input' => ∃ call call' : Call H, call.Matches call' ∧
      input = call.watched ∧ input' = call'.watched)
      (calls.map Call.watched) (calls'.map Call.watched) := by
    rw [List.forall₂_map_left_iff, List.forall₂_map_right_iff]
    refine hcalls.imp ?_
    intro call call' hcall
    exact ⟨call, call', hcall, rfl, rfl⟩
  have hstart : (new id settings tint).Alike (new id' settings tint') ∧
      (new id' settings tint').id = id' := ⟨.refl_new id id' settings tint tint', rfl⟩
  refine (Machine.corresponds_of_steps (fun bar other => bar.Alike other ∧ other.id = id')
    (SameConduct id') ?_ hwatched hstart _ _ h h').2
  rintro before before' input input' ⟨hbefore, hid⟩ ⟨call, call', hcall, rfl, rfl⟩
  refine (hbefore.call hcall).mono ?_
  rintro ⟨after, answer⟩ ⟨after', answer'⟩ _ hstep ⟨hafter, hanswer⟩
  rw [hid] at hanswer
  exact ⟨⟨hafter, (call_wiring hstep).1.trans hid⟩, hafter.sameConduct hanswer⟩

/-- A scroll, a drag and a whole fade, in a strip of the given width. -/
def fadedCalls (width : Single) (tint : Color) : List (Call RecordedHost) :=
  [.link (some (hostOfContent 1000)), .resize width 200, .hostScrolled (hostOfContent 1000), .draw,
    .enter .dragging, .touch (hostOfContent 1000) (.moved 1 60), .recolor tint, .draw,
    .touch (hostOfContent 1000) .cancelled, .takeRequests, .timerElapsed 2, .draw, .draw]

theorem matches_fadedCalls (width width' : Single) (tint tint' : Color) :
    List.Forall₂ Call.Matches (fadedCalls width tint) (fadedCalls width' tint') := by
  have hhost : SameReadings (hostOfContent 1000) (hostOfContent 1000) := ⟨rfl, rfl, rfl, rfl, rfl⟩
  exact .cons (.link rfl) (.cons (.resize _ _ _) (.cons (.hostScrolled hhost) (.cons .draw
    (.cons (.enter _) (.cons (.touch hhost rfl) (.cons (.recolor _ _) (.cons .draw
      (.cons (.touch hhost rfl) (.cons .takeRequests (.cons (.timerElapsed _) (.cons .draw
        (.cons .draw .nil))))))))))))

/-- A small thumb that fades in one step. -/
def quickSettings : ScrollbarSettings :=
  { ScrollbarSettings.standard with thumbHeight := 2, fadeStep := 200 }

/-- How many frames a run has painted. -/
def paintedCount (steps : Steps (WatchedHost RecordedHost)) : Nat :=
  steps.countP fun step =>
    match step.output with
    | .drawn (some _) => true
    | _ => false

/-- The theorem speaks of a run that paints three frames and one that paints none, in both of which
the thumb drags its host and goes away. -/
theorem run_conduct_of_look_unpainted :
    ∃ bar steps other steps',
      (new 0 quickSettings (Color.solid 0 0 1)).run
          ((fadedCalls 3 (Color.solid 0 1 0)).map Call.watched) = .ok (bar, steps) ∧
        (new 1 quickSettings (Color.solid 1 0 0)).run
          ((fadedCalls 0 (Color.solid 1 1 0)).map Call.watched) = .ok (other, steps') ∧
        bar.visibility = .hidden ∧ paintedCount steps = 3 ∧ paintedCount steps' = 0 ∧
        List.Forall₂ (SameConduct 1) steps steps' := by
  have hpainted : ((new 0 quickSettings (Color.solid 0 0 1)).run
      ((fadedCalls 3 (Color.solid 0 1 0)).map Call.watched)).map (fun reached =>
        (reached.1.visibility, paintedCount reached.2)) = .ok (.hidden, 3) := by
    decide +kernel
  have hblank : ((new 1 quickSettings (Color.solid 1 0 0)).run
      ((fadedCalls 0 (Color.solid 1 1 0)).map Call.watched)).map (fun reached =>
        paintedCount reached.2) = .ok 0 := by
    decide +kernel
  rcases Checked.map_eq_ok_iff.1 hpainted with ⟨⟨bar, steps⟩, hrun, hreached⟩
  rcases Checked.map_eq_ok_iff.1 hblank with ⟨⟨other, steps'⟩, hrun', hnone⟩
  have hmatch := matches_fadedCalls 3 0 (Color.solid 0 1 0) (Color.solid 1 1 0)
  exact ⟨bar, steps, other, steps', hrun, hrun', congrArg Prod.fst hreached,
    congrArg Prod.snd hreached, hnone, run_conduct_of_look hmatch hrun hrun'⟩

end Scrollbar

end OverlayScrollbar
