import OverlayScrollbar.Proofs.Run
import OverlayScrollbar.Scrollbar

/-!
# Calls of a scrollbar

A run of a scrollbar is a list of calls of its operations. Every call that needs a host is handed
one of its own, so that nothing is assumed about what a host does between two calls.

- `Scrollbar.Call`, `Scrollbar.Answer` : a call, and what it gives back
- `Scrollbar.call`, `Scrollbar.run`    : one call, and one after another
- `Scrollbar.Call.IsIndirect`          : calls that do not set the visibility themselves
- `Scrollbar.findsLong`                : the content that a call measures is long enough
- `Scrollbar.shows`, `Scrollbar.refuses`, `Scrollbar.fades`, `Scrollbar.overlaps` : what a call is
  about to do
-/

namespace OverlayScrollbar

namespace Scrollbar

/-! ## Calls and runs -/

/-- A call of an operation. -/
inductive Call (H : Type)
  | link (host? : Option H)
  | hostScrolled (host : H)
  | touch (host : H) (event : Touch)
  | timerElapsed (token : TimerToken)
  | resize (width height : Single)
  | recolor (tint : Color)
  | draw
  | takeRequests
  | enter (visibility : Visibility)
  deriving DecidableEq, Repr

/-- What a call gives back. -/
inductive Answer (H : Type)
  | done
  | linked (host? : Option H) (added : Bool)
  | touched (host : H) (used : Bool)
  | drawn (frame? : Option Frame)
  | armed (requests : List TimerRequest)
  deriving DecidableEq, Repr

/-- The timers that a call hands out. -/
def Answer.requests {H : Type} : Answer H → List TimerRequest
  | .armed requests => requests
  | _ => []

/-- The frame that a call paints. -/
def Answer.frame? {H : Type} : Answer H → Option Frame
  | .drawn frame? => frame?
  | _ => none

theorem Answer.frame?_eq_some_iff {H : Type} {answer : Answer H} {frame : Frame} :
    answer.frame? = some frame ↔ answer = .drawn (some frame) := by
  cases answer <;> simp [Answer.frame?]

/-- The call does not set the visibility itself. -/
def Call.IsIndirect {H : Type} : Call H → Prop
  | .enter _ => False
  | _ => True

instance {H : Type} (call : Call H) : Decidable call.IsIndirect := by
  cases call <;> unfold Call.IsIndirect <;> infer_instance

/-- The steps of a run. -/
abbrev Steps (H : Type) : Type :=
  List (Step Scrollbar (Call H) (Answer H))

variable {H : Type} [ScrollHost H]

/-- Carries out a call. -/
def call (bar : Scrollbar) : Call H → Checked (Scrollbar × Answer H)
  | .link host? =>
      let (bar, host?, added) := bar.link host?
      .ok (bar, .linked host? added)
  | .hostScrolled host => do return (← bar.hostScrolled host, .done)
  | .touch host event => do
      let (bar, host, used) ← bar.touch host event
      return (bar, .touched host used)
  | .timerElapsed token => .ok (bar.timerElapsed token, .done)
  | .resize width height => .ok (bar.resize width height, .done)
  | .recolor tint => .ok (bar.recolor tint, .done)
  | .draw => do
      let (bar, frame?) ← bar.draw
      return (bar, .drawn frame?)
  | .takeRequests =>
      let (bar, requests) := bar.takeRequests
      .ok (bar, .armed requests)
  | .enter visibility => .ok (bar.enter visibility, .done)

/-- Carries out calls one after another. -/
abbrev run (bar : Scrollbar) (calls : List (Call H)) : Checked (Scrollbar × Steps H) :=
  Machine.run call bar calls

/-- The timers that a run has handed out. -/
def handedOut (steps : Steps H) : List TimerRequest :=
  steps.flatMap fun step => step.output.requests

omit [ScrollHost H] in
theorem handedOut_append (earlier later : Steps H) :
    handedOut (earlier ++ later) = handedOut earlier ++ handedOut later :=
  List.flatMap_append

/-- A host whose content has the given height, seen through a view of ten lines. -/
def hostOfContent (contentHeight : Single) : RecordedHost :=
  { RecordedHost.empty with layout? := some contentHeight, height := 200, lineHeight := 20 }

/-! ## What a call is about to do -/

/-- The content is long enough for a thumb: that of the host if it is laid out, else what was
measured last. -/
def findsLong (bar : Scrollbar) (host : H) : Bool :=
  match ScrollHost.layoutHeight? host with
  | none => bar.isJustified
  | some contentHeight =>
      ScrollMetrics.isLong
        { bar.metrics with contentHeight := contentHeight, hostHeight := ScrollHost.height host }
        bar.settings.minContentRatio

/-- The host that a call measures before it makes the thumb visible, if it is to do so: a scroll
does unless the thumb is dragged, a release unless it is hidden, and a gesture that is taken away if
it was a drag. -/
def hostToShow? (bar : Scrollbar) : Call H → Option H
  | .hostScrolled host => if bar.linked ∧ bar.visibility ≠ .dragging then some host else none
  | .touch host (.released _ _) =>
      if bar.linked ∧ bar.visibility ≠ .hidden then some host else none
  | .touch host .cancelled =>
      if bar.linked ∧ bar.visibility = .dragging then some host else none
  | _ => none

/-- The call makes the thumb visible, with a new auto-hide delay. -/
def shows (bar : Scrollbar) (call : Call H) : Bool :=
  (bar.hostToShow? call).any fun host => bar.findsLong host

/-- The call is to make a thumb visible that is not hidden, but the content is too short. -/
def refuses (bar : Scrollbar) (call : Call H) : Bool :=
  decide (bar.visibility ≠ .hidden) && (bar.hostToShow? call).any fun host => !bar.findsLong host

/-- The call takes a step of the fade that is not the last. -/
def fades (bar : Scrollbar) : Call H → Bool
  | .draw =>
      bar.linked && decide (bar.visibility = .exiting) &&
        decide (bar.settings.fadeFloor < bar.alpha)
  | _ => false

/-- The call schedules a timer. -/
def schedules (bar : Scrollbar) (call : Call H) : Bool :=
  bar.shows call || bar.refuses call || bar.fades call

/-- The call schedules a timer beside one that runs. -/
def overlaps (bar : Scrollbar) (call : Call H) : Bool :=
  decide (bar.timers.live ≠ []) && (bar.refuses call || bar.fades call)

/-- The call ends a gesture. -/
def Call.endsGesture {H : Type} : Call H → Bool
  | .touch _ (.released _ _) => true
  | .touch _ .cancelled => true
  | _ => false

section Laws

variable {bar : Scrollbar} {call : Call H} {host : H}

omit [ScrollHost H] in
theorem linked_of_hostToShow? (h : bar.hostToShow? call = some host) : bar.linked = true := by
  cases call with
  | hostScrolled _ => exact (Option.ite_none_right_eq_some.1 h).1.1
  | touch _ event =>
      cases event with
      | released _ _ => exact (Option.ite_none_right_eq_some.1 h).1.1
      | cancelled => exact (Option.ite_none_right_eq_some.1 h).1.1
      | _ => cases h
  | _ => cases h

omit [ScrollHost H] in
/-- Only a scroll is to show a thumb that is hidden. -/
theorem eq_hostScrolled_of_hidden (h : bar.hostToShow? call = some host)
    (hhidden : bar.visibility = .hidden) : call = .hostScrolled host := by
  cases call with
  | hostScrolled other =>
      rcases Option.ite_none_right_eq_some.1 h with ⟨_, hother⟩
      cases hother
      rfl
  | touch _ event =>
      cases event with
      | released _ _ => simp [hostToShow?, hhidden] at h
      | cancelled => simp [hostToShow?, hhidden] at h
      | _ => cases h
  | _ => cases h

omit [ScrollHost H] in
theorem endsGesture_of_hidden (h : bar.hostToShow? call = some host)
    (hhidden : bar.visibility = .hidden) : call.endsGesture = false := by
  rw [eq_hostScrolled_of_hidden h hhidden]
  rfl

omit [ScrollHost H] in
/-- Only the end of a gesture is to show a thumb that is dragged. -/
theorem endsGesture_of_dragging (h : bar.hostToShow? call = some host)
    (hdragging : bar.visibility = .dragging) : call.endsGesture = true := by
  cases call with
  | touch _ event =>
      cases event with
      | released _ _ => rfl
      | cancelled => rfl
      | _ => simp [hostToShow?] at h
  | hostScrolled _ => simp [hostToShow?, hdragging] at h
  | _ => simp [hostToShow?] at h

omit [ScrollHost H] in
/-- The end of a gesture is to show a thumb that is dragged over a host. -/
theorem exists_hostToShow? (hends : call.endsGesture = true) (hdragging : bar.visibility = .dragging)
    (hlinked : bar.linked = true) : ∃ host, bar.hostToShow? call = some host := by
  cases call with
  | touch host event =>
      cases event with
      | released _ _ => exact ⟨host, by simp [hostToShow?, hlinked, hdragging]⟩
      | cancelled => exact ⟨host, by simp [hostToShow?, hlinked, hdragging]⟩
      | _ => cases hends
  | _ => cases hends

theorem shows_iff : bar.shows call = true ↔
    ∃ host, bar.hostToShow? call = some host ∧ bar.findsLong host = true := by
  unfold shows
  rw [Option.any_eq_true]

theorem refuses_iff : bar.refuses call = true ↔
    bar.visibility ≠ .hidden ∧
      ∃ host, bar.hostToShow? call = some host ∧ bar.findsLong host = false := by
  unfold refuses
  rw [Bool.and_eq_true, decide_eq_true_eq, Option.any_eq_true]
  simp only [Bool.not_eq_true']

/-- No call both shows the thumb and is refused. -/
theorem shows_eq_false_of_refuses (h : bar.refuses call = true) : bar.shows call = false := by
  rcases refuses_iff.1 h with ⟨_, host, hhost, hshort⟩
  simp [shows, hhost, hshort]

theorem overlaps_iff : bar.overlaps call = true ↔
    bar.timers.live ≠ [] ∧ (bar.refuses call = true ∨ bar.fades call = true) := by
  unfold overlaps
  rw [Bool.and_eq_true, decide_eq_true_eq, Bool.or_eq_true]

omit [ScrollHost H] in
theorem exiting_of_fades (h : bar.fades call = true) :
    bar.linked = true ∧ bar.visibility = .exiting ∧ bar.settings.fadeFloor < bar.alpha := by
  cases call with
  | draw =>
      simp only [fades, Bool.and_eq_true, decide_eq_true_eq] at h
      exact ⟨h.1.1, h.1.2, h.2⟩
  | _ => cases h

theorem schedules_of_none (h : bar.hostToShow? call = none) (hfades : bar.fades call = false) :
    bar.schedules call = false := by
  simp [schedules, shows, refuses, h, hfades]

omit [ScrollHost H] in
theorem fades_of_hostToShow? (h : bar.hostToShow? call = some host) : bar.fades call = false := by
  cases call with
  | draw => cases h
  | _ => rfl

end Laws

end Scrollbar

end OverlayScrollbar
