import OverlayScrollbar.Proofs.Scrollbar.Change

/-!
# Entering a visibility

A call enters a visibility when it sets it and is not refused, even if the thumb has that visibility
already. To the tokens that were given out before, this is all that matters: a call that enters a
visibility takes every one of them out, and any other call takes none out.

- `Scrollbar.grabs`, `Scrollbar.vanishes` : a press takes hold of the thumb, a frame ends the fade
- `Scrollbar.entered?`      : the visibility that a call enters
- `Scrollbar.Entering`      : what a call does to visibility and tokens
- `Scrollbar.call_entering` : every call that does not fault does it
-/

namespace OverlayScrollbar

namespace Scrollbar

variable {H : Type} [ScrollHost H]

/-! ## What a call is about to enter -/

/-- A press takes hold of the thumb: the thumb is seen, and hit where the host's offset puts it. -/
def grabs (bar : Scrollbar) (host : H) (x y : Single) : Bool :=
  bar.linked && decide (bar.visibility ≠ .hidden) &&
    match bar.measure host with
    | .ok measured => measured.isOnThumb x y
    | .error _ => false

/-- A frame is the last one of the fade. -/
def vanishes (bar : Scrollbar) : Bool :=
  bar.linked && decide (bar.visibility = .exiting) && !decide (bar.settings.fadeFloor < bar.alpha)

/-- The visibility that a call enters, if it enters one and is not refused. -/
def entered? (bar : Scrollbar) (call : Call H) : Option Visibility :=
  if bar.shows call then some .visible
  else
    match call with
    | .touch host (.pressed x y) => if bar.grabs host x y then some .dragging else none
    | .timerElapsed token => if bar.timers.isPending token then some .exiting else none
    | .draw => if bar.vanishes then some .hidden else none
    | .enter visibility =>
        if visibility = .visible ∧ ¬bar.isJustified then none else some visibility
    | _ => none

/-- What a call does to visibility and tokens, given the visibility that it enters. -/
inductive Entering (bar : Scrollbar) : Option Visibility → Scrollbar → Prop
  /-- Nothing is entered: the visibility stays, and so does every live token. -/
  | stayed {after : Scrollbar} (visibility : after.visibility = bar.visibility)
      (live : ∀ token ∈ bar.timers.live, token ∈ after.timers.live) : Entering bar none after
  /-- Every token that was given out before is taken out. -/
  | entered {after : Scrollbar} (spent : ∀ token ≤ bar.timers.issued, after.timers.Spent token) :
      Entering bar (some after.visibility) after

variable {bar after : Scrollbar} {call : Call H} {requests : List TimerRequest}

omit [ScrollHost H] in
theorem Entering.of_timers_eq (hvisibility : after.visibility = bar.visibility)
    (htimers : after.timers = bar.timers) : Entering bar none after := by
  refine .stayed hvisibility ?_
  intro token hlive
  rw [htimers]
  exact hlive

theorem Entering.of_scheduled {delay : UInt64} (hvisibility : after.visibility = bar.visibility)
    (htimers : after.timers = bar.timers.scheduled delay) : Entering bar none after := by
  refine .stayed hvisibility ?_
  intro token hlive
  rw [htimers]
  exact List.mem_append_left _ hlive

theorem Entering.of_cancelAll {visibility : Visibility} (hvisibility : after.visibility = visibility)
    (htimers : after.timers = bar.timers.cancelAll) : Entering bar (some visibility) after := by
  subst hvisibility
  refine .entered ?_
  intro token hle
  rw [htimers]
  exact ⟨hle, List.not_mem_nil⟩

/-! ## Calls that show the thumb -/

/-- The call enters no visibility but that of a thumb that is shown. -/
def Call.OnlyShows : Call H → Prop
  | .touch _ (.pressed _ _) => False
  | .timerElapsed _ => False
  | .draw => False
  | .enter _ => False
  | _ => True

theorem Change.entering_of_shows (h : Change bar call requests after)
    (hshows : bar.shows call = true) : Entering bar (some .visible) after := by
  rcases h.of_shows hshows with ⟨hvisible, _, htimers⟩
  rw [← hvisible]
  refine .entered ?_
  intro token hle
  rw [htimers]
  exact Timers.spent_of_restart hle _

theorem Change.entering_of_not_shows (h : Change bar call requests after)
    (hquiet : bar.shows call = false) (honly : call.OnlyShows) : Entering bar none after := by
  cases h with
  | idle _ visibility _ timers _ => exact .of_timers_eq visibility timers
  | dragged dragging visibility _ timers _ =>
      exact .of_timers_eq (visibility.trans dragging.symm) timers
  | refused _ visibility _ timers _ => exact .of_scheduled visibility timers
  | drained after_eq =>
      subst after_eq
      exact .stayed rfl fun _ hlive => hlive
  | shown shows _ _ _ _ => cases shows.symm.trans hquiet
  | _ => exact honly.elim

/-! ## Presses, timers, frames and visibilities that are set -/

/-- A press is used exactly if it takes hold of the thumb. -/
theorem used_eq_grabs {host host' : H} {x y : Single} {used : Bool}
    (h : bar.touch host (.pressed x y) = .ok (after, host', used)) : used = bar.grabs host x y := by
  cases touch_eq_ok h with
  | inert inactive =>
      rcases inactive with hunlinked | hhidden
      · simp [grabs, hunlinked]
      · simp [grabs, hhidden]
  | missed linked seen measuring beside => simp [grabs, linked, seen, measuring, beside]
  | grabbed linked seen measuring hit _ => simp [grabs, linked, seen, measuring, hit]
  | ended _ _ _ ends _ => simp at ends
  | passed _ _ _ _ passes => simp at passes

theorem entering_of_press {host host' : H} {x y : Single} {used : Bool}
    (h : bar.touch host (.pressed x y) = .ok (after, host', used)) :
    Entering bar (bar.entered? (.touch host (.pressed x y))) after := by
  have hentered : bar.entered? (.touch host (.pressed x y)) =
      if bar.grabs host x y then some .dragging else none := rfl
  rw [hentered, ← used_eq_grabs h]
  cases touch_eq_ok h with
  | inert => exact .of_timers_eq rfl rfl
  | missed linked _ measuring _ =>
      rcases measure_eq_ok linked measuring with ⟨⟨metrics, top, rfl⟩, _⟩
      exact .of_timers_eq rfl rfl
  | grabbed linked _ measuring _ after_eq =>
      rcases measure_eq_ok linked measuring with ⟨⟨metrics, top, rfl⟩, _⟩
      subst after_eq
      exact .of_cancelAll rfl rfl
  | ended _ _ _ ends _ => simp at ends
  | passed _ _ _ _ passes => simp at passes

theorem entering_of_timerElapsed (bar : Scrollbar) (token : TimerToken) :
    Entering bar (bar.entered? (.timerElapsed token : Call H)) (bar.timerElapsed token) := by
  have hentered : bar.entered? (.timerElapsed token : Call H) =
      if bar.timers.isPending token then some .exiting else none := rfl
  rw [hentered]
  by_cases hlive : token ∈ bar.timers.live
  · rw [if_pos (Timers.isPending_iff.2 hlive), timerElapsed_of_mem hlive]
    exact .of_cancelAll rfl rfl
  · rw [if_neg (fun hpending => hlive (Timers.isPending_iff.1 hpending)),
      timerElapsed_of_not_mem hlive]
    exact .of_timers_eq rfl rfl

theorem entering_of_draw {frame? : Option Frame} (h : bar.draw = .ok (after, frame?)) :
    Entering bar (bar.entered? (.draw : Call H)) after := by
  have hentered : bar.entered? (.draw : Call H) =
      if bar.vanishes then some .hidden else none := rfl
  rw [hentered]
  cases draw_eq_ok h with
  | blank inactive =>
      have hmore : bar.vanishes = false := by
        rcases inactive with hunlinked | hhidden
        · simp [vanishes, hunlinked]
        · simp [vanishes, hhidden]
      rw [hmore]
      exact .of_timers_eq rfl rfl
  | steady _ _ not_exiting _ after_eq =>
      have hmore : bar.vanishes = false := by simp [vanishes, not_exiting]
      rw [hmore]
      subst after_eq
      exact .of_timers_eq rfl rfl
  | faded _ _ above _ after_eq =>
      have hmore : bar.vanishes = false := by simp [vanishes, above]
      rw [hmore]
      subst after_eq
      exact .of_scheduled rfl rfl
  | vanished linked exiting below _ after_eq =>
      have hlast : bar.vanishes = true := by simp [vanishes, linked, exiting, below]
      rw [hlast]
      subst after_eq
      exact .of_cancelAll rfl rfl

theorem entering_of_enter (bar : Scrollbar) (visibility : Visibility) :
    Entering bar (bar.entered? (.enter visibility : Call H)) (bar.enter visibility) := by
  have hentered : bar.entered? (.enter visibility : Call H) =
      if visibility = .visible ∧ ¬bar.isJustified then none else some visibility := rfl
  rw [hentered]
  unfold enter
  split
  · exact .of_timers_eq rfl rfl
  · exact .of_cancelAll rfl rfl

/-! ## All calls -/

theorem call_entering {answer : Answer H} (h : bar.call call = .ok (after, answer)) :
    Entering bar (bar.entered? call) after := by
  have hchange := call_change h
  cases hshows : bar.shows call with
  | true =>
      have hentered : bar.entered? call = some .visible := if_pos hshows
      rw [hentered]
      exact hchange.entering_of_shows hshows
  | false =>
      -- What is left to look at is the call itself.
      cases call_eq_ok h with
      | @touched _ _ event _ _ touching =>
          cases event with
          | pressed x y => exact entering_of_press touching
          | _ =>
              simp only [entered?, hshows]
              exact hchange.entering_of_not_shows hshows trivial
      | elapsed token => exact entering_of_timerElapsed bar token
      | drawn drawing => exact entering_of_draw drawing
      | entered visibility => exact entering_of_enter bar visibility
      | _ =>
          simp only [entered?, hshows]
          exact hchange.entering_of_not_shows hshows trivial

end Scrollbar

end OverlayScrollbar
