import OverlayScrollbar.Proofs.Scrollbar.Call
import OverlayScrollbar.Proofs.Timers

/-!
# What the operations of a scrollbar do

The parts that several operations share, and the operation that makes a frame, each with one lemma
that says all it can do. Later proofs cite these lemmas and do not open the operations.

- `Scrollbar.scheduleAutoHide_enter_visible` : making the thumb visible
- `Scrollbar.fading`                         : what a live timer does
- `Scrollbar.measure_eq_ok`                  : measuring a host
- `Scrollbar.hostScrolled_eq_ok`             : the two ways to take a scroll
- `Scrollbar.Touching`, `Scrollbar.touch_eq_ok` : the ways to take a touch
- `Scrollbar.Drawing`, `Scrollbar.draw_eq_ok` : the ways in which a frame is made
- `Scrollbar.Calling`, `Scrollbar.call_eq_ok` : what each call does
-/

namespace OverlayScrollbar

namespace Scrollbar

/-! ## Shared steps -/

section Guard

variable {bar : Scrollbar} {excluded : Visibility}

/-- An operation does nothing without a host, or in the visibility that it excludes. -/
theorem inactive_iff : (!bar.linked || decide (bar.visibility = excluded)) = true ↔
    bar.linked = false ∨ bar.visibility = excluded := by
  rw [Bool.or_eq_true, Bool.not_eq_true', decide_eq_true_eq]

theorem active_iff : ¬(!bar.linked || decide (bar.visibility = excluded)) = true ↔
    bar.linked = true ∧ bar.visibility ≠ excluded := by
  rw [inactive_iff, not_or, Bool.not_eq_false]

end Guard

theorem scheduleAutoHide_of_hidden {bar : Scrollbar} (h : bar.visibility = .hidden) :
    bar.scheduleAutoHide = .ok bar := by
  simp [scheduleAutoHide, h]

theorem schedule_eq_ok {bar after : Scrollbar} {delay : UInt64}
    (h : bar.schedule delay = .ok after) :
    after = { bar with timers := bar.timers.scheduled delay } := by
  rcases Checked.bind_eq_ok_iff.1 h with ⟨⟨timers, token⟩, hschedule, hafter⟩
  rcases Timers.schedule_eq_scheduled hschedule with ⟨_, rfl⟩
  cases hafter
  rfl

theorem scheduleAutoHide_eq_ok {bar after : Scrollbar} (hseen : bar.visibility ≠ .hidden)
    (h : bar.scheduleAutoHide = .ok after) :
    after = { bar with timers := bar.timers.scheduled bar.settings.autoHideDelay } := by
  rw [scheduleAutoHide, if_neg hseen] at h
  exact schedule_eq_ok h

/-- Making the thumb visible, holding it or not, with a new auto-hide delay: it is shown, or the
delay runs beside those that are running, or nothing is scheduled for a thumb that stays hidden. -/
theorem scheduleAutoHide_enter_visible {bar after : Scrollbar} {pressed : Bool}
    (h : scheduleAutoHide { bar.enter .visible with pressed := pressed } = .ok after) :
    (bar.isJustified = true ∧
      after =
        { bar with
          visibility := .visible
          pressed := pressed
          needsRedraw := true
          timers := bar.timers.cancelAll.scheduled bar.settings.autoHideDelay }) ∨
    (bar.isJustified = false ∧ bar.visibility = .hidden ∧
      after = { bar with pressed := pressed }) ∨
    (bar.isJustified = false ∧ bar.visibility ≠ .hidden ∧
      after =
        { bar with
          pressed := pressed
          timers := bar.timers.scheduled bar.settings.autoHideDelay }) := by
  -- Long content lets the thumb in; short content leaves all as it was, and then it matters whether
  -- there is a thumb to hide again.
  cases hlong : bar.isJustified with
  | true =>
      rw [enter_of_isJustified hlong] at h
      refine Or.inl ⟨rfl, ?_⟩
      exact scheduleAutoHide_eq_ok (by simp [invalidate]) h
  | false =>
      rw [enter_visible_of_not_isJustified hlong] at h
      have hkept : ({ bar with pressed := pressed } : Scrollbar).visibility = bar.visibility := rfl
      by_cases hhidden : bar.visibility = .hidden
      · cases (scheduleAutoHide_of_hidden (hkept.trans hhidden)).symm.trans h
        exact Or.inr (Or.inl ⟨rfl, hhidden, rfl⟩)
      · exact Or.inr (Or.inr ⟨rfl, hhidden, scheduleAutoHide_eq_ok (hkept ▸ hhidden) h⟩)

/-- The scrollbar when its thumb starts or goes on to fade. -/
def fading (bar : Scrollbar) : Scrollbar :=
  { bar with visibility := .exiting, needsRedraw := true, timers := bar.timers.cancelAll }

/-- A live timer that is over makes the thumb fade, and no other is left. -/
theorem timerElapsed_of_mem {bar : Scrollbar} {token : TimerToken}
    (h : token ∈ bar.timers.live) : bar.timerElapsed token = bar.fading := by
  have hpending : bar.timers.isPending token = true := Timers.isPending_iff.2 h
  unfold timerElapsed Timers.fire
  simp only [hpending, if_true]
  rw [enter_of_ne_visible (by simp)]
  rfl

section Host

variable {H : Type} [ScrollHost H]

/-- Measuring changes the measurements and the place of the thumb, and finds out whether the content
is long enough. -/
theorem measure_eq_ok {bar measured : Scrollbar} {host : H} (hlinked : bar.linked = true)
    (h : bar.measure host = .ok measured) :
    (∃ metrics top, measured = { bar with metrics := metrics, top := top }) ∧
      measured.isJustified = bar.findsLong host := by
  rw [measure, if_pos hlinked] at h
  unfold findsLong
  cases hlayout : ScrollHost.layoutHeight? host with
  | none =>
      rw [hlayout] at h
      cases h
      exact ⟨⟨bar.metrics, bar.top, rfl⟩, rfl⟩
  | some contentHeight =>
      rw [hlayout] at h
      rcases Checked.bind_eq_ok_iff.1 h with ⟨top, _, htop⟩
      cases htop
      exact ⟨⟨_, top, rfl⟩, rfl⟩

/-! ## Scrolls and touches -/

/-- A scroll is ignored, or measures the host and makes the thumb visible if it can. -/
theorem hostScrolled_eq_ok {bar after : Scrollbar} {host : H}
    (h : bar.hostScrolled host = .ok after) :
    ((bar.linked = false ∨ bar.visibility = .dragging) ∧ after = bar) ∨
      (bar.linked = true ∧ bar.visibility ≠ .dragging ∧ ∃ measured,
        bar.measure host = .ok measured ∧ (measured.enter .visible).scheduleAutoHide = .ok after) := by
  unfold hostScrolled at h
  split at h
  · rename_i hinactive
    cases h
    exact Or.inl ⟨inactive_iff.1 hinactive, rfl⟩
  · rename_i hactive
    rcases active_iff.1 hactive with ⟨hlinked, hfree⟩
    rcases Checked.bind_eq_ok_iff.1 h with ⟨measured, hmeasured, hafter⟩
    exact Or.inr ⟨hlinked, hfree, measured, hmeasured, hafter⟩

/-- What a touch does to the scrollbar and its host, and whether it is used. -/
inductive Touching (bar : Scrollbar) (host : H) : Touch → Scrollbar → H → Bool → Prop
  /-- Without a host or a thumb nothing is done. -/
  | inert {event : Touch} (inactive : bar.linked = false ∨ bar.visibility = .hidden) :
      Touching bar host event bar host false
  /-- A press beside the thumb only measures. -/
  | missed {x y : Single} {measured : Scrollbar} (linked : bar.linked = true)
      (seen : bar.visibility ≠ .hidden) (measuring : bar.measure host = .ok measured)
      (beside : measured.isOnThumb x y = false) :
      Touching bar host (.pressed x y) measured host false
  /-- A press on the thumb starts a drag. -/
  | grabbed {x y : Single} {measured after : Scrollbar} (linked : bar.linked = true)
      (seen : bar.visibility ≠ .hidden) (measuring : bar.measure host = .ok measured)
      (hit : measured.isOnThumb x y = true)
      (after_eq : after =
        { measured with
          visibility := .dragging
          pressed := true
          needsRedraw := true
          timers := measured.timers.cancelAll }) :
      Touching bar host (.pressed x y) after (ScrollHost.abortFling host) true
  /-- A move while the thumb is dragged goes on with the drag. -/
  | dragged {x y : Single} {measured after : Scrollbar} {host' : H} (linked : bar.linked = true)
      (dragging : bar.visibility = .dragging) (measuring : bar.measure host = .ok measured)
      (after_eq : after =
        { measured with
          pressed := true
          needsRedraw := true
          top := draggedTop y measured.thumbHeight measured.metrics.viewHeight })
      (scrolling : after.scrollHost (ScrollHost.abortFling host) = .ok host') :
      Touching bar host (.moved x y) after host' true
  /-- The end of a gesture makes the thumb visible if it can. -/
  | ended {event : Touch} {measured after : Scrollbar} (linked : bar.linked = true)
      (seen : bar.visibility ≠ .hidden) (measuring : bar.measure host = .ok measured)
      (ends : (∃ x y, event = .released x y) ∨ event = .cancelled ∧ bar.visibility = .dragging)
      (releasing : measured.release = .ok after) : Touching bar host event after host false
  /-- All else only measures. -/
  | passed {event : Touch} {measured : Scrollbar} (linked : bar.linked = true)
      (seen : bar.visibility ≠ .hidden) (measuring : bar.measure host = .ok measured)
      (free : bar.visibility ≠ .dragging)
      (passes : (∃ x y, event = .moved x y) ∨ event = .cancelled) :
      Touching bar host event measured host false

theorem touch_eq_ok {bar after : Scrollbar} {host host' : H} {event : Touch} {used : Bool}
    (h : bar.touch host event = .ok (after, host', used)) :
    Touching bar host event after host' used := by
  unfold touch at h
  split at h
  · rename_i hinactive
    cases h
    exact .inert (inactive_iff.1 hinactive)
  rename_i hactive
  rcases active_iff.1 hactive with ⟨hlinked, hseen⟩
  rcases Checked.bind_eq_ok_iff.1 h with ⟨measured, hmeasured, h⟩
  -- To measure leaves the visibility, so that a drag is the same before and after it.
  have hsame : measured.visibility = bar.visibility := by
    rcases measure_eq_ok hlinked hmeasured with ⟨⟨metrics, top, rfl⟩, _⟩
    rfl
  cases event with
  | pressed x y =>
      simp only at h
      split at h
      · rename_i hhit
        cases h
        refine .grabbed hlinked hseen hmeasured hhit ?_
        rw [enter_of_ne_visible (by simp)]
        rfl
      · rename_i hbeside
        cases h
        exact .missed hlinked hseen hmeasured (eq_false_of_ne_true hbeside)
  | moved x y =>
      simp only at h
      split at h
      · rename_i hdragging
        rcases Checked.bind_eq_ok_iff.1 h with ⟨scrolled, hscrolled, hafter⟩
        cases hafter
        exact .dragged hlinked (hsame.symm.trans hdragging) hmeasured rfl hscrolled
      · rename_i hfree
        cases h
        exact .passed hlinked hseen hmeasured (hsame ▸ hfree) (Or.inl ⟨x, y, rfl⟩)
  | released x y =>
      rcases Checked.bind_eq_ok_iff.1 h with ⟨released, hreleased, hafter⟩
      cases hafter
      exact .ended hlinked hseen hmeasured (Or.inl ⟨x, y, rfl⟩) hreleased
  | cancelled =>
      simp only at h
      split at h
      · rename_i hdragging
        rcases Checked.bind_eq_ok_iff.1 h with ⟨released, hreleased, hafter⟩
        cases hafter
        exact .ended hlinked hseen hmeasured (Or.inr ⟨rfl, hsame.symm.trans hdragging⟩) hreleased
      · rename_i hfree
        cases h
        exact .passed hlinked hseen hmeasured (hsame ▸ hfree) (Or.inr rfl)

end Host

/-! ## Frames -/

theorem eq_of_frame?_eq_some {bar : Scrollbar} {paintable : Bool} {sprite : SpriteKind}
    {frame : Frame} (h : bar.frame? paintable sprite = some frame) :
    frame = ⟨sprite, bar.top, bar.alpha, bar.sprites.generation⟩ := by
  unfold frame? at h
  split at h
  · exact (Option.some.inj h).symm
  · cases h

/-- How a frame is made. -/
inductive Drawing (bar : Scrollbar) : Scrollbar → Option Frame → Prop
  /-- Nothing is painted. -/
  | blank (inactive : bar.linked = false ∨ bar.visibility = .hidden) :
      Drawing bar { bar with needsRedraw := false } none
  /-- A thumb that does not fade is painted at its full alpha. -/
  | steady {sprites : SpriteCache} {drawn : Except InvalidSize Unit} {after : Scrollbar}
      (linked : bar.linked = true) (seen : bar.visibility ≠ .hidden)
      (not_exiting : bar.visibility ≠ .exiting)
      (ensured : bar.sprites.ensure bar.spriteWidth bar.thumbHeight bar.tint = .ok (sprites, drawn))
      (after_eq : after =
        { bar with needsRedraw := false, sprites := sprites, alpha := bar.settings.maxAlpha }) :
      Drawing bar after (after.frame? drawn.isOk
        (if bar.visibility = .dragging then .dragging else .normal))
  /-- A thumb above the floor fades by one step. -/
  | faded {sprites : SpriteCache} {drawn : Except InvalidSize Unit} {after : Scrollbar}
      (linked : bar.linked = true) (exiting : bar.visibility = .exiting)
      (above : bar.settings.fadeFloor < bar.alpha)
      (ensured : bar.sprites.ensure bar.spriteWidth bar.thumbHeight bar.tint = .ok (sprites, drawn))
      (after_eq : after =
        { bar with
          needsRedraw := false
          sprites := sprites
          alpha := UInt8.ofNat (bar.alpha.toNat - bar.settings.fadeStep.toNat)
          timers := bar.timers.scheduled bar.settings.fadeTick }) :
      Drawing bar after (after.frame? drawn.isOk .normal)
  /-- A thumb at the floor is hidden. -/
  | vanished {sprites : SpriteCache} {drawn : Except InvalidSize Unit} {after : Scrollbar}
      (linked : bar.linked = true) (exiting : bar.visibility = .exiting)
      (below : ¬bar.settings.fadeFloor < bar.alpha)
      (ensured : bar.sprites.ensure bar.spriteWidth bar.thumbHeight bar.tint = .ok (sprites, drawn))
      (after_eq : after =
        { bar with
          needsRedraw := true
          sprites := sprites
          alpha := 0
          visibility := .hidden
          timers := bar.timers.cancelAll }) :
      Drawing bar after none

theorem draw_eq_ok {bar after : Scrollbar} {frame? : Option Frame}
    (h : bar.draw = .ok (after, frame?)) : Drawing bar after frame? := by
  unfold draw at h
  simp only at h
  -- Without a host or a thumb there is nothing to paint; else the visibility decides.
  split at h
  · rename_i hinactive
    cases h
    exact .blank (inactive_iff.1 hinactive)
  · rename_i hactive
    rcases active_iff.1 hactive with ⟨hlinked, hseen⟩
    rcases Checked.bind_eq_ok_iff.1 h with ⟨⟨sprites, drawn⟩, hensured, h⟩
    simp only at h
    split at h
    · rename_i hhidden
      exact absurd hhidden hseen
    · rename_i hvisible
      cases h
      have hlook : (if bar.visibility = .dragging then SpriteKind.dragging else .normal) =
          .normal := by simp [hvisible]
      exact hlook ▸ .steady hlinked hseen (by simp [hvisible]) hensured rfl
    · rename_i hdragging
      cases h
      have hlook : (if bar.visibility = .dragging then SpriteKind.dragging else .normal) =
          .dragging := by simp [hdragging]
      exact hlook ▸ .steady hlinked hseen (by simp [hdragging]) hensured rfl
    · rename_i hexiting
      split at h
      · rename_i habove
        rcases Checked.bind_eq_ok_iff.1 h with ⟨faded, hfaded, hafter⟩
        cases hafter
        exact .faded hlinked hexiting habove hensured (schedule_eq_ok hfaded)
      · rename_i hbelow
        cases h
        rw [enter_of_ne_visible (by simp)]
        exact .vanished hlinked hexiting hbelow hensured rfl

/-! ## Calls -/

section Calls

variable {H : Type} [ScrollHost H] {bar after : Scrollbar} {call : Call H} {answer : Answer H}

/-- What a call does, and what it gives back. -/
inductive Calling (bar : Scrollbar) : Call H → Scrollbar → Answer H → Prop
  /-- A host to link links the scrollbar, and registers it if it was not linked. -/
  | linked (host? : Option H) :
      Calling bar (.link host?) { bar with linked := bar.linked || host?.isSome }
        (.linked (host?.map fun host =>
            if bar.linked then host else (ScrollHost.addListener host bar.id).1)
          (host?.isSome && !bar.linked))
  | scrolled {host : H} {after : Scrollbar} (scrolling : bar.hostScrolled host = .ok after) :
      Calling bar (.hostScrolled host) after .done
  | touched {host host' : H} {event : Touch} {after : Scrollbar} {used : Bool}
      (touching : bar.touch host event = .ok (after, host', used)) :
      Calling bar (.touch host event) after (.touched host' used)
  | elapsed (token : TimerToken) :
      Calling bar (.timerElapsed token) (bar.timerElapsed token) .done
  /-- The size that the strip has changes nothing. -/
  | kept_size {width height : Single}
      (same : (bar.width.sameSize width && bar.height.sameSize height) = true) :
      Calling bar (.resize width height) bar .done
  | resized {width height : Single}
      (differs : ¬(bar.width.sameSize width && bar.height.sameSize height) = true) :
      Calling bar (.resize width height)
        { bar with
          width := width
          height := height
          sprites := bar.sprites.clear
          needsRedraw := true } .done
  /-- The colour that the thumb has changes nothing. -/
  | kept_tint {tint : Color} (same : bar.tint.sameChannels tint = true) :
      Calling bar (.recolor tint) bar .done
  | recolored {tint : Color} (differs : ¬bar.tint.sameChannels tint = true) :
      Calling bar (.recolor tint)
        { bar with tint := tint, sprites := bar.sprites.clear, needsRedraw := true } .done
  | drawn {after : Scrollbar} {frame? : Option Frame} (drawing : bar.draw = .ok (after, frame?)) :
      Calling bar .draw after (.drawn frame?)
  | taken : Calling bar .takeRequests bar.takeRequests.1 (.armed bar.takeRequests.2)
  | entered (visibility : Visibility) :
      Calling bar (.enter visibility) (bar.enter visibility) .done

theorem call_link (bar : Scrollbar) (host? : Option H) :
    bar.call (.link host?) =
      .ok ({ bar with linked := bar.linked || host?.isSome },
        .linked (host?.map fun host =>
            if bar.linked then host else (ScrollHost.addListener host bar.id).1)
          (host?.isSome && !bar.linked)) := by
  cases host? with
  | none => simp [call, link]
  | some host =>
      cases hlinked : bar.linked with
      | true =>
          have hsame : ({ bar with linked := true } : Scrollbar) = bar := by rw [← hlinked]
          simp [call, link, hlinked, hsame]
      | false => simp [call, link, hlinked]

theorem call_eq_ok (h : bar.call call = .ok (after, answer)) : Calling bar call after answer := by
  cases call with
  | link host? =>
      cases (bar.call_link host?).symm.trans h
      exact .linked host?
  | hostScrolled host =>
      rcases Checked.bind_eq_ok_iff.1 h with ⟨_, hscrolled, hafter⟩
      cases hafter
      exact .scrolled hscrolled
  | touch host event =>
      rcases Checked.bind_eq_ok_iff.1 h with ⟨_, htouched, hafter⟩
      cases hafter
      exact .touched htouched
  | timerElapsed token =>
      cases h
      exact .elapsed token
  | resize width height =>
      cases h
      unfold resize
      split
      · rename_i hsame
        exact .kept_size hsame
      · rename_i hdiffers
        exact .resized hdiffers
  | recolor tint =>
      cases h
      unfold recolor
      split
      · rename_i hsame
        exact .kept_tint hsame
      · rename_i hdiffers
        exact .recolored hdiffers
  | draw =>
      rcases Checked.bind_eq_ok_iff.1 h with ⟨_, hdrawn, hafter⟩
      cases hafter
      exact .drawn hdrawn
  | takeRequests =>
      cases h
      exact .taken
  | enter visibility =>
      cases h
      exact .entered visibility

/-- Only the operation that makes frames answers with one. -/
theorem draw_of_drawn {frame? : Option Frame} (h : bar.call call = .ok (after, .drawn frame?)) :
    call = .draw ∧ bar.draw = .ok (after, frame?) := by
  cases call_eq_ok h with
  | drawn drawing => exact ⟨rfl, drawing⟩

end Calls

end Scrollbar

end OverlayScrollbar
