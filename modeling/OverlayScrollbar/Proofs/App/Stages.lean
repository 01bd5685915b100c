import OverlayScrollbar.App.Basic
import OverlayScrollbar.Proofs.Scrollbar.Placing
import OverlayScrollbar.Proofs.Scrollbar.Setup

/-!
# The stages of a message

A message is handled, the scrollbar is told what has scrolled, a frame is made if one was asked for,
and timers are handed out. Each stage may end the message by a fault.

- `App.Handling`, `App.handle_eq_ok` : what a message does before anything is told
- `App.deliver_invariant`       : what a scroll keeps, telling the changes keeps
- `App.redraw_eq_ok`            : a frame is made, or none was asked for
- `App.kept_of_redraw`          : what a frame leaves as it is
- `App.exists_stages_of_update` : a message as its stages
-/

namespace OverlayScrollbar

namespace App

variable {D E : Type} [TextEditor D E] {app mid drawn after : App D}

/-! ## Handling -/

/-- What a message does to the editor and the scrollbar. -/
inductive Handling (app : App D) : AppMessage E → App D → Prop
  | edited {action : EditorAction E} {host : EditorHost D}
      (performing : app.host.perform action = .ok host) :
      Handling app (.editor action) { app with host := host }
  | flung {host : EditorHost D} (ticking : app.host.tickFling = .ok host) :
      Handling app .flingTick { app with host := host }
  | touched {touch : Touch} {bar : Scrollbar} {host : EditorHost D} {used : Bool}
      (touching : app.bar.touch app.host touch = .ok (bar, host, used)) :
      Handling app (.overlay touch) { app with bar := bar, host := host }
  | stripResized (width height : Single) :
      Handling app (.overlayResized width height) { app with bar := app.bar.resize width height }
  | windowResized (width height : Single) :
      Handling app (.windowResized width height)
        { app with
          host := app.host.setViewport (max (height - statusBarHeight) 0)
          bar := app.bar.resize app.bar.width (max (height - statusBarHeight) 0) }
  | elapsed (token : TimerToken) :
      Handling app (.timerFired token) { app with bar := app.bar.timerElapsed token }

theorem handle_eq_ok {message : AppMessage E} (h : app.handle message = .ok mid) :
    Handling app message mid := by
  cases message with
  | editor action =>
      rcases Checked.bind_eq_ok_iff.1 h with ⟨host, hperformed, hmid⟩
      cases hmid
      exact .edited hperformed
  | flingTick =>
      rcases Checked.bind_eq_ok_iff.1 h with ⟨host, hticked, hmid⟩
      cases hmid
      exact .flung hticked
  | overlay touch =>
      rcases Checked.bind_eq_ok_iff.1 h with ⟨⟨bar, host, used⟩, htouched, hmid⟩
      cases hmid
      exact .touched htouched
  | overlayResized width height =>
      cases h
      exact .stripResized width height
  | windowResized width height =>
      cases h
      exact .windowResized width height
  | timerFired token =>
      cases h
      exact .elapsed token

/-! ## Telling the changes -/

/-- Each change that is told is a scroll of the same host. -/
theorem deliver_invariant {changes : List (ListenerId × ScrollChange)} (inv : Scrollbar → Prop)
    (hkept : ∀ {bar after : Scrollbar}, inv bar → bar.hostScrolled app.host = .ok after → inv after)
    (hstart : inv app.bar) (h : app.deliver changes = .ok mid) : inv mid.bar := by
  induction changes generalizing app with
  | nil =>
      cases h
      exact hstart
  | cons change rest ih =>
      unfold deliver at h
      split at h
      · rcases Checked.bind_eq_ok_iff.1 h with ⟨bar, hscrolled, hrest⟩
        refine ih ?_ ?_ hrest
        · exact hkept
        · exact hkept hstart hscrolled
      · exact ih hkept hstart h

/-! ## The frame -/

theorem redraw_of_quiet (h : mid.bar.needsRedraw = false) : mid.redraw = .ok mid := by
  simp [redraw, h]

theorem redraw_of_draw {bar : Scrollbar} {frame? : Option Frame}
    (hredraw : mid.bar.needsRedraw = true) (hdraw : mid.bar.draw = .ok (bar, frame?)) :
    mid.redraw = .ok
      { mid with bar := bar, frame? := frame?, images := mid.images.sync bar.sprites } := by
  rw [redraw, if_pos hredraw]
  exact Checked.bind_eq_ok_iff.2 ⟨_, hdraw, rfl⟩

/-- A frame is made if one was asked for. -/
theorem redraw_eq_ok (h : mid.redraw = .ok drawn) :
    (mid.bar.needsRedraw = false ∧ drawn = mid) ∨
      ∃ bar frame?, mid.bar.draw = .ok (bar, frame?) ∧
        drawn = { mid with bar := bar, frame? := frame?, images := mid.images.sync bar.sprites } := by
  unfold redraw at h
  split at h
  · rcases Checked.bind_eq_ok_iff.1 h with ⟨⟨bar, frame?⟩, hdraw, hdrawn⟩
    cases hdrawn
    exact Or.inr ⟨bar, frame?, hdraw, rfl⟩
  · rename_i hquiet
    cases h
    exact Or.inl ⟨eq_false_of_ne_true hquiet, rfl⟩

/-- A frame neither moves the thumb nor changes what is measured. -/
theorem kept_of_redraw (h : mid.redraw = .ok drawn) :
    drawn.host = mid.host ∧ drawn.bar.place = mid.bar.place ∧
      drawn.bar.settings = mid.bar.settings := by
  rcases redraw_eq_ok h with ⟨_, rfl⟩ | ⟨bar, frame?, hdraw, rfl⟩
  · exact ⟨rfl, rfl, rfl⟩
  · exact ⟨rfl, Scrollbar.place_of_draw hdraw,
      congrArg Scrollbar.Setup.settings (Scrollbar.setup_draw hdraw)⟩

/-! ## A whole message -/

theorem exists_stages_of_update {message : AppMessage E} {requests : List TimerRequest}
    (h : app.update message = .ok (after, requests)) :
    ∃ handled mid drawn : App D, app.handle message = .ok handled ∧
      deliver { handled with host := handled.host.drainChanges.1 } handled.host.drainChanges.2 =
        .ok mid ∧
      mid.redraw = .ok drawn ∧ after = { drawn with bar := drawn.bar.takeRequests.1 } ∧
        requests = drawn.bar.takeRequests.2 := by
  rcases Checked.bind_eq_ok_iff.1 h with ⟨handled, hhandle, h⟩
  rcases Checked.bind_eq_ok_iff.1 h with ⟨mid, hdeliver, h⟩
  rcases Checked.bind_eq_ok_iff.1 h with ⟨drawn, hredraw, h⟩
  cases h
  exact ⟨handled, mid, drawn, hhandle, hdeliver, hredraw, rfl, rfl⟩

end App

end OverlayScrollbar
