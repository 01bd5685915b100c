import OverlayScrollbar.Proofs.App.Settled
import OverlayScrollbar.Proofs.Scrollbar.Faultless

/-!
# The height of the strip

A window cannot give the strip a height that is not a number; only the strip itself could be told one.

- `App.isNaN_height_of_update` : after each message
- `App.isNaN_height_of_run`    : after every run
-/

namespace OverlayScrollbar

namespace App

variable {D E : Type} [TextEditor D E] {app after : App D} {message : AppMessage E}
  {requests : List TimerRequest}

/-- The height of the strip is a number, unless it was told one that is not. -/
theorem isNaN_height_of_update (h : app.bar.height.isNaN = false)
    (hmessage : ∀ width height, message = .overlayResized width height → height.isNaN = false)
    (hupdate : app.update message = .ok (after, requests)) : after.bar.height.isNaN = false := by
  rcases exists_stages_of_update hupdate with
      ⟨handled, mid, drawn, hhandle, hdeliver, hredraw, rfl, rfl⟩
  have hhandled : handled.bar.height.isNaN = false := by
    cases handle_eq_ok hhandle with
    | edited => exact h
    | flung => exact h
    | @touched _ bar _ _ touching =>
        have hsame : bar.height = app.bar.height :=
          congrArg Scrollbar.Setup.height (Scrollbar.setup_touch touching)
        exact hsame ▸ h
    | elapsed token =>
        have hsame : (app.bar.timerElapsed token).height = app.bar.height :=
          congrArg Scrollbar.Setup.height (Scrollbar.setup_timerElapsed app.bar token)
        exact hsame ▸ h
    | stripResized width height =>
        exact Scrollbar.isNaN_height_resize width h (hmessage width height rfl)
    | windowResized width height =>
        exact Scrollbar.isNaN_height_resize _ h (Single.isNaN_max_zero _)
  -- Neither a scroll that is told nor a frame changes the height.
  have hmid : mid.bar.height.isNaN = false := by
    refine deliver_invariant (fun bar => bar.height.isNaN = false) ?_ ?_ hdeliver
    · intro bar after hbefore hscrolled
      have hsame : after.height = bar.height :=
        congrArg Scrollbar.Setup.height (Scrollbar.setup_hostScrolled hscrolled)
      exact hsame ▸ hbefore
    · exact hhandled
  have hdrawn : drawn.bar.height = mid.bar.height :=
    congrArg Scrollbar.Place.height (kept_of_redraw hredraw).2.1
  exact hdrawn ▸ hmid

theorem isNaN_height_startBar (launch : Launch) : (startBar launch).height.isNaN = false := by
  have hnumber : startHeight.isNaN = false := by decide +kernel
  unfold startBar
  generalize startHeight = height at hnumber
  exact Scrollbar.isNaN_height_resize _ Single.isNaN_zero hnumber

theorem isNaN_height_new (D : Type) {E : Type} [TextEditor D E] (launch : Launch) :
    (new launch : App D).bar.height.isNaN = false := by
  rw [(start_new D launch).2.1]
  exact isNaN_height_startBar launch

theorem isNaN_height_of_run {launch : Launch} {messages : List (AppMessage E)} {steps : Steps D E}
    (hheight : ∀ width height, .overlayResized width height ∈ messages → height.isNaN = false)
    (hrun : (new launch).run messages = .ok (app, steps)) : app.bar.height.isNaN = false := by
  have hallowed : ∀ message ∈ messages, ∀ width height,
      message = .overlayResized width height → height.isNaN = false := by
    intro message hmem width height hmessage
    exact hheight width height (hmessage ▸ hmem)
  refine Machine.run_invariant (fun app _ => app.bar.height.isNaN = false) (isNaN_height_new D launch)
    ?_ hallowed hrun
  intro before _ message requests after hbefore hmessage hupdate
  exact isNaN_height_of_update hbefore hmessage hupdate

end App

end OverlayScrollbar
