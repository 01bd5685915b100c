import OverlayScrollbar.Proofs.App.Fade
import OverlayScrollbar.Proofs.Scrollbar.Painted

/-!
# What is painted

After every message the frame and the images are in step with the scrollbar, although the frame is
made, and the images are taken over, only when a frame was asked for.

- `App.InStep`           : frame and images are in step with the scrollbar
- `App.inStep_of_update` : after each message
- `App.InStep.of_run`    : after every run

Main statement: `frame_agrees_of_run`.
-/

namespace OverlayScrollbar

namespace App

variable {D E : Type} [TextEditor D E] {settings : ScrollbarSettings} {handed : List TimerToken}
  {app mid drawn after : App D} {message : AppMessage E} {requests : List TimerRequest}

/-- Frame and images are in step with the scrollbar. -/
structure InStep (app : App D) : Prop where
  fresh : app.bar.Fresh
  mirrors : app.images.Mirrors app.bar.sprites
  agrees : app.bar.Agrees app.frame?

theorem inStep_new (D : Type) {E : Type} [TextEditor D E] (launch : Launch) :
    (new launch : App D).InStep := by
  rcases bar_new D launch with ⟨width, height, needsRedraw, hbar⟩
  rcases blank_new D launch with ⟨hnone, hempty⟩
  have hfresh := Scrollbar.fresh_new 0 launch.settings.scrollbar launch.theme.accent
  constructor
  · rw [hbar]
    constructor
    · exact hfresh.shape_eq
    · exact hfresh.whole
    · -- There are no bitmaps yet that could be of another width.
      intro kind sprite hsprite
      have hready := SpriteCache.isReady_of_get?_eq_some hfresh.whole hsprite
      cases hready
  · rw [hempty, hbar]
    exact ThumbImages.mirrors_empty _ _
  · rw [hnone]
    apply Scrollbar.agrees_of_hidden
    rw [hbar]
    rfl

/-- To hand out timers does not matter to what is painted. -/
theorem InStep.takeRequests (h : drawn.InStep) :
    InStep { drawn with bar := drawn.bar.takeRequests.1 } := by
  rcases h with ⟨hfresh, hmirrors, hagrees⟩
  constructor
  · exact ⟨hfresh.shape_eq, hfresh.whole, hfresh.drawn⟩
  · exact hmirrors
  · constructor
    · exact hagrees.isSome_iff
    · intro frame hframe
      rcases hagrees.painted frame hframe with ⟨hsprite, halpha, hfull, hbelow, hgeneration⟩
      exact ⟨hsprite, halpha, hfull, hbelow, hgeneration⟩

theorem inStep_of_update (hstep : settings.fadeStep ≠ 0) (hsettled : app.Settled settings handed)
    (h : app.InStep) (hupdate : app.update message = .ok (after, requests)) : after.InStep := by
  rcases update_eq_ok hupdate with ⟨mid, drawn, hhandled, _, hredraw, rfl, rfl⟩
  rcases hhandled.events with ⟨events, steps, hevents, hmid⟩
  have hundrawn := (Scrollbar.undrawn_of_run hevents hmid).1
  have hsettings : mid.bar.settings = settings := hundrawn.settings.trans hsettled.settings_eq
  -- The events may have dropped the bitmaps; the images are still those from before.
  have hmirrors : mid.images.Mirrors app.bar.sprites := hhandled.images_eq ▸ h.mirrors
  rcases Scrollbar.mirrors_of_run h.fresh hmirrors hmid with ⟨hfresh, hmirrored⟩
  apply InStep.takeRequests
  rcases redraw_eq_ok hredraw with ⟨hquiet, rfl⟩ | ⟨bar, frame?, hdraw, rfl⟩
  · refine ⟨hfresh, hmirrored, ?_⟩
    rw [hhandled.frame_eq]
    exact h.agrees.of_undrawn hundrawn hquiet
  · have hpainting : Scrollbar.Painting mid.bar (.draw : Scrollbar.Call (EditorHost D)) bar :=
      Scrollbar.draw_painting hdraw
    have hcoherent := (hsettled.coherent.of_run hsettled.orderly
      (fun call hcall => (hevents call hcall).isIndirect) hmid).1
    have halpha : mid.bar.alpha.toNat ≤ mid.bar.settings.maxAlpha.toNat := by
      rw [hundrawn.alpha, hsettings]
      exact hsettled.alpha_le
    constructor
    · exact hfresh.of_painting hpainting
    · exact (Scrollbar.mirrors_of_painting hfresh hmirrored hpainting).sync
    · exact Scrollbar.agrees_of_draw hcoherent (hsettings ▸ hstep) halpha hdraw

theorem InStep.of_run {messages : List (AppMessage E)} {steps : Steps D E}
    (hstep : settings.fadeStep ≠ 0) (hsettled : app.Settled settings handed) (h : app.InStep)
    (hrun : app.run messages = .ok (after, steps)) : after.InStep := by
  apply And.right
  refine Machine.run_invariant (fun reached steps =>
    reached.Settled settings (handed ++ armed steps) ∧ reached.InStep)
    ?_ ?_ (fun _ _ => trivial) hrun
  · refine ⟨?_, h⟩
    simpa [armed] using hsettled
  · rintro before steps message requests after ⟨hbefore, hinstep⟩ (_ : True) hupdate
    refine ⟨?_, inStep_of_update hstep hbefore hinstep hupdate⟩
    rw [armed_append, armed_singleton, ← List.append_assoc]
    exact settled_of_update hbefore hupdate

/-- After every run of an application whose settings can be worked with, a frame is painted exactly if
the thumb is not hidden and both bitmaps are drawn. The frame shows the dragged look exactly during a
drag, it has the alpha of the scrollbar, which is full for a visible or dragged thumb and less for one
that fades, and the generation of the bitmaps; and the image of its look is the bitmap of that look. -/
theorem frame_agrees_of_run {launch : Launch} {messages : List (AppMessage E)} {app : App D}
    {steps : Steps D E} (hvalid : launch.settings.validate = .ok ())
    (hrun : (new launch).run messages = .ok (app, steps)) :
    (app.frame?.isSome = true ↔ app.bar.visibility ≠ .hidden ∧
      app.bar.sprites.normal?.isSome = true ∧ app.bar.sprites.dragging?.isSome = true) ∧
    ∀ frame, app.frame? = some frame →
      (frame.sprite = .dragging ↔ app.bar.visibility = .dragging) ∧
      frame.alpha = app.bar.alpha ∧
      (app.bar.visibility = .visible ∨ app.bar.visibility = .dragging →
        frame.alpha = launch.settings.scrollbar.maxAlpha) ∧
      (app.bar.visibility = .exiting → frame.alpha < launch.settings.scrollbar.maxAlpha) ∧
      frame.generation = app.bar.sprites.generation ∧
      ∃ sprite, app.bar.sprites.get? frame.sprite = some sprite ∧
        app.images.get? frame.sprite = some sprite := by
  have hstep := ScrollbarSettings.fadeStep_ne_zero_of_validate hvalid
  have hsettled := (settled_new D launch).of_run hrun
  have hinstep := (inStep_new D launch).of_run hstep (settled_new D launch) hrun
  have hsome := hinstep.agrees.isSome_iff
  refine ⟨hsome.trans (and_congr_right fun _ => Bool.and_eq_true_iff), ?_⟩
  intro frame hframe
  rcases hinstep.agrees.painted frame hframe with ⟨hsprite, halpha, hfull, hbelow, hgeneration⟩
  rw [hsettled.settings_eq] at hfull hbelow
  refine ⟨hsprite, halpha, ?_, ?_, hgeneration, ?_⟩
  · intro hsteady
    rw [halpha]
    apply hfull
    rcases hsteady with hvisible | hdragging
    · simp [hvisible]
    · simp [hdragging]
  · rw [halpha]
    exact hbelow
  · have hready := (hsome.1 (by simp [hframe])).2
    rcases SpriteCache.exists_get?_of_isReady hready frame.sprite with ⟨sprite, hget⟩
    refine ⟨sprite, hget, ?_⟩
    -- The images that are held are those that a refresh would give.
    rw [← hsettled.synced, hinstep.mirrors.get?_sync hready, hget]

/-- The theorem speaks of a thumb that fades after a scroll. -/
theorem frame_agrees_of_run_fading :
    ∃ (app : App Document) (steps : _) (frame : Frame) (sprite : Sprite),
      highLines.settings.validate = .ok () ∧
        (new highLines).run [.editor (.scroll 1), .timerFired 1] = .ok (app, steps) ∧
        app.bar.visibility = .exiting ∧ app.frame? = some frame ∧ frame.sprite = .normal ∧
        frame.alpha = app.bar.alpha ∧ frame.alpha < highLines.settings.scrollbar.maxAlpha ∧
        frame.generation = app.bar.sprites.generation ∧
        app.bar.sprites.get? .normal = some sprite ∧ app.images.get? .normal = some sprite := by
  have hmap : ((new highLines : App Document).run [.editor (.scroll 1), .timerFired 1]).map
      (fun reached => (reached.1.bar.visibility, reached.1.frame?.map Frame.sprite)) =
        .ok (.exiting, some .normal) := by
    decide +kernel
  rcases Checked.map_eq_ok_iff.1 hmap with ⟨⟨app, steps⟩, hrun, hreached⟩
  have hvisibility : app.bar.visibility = .exiting := congrArg Prod.fst hreached
  have hlook : app.frame?.map Frame.sprite = some .normal := congrArg Prod.snd hreached
  rcases Option.map_eq_some_iff.1 hlook with ⟨frame, hframe, hnormal⟩
  have hvalid : highLines.settings.validate = .ok () := by decide +kernel
  rcases (frame_agrees_of_run hvalid hrun).2 frame hframe with
      ⟨_, halpha, _, hbelow, hgeneration, sprite, hsprite, himage⟩
  rw [hnormal] at hsprite himage
  exact ⟨app, steps, frame, sprite, hvalid, hrun, hvisibility, hframe, hnormal, halpha,
    hbelow hvisibility, hgeneration, hsprite, himage⟩

end App

end OverlayScrollbar
