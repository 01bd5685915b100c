import OverlayScrollbar.App.View
import OverlayScrollbar.Proofs.App.Painted
import OverlayScrollbar.Proofs.App.Strip
import OverlayScrollbar.Proofs.Scrollbar.InPlace

/-!
# Taking hold of the painted thumb

A press on the painted thumb is handed to the scrollbar, which measures its host before it looks
whether the thumb is hit. The press takes hold of the thumb if that leaves the thumb under it, and
this is so from a scroll that shows the thumb until the editor reads otherwise.

- `App.InPlace`             : the thumb is in its place, and painted there
- `App.Shows`, `App.Keeps`  : a step that shows the thumb, a step after which the editor reads the same
- `App.inPlace_of_shows`, `App.InPlace.of_keeps` : steps after which the thumb is in its place
- `App.exists_update_of_press` : a press on the painted thumb

Main statement: `press_takes_hold_of_run`.
-/

namespace OverlayScrollbar

namespace App

variable {D E : Type} [TextEditor D E] {settings : ScrollbarSettings} {handed : List TimerToken}
  {app mid drawn after : App D} {message : AppMessage E} {requests : List TimerRequest}

/-- What the scrollbar would measure. -/
def reading? (app : App D) : Option ScrollMetrics :=
  app.bar.reading? app.host

/-- The thumb is in its place, and painted there. -/
structure InPlace (app : App D) : Prop where
  placed : app.bar.InPlace app.host
  painted : ∀ frame, app.frame? = some frame → frame.top = app.bar.top

/-- The step has started the auto-hide delay of a visible thumb over long content. -/
def Shows (step : Step (App D) (AppMessage E) (List TimerRequest)) : Prop :=
  step.after.bar.visibility = .visible ∧ step.after.bar.isJustified = true ∧ step.output ≠ []

/-- The step has moved no dragged thumb, and the editor reads the same after it. -/
def Keeps (step : Step (App D) (AppMessage E) (List TimerRequest)) : Prop :=
  step.after.reading? = step.before.reading? ∧
    (step.before.bar.visibility = .dragging → ∀ x y, step.input ≠ .overlay (.moved x y))

/-! ## The end of a message -/

theorem reading?_of_redraw (h : mid.redraw = .ok drawn) : drawn.reading? = mid.reading? := by
  rcases kept_of_redraw h with ⟨hhost, hplace, _⟩
  unfold reading?
  rw [hhost]
  exact Scrollbar.reading?_of_height _ (congrArg Scrollbar.Place.height hplace)

/-- To make a frame and to hand out timers leaves the thumb in its place, and a frame shows it there. -/
theorem inPlace_of_redraw (h : mid.redraw = .ok drawn) (hplaced : mid.bar.InPlace mid.host)
    (hkept : mid.bar.needsRedraw = false → ∀ frame, mid.frame? = some frame →
      frame.top = mid.bar.top) :
    InPlace { drawn with bar := drawn.bar.takeRequests.1 } := by
  rcases kept_of_redraw h with ⟨_, hplace, hsettings⟩
  have htop : drawn.bar.top = mid.bar.top := congrArg Scrollbar.Place.top hplace
  have hdrawn : drawn.bar.InPlace drawn.host := hplaced.congr (reading?_of_redraw h) htop hsettings
  refine ⟨hdrawn.congr rfl rfl rfl, ?_⟩
  intro frame hframe
  refine Eq.trans ?_ htop.symm
  rcases redraw_eq_ok h with ⟨hquiet, rfl⟩ | ⟨bar, frame?, hdraw, rfl⟩
  · exact hkept hquiet frame hframe
  · dsimp only at hframe
    subst hframe
    exact Scrollbar.top_of_draw hdraw

/-! ## A step that shows the thumb -/

/-- Of what a message does before its frame is made, only a scroll and the end of a gesture schedule a
timer, and both have just measured the host. -/
theorem armed_of_handle (h : app.handle message = .ok mid) (hnone : app.bar.timers.requests = [])
    (harmed : mid.bar.timers.requests ≠ []) :
    mid.bar.InPlace mid.host ∧ (mid.bar.isJustified = true → mid.bar.needsRedraw = true) := by
  cases handle_eq_ok h with
  | edited => exact absurd hnone harmed
  | flung => exact absurd hnone harmed
  | touched touching =>
      rcases Scrollbar.inPlace_of_armed_touch touching hnone harmed with ⟨rfl, hplaced, hredraw⟩
      exact ⟨hplaced, hredraw⟩
  | stripResized width height =>
      dsimp only at harmed
      rw [(Scrollbar.kept_of_resize app.bar width height).2.2] at harmed
      exact absurd hnone harmed
  | windowResized width height =>
      dsimp only at harmed
      rw [(Scrollbar.kept_of_resize app.bar app.bar.width _).2.2] at harmed
      exact absurd hnone harmed
  | elapsed token =>
      by_cases hlive : token ∈ app.bar.timers.live
      · -- A live timer cancels what is queued.
        rw [Scrollbar.timerElapsed_of_mem hlive] at harmed
        exact absurd rfl harmed
      · rw [Scrollbar.timerElapsed_of_not_mem hlive] at harmed
        exact absurd hnone harmed

theorem armed_of_deliver {changes : List (ListenerId × ScrollChange)}
    (h : app.deliver changes = .ok mid)
    (hstart : app.bar.timers.requests ≠ [] →
      app.bar.InPlace app.host ∧ (app.bar.isJustified = true → app.bar.needsRedraw = true))
    (harmed : mid.bar.timers.requests ≠ []) :
    mid.bar.InPlace app.host ∧ (mid.bar.isJustified = true → mid.bar.needsRedraw = true) := by
  refine deliver_invariant (fun bar => bar.timers.requests ≠ [] →
    bar.InPlace app.host ∧ (bar.isJustified = true → bar.needsRedraw = true)) ?_ hstart h harmed
  intro bar after hbefore hscrolled
  rcases Scrollbar.inPlace_of_hostScrolled hscrolled with rfl | ⟨⟨hplaced, _⟩, hredraw⟩
  · exact hbefore
  · exact fun _ => ⟨hplaced, hredraw⟩

/-- A frame of a visible thumb schedules nothing. -/
theorem timers_of_redraw (h : mid.redraw = .ok drawn) (hvisible : drawn.bar.visibility = .visible) :
    drawn.bar.timers = mid.bar.timers := by
  rcases redraw_eq_ok h with ⟨_, rfl⟩ | ⟨bar, frame?, hdraw, rfl⟩
  · rfl
  · cases Scrollbar.draw_eq_ok hdraw with
    | blank => rfl
    | steady _ _ _ _ after_eq => rw [after_eq]
    | faded _ exiting _ _ after_eq =>
        rw [after_eq] at hvisible
        cases exiting.symm.trans hvisible
    | vanished _ _ _ _ after_eq =>
        rw [after_eq] at hvisible
        cases hvisible

theorem inPlace_of_shows (hsettled : app.Settled settings handed)
    (hupdate : app.update message = .ok (after, requests))
    (hshows : Shows ⟨app, message, requests, after⟩) : after.InPlace := by
  rcases exists_stages_of_update hupdate with
      ⟨handled, mid, drawn, hhandle, hdeliver, hredraw, rfl, rfl⟩
  rcases hshows with ⟨hvisible, hlong, harmed⟩
  have htimers := timers_of_redraw hredraw hvisible
  have hqueued : mid.bar.timers.requests ≠ [] := by
    rw [← htimers]
    exact harmed
  -- The changes are taken from the editor before they are told, which leaves it as it reads.
  have hhandled : handled.bar.timers.requests ≠ [] →
      handled.bar.InPlace handled.host.drainChanges.1 ∧
        (handled.bar.isJustified = true → handled.bar.needsRedraw = true) := by
    intro hmade
    rcases armed_of_handle hhandle hsettled.no_requests hmade with ⟨hplaced, hasks⟩
    exact ⟨hplaced.congr rfl rfl rfl, hasks⟩
  rcases armed_of_deliver hdeliver hhandled hqueued with ⟨hplaced, hasks⟩
  rw [← (handled_of_deliver hdeliver).2] at hplaced
  rcases kept_of_redraw hredraw with ⟨_, hplace, hsettings⟩
  have hmetrics : drawn.bar.metrics = mid.bar.metrics := congrArg Scrollbar.Place.metrics hplace
  have hsame : drawn.bar.isJustified = mid.bar.isJustified := by
    unfold Scrollbar.isJustified
    rw [hmetrics, hsettings]
  have hasked : mid.bar.needsRedraw = true := hasks (hsame.symm.trans hlong)
  apply inPlace_of_redraw hredraw hplaced
  intro hquiet
  cases hquiet.symm.trans hasked

/-! ## Steps after which the editor reads the same -/

/-- What a message does before its frame is made leaves the thumb where it was placed, if the editor
reads the same after it. -/
theorem placed_of_handle (hplaced : app.bar.InPlace app.host) (h : app.handle message = .ok mid)
    (hreading : mid.reading? = app.reading?)
    (hfree : app.bar.visibility = .dragging → ∀ x y, message ≠ .overlay (.moved x y)) :
    mid.bar.InPlace mid.host ∧ mid.bar.top = app.bar.top := by
  -- Most messages do not even measure.
  have of_place : mid.bar.top = app.bar.top → mid.bar.settings = app.bar.settings →
      mid.bar.InPlace mid.host ∧ mid.bar.top = app.bar.top := by
    intro htop hsettings
    exact ⟨hplaced.congr hreading htop hsettings, htop⟩
  cases handle_eq_ok h with
  | edited => exact of_place rfl rfl
  | flung => exact of_place rfl rfl
  | stripResized width height =>
      rcases Scrollbar.kept_of_resize app.bar width height with ⟨htop, hsettings, _⟩
      exact of_place htop hsettings
  | windowResized width height =>
      rcases Scrollbar.kept_of_resize app.bar app.bar.width (max (height - statusBarHeight) 0) with
          ⟨htop, hsettings, _⟩
      exact of_place htop hsettings
  | elapsed token =>
      apply of_place
      · exact congrArg Scrollbar.Place.top (Scrollbar.place_timerElapsed app.bar token)
      · exact congrArg Scrollbar.Setup.settings (Scrollbar.setup_timerElapsed app.bar token)
  | @touched touch bar _ _ touching =>
      have hsettings : bar.settings = app.bar.settings :=
        congrArg Scrollbar.Setup.settings (Scrollbar.setup_touch touching)
      have hfreely : app.bar.visibility = .dragging → ∀ x y, touch ≠ .moved x y := by
        intro hdragging x y htouched
        exact hfree hdragging x y (congrArg AppMessage.overlay htouched)
      rcases Scrollbar.inPlace_of_touch touching hfreely with rfl | ⟨_, htop⟩
      · exact of_place rfl rfl
      · exact of_place (htop hplaced) hsettings

theorem InPlace.of_keeps (h : app.InPlace) (hupdate : app.update message = .ok (after, requests))
    (hkeeps : Keeps ⟨app, message, requests, after⟩) : after.InPlace := by
  rcases exists_stages_of_update hupdate with
      ⟨handled, mid, drawn, hhandle, hdeliver, hredraw, rfl, rfl⟩
  rcases hkeeps with ⟨hreading, hfree⟩
  rcases handled_of_deliver hdeliver with ⟨hdelivered, hhost⟩
  have hheight : mid.bar.height = handled.bar.height := by
    refine deliver_invariant (fun bar => bar.height = handled.bar.height) ?_ ?_ hdeliver
    · intro bar after hbefore hscrolled
      exact (congrArg Scrollbar.Setup.height (Scrollbar.setup_hostScrolled hscrolled)).trans hbefore
    · rfl
  -- What is measured at the end could be measured as soon as the message was handled.
  have hsame : handled.reading? = app.reading? := by
    have hmid : handled.reading? = mid.reading? := by
      unfold reading?
      rw [hhost]
      exact (Scrollbar.reading?_of_height _ hheight).symm
    exact hmid.trans ((reading?_of_redraw hredraw).symm.trans hreading)
  rcases placed_of_handle h.placed hhandle hsame hfree with ⟨hplaced, htop⟩
  have hmid : mid.bar.InPlace handled.host.drainChanges.1 ∧ mid.bar.top = app.bar.top := by
    refine deliver_invariant (fun bar => bar.InPlace handled.host.drainChanges.1 ∧
      bar.top = app.bar.top) ?_ ?_ hdeliver
    · rintro bar after ⟨hbefore, hbeforetop⟩ hscrolled
      rcases Scrollbar.inPlace_of_hostScrolled hscrolled with rfl | ⟨⟨hafter, hkept⟩, _⟩
      · exact ⟨hbefore, hbeforetop⟩
      · exact ⟨hafter, (hkept hbefore).trans hbeforetop⟩
    · exact ⟨hplaced.congr rfl rfl rfl, htop⟩
  refine inPlace_of_redraw hredraw (hhost ▸ hmid.1) ?_
  intro _ frame hframe
  have hold : mid.frame? = app.frame? := hdelivered.frame_eq.trans (handled_of_handle hhandle).frame_eq
  rw [hmid.2]
  exact h.painted frame (hold ▸ hframe)

theorem inPlace_of_run {messages : List (AppMessage E)}
    {step : Step (App D) (AppMessage E) (List TimerRequest)} {later : Steps D E}
    (hsettled : step.before.Settled settings handed)
    (hupdate : step.before.update step.input = .ok (step.after, step.output)) (hshows : Shows step)
    (hkeeps : ∀ other ∈ later, Keeps other)
    (hrun : step.after.run messages = .ok (app, later)) : app.InPlace := by
  refine Machine.invariant_of_steps InPlace (inPlace_of_shows hsettled hupdate hshows) ?_ hkeeps hrun
  intro other hbefore hkept hother
  exact hbefore.of_keeps hother hkept

/-! ## A press -/

/-- What the strip says of a point over the thumb. -/
theorem painted_of_isOverThumb {x y : Single} (h : app.overlay.isOverThumb ⟨x, y⟩ = true) :
    ∃ frame, app.frame? = some frame ∧ 0 ≤ x ∧ frame.top ≤ y ∧
      y < frame.top + app.bar.thumbLength := by
  unfold overlay Overlay.isOverThumb at h
  cases hpainted : app.painted? with
  | none =>
      rw [hpainted] at h
      cases h
  | some frame =>
      rw [hpainted] at h
      simp only [Option.map_some, Rect.contains, Bool.and_eq_true, decide_eq_true_eq] at h
      rcases h with ⟨⟨⟨hleft, _⟩, htop⟩, hbottom⟩
      exact ⟨frame, (Option.filter_eq_some_iff.1 hpainted).1, hleft, htop, hbottom⟩

theorem update_of_redraw (hhandle : app.handle message = .ok mid)
    (hqueue : mid.host.listeners.queue = []) (hredraw : mid.redraw = .ok drawn) :
    app.update message =
      .ok ({ drawn with bar := drawn.bar.takeRequests.1 }, drawn.bar.takeRequests.2) := by
  rw [update_of_queue_nil hhandle hqueue, hredraw]
  rfl

section Press

variable {x y : Single} {placed : Scrollbar}

/-- A press that hits the measured thumb holds it. -/
theorem exists_update_of_hit (hsettled : app.Settled settings handed)
    (hready : app.bar.sprites.isReady = true) (hmeasure : app.bar.measure app.host = .ok placed)
    (htouch : app.bar.touch app.host (.pressed x y) =
      .ok ({ placed.enter .dragging with pressed := true }, ScrollHost.abortFling app.host, true)) :
    ∃ after requests, app.update (.overlay (.pressed x y)) = .ok (after, requests) ∧
      after.bar.visibility = .dragging ∧ after.bar.pressed = true := by
  let held : Scrollbar := { placed.enter .dragging with pressed := true }
  have hhandle : app.handle (.overlay (.pressed x y)) =
      .ok { app with bar := held, host := ScrollHost.abortFling app.host } :=
    Checked.bind_eq_ok_iff.2 ⟨_, htouch, rfl⟩
  -- To be held asks for a frame, and the bitmaps are still there for it.
  have hsprites : held.sprites.isReady = true := by
    rcases Scrollbar.measuring hmeasure with rfl | ⟨_, _, _, _, rfl⟩
    · exact hready
    · exact hready
  have hheld : held.visibility = .dragging := rfl
  rcases Scrollbar.exists_draw_of_dragging hheld hsprites with
      ⟨bar, frame?, hdraw, hdragging, hpressed⟩
  have hredraw : redraw { app with bar := held, host := ScrollHost.abortFling app.host } = .ok _ :=
    redraw_of_draw rfl hdraw
  exact ⟨_, _, update_of_redraw hhandle hsettled.no_changes hredraw, hdragging, hpressed⟩

/-- A press that misses the measured thumb leaves it held or not. -/
theorem exists_update_of_miss (hsettled : app.Settled settings handed)
    (hseen : app.bar.visibility ≠ .hidden) (hmeasure : app.bar.measure app.host = .ok placed)
    (htouch : app.bar.touch app.host (.pressed x y) = .ok (placed, app.host, false)) :
    ∃ after requests, app.update (.overlay (.pressed x y)) = .ok (after, requests) ∧
      after.bar.visibility = app.bar.visibility ∧ after.bar.pressed = app.bar.pressed := by
  have hhandle : app.handle (.overlay (.pressed x y)) = .ok { app with bar := placed } :=
    Checked.bind_eq_ok_iff.2 ⟨_, htouch, rfl⟩
  -- Nothing asks for a frame, and none was asked for before.
  have hquiet : app.bar.needsRedraw = false := by
    cases hasked : app.bar.needsRedraw with
    | false => rfl
    | true => exact absurd (hsettled.pictured.hidden_of_redraw hasked) hseen
  have hsame : placed.needsRedraw = false ∧ placed.visibility = app.bar.visibility ∧
      placed.pressed = app.bar.pressed := by
    rcases Scrollbar.measuring hmeasure with rfl | ⟨_, _, _, _, rfl⟩
    · exact ⟨hquiet, rfl, rfl⟩
    · exact ⟨hquiet, rfl, rfl⟩
  have hredraw : redraw { app with bar := placed } = .ok { app with bar := placed } :=
    redraw_of_quiet hsame.1
  exact ⟨_, _, update_of_redraw hhandle hsettled.no_changes hredraw, hsame.2⟩

/-- A press on the painted thumb does not fault. It takes hold of the thumb if that lies under it once
the host was measured, and else leaves it held or not. -/
theorem exists_update_of_press (hsettled : app.Settled settings handed) (hinstep : app.InStep)
    (hheight : app.bar.height.isNaN = false) (hover : app.overlay.isOverThumb ⟨x, y⟩ = true)
    (hwidth : x ≤ app.bar.width) :
    ∃ placed after requests, app.bar.measure app.host = .ok placed ∧
      app.update (.overlay (.pressed x y)) = .ok (after, requests) ∧
      if placed.top ≤ y ∧ y ≤ placed.top + app.bar.thumbLength then
        after.bar.visibility = .dragging ∧ after.bar.pressed = true
      else after.bar.visibility = app.bar.visibility ∧ after.bar.pressed = app.bar.pressed := by
  rcases painted_of_isOverThumb hover with ⟨frame, hframe, hleft, _, _⟩
  rcases hinstep.agrees.isSome_iff.1 (by simp [hframe]) with ⟨hseen, hready⟩
  have hlinked := hsettled.coherent.linked_of_seen hseen
  rcases Scrollbar.exists_measure app.host hheight with ⟨placed, hmeasure⟩
  have htouch := Scrollbar.touch_pressed (x := x) (y := y) hlinked hseen hmeasure
  have hhit := Scrollbar.isOnThumb_of_measure (y := y) hmeasure hleft hwidth
  -- The press is judged by where the editor's offset puts the thumb now, and not by the frame.
  by_cases hon : placed.top ≤ y ∧ y ≤ placed.top + app.bar.thumbLength
  · rw [if_pos (hhit.2 hon)] at htouch
    rcases exists_update_of_hit hsettled hready hmeasure htouch with
        ⟨after, requests, hupdate, hheld⟩
    refine ⟨placed, after, requests, hmeasure, hupdate, ?_⟩
    rw [if_pos hon]
    exact hheld
  · rw [if_neg (fun hgrabbed => hon (hhit.1 hgrabbed))] at htouch
    rcases exists_update_of_miss hsettled hseen hmeasure htouch with
        ⟨after, requests, hupdate, hsame⟩
    refine ⟨placed, after, requests, hmeasure, hupdate, ?_⟩
    rw [if_neg hon]
    exact hsame

end Press

/-- After every run of an application whose settings can be worked with, in which no height of the
strip was other than a number, a press on the painted thumb does not fault. It measures the editor, and
the thumb is held after it exactly if the measured thumb lies under the press or was held before. It is
held after a press for which a step has shown the thumb, and later steps have left the editor to read
the same and moved no dragged thumb. -/
theorem press_takes_hold_of_run {launch : Launch} {messages : List (AppMessage E)} {app : App D}
    {steps : Steps D E} (hvalid : launch.settings.validate = .ok ())
    (hheight : ∀ width height, .overlayResized width height ∈ messages → height.isNaN = false)
    (hrun : (new launch).run messages = .ok (app, steps)) {x y : Single}
    (hover : app.overlay.isOverThumb ⟨x, y⟩ = true) (hwidth : x ≤ app.bar.width) :
    ∃ placed after requests, app.bar.measure app.host = .ok placed ∧
      app.update (.overlay (.pressed x y)) = .ok (after, requests) ∧
      (after.bar.visibility = .dragging ∧ after.bar.pressed = true ↔
        (placed.top ≤ y ∧ y ≤ placed.top + app.bar.thumbLength) ∨
          app.bar.visibility = .dragging ∧ app.bar.pressed = true) ∧
      ∀ earlier step later, steps = earlier ++ step :: later → Shows step →
        (∀ other ∈ later, Keeps other) →
          after.bar.visibility = .dragging ∧ after.bar.pressed = true := by
  have hsettled := (settled_new D launch).of_run hrun
  have hinstep := (inStep_new D launch).of_run
    (ScrollbarSettings.fadeStep_ne_zero_of_validate hvalid) (settled_new D launch) hrun
  rcases exists_update_of_press hsettled hinstep (isNaN_height_of_run hheight hrun) hover hwidth with
      ⟨placed, after, requests, hmeasure, hupdate, hpress⟩
  have hheld : after.bar.visibility = .dragging ∧ after.bar.pressed = true ↔
      (placed.top ≤ y ∧ y ≤ placed.top + app.bar.thumbLength) ∨
        app.bar.visibility = .dragging ∧ app.bar.pressed = true := by
    split at hpress
    · rename_i hon
      exact iff_of_true hpress (Or.inl hon)
    · rename_i hmissed
      rw [hpress.1, hpress.2]
      exact (or_iff_right hmissed).symm
  refine ⟨placed, after, requests, hmeasure, hupdate, hheld, ?_⟩
  intro earlier step later hsteps hshows hkeeps
  rcases Machine.exists_run_of_append_eq hsteps hrun with
      ⟨sofar, more, _, hsofar, hstep, hlater⟩
  have hplace := inPlace_of_run ((settled_new D launch).of_run hsofar) hstep hshows hkeeps hlater
  -- The thumb was painted where measuring puts it.
  rcases painted_of_isOverThumb hover with ⟨frame, hframe, _, htop, hbottom⟩
  have hplaced : placed.top = frame.top :=
    (hplace.placed.top_of_measure hmeasure).trans (hplace.painted frame hframe).symm
  apply hheld.2
  left
  rw [hplaced]
  exact ⟨htop, Single.le_of_lt hbottom⟩

/-- The theorem speaks of a press right after the scroll that has shown the thumb. -/
theorem press_takes_hold_of_run_scrolled :
    ∃ (app : App Document) (steps : _) (after : App Document) (requests : _),
      highLines.settings.validate = .ok () ∧
        (new highLines).run [.editor (.scroll 1)] = .ok (app, steps) ∧
        app.overlay.isOverThumb ⟨1, 264⟩ = true ∧
        app.update (.overlay (.pressed 1 264)) = .ok (after, requests) ∧
        after.bar.visibility = .dragging ∧ after.bar.pressed = true := by
  have hmap : ((new highLines : App Document).run [.editor (.scroll 1)]).map (fun reached =>
      (reached.1.overlay.isOverThumb ⟨1, 264⟩, decide (1 ≤ reached.1.bar.width),
        reached.2.map fun step =>
          (step.after.bar.visibility, step.after.bar.isJustified, step.output.length))) =
        .ok (true, true, [(.visible, true, 1)]) := by
    decide +kernel
  rcases Checked.map_eq_ok_iff.1 hmap with ⟨⟨app, steps⟩, hrun, hreached⟩
  have hover : app.overlay.isOverThumb ⟨1, 264⟩ = true := congrArg Prod.fst hreached
  have hwidth : decide (1 ≤ app.bar.width) = true := congrArg (fun seen => seen.2.1) hreached
  have hsteps : steps.map (fun step =>
      (step.after.bar.visibility, step.after.bar.isJustified, step.output.length)) =
        [(.visible, true, 1)] := congrArg (fun seen => seen.2.2) hreached
  rcases List.map_eq_singleton_iff.1 hsteps with ⟨step, rfl, hstep⟩
  have hshows : Shows step := by
    have hlength : step.output.length = 1 := congrArg (fun seen => seen.2.2) hstep
    refine ⟨congrArg Prod.fst hstep, congrArg (fun seen => seen.2.1) hstep, ?_⟩
    exact List.ne_nil_of_length_eq_add_one hlength
  have hvalid : highLines.settings.validate = .ok () := by decide +kernel
  have hheight : ∀ width height : Single,
      AppMessage.overlayResized width height ∈ [(.editor (.scroll 1) : AppMessage Edit)] →
        height.isNaN = false := by
    simp
  rcases press_takes_hold_of_run hvalid hheight hrun hover (of_decide_eq_true hwidth) with
      ⟨_, after, requests, _, hupdate, _, hkept⟩
  rcases hkept [] step [] rfl hshows (by simp) with ⟨hdragging, hpressed⟩
  exact ⟨app, [step], after, requests, hvalid, hrun, hover, hupdate, hdragging, hpressed⟩

/-- A line that is deleted moves the place of the thumb without a scroll: the press is measured to be
beside the thumb, although it lies on the thumb that is painted. -/
theorem press_misses_painted_thumb_of_deletion :
    ∃ (app : App Document) (steps : _) (after : App Document) (requests : _),
      highLines.settings.validate = .ok () ∧
        (new highLines).run [.editor (.scroll 1), .editor (.edit .delete)] = .ok (app, steps) ∧
        app.overlay.isOverThumb ⟨1, 264⟩ = true ∧ 1 ≤ app.bar.width ∧
        app.update (.overlay (.pressed 1 264)) = .ok (after, requests) ∧
        after.bar.visibility = .visible ∧ after.bar.pressed = false := by
  have hvalid : highLines.settings.validate = .ok () := by decide +kernel
  have hmap : ((new highLines : App Document).run
      [.editor (.scroll 1), .editor (.edit .delete)]).bind (fun reached =>
        (reached.1.update (.overlay (.pressed 1 264))).map fun answer =>
          (reached.1.overlay.isOverThumb ⟨1, 264⟩, decide (1 ≤ reached.1.bar.width),
            answer.1.bar.visibility, answer.1.bar.pressed)) =
        .ok (true, true, .visible, false) := by
    decide +kernel
  rcases Checked.bind_eq_ok_iff.1 hmap with ⟨⟨app, steps⟩, hrun, hmap⟩
  rcases Checked.map_eq_ok_iff.1 hmap with ⟨⟨after, requests⟩, hupdate, hanswer⟩
  have hwidth : decide (1 ≤ app.bar.width) = true := congrArg (fun seen => seen.2.1) hanswer
  exact ⟨app, steps, after, requests, hvalid, hrun, congrArg Prod.fst hanswer,
    of_decide_eq_true hwidth, hupdate, congrArg (fun seen => seen.2.2.1) hanswer,
    congrArg (fun seen => seen.2.2.2) hanswer⟩

end App

end OverlayScrollbar
