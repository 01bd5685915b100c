import OverlayScrollbar.Proofs.Scrollbar.Placing
import OverlayScrollbar.Proofs.Scrollbar.Setup

/-!
# A thumb in its place

The thumb is in its place if measuring would leave it there. Whatever measures the host puts the thumb
in its place, and while the host reads the same only a drag takes it away.

- `Scrollbar.InPlace`                 : the thumb lies where the host's measurements put it
- `Scrollbar.inPlace_of_measure`      : so it does once it was measured
- `Scrollbar.inPlace_of_hostScrolled`, `Scrollbar.inPlace_of_touch` : scrolls and touches put it there
-/

namespace OverlayScrollbar

namespace Scrollbar

variable {H : Type} [ScrollHost H] {bar after measured : Scrollbar} {host host' : H}

/-- The thumb lies where the host's measurements put it. -/
def InPlace (bar : Scrollbar) (host : H) : Prop :=
  ∀ metrics, bar.reading? host = some metrics → metrics.thumbTop bar.thumbLength = .ok bar.top

theorem InPlace.congr (h : bar.InPlace host) (hreading : after.reading? host' = bar.reading? host)
    (htop : after.top = bar.top) (hsettings : after.settings = bar.settings) :
    after.InPlace host' := by
  have hlength : after.thumbLength = bar.thumbLength :=
    congrArg (fun settings => Single.ofNat (ScrollbarSettings.thumbHeight settings).toNat) hsettings
  intro metrics hmetrics
  rw [hlength, htop]
  exact h metrics (hreading ▸ hmetrics)

theorem reading?_of_height (host : H) (hheight : after.height = bar.height) :
    after.reading? host = bar.reading? host := by
  unfold reading?
  rw [hheight]

/-- Another size of the strip leaves the thumb where it is. -/
theorem kept_of_resize (bar : Scrollbar) (width height : Single) :
    (bar.resize width height).top = bar.top ∧
      (bar.resize width height).settings = bar.settings ∧
        (bar.resize width height).timers = bar.timers := by
  unfold resize
  split
  · exact ⟨rfl, rfl, rfl⟩
  · exact ⟨rfl, rfl, rfl⟩

/-! ## Measuring -/

theorem inPlace_of_measure (hlinked : bar.linked = true) (h : bar.measure host = .ok measured) :
    measured.InPlace host := by
  intro metrics hmetrics
  rcases measuring h with rfl | ⟨metrics', top, hreading, htop, rfl⟩
  · -- A scrollbar that is not changed has measured the place that it had.
    rw [measure_of_reading_some hlinked hmetrics] at h
    rcases Checked.map_eq_ok_iff.1 h with ⟨top, htop, hsame⟩
    rw [← congrArg Scrollbar.top hsame]
    exact htop
  · cases hreading.symm.trans hmetrics
    exact htop

/-- Measuring a host anew changes nothing. -/
theorem InPlace.top_of_measure (h : bar.InPlace host) (hmeasure : bar.measure host = .ok measured) :
    measured.top = bar.top := by
  rcases measuring hmeasure with rfl | ⟨metrics, top, hreading, htop, rfl⟩
  · rfl
  · exact Except.ok.inj (htop.symm.trans (h metrics hreading))

/-- What is done after measuring leaves the thumb in its place, as long as it does not move it; and a
thumb that was there already is not moved. -/
theorem inPlace_of_place (hlinked : bar.linked = true) (hmeasure : bar.measure host = .ok measured)
    (hplace : after.place = measured.place) (hsettings : after.settings = measured.settings) :
    after.InPlace host ∧ (bar.InPlace host → after.top = bar.top) := by
  have htop : after.top = measured.top := congrArg Place.top hplace
  constructor
  · have hreading := reading?_of_height host (congrArg Place.height hplace)
    exact (inPlace_of_measure hlinked hmeasure).congr hreading htop hsettings
  · intro hbefore
    exact htop.trans (hbefore.top_of_measure hmeasure)

/-! ## Scrolls and touches -/

/-- Making the thumb visible asks for a frame, unless the content is too short. -/
theorem redraw_of_enter_visible {pressed : Bool}
    (h : scheduleAutoHide { bar.enter .visible with pressed := pressed } = .ok after)
    (hlong : after.isJustified = true) : after.needsRedraw = true := by
  rcases scheduleAutoHide_enter_visible h with ⟨_, rfl⟩ | ⟨hshort, _, rfl⟩ | ⟨hshort, _, rfl⟩
  · rfl
  · cases hshort.symm.trans hlong
  · cases hshort.symm.trans hlong

/-- A scroll is ignored, or puts the thumb in its place; and it asks for a frame over long content. -/
theorem inPlace_of_hostScrolled (h : bar.hostScrolled host = .ok after) :
    after = bar ∨
      (after.InPlace host ∧ (bar.InPlace host → after.top = bar.top)) ∧
        (after.isJustified = true → after.needsRedraw = true) := by
  rcases hostScrolled_eq_ok h with ⟨_, rfl⟩ | ⟨hlinked, _, measured, hmeasure, hshown⟩
  · exact Or.inl rfl
  · have hsettings : after.settings = measured.settings :=
      congrArg Setup.settings ((setup_scheduleAutoHide hshown).trans (setup_enter measured .visible))
    refine Or.inr ⟨?_, redraw_of_enter_visible hshown⟩
    exact inPlace_of_place hlinked hmeasure (place_of_enter_visible hshown) hsettings

/-- A touch leaves the thumb alone or puts it in its place, unless it moves a dragged thumb. -/
theorem inPlace_of_touch {event : Touch} {used : Bool}
    (h : bar.touch host event = .ok (after, host', used))
    (hfree : bar.visibility = .dragging → ∀ x y, event ≠ .moved x y) :
    after = bar ∨ after.InPlace host ∧ (bar.InPlace host → after.top = bar.top) := by
  cases touch_eq_ok h with
  | inert => exact Or.inl rfl
  | missed linked _ measuring _ => exact Or.inr (inPlace_of_place linked measuring rfl rfl)
  | passed linked _ measuring _ _ => exact Or.inr (inPlace_of_place linked measuring rfl rfl)
  | grabbed linked _ measuring _ after_eq =>
      subst after_eq
      exact Or.inr (inPlace_of_place linked measuring rfl rfl)
  | ended linked _ measuring _ releasing =>
      have hsettings := congrArg Setup.settings (setup_release releasing)
      have hplace := place_of_enter_visible releasing
      exact Or.inr (inPlace_of_place linked measuring hplace hsettings)
  | dragged _ dragging _ _ _ => exact absurd rfl (hfree dragging _ _)

/-- A touch that schedules a timer puts the thumb in its place, and asks for a frame over long
content. -/
theorem inPlace_of_armed_touch {event : Touch} {used : Bool}
    (h : bar.touch host event = .ok (after, host', used)) (hnone : bar.timers.requests = [])
    (harmed : after.timers.requests ≠ []) :
    host' = host ∧ after.InPlace host ∧ (after.isJustified = true → after.needsRedraw = true) := by
  -- Only the end of a gesture schedules.
  cases touch_eq_ok h with
  | inert => exact absurd hnone harmed
  | missed linked _ measuring _ =>
      rcases measure_eq_ok linked measuring with ⟨⟨_, _, rfl⟩, _⟩
      exact absurd hnone harmed
  | passed linked _ measuring _ _ =>
      rcases measure_eq_ok linked measuring with ⟨⟨_, _, rfl⟩, _⟩
      exact absurd hnone harmed
  | dragged linked _ measuring after_eq _ =>
      rcases measure_eq_ok linked measuring with ⟨⟨_, _, rfl⟩, _⟩
      subst after_eq
      exact absurd hnone harmed
  | grabbed _ _ _ _ after_eq =>
      subst after_eq
      exact absurd rfl harmed
  | ended linked _ measuring _ releasing =>
      have hsettings := congrArg Setup.settings (setup_release releasing)
      have hplace := place_of_enter_visible releasing
      exact ⟨rfl, (inPlace_of_place linked measuring hplace hsettings).1,
        redraw_of_enter_visible releasing⟩

end Scrollbar

end OverlayScrollbar
