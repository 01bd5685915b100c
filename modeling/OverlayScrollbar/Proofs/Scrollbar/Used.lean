import OverlayScrollbar.Proofs.Scrollbar.Entering
import OverlayScrollbar.Proofs.Scrollbar.Placing
import OverlayScrollbar.Proofs.Scrollbar.Requests

/-!
# Touches that are used

A scrollbar acts on its host exactly if it uses a touch. A press that takes hold of the thumb stops the
fling of the host; a move of a thumb that is dragged stops it too, and then scrolls the host to where
the thumb is. All other touches leave the host alone, and a press or a move among them leaves the
scrollbar as it was, but for what it has measured.

- `HostRequest.carryOut` : what becomes of a host that is asked
- `Scrollbar.uses`       : the touches that are used
- `Scrollbar.Using`      : what a touch that is used does, and asks of its host
- `Scrollbar.used_eq_uses`, `Scrollbar.using_of_touch`, `Scrollbar.spared_of_touch` : its parts

Main statement: `touch_acts_iff_used`.
-/

namespace OverlayScrollbar

variable {H : Type} [ScrollHost H]

/-- What becomes of a host that is asked. -/
def HostRequest.carryOut (host : H) : HostRequest → Checked H
  | .addListener id => .ok (ScrollHost.addListener host id).1
  | .abortFling => .ok (ScrollHost.abortFling host)
  | .scrollTo x y => ScrollHost.scrollTo host x y

namespace Scrollbar

variable {bar after measured : Scrollbar} {host : H} {watched' : WatchedHost H} {event : Touch}
  {used : Bool}

/-! ## Which touches are used -/

/-- The touch is used: a press that takes hold of the thumb, or a move while the thumb is dragged. -/
def uses (bar : Scrollbar) (host : H) : Touch → Bool
  | .pressed x y => bar.grabs host x y
  | .moved _ _ => bar.linked && decide (bar.visibility = .dragging)
  | _ => false

theorem used_eq_uses {host' : H} (h : bar.touch host event = .ok (after, host', used)) :
    used = bar.uses host event := by
  cases event with
  | pressed x y => exact used_eq_grabs h
  | moved x y =>
      cases touch_eq_ok h with
      | inert inactive =>
          rcases inactive with hunlinked | hhidden
          · simp [uses, hunlinked]
          · simp [uses, hhidden]
      | dragged linked dragging _ _ _ => simp [uses, linked, dragging]
      | ended _ _ _ ends _ => simp at ends
      | passed _ _ _ free _ => simp [uses, free]
  | released x y =>
      cases touch_eq_ok h with
      | inert => rfl
      | ended => rfl
      | passed => rfl
  | cancelled =>
      cases touch_eq_ok h with
      | inert => rfl
      | ended => rfl
      | passed => rfl

/-! ## What a used touch asks -/

/-- The scroll that goes with a move: to the offset for the thumb, if the track has a length. -/
def scrollFor? (bar : Scrollbar) (host : H) : Touch → Option HostRequest
  | .moved _ _ =>
      (bar.metrics.targetOffset? bar.thumbLength bar.top).map
        (.scrollTo (ScrollHost.scrollX host))
  | _ => none

/-- What a touch that is used does: the thumb is held, and under the pointer if it was moved, and the
host is asked to stop its fling, once, and only for a move, and then at most once, to scroll. -/
structure Using (bar : Scrollbar) (host : H) (event : Touch) (after : Scrollbar)
    (requests : List HostRequest) : Prop where
  dragging : after.visibility = .dragging
  pressed : after.pressed = true
  requests_eq : requests =
    .abortFling :: (after.scrollFor? (ScrollHost.abortFling host) event).toList
  top_eq : ∀ x y, event = .moved x y → ScrollHost.layoutHeight? host ≠ none →
    after.top = draggedTop y bar.thumbHeight bar.height

/-- A host that is laid out is measured in a strip of the present height. -/
theorem viewHeight_of_measure (hlinked : bar.linked = true)
    (hlayout : ScrollHost.layoutHeight? host ≠ none) (h : bar.measure host = .ok measured) :
    measured.metrics.viewHeight = bar.height := by
  obtain ⟨contentHeight, hcontent⟩ := Option.ne_none_iff_exists'.1 hlayout
  have hreading : bar.reading? host = some _ := congrArg (Option.map _) hcontent
  rw [measure_of_reading_some hlinked hreading] at h
  rcases Checked.map_eq_ok_iff.1 h with ⟨top, _, rfl⟩
  rfl

/-- A thumb that moves its host asks it to scroll, if the track has a length, and to do nothing else. -/
theorem asked_of_scrollHost {watched : WatchedHost H} (x y : Single)
    (h : bar.scrollHost watched = .ok watched') :
    watched'.record = watched.record ++ (bar.scrollFor? watched.host (.moved x y)).toList ∧
      (bar.scrollFor? watched.host (.moved x y)).toList.foldlM HostRequest.carryOut watched.host =
        .ok watched'.host := by
  unfold scrollHost at h
  unfold scrollFor?
  cases htarget : bar.metrics.targetOffset? bar.thumbLength bar.top with
  | none =>
      rw [htarget] at h
      cases h
      exact ⟨(List.append_nil _).symm, rfl⟩
  | some offset =>
      rw [htarget] at h
      rcases Checked.bind_eq_ok_iff.1 h with ⟨scrolled, hscrolled, hafter⟩
      cases hafter
      exact ⟨rfl, Checked.bind_eq_ok_iff.2 ⟨scrolled, hscrolled, rfl⟩⟩

/-- A touch that is used asks its host for what `Using` says, and this is all that becomes of it. -/
theorem using_of_touch
    (h : bar.touch (⟨host, []⟩ : WatchedHost H) event = .ok (after, watched', true)) :
    Using bar host event after watched'.record ∧
      watched'.record.foldlM HostRequest.carryOut host = .ok watched'.host := by
  generalize hused : true = used at h
  cases touch_eq_ok h with
  | grabbed linked _ measuring _ after_eq =>
      subst after_eq
      exact ⟨⟨rfl, rfl, rfl, fun _ _ hmoved => by cases hmoved⟩, rfl⟩
  | dragged linked dragging measuring after_eq scrolling =>
      rename_i x y measured
      rcases asked_of_scrollHost x y scrolling with ⟨hrecord, hhost⟩
      -- Neither what is seen nor the settings are measured.
      have hvisibility : measured.visibility = bar.visibility := by
        rcases measure_eq_ok linked measuring with ⟨⟨metrics, top, rfl⟩, _⟩
        rfl
      have hthumb : measured.thumbHeight = bar.thumbHeight :=
        congrArg (fun setup => setup.settings.thumbHeight) (setup_measure measuring)
      rw [hrecord]
      refine ⟨⟨?_, ?_, rfl, ?_⟩, hhost⟩
      · rw [after_eq]
        exact hvisibility.trans dragging
      · rw [after_eq]
      · intro x' y' hmoved hlayout
        cases hmoved
        rw [after_eq, ← hthumb, ← viewHeight_of_measure linked hlayout measuring]
  | _ => cases hused -- No other touch is used.

/-- A touch that is not used asks nothing of its host. A press or a move then leaves the scrollbar as it
was, but for its measurements and the place of the thumb. -/
theorem spared_of_touch
    (h : bar.touch (⟨host, []⟩ : WatchedHost H) event = .ok (after, watched', false)) :
    watched' = ⟨host, []⟩ ∧
      (((∃ x y, event = .pressed x y) ∨ ∃ x y, event = .moved x y) →
        after = { bar with metrics := after.metrics, top := after.top }) := by
  have hmeasured : ∀ {measured : Scrollbar}, bar.linked = true →
      bar.measure (⟨host, []⟩ : WatchedHost H) = .ok measured →
        measured = { bar with metrics := measured.metrics, top := measured.top } := by
    intro measured hlinked hmeasure
    rcases measure_eq_ok hlinked hmeasure with ⟨⟨metrics, top, rfl⟩, _⟩
    rfl
  generalize hused : false = used at h
  cases touch_eq_ok h with
  | inert => exact ⟨rfl, fun _ => rfl⟩
  | missed linked _ measuring _ => exact ⟨rfl, fun _ => hmeasured linked measuring⟩
  | passed linked _ measuring _ _ => exact ⟨rfl, fun _ => hmeasured linked measuring⟩
  | ended _ _ _ ends _ =>
      -- Neither a press nor a move ends a gesture.
      refine ⟨rfl, ?_⟩
      rintro (⟨x, y, rfl⟩ | ⟨x, y, rfl⟩)
      · simp at ends
      · simp at ends
  | _ => cases hused

/-- A touch acts on its host exactly if it is used. If it is, the host is asked to stop its fling, and
to scroll for a move, and the thumb is held. If it is not, the host is asked nothing and is as it was;
a press or a move then leaves all of the scrollbar that was not measured again. -/
theorem touch_acts_iff_used {host' : H} (h : bar.touch host event = .ok (after, host', used)) :
    ∃ requests, bar.touch (⟨host, []⟩ : WatchedHost H) event = .ok (after, ⟨host', requests⟩, used) ∧
      requests.foldlM HostRequest.carryOut host = .ok host' ∧
      used = bar.uses host event ∧
      (used = true → Using bar host event after requests) ∧
      (used = false → host' = host ∧ requests = [] ∧
        (((∃ x y, event = .pressed x y) ∨ ∃ x y, event = .moved x y) →
          after = { bar with metrics := after.metrics, top := after.top })) := by
  -- A host that is watched answers as the host itself does.
  rcases Checked.map_eq_ok_iff.1 ((touch_watched bar ⟨host, []⟩ event).trans h) with
    ⟨⟨after, ⟨host', requests⟩, used⟩, hwatched, hsame⟩
  cases hsame
  refine ⟨requests, hwatched, ?_, used_eq_uses h, ?_, ?_⟩
  · cases used with
    | true => exact (using_of_touch hwatched).2
    | false =>
        cases (spared_of_touch hwatched).1
        rfl
  · rintro rfl
    exact (using_of_touch hwatched).1
  · rintro rfl
    rcases spared_of_touch hwatched with ⟨hspared, hkept⟩
    cases hspared
    exact ⟨rfl, rfl, hkept⟩

/-- A thumb that is dragged in a strip of 200 pixels. -/
def draggedBar : Scrollbar :=
  { new 0 ScrollbarSettings.standard (Color.solid 0 0 1) with
    linked := true
    visibility := .dragging
    width := 24
    height := 200 }

/-- The theorem speaks of a move that stops the fling and scrolls once, and of a press beside the thumb
that does neither. -/
theorem touch_acts_iff_used_moved :
    (∃ after host' requests,
      draggedBar.touch (hostOfContent 1000) (.moved 1 60) = .ok (after, host', true) ∧
        requests.foldlM HostRequest.carryOut (hostOfContent 1000) = .ok host' ∧
        host'.aborts = 1 ∧ host'.scrolls.length = 1 ∧
        Using draggedBar (hostOfContent 1000) (.moved 1 60) after requests) ∧
      ∃ after,
        draggedBar.touch (hostOfContent 1000) (.pressed 1 190) =
            .ok (after, hostOfContent 1000, false) ∧
          after = { draggedBar with metrics := after.metrics, top := after.top } := by
  have hmoved : (draggedBar.touch (hostOfContent 1000) (.moved 1 60)).map
      (fun result => (result.2.1.aborts, result.2.1.scrolls.length, result.2.2)) =
        .ok (1, 1, true) := by
    decide +kernel
  have hpressed : (draggedBar.touch (hostOfContent 1000) (.pressed 1 190)).map
      (fun result => result.2.2) = .ok false := by
    decide +kernel
  rcases Checked.map_eq_ok_iff.1 hmoved with ⟨⟨after, host', used⟩, htouch, hresult⟩
  rcases Checked.map_eq_ok_iff.1 hpressed with ⟨⟨missed, same, unused⟩, hmissed, hnone⟩
  obtain ⟨haborts, hscrolls, rfl⟩ : host'.aborts = 1 ∧ host'.scrolls.length = 1 ∧ used = true := by
    simpa using hresult
  obtain rfl : unused = false := hnone
  rcases touch_acts_iff_used htouch with ⟨requests, _, hcarried, _, husing, _⟩
  rcases touch_acts_iff_used hmissed with ⟨_, _, _, _, _, hspared⟩
  rcases hspared rfl with ⟨rfl, _, hkept⟩
  exact ⟨⟨after, host', requests, htouch, hcarried, haborts, hscrolls, husing rfl⟩, missed, hmissed,
    hkept (Or.inl ⟨1, 190, rfl⟩)⟩

end Scrollbar

end OverlayScrollbar
