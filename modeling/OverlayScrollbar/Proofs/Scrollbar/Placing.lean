import OverlayScrollbar.Proofs.Scrollbar.Operations

/-!
# Placing the thumb

The thumb is placed when a host is measured, and under the pointer while it is dragged. No other
operation moves it, not even one that changes the size of the strip.

- `Scrollbar.reading?`     : what a scrollbar would measure of a host
- `Scrollbar.measuring`    : measuring is to read and to place the thumb
- `Scrollbar.Place`        : where the thumb lies, and by what it was placed
- `Scrollbar.Placing`      : the ways in which a call changes the place
- `Scrollbar.call_placing` : every call that does not fault changes it in one of these ways
-/

namespace OverlayScrollbar

namespace Scrollbar

variable {H : Type} [ScrollHost H] {bar after measured : Scrollbar} {host : H}

/-! ## Measuring -/

/-- What a scrollbar would measure of a host that is laid out. -/
def reading? (bar : Scrollbar) (host : H) : Option ScrollMetrics :=
  (ScrollHost.layoutHeight? host).map fun contentHeight =>
    { viewHeight := bar.height
      contentHeight := contentHeight
      offset := ScrollHost.scrollY host
      hostHeight := ScrollHost.height host
      lineHeight := ScrollHost.lineHeight host }

theorem measure_of_reading_none (h : bar.reading? host = none) : bar.measure host = .ok bar := by
  have hlayout : ScrollHost.layoutHeight? host = none := Option.map_eq_none_iff.1 h
  unfold measure
  rw [hlayout]
  split <;> rfl

theorem measure_of_reading_some {metrics : ScrollMetrics} (hlinked : bar.linked = true)
    (h : bar.reading? host = some metrics) :
    bar.measure host = (metrics.thumbTop bar.thumbLength).map fun top =>
      { bar with metrics := metrics, top := top } := by
  rcases Option.map_eq_some_iff.1 h with ⟨contentHeight, hlayout, rfl⟩
  rw [measure, if_pos hlinked, hlayout]
  rfl

/-- Measuring leaves a scrollbar as it is, or reads the host and places the thumb by that. -/
theorem measuring (h : bar.measure host = .ok measured) :
    measured = bar ∨ ∃ metrics top, bar.reading? host = some metrics ∧
      metrics.thumbTop bar.thumbLength = .ok top ∧
        measured = { bar with metrics := metrics, top := top } := by
  by_cases hlinked : bar.linked = true
  · cases hreading : bar.reading? host with
    | none =>
        rw [measure_of_reading_none hreading] at h
        cases h
        exact Or.inl rfl
    | some metrics =>
        rw [measure_of_reading_some hlinked hreading] at h
        rcases Checked.map_eq_ok_iff.1 h with ⟨top, htop, rfl⟩
        exact Or.inr ⟨metrics, top, rfl, htop, rfl⟩
  · rw [measure, if_neg hlinked] at h
    cases h
    exact Or.inl rfl

/-! ## The place -/

/-- Where the thumb lies in its strip, and by what it was placed. -/
structure Place where
  height : Single
  top : Single
  metrics : ScrollMetrics

/-- The place of the thumb. -/
def place (bar : Scrollbar) : Place :=
  ⟨bar.height, bar.top, bar.metrics⟩

omit [ScrollHost H] in
theorem place_enter (bar : Scrollbar) (visibility : Visibility) :
    (bar.enter visibility).place = bar.place := by
  unfold enter
  split <;> rfl

theorem place_timerElapsed (bar : Scrollbar) (token : TimerToken) :
    (bar.timerElapsed token).place = bar.place := by
  unfold timerElapsed
  dsimp only
  split
  · exact place_enter _ _
  · rfl

/-- To make the thumb visible, or to keep it so, does not move it. -/
theorem place_of_enter_visible {pressed : Bool}
    (h : scheduleAutoHide { bar.enter .visible with pressed := pressed } = .ok after) :
    after.place = bar.place := by
  rcases scheduleAutoHide_enter_visible h with ⟨_, rfl⟩ | ⟨_, _, rfl⟩ | ⟨_, _, rfl⟩
  · rfl
  · rfl
  · rfl

theorem place_of_draw {frame? : Option Frame} (h : bar.draw = .ok (after, frame?)) :
    after.place = bar.place := by
  cases draw_eq_ok h with
  | blank => rfl
  | steady _ _ _ _ after_eq => rw [after_eq, place, place]
  | faded _ _ _ _ after_eq => rw [after_eq, place, place]
  | vanished _ _ _ _ after_eq => rw [after_eq, place, place]

/-- A frame shows the thumb where it lies. -/
theorem top_of_draw {frame : Frame} (h : bar.draw = .ok (after, some frame)) :
    frame.top = bar.top := by
  generalize hframe : some frame = frame? at h
  cases draw_eq_ok h with
  | blank => cases hframe
  | steady _ _ _ _ after_eq => rw [eq_of_frame?_eq_some hframe.symm, after_eq]
  | faded _ _ _ _ after_eq => rw [eq_of_frame?_eq_some hframe.symm, after_eq]
  | vanished => cases hframe

/-! ## Calls -/

/-- The host that a call may measure. -/
def Call.host? : Call H → Option H
  | .hostScrolled host => some host
  | .touch host _ => some host
  | _ => none

/-- How a call changes the place of the thumb. -/
inductive Placing (bar : Scrollbar) : Call H → Scrollbar → Prop
  /-- The thumb stays, and so does its strip, which may be told the height that it has. -/
  | kept {call : Call H} {after : Scrollbar} (place : after.place = bar.place)
      (same : ∀ width height, call = .resize width height → bar.height.sameSize height = true) :
      Placing bar call after
  /-- The thumb is placed by what is measured. -/
  | measured {call : Call H} {host : H} {measured after : Scrollbar} (hosts : call.host? = some host)
      (measuring : bar.measure host = .ok measured) (place : after.place = measured.place) :
      Placing bar call after
  /-- The pointer moves the thumb. -/
  | dragged {host : H} {x y : Single} {measured after : Scrollbar}
      (measuring : bar.measure host = .ok measured)
      (place : after.place =
        { measured.place with
          top := draggedTop y measured.thumbHeight measured.metrics.viewHeight }) :
      Placing bar (.touch host (.moved x y)) after
  /-- The strip gets another height, and the thumb stays where it is. -/
  | resized {width height : Single} {after : Scrollbar}
      (place : after.place = { bar.place with height := height }) :
      Placing bar (.resize width height) after

theorem Placing.of_place_eq {call : Call H} (place : after.place = bar.place)
    (hcall : ∀ width height, call ≠ .resize width height) : Placing bar call after :=
  .kept place fun width height hresize => absurd hresize (hcall width height)

theorem hostScrolled_placing (h : bar.hostScrolled host = .ok after) :
    Placing bar (.hostScrolled host) after := by
  rcases hostScrolled_eq_ok h with ⟨_, rfl⟩ | ⟨_, _, measured, hmeasured, hshown⟩
  · exact .of_place_eq rfl (by simp)
  · exact .measured rfl hmeasured (place_of_enter_visible hshown)

theorem touch_placing {host' : H} {event : Touch} {used : Bool}
    (h : bar.touch host event = .ok (after, host', used)) : Placing bar (.touch host event) after := by
  cases touch_eq_ok h with
  | inert => exact .of_place_eq rfl (by simp)
  | missed _ _ measuring _ => exact .measured rfl measuring rfl
  | passed _ _ measuring _ _ => exact .measured rfl measuring rfl
  | ended _ _ measuring _ releasing => exact .measured rfl measuring (place_of_enter_visible releasing)
  | grabbed _ _ measuring _ after_eq =>
      subst after_eq
      exact .measured rfl measuring rfl
  | dragged _ _ measuring after_eq _ =>
      subst after_eq
      exact .dragged measuring rfl

theorem call_placing {call : Call H} {answer : Answer H} (h : bar.call call = .ok (after, answer)) :
    Placing bar call after := by
  cases call_eq_ok h with
  | scrolled scrolling => exact hostScrolled_placing scrolling
  | touched touching => exact touch_placing touching
  | kept_size same =>
      apply Placing.kept rfl
      intro _ _ hresize
      cases hresize
      exact (Bool.and_eq_true_iff.1 same).2
  | resized => exact .resized rfl
  | elapsed token => exact .of_place_eq (place_timerElapsed bar token) (by simp)
  | drawn drawing => exact .of_place_eq (place_of_draw drawing) (by simp)
  | entered visibility => exact .of_place_eq (place_enter bar visibility) (by simp)
  | _ => exact .of_place_eq rfl (by simp)

/-- A call leaves the height of the strip, and if it measures anew then by that height; or it sets the
height and measures nothing. -/
theorem Placing.height_cases {call : Call H} (h : Placing bar call after) :
    after.height = bar.height ∧
        (after.metrics = bar.metrics ∨ after.metrics.viewHeight = bar.height) ∨
      ∃ width height, call = .resize width height ∧ after.height = height ∧
        after.metrics = bar.metrics := by
  -- To measure leaves the height of the strip and reads it.
  have hread : ∀ {host : H} {measured : Scrollbar}, bar.measure host = .ok measured →
      measured.height = bar.height ∧
        (measured.metrics = bar.metrics ∨ measured.metrics.viewHeight = bar.height) := by
    intro host measured hmeasure
    rcases measuring hmeasure with rfl | ⟨metrics, top, hreading, _, rfl⟩
    · exact ⟨rfl, Or.inl rfl⟩
    · rcases Option.map_eq_some_iff.1 hreading with ⟨_, _, rfl⟩
      exact ⟨rfl, Or.inr rfl⟩
  cases h with
  | kept place _ => exact Or.inl ⟨congrArg Place.height place, Or.inl (congrArg Place.metrics place)⟩
  | measured _ measuring place =>
      have hheight : after.height = _ := congrArg Place.height place
      have hmetrics : after.metrics = _ := congrArg Place.metrics place
      rw [hheight, hmetrics]
      exact Or.inl (hread measuring)
  | dragged measuring place =>
      have hheight : after.height = _ := congrArg Place.height place
      have hmetrics : after.metrics = _ := congrArg Place.metrics place
      rw [hheight, hmetrics]
      exact Or.inl (hread measuring)
  | resized place =>
      exact Or.inr ⟨_, _, rfl, congrArg Place.height place, congrArg Place.metrics place⟩

end Scrollbar

end OverlayScrollbar
