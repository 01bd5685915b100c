import OverlayScrollbar.Proofs.Placement
import OverlayScrollbar.Proofs.Scrollbar.Placing
import OverlayScrollbar.Proofs.Scrollbar.Setup

/-!
# The thumb on its track

The thumb lies on the track of the strip as it was when the host was measured last. A strip that gets
lower after that leaves the thumb where it is, which may be beyond the end of the track.

- `Scrollbar.Call.IsFinite`     : what a call brings is finite
- `Scrollbar.Place.OnTrack`     : the thumb lies on the track of the measured strip
- `Scrollbar.heightSet`         : the height that the strip was told last
- `Scrollbar.Lowered`           : the strip was made lower than it was when it was measured last
- `Scrollbar.Tracked.of_run`    : where the thumb lies after a run

Main statement: `run_frame_on_track`.
-/

namespace OverlayScrollbar

namespace Scrollbar

variable {H : Type} [ScrollHost H] {bar after measured : Scrollbar} {host : H} {call : Call H}
  {length : Single}

/-! ## What is finite -/

/-- All that is measured of the host is finite. -/
structure FiniteHost (host : H) : Prop where
  layoutHeight : ∀ contentHeight, ScrollHost.layoutHeight? host = some contentHeight →
    contentHeight.IsFinite
  scrollY : (ScrollHost.scrollY host).IsFinite
  height : (ScrollHost.height host).IsFinite
  lineHeight : (ScrollHost.lineHeight host).IsFinite

/-- What a call brings is finite: the measurements of its host, and the height that it sets. -/
def Call.IsFinite : Call H → Prop
  | .hostScrolled host => FiniteHost host
  | .touch host _ => FiniteHost host
  | .resize _ height => height.IsFinite
  | _ => True

theorem Call.IsFinite.of_host? (h : call.IsFinite) (hosts : call.host? = some host) :
    FiniteHost host := by
  cases call with
  | hostScrolled _ =>
      cases hosts
      exact h
  | touch _ _ =>
      cases hosts
      exact h
  | _ => cases hosts

theorem FiniteHost.reading (h : FiniteHost host) (hheight : bar.height.IsFinite)
    {metrics : ScrollMetrics} (hreading : bar.reading? host = some metrics) : metrics.IsFinite := by
  rcases Option.map_eq_some_iff.1 hreading with ⟨contentHeight, hlayout, rfl⟩
  exact ⟨hheight, h.layoutHeight contentHeight hlayout, h.scrollY, h.height, h.lineHeight⟩

omit [ScrollHost H] in
theorem isFinite_thumbLength (bar : Scrollbar) : bar.thumbLength.IsFinite := by
  apply Single.isFinite_ofNat
  have hsmall := bar.thumbHeight.toNat_lt
  omega

/-! ## One call -/

/-- The thumb, which has the given length, lies on the track of the measured strip. -/
structure Place.OnTrack (length : Single) (place : Place) : Prop where
  height : place.height.IsFinite
  view : place.metrics.viewHeight.IsFinite
  zero_le : 0 ≤ place.top
  le : place.top ≤ max 0 (place.metrics.viewHeight - length)

theorem onTrack_of_measure (h : bar.place.OnTrack bar.thumbLength) (hhost : FiniteHost host)
    (hmeasure : bar.measure host = .ok measured) : measured.place.OnTrack bar.thumbLength := by
  rcases measuring hmeasure with rfl | ⟨metrics, top, hreading, htop, rfl⟩
  · exact h
  · have hfinite := hhost.reading h.height hreading
    have hmem := ScrollMetrics.thumbTop_mem hfinite (isFinite_thumbLength bar)
      (Single.zero_le_ofNat _) htop
    exact ⟨h.height, hfinite.viewHeight, hmem.1, hmem.2⟩

theorem onTrack_of_placing (h : bar.place.OnTrack bar.thumbLength) (hcall : call.IsFinite)
    (hplacing : Placing bar call after) : after.place.OnTrack bar.thumbLength := by
  cases hplacing with
  | kept place _ =>
      rw [place]
      exact h
  | measured hosts measuring place =>
      rw [place]
      exact onTrack_of_measure h (hcall.of_host? hosts) measuring
  | @dragged host _ _ measured _ measuring place =>
      have hmeasured := onTrack_of_measure h hcall measuring
      have hlength : measured.thumbLength = bar.thumbLength := by
        rcases Scrollbar.measuring measuring with rfl | ⟨_, _, _, _, rfl⟩
        · rfl
        · rfl
      have htrack : (measured.metrics.viewHeight - measured.thumbLength).isNaN = false :=
        Single.isNaN_sub hmeasured.view.isNaN (isFinite_thumbLength measured)
      rcases draggedTop_mem _ measured.thumbHeight htrack with ⟨hlow, hhigh⟩
      rw [place]
      refine ⟨hmeasured.height, hmeasured.view, hlow, ?_⟩
      rw [← hlength]
      exact hhigh
  | resized place =>
      -- The strip gets another height, but the track is still that of the measured one.
      rw [place]
      exact ⟨hcall, h.view, h.zero_le, h.le⟩

/-! ## Runs -/

/-- The height that a call tells the strip, or the one that it was told before. -/
def Call.heightAfter (height : Single) : Call H → Single
  | .resize _ height => height
  | _ => height

/-- The height that a run has told the strip last. -/
def heightSet (steps : Steps H) : Single :=
  steps.foldl (fun height step => step.input.heightAfter height) 0

omit [ScrollHost H] in
theorem heightSet_append (steps : Steps H) (step : Step Scrollbar (Call H) (Answer H)) :
    heightSet (steps ++ [step]) = step.input.heightAfter (heightSet steps) := by
  simp [heightSet]

/-- The strip has the height that it was told last, or one of the same size. -/
theorem Placing.sameSize_heightAfter {height : Single} (h : Placing bar call after)
    (hbefore : bar.height.sameSize height = true) (hafter : after.height.isNaN = false) :
    after.height.sameSize (call.heightAfter height) = true := by
  cases call with
  | resize _ _ =>
      cases h with
      | kept place same =>
          rw [show after.height = bar.height from congrArg Place.height place]
          exact same _ _ rfl
      | measured hosts _ _ => cases hosts
      | resized place =>
          rw [show after.height = _ from congrArg Place.height place] at hafter ⊢
          exact Single.sameSize_self hafter
  | _ =>
      -- Any other call tells no height and leaves the one there is.
      rcases h.height_cases with ⟨hsame, _⟩ | ⟨_, _, hresize, _⟩
      · rw [hsame]
        exact hbefore
      · cases hresize

/-- A step of a run has made the strip lower than it was when it was measured, and nothing was
measured since. -/
def Lowered (steps : Steps H) : Prop :=
  ∃ sofar cut since, steps = sofar ++ cut :: since ∧
    (∃ width height, cut.input = .resize width height ∧
      height < cut.before.metrics.viewHeight) ∧
    ∀ other ∈ cut :: since, other.after.metrics = other.before.metrics

omit [ScrollHost H] in
theorem Lowered.append {steps : Steps H} (h : Lowered steps)
    {step : Step Scrollbar (Call H) (Answer H)}
    (hmetrics : step.after.metrics = step.before.metrics) : Lowered (steps ++ [step]) := by
  rcases h with ⟨sofar, cut, since, rfl, hcut, hsince⟩
  refine ⟨sofar, cut, since ++ [step], by simp, hcut, ?_⟩
  intro other hother
  rcases List.mem_append.1 (List.cons_append ▸ hother) with hmem | hmem
  · exact hsince other hmem
  · rw [List.mem_singleton.1 hmem]
    exact hmetrics

/-- What a run with finite calls knows of the place of the thumb. -/
structure Tracked (settings : ScrollbarSettings) (bar : Scrollbar) (steps : Steps H) : Prop where
  settings_eq : bar.settings = settings
  onTrack : bar.place.OnTrack bar.thumbLength
  height_finite : (heightSet steps).IsFinite
  height_same : bar.height.sameSize (heightSet steps) = true
  lowered : bar.metrics.viewHeight ≤ bar.height ∨ Lowered steps

omit [ScrollHost H] in
theorem tracked_new (id : ListenerId) (settings : ScrollbarSettings) (tint : Color) :
    (new id settings tint).Tracked settings ([] : Steps H) := by
  have hzero : (0 : Single).IsFinite := by decide +kernel
  have hrefl : (0 : Single) ≤ 0 := Single.le_refl_iff.2 Single.isNaN_zero
  constructor
  · rfl
  · exact ⟨hzero, hzero, hrefl, Single.zero_le_max_right _⟩
  · exact hzero
  · exact Single.sameSize_self Single.isNaN_zero
  · exact Or.inl hrefl

theorem Tracked.of_call {settings : ScrollbarSettings} {steps : Steps H} {answer : Answer H}
    (h : bar.Tracked settings steps) (hfinite : call.IsFinite)
    (hcall : bar.call call = .ok (after, answer)) :
    after.Tracked settings (steps ++ [⟨bar, call, answer, after⟩]) := by
  have hsettings := (call_settings hcall).1
  have hlength : after.thumbLength = bar.thumbLength :=
    congrArg (fun settings => Single.ofNat (ScrollbarSettings.thumbHeight settings).toNat) hsettings
  have hplacing := call_placing hcall
  have hplace := onTrack_of_placing h.onTrack hfinite hplacing
  have hheight : after.height.IsFinite := hplace.height
  constructor
  · exact hsettings.trans h.settings_eq
  · rw [hlength]
    exact hplace
  · rw [heightSet_append]
    cases call with
    | resize _ _ => exact hfinite
    | _ => exact h.height_finite
  · rw [heightSet_append]
    exact hplacing.sameSize_heightAfter h.height_same hheight.isNaN
  · rcases hplacing.height_cases with ⟨hsame, hmetrics⟩ | ⟨width, height, hresize, hset, hmetrics⟩
    · rw [hsame]
      rcases hmetrics with hmetrics | hview
      · rw [hmetrics]
        exact h.lowered.imp_right fun hlowered => hlowered.append hmetrics
      · rw [hview]
        exact Or.inl (Single.le_refl_iff.2 h.onTrack.height.isNaN)
    · rw [hset, hmetrics]
      by_cases hle : bar.metrics.viewHeight ≤ height
      · exact Or.inl hle
      · -- This call has made the strip lower than it was.
        have hlower := Single.lt_of_not_le h.onTrack.view.isNaN (hset ▸ hheight).isNaN hle
        refine Or.inr ⟨steps, _, [], rfl, ⟨width, height, hresize, hlower⟩, ?_⟩
        intro other hother
        rw [List.mem_singleton.1 hother]
        exact hmetrics

theorem Tracked.of_run {settings : ScrollbarSettings} {calls : List (Call H)} {steps : Steps H}
    (h : bar.Tracked settings ([] : Steps H)) (hfinite : ∀ call ∈ calls, call.IsFinite)
    (hrun : bar.run calls = .ok (after, steps)) : after.Tracked settings steps := by
  refine Machine.run_invariant (Tracked settings) h ?_ hfinite hrun
  intro before steps call answer reached hbefore hcall hstep
  exact hbefore.of_call hcall hstep

omit [ScrollHost H] in
/-- A thumb that is on the track of the measured strip is on the track of the strip as it is, unless
that was made lower. -/
theorem Tracked.top_le {settings : ScrollbarSettings} {steps : Steps H}
    (h : bar.Tracked settings steps) :
    bar.top ≤ max 0 (heightSet steps - bar.thumbLength) ∨
      heightSet steps < bar.metrics.viewHeight ∧ Lowered steps := by
  have hlength := isFinite_thumbLength bar
  rcases Single.sameSize_iff.1 h.height_same with ⟨hbelow, _⟩
  by_cases hle : bar.metrics.viewHeight ≤ heightSet steps
  · refine Or.inl (Single.le_trans h.onTrack.le ?_)
    apply Single.max_le (Single.zero_le_max_right _)
    exact Single.le_max_right (Single.sub_le_sub_right h.onTrack.view h.height_finite hlength hle)
  · have hlower := Single.lt_of_not_le h.onTrack.view.isNaN h.height_finite.isNaN hle
    refine Or.inr ⟨hlower, h.lowered.resolve_left ?_⟩
    intro hview
    exact hle (Single.le_trans hview hbelow)

/-- Every frame of a run with finite heights and hosts shows the thumb at or below the upper end of
its track, and at or above the lower end that the track had when the host was measured last. So it
lies on the track of the height that was set last, unless the strip is lower now than it was then:
the run has set a lower height, and the thumb was not placed anew. -/
theorem run_frame_on_track {id : ListenerId} {settings : ScrollbarSettings} {tint : Color}
    {calls : List (Call H)} {earlier later : Steps H} {step : Step Scrollbar (Call H) (Answer H)}
    {frame : Frame} (hfinite : ∀ call ∈ calls, call.IsFinite)
    (h : (new id settings tint).run calls = .ok (bar, earlier ++ step :: later))
    (hframe : step.output = .drawn (some frame)) :
    0 ≤ frame.top ∧
      frame.top ≤
        max 0 (step.before.metrics.viewHeight - Single.ofNat settings.thumbHeight.toNat) ∧
      (frame.top ≤ max 0 (heightSet earlier - Single.ofNat settings.thumbHeight.toNat) ∨
        heightSet earlier < step.before.metrics.viewHeight ∧ Lowered earlier) := by
  rcases Machine.exists_run_of_append_eq rfl h with ⟨sofar, more, hcalls, hsofar, hcall, _⟩
  have hstart : (new id settings tint).Tracked settings ([] : Steps H) := tracked_new id settings tint
  -- A frame shows the place that was tracked up to the step before it.
  have hbefore : step.before.Tracked settings earlier := by
    apply hstart.of_run _ hsofar
    intro call hmem
    exact hfinite call (hcalls ▸ List.mem_append_left _ hmem)
  have hlength : step.before.thumbLength = Single.ofNat settings.thumbHeight.toNat :=
    congrArg (fun settings => Single.ofNat (ScrollbarSettings.thumbHeight settings).toNat)
      hbefore.settings_eq
  rw [hframe] at hcall
  have htop : frame.top = step.before.top := top_of_draw (draw_of_drawn hcall).2
  have hplace := hbefore.onTrack
  have htrack := hbefore.top_le
  rw [hlength] at hplace htrack
  rw [htop]
  exact ⟨hplace.zero_le, hplace.le, htrack⟩

/-- A host of some length that has scrolled to an offset. -/
def hostScrolledTo (offset : Single) : RecordedHost :=
  { hostOfContent 1000 with y := offset }

theorem isFinite_hostScrolledTo {offset : Single} (h : offset.IsFinite) :
    FiniteHost (hostScrolledTo offset) := by
  constructor
  · intro contentHeight hlayout
    cases hlayout
    decide +kernel
  · exact h
  · show (200 : Single).IsFinite
    decide +kernel
  · show (20 : Single).IsFinite
    decide +kernel

/-- A scroll to an offset and a frame, and one more frame after the strip was told another height. -/
def resizedCalls (offset height : Single) : List (Call RecordedHost) :=
  [.link (some (hostScrolledTo offset)), .resize 3 200, .hostScrolled (hostScrolledTo offset), .draw,
    .resize 3 height, .draw]

theorem isFinite_resizedCalls {offset height : Single} (hoffset : offset.IsFinite)
    (hheight : height.IsFinite) : ∀ call ∈ resizedCalls offset height, call.IsFinite := by
  have h200 : (200 : Single).IsFinite := by decide +kernel
  simp [resizedCalls, Call.IsFinite, isFinite_hostScrolledTo hoffset, h200, hheight]

/-- The theorem speaks of a strip that becomes higher. -/
theorem run_frame_on_track_raised :
    ∃ bar earlier step frame,
      (new 0 { ScrollbarSettings.standard with thumbHeight := 2 } (Color.solid 0 0 1)).run
          (resizedCalls 410 300) = .ok (bar, earlier ++ [step]) ∧
        (∀ call ∈ resizedCalls 410 300, call.IsFinite) ∧
        step.output = .drawn (some frame) ∧ heightSet earlier = 300 ∧
        0 ≤ frame.top ∧ frame.top ≤ max 0 (300 - 2) := by
  have hmap : ((new 0 { ScrollbarSettings.standard with thumbHeight := 2 }
      (Color.solid 0 0 1)).run (resizedCalls 410 300)).map (fun reached =>
        (reached.2.length, heightSet (reached.2.take 5),
          (reached.2.drop 5).map fun step =>
            (step.before.metrics.viewHeight, step.output.frame?.isSome))) =
      .ok (6, 300, [(200, true)]) := by
    decide +kernel
  rcases Checked.map_eq_ok_iff.1 hmap with ⟨⟨bar, steps⟩, hrun, hreached⟩
  have hheight : heightSet (steps.take 5) = 300 := congrArg (fun r => r.2.1) hreached
  have hlast := congrArg (fun r => r.2.2) hreached
  rcases List.map_eq_singleton_iff.1 hlast with ⟨step, hstep, hdrawn⟩
  have hsplit : steps = steps.take 5 ++ [step] := by
    rw [← hstep, List.take_append_drop]
  have hview : step.before.metrics.viewHeight = 200 := congrArg Prod.fst hdrawn
  obtain ⟨frame, hframe⟩ := Option.isSome_iff_exists.1 (congrArg Prod.snd hdrawn)
  have houtput := Answer.frame?_eq_some_iff.1 hframe
  have hfinite := isFinite_resizedCalls (show (410 : Single).IsFinite by decide +kernel)
    (show (300 : Single).IsFinite by decide +kernel)
  rw [hsplit] at hrun
  rcases run_frame_on_track hfinite hrun houtput with ⟨hlow, _, hhigh | hlowered⟩
  · rw [hheight] at hhigh
    exact ⟨bar, steps.take 5, step, frame, hrun, hfinite, houtput, hheight, hlow, hhigh⟩
  · rw [hheight, hview] at hlowered
    exact absurd hlowered.1 (by decide +kernel)

/-- A frame beyond the track of a strip that was made lower after the scroll. -/
theorem run_frame_beyond_track_lowered :
    ∃ bar earlier step frame,
      (new 0 { ScrollbarSettings.standard with thumbHeight := 2 } (Color.solid 0 0 1)).run
          (resizedCalls 820 100) = .ok (bar, earlier ++ [step]) ∧
        (∀ call ∈ resizedCalls 820 100, call.IsFinite) ∧
        step.output = .drawn (some frame) ∧ heightSet earlier = 100 ∧ frame.top = 198 ∧
        ¬frame.top ≤ max 0 (100 - 2) := by
  have hmap : ((new 0 { ScrollbarSettings.standard with thumbHeight := 2 }
      (Color.solid 0 0 1)).run (resizedCalls 820 100)).map (fun reached =>
        (heightSet (reached.2.take 5),
          (reached.2.drop 5).map fun step => step.output.frame?.map Frame.top)) =
      .ok (100, [some 198]) := by
    decide +kernel
  rcases Checked.map_eq_ok_iff.1 hmap with ⟨⟨bar, steps⟩, hrun, hreached⟩
  have hheight : heightSet (steps.take 5) = 100 := congrArg Prod.fst hreached
  have hlast := congrArg Prod.snd hreached
  rcases List.map_eq_singleton_iff.1 hlast with ⟨step, hstep, hdrawn⟩
  have hsplit : steps = steps.take 5 ++ [step] := by
    rw [← hstep, List.take_append_drop]
  obtain ⟨frame, hframe, htop⟩ := Option.map_eq_some_iff.1 hdrawn
  have houtput := Answer.frame?_eq_some_iff.1 hframe
  have hfinite := isFinite_resizedCalls (show (820 : Single).IsFinite by decide +kernel)
    (show (100 : Single).IsFinite by decide +kernel)
  rw [hsplit] at hrun
  refine ⟨bar, steps.take 5, step, frame, hrun, hfinite, houtput, hheight, htop, ?_⟩
  rw [htop]
  decide +kernel

end Scrollbar

end OverlayScrollbar
