import OverlayScrollbar.Proofs.History
import OverlayScrollbar.Proofs.Scrollbar.Fade
import OverlayScrollbar.Proofs.Scrollbar.Setup

/-!
# How a fade ends

A thumb that fades is left to itself: frames are made, timers come back, late ones among them, the strip
gets another size or colour, and the timers to arm are taken. Only the frames count. Each takes one step
off the alpha, until one finds it at the floor and hides the thumb; nothing is left of it then, and
nothing brings it back.

- `Scrollbar.Call.IsUpkeep` : the calls that go on while a thumb fades
- `Scrollbar.frameCount`    : how many frames were made
- `Scrollbar.Gone`          : the thumb is hidden, and no timer can bring it back
- `Scrollbar.FadedBy`       : what is left of a thumb after a number of frames
- `Scrollbar.upkeep_kept`   : all but frames leave the fade where it is
- `Scrollbar.FadedBy.of_draw` : a frame takes one step
- `Scrollbar.FadedBy.of_call`, `Scrollbar.FadedBy.of_run` : so do all calls and runs

Main statement: `run_fades_out`.
-/

namespace OverlayScrollbar

namespace Scrollbar

variable {H : Type} [ScrollHost H] {start bar after last : Scrollbar} {call : Call H}
  {answer : Answer H} {steps : Steps H} {frames : Nat}

/-- The call goes on while a thumb fades: neither host nor pointer nor owner has a say. -/
def Call.IsUpkeep : Call H → Prop
  | .timerElapsed _ => True
  | .resize _ _ => True
  | .recolor _ => True
  | .draw => True
  | .takeRequests => True
  | _ => False

/-- The call makes a frame. -/
def Call.isDraw : Call H → Bool
  | .draw => true
  | _ => false

/-- How many frames were made. -/
def frameCount (steps : Steps H) : Nat :=
  steps.countP fun step => step.input.isDraw

/-- The thumb is hidden, and no timer can bring it back. -/
structure Gone (bar : Scrollbar) : Prop where
  hidden : bar.visibility = .hidden
  transparent : bar.alpha = 0
  no_live : bar.timers.live = []
  no_requests : bar.timers.requests = []

/-- What is left of a thumb that fades, after a number of frames. -/
structure FadedBy (start : Scrollbar) (frames : Nat) (bar : Scrollbar) : Prop where
  settings_eq : bar.settings = start.settings
  linked : bar.linked = true
  exiting : frames ≤ start.settings.fadeSteps start.alpha →
    bar.visibility = .exiting ∧
      bar.alpha.toNat = start.alpha.toNat - frames * start.settings.fadeStep.toNat
  gone : start.settings.fadeSteps start.alpha < frames → bar.Gone

/-! ## One call -/

/-- A call other than a frame leaves the alpha; it makes the thumb fade only if a timer is live, and
neither adds a timer nor hands out one that was not queued. -/
theorem upkeep_kept (hupkeep : call.IsUpkeep) (hother : call.isDraw = false)
    (h : bar.call call = .ok (after, answer)) :
    after.alpha = bar.alpha ∧
      (after.visibility = bar.visibility ∨ bar.timers.live ≠ [] ∧ after.visibility = .exiting) ∧
        after.timers.live ⊆ bar.timers.live ∧ after.timers.requests ⊆ bar.timers.requests ∧
          answer.requests ⊆ bar.timers.requests := by
  have hlive := List.Subset.refl bar.timers.live
  have hqueued := List.Subset.refl bar.timers.requests
  have hnone := List.nil_subset bar.timers.requests
  cases call_eq_ok h with
  | elapsed token =>
      -- Only a live timer reaches the visibility; a stale one leaves all as it is.
      by_cases hmem : token ∈ bar.timers.live
      · rw [timerElapsed_of_mem hmem]
        exact ⟨rfl, Or.inr ⟨List.ne_nil_of_mem hmem, rfl⟩, List.nil_subset _, hnone, hnone⟩
      · rw [timerElapsed_of_not_mem hmem]
        exact ⟨rfl, Or.inl rfl, hlive, hqueued, hnone⟩
  | kept_size => exact ⟨rfl, Or.inl rfl, hlive, hqueued, hnone⟩
  | resized => exact ⟨rfl, Or.inl rfl, hlive, hqueued, hnone⟩
  | kept_tint => exact ⟨rfl, Or.inl rfl, hlive, hqueued, hnone⟩
  | recolored => exact ⟨rfl, Or.inl rfl, hlive, hqueued, hnone⟩
  | taken => exact ⟨rfl, Or.inl rfl, hlive, hnone, hqueued⟩
  | drawn => cases hother
  | _ => exact hupkeep.elim

/-- What makes a frame answers with it. -/
theorem exists_draw_of_isDraw (hdraw : call.isDraw = true)
    (h : bar.call call = .ok (after, answer)) :
    ∃ frame?, call = .draw ∧ answer = .drawn frame? ∧ bar.draw = .ok (after, frame?) := by
  cases call_eq_ok h with
  | drawn drawing => exact ⟨_, rfl, rfl, drawing⟩
  | _ => cases hdraw

/-- A thumb that is gone stays so: no frame shows it, and there is no timer to arm. -/
theorem Gone.of_call (h : bar.Gone) (hupkeep : call.IsUpkeep)
    (hcall : bar.call call = .ok (after, answer)) :
    after.Gone ∧ answer.requests = [] ∧ (call = .draw → answer = .drawn none) := by
  cases hdraw : call.isDraw with
  | false =>
      rcases upkeep_kept hupkeep hdraw hcall with
        ⟨halpha, hvisibility, hlive, hqueued, hhanded⟩
      rw [h.no_live] at hlive
      rw [h.no_requests] at hqueued hhanded
      refine ⟨⟨?_, halpha.trans h.transparent, List.subset_nil.1 hlive, List.subset_nil.1 hqueued⟩,
        List.subset_nil.1 hhanded, ?_⟩
      · rcases hvisibility with hsame | ⟨hany, _⟩
        · exact hsame.trans h.hidden
        · exact absurd h.no_live hany
      · rintro rfl
        cases hdraw
  | true =>
      rcases exists_draw_of_isDraw hdraw hcall with ⟨frame?, rfl, rfl, hdrawn⟩
      cases draw_eq_ok hdrawn with
      | blank => exact ⟨⟨h.hidden, h.transparent, h.no_live, h.no_requests⟩, rfl, fun _ => rfl⟩
      | steady _ seen _ _ _ => exact absurd h.hidden seen
      | faded _ exiting _ _ _ => cases h.hidden.symm.trans exiting
      | vanished _ exiting _ _ _ => cases h.hidden.symm.trans exiting

/-- A frame of a fade lowers the alpha by one step, or finds it at the floor and hides the thumb, which
it does not paint any more. -/
theorem faded_or_gone {frame? : Option Frame} (hlinked : bar.linked = true)
    (hexiting : bar.visibility = .exiting) (h : bar.draw = .ok (after, frame?)) :
    (bar.settings.fadeFloor < bar.alpha ∧ after.visibility = .exiting ∧
        after.alpha.toNat = bar.alpha.toNat - bar.settings.fadeStep.toNat) ∨
      (¬bar.settings.fadeFloor < bar.alpha ∧ after.Gone ∧ frame? = none) := by
  cases draw_eq_ok h with
  | blank inactive =>
      rcases inactive with hunlinked | hhidden
      · cases hlinked.symm.trans hunlinked
      · cases hexiting.symm.trans hhidden
  | steady _ _ not_exiting _ _ => exact absurd hexiting not_exiting
  | faded _ _ above _ after_eq =>
      subst after_eq
      exact Or.inl ⟨above, hexiting, ScrollbarSettings.toNat_faded bar.settings bar.alpha⟩
  | vanished _ _ below _ after_eq =>
      subst after_eq
      exact Or.inr ⟨below, ⟨rfl, rfl, rfl, rfl⟩, rfl⟩

/-! ## A fade -/

theorem fadedBy_start (hlinked : start.linked = true) (hexiting : start.visibility = .exiting) :
    FadedBy start 0 start := by
  refine ⟨rfl, hlinked, ?_, ?_⟩
  · intro _
    exact ⟨hexiting, by simp⟩
  · intro hlt
    exact absurd hlt (Nat.not_lt_zero _)

namespace FadedBy

/-- Whether a frame finds the alpha above the floor is told by the number of those before. -/
theorem floor_lt_iff (h : FadedBy start frames bar) (hstep : start.settings.fadeStep ≠ 0)
    (hle : frames ≤ start.settings.fadeSteps start.alpha) :
    bar.settings.fadeFloor < bar.alpha ↔ frames < start.settings.fadeSteps start.alpha := by
  rw [UInt8.lt_iff_toNat_lt, h.settings_eq, (h.exiting hle).2, ← Nat.not_le, ← Nat.not_le,
    ScrollbarSettings.fadeSteps_le_iff hstep]

/-- A frame takes one step, and there are no more of them than it takes to hide the thumb. -/
theorem of_draw {frame? : Option Frame} (h : FadedBy start frames bar)
    (hstep : start.settings.fadeStep ≠ 0) (hle : frames ≤ start.settings.fadeSteps start.alpha)
    (hdraw : bar.draw = .ok (after, frame?)) (hsettings : after.settings = bar.settings)
    (hlinked : after.linked = true) : FadedBy start (frames + 1) after := by
  rcases h.exiting hle with ⟨hexiting, halpha⟩
  refine ⟨hsettings.trans h.settings_eq, hlinked, ?_, ?_⟩
  · intro hnext
    rcases faded_or_gone h.linked hexiting hdraw with ⟨_, hfading, hfaded⟩ | ⟨hbelow, _⟩
    · refine ⟨hfading, ?_⟩
      rw [hfaded, halpha, h.settings_eq, Nat.sub_sub, Nat.succ_mul]
    · rw [h.floor_lt_iff hstep hle] at hbelow
      exact absurd hnext hbelow
  · -- It was the last step, so that the alpha before it was at the floor.
    intro hlast
    rcases faded_or_gone h.linked hexiting hdraw with ⟨habove, _⟩ | ⟨_, hgone, _⟩
    · rw [h.floor_lt_iff hstep hle] at habove
      exact absurd habove (Nat.not_lt.2 (Nat.le_of_lt_succ hlast))
    · exact hgone

/-- Frames count, and nothing else does. -/
theorem of_call (h : FadedBy start frames bar) (hstep : start.settings.fadeStep ≠ 0)
    (hupkeep : call.IsUpkeep) (hcall : bar.call call = .ok (after, answer)) :
    FadedBy start (frames + if call.isDraw then 1 else 0) after := by
  rcases call_settings hcall with ⟨hsettings, hlink⟩
  have hlinked := hlink h.linked
  rcases Nat.lt_or_ge (start.settings.fadeSteps start.alpha) frames with hover | hle
  · -- The thumb is gone, and more frames do not matter.
    have hgone := ((h.gone hover).of_call hupkeep hcall).1
    have hmore := Nat.lt_of_lt_of_le hover (Nat.le_add_right frames (if call.isDraw then 1 else 0))
    exact ⟨hsettings.trans h.settings_eq, hlinked,
      fun hnot => absurd hmore (Nat.not_lt.2 hnot), fun _ => hgone⟩
  · cases hdraw : call.isDraw with
    | true =>
        rcases exists_draw_of_isDraw hdraw hcall with ⟨frame?, rfl, rfl, hdrawn⟩
        exact h.of_draw hstep hle hdrawn hsettings hlinked
    | false =>
        rcases upkeep_kept hupkeep hdraw hcall with ⟨halpha, hvisibility, _⟩
        rcases h.exiting hle with ⟨hexiting, hfaded⟩
        refine ⟨hsettings.trans h.settings_eq, hlinked, ?_,
          fun hover => absurd hle (Nat.not_le.2 hover)⟩
        intro _
        refine ⟨?_, (congrArg UInt8.toNat halpha).trans hfaded⟩
        rcases hvisibility with hsame | ⟨_, hfading⟩
        · exact hsame.trans hexiting
        · exact hfading

theorem of_run {calls : List (Call H)} (hlinked : start.linked = true)
    (hexiting : start.visibility = .exiting) (hstep : start.settings.fadeStep ≠ 0)
    (hupkeep : ∀ call ∈ calls, call.IsUpkeep) (h : start.run calls = .ok (last, steps)) :
    FadedBy start (frameCount steps) last := by
  refine Machine.run_invariant (fun last steps => FadedBy start (frameCount steps) last)
    (fadedBy_start hlinked hexiting) ?_ hupkeep h
  intro before sofar call answer after hbefore hcall hstepped
  have hcount : frameCount (sofar ++ [⟨before, call, answer, after⟩]) =
      frameCount sofar + if call.isDraw then 1 else 0 := by
    simp [frameCount, List.countP_append, List.countP_singleton]
  rw [hcount]
  exact hbefore.of_call hstep hcall hstepped

end FadedBy

/-- What a step does to a thumb that fades, and to one that is gone. -/
structure Fades (step : Step Scrollbar (Call H) (Answer H)) : Prop where
  alpha_le : step.after.alpha ≤ step.before.alpha
  /-- A frame takes one step off an alpha above the floor. -/
  faded : step.input = .draw → step.before.visibility = .exiting →
    step.before.settings.fadeFloor < step.before.alpha → step.after.visibility = .exiting ∧
      step.after.alpha.toNat = step.before.alpha.toNat - step.before.settings.fadeStep.toNat
  /-- The first frame that finds the alpha at the floor hides the thumb, and paints nothing. -/
  vanished : step.input = .draw → step.before.visibility = .exiting →
    ¬step.before.settings.fadeFloor < step.before.alpha →
      step.after.Gone ∧ step.output = .drawn none
  other : step.input ≠ .draw →
    step.after.visibility = step.before.visibility ∧ step.after.alpha = step.before.alpha
  gone : step.before.visibility = .hidden → step.before.Gone ∧ step.after.Gone ∧
    step.output.requests = [] ∧ (step.input = .draw → step.output = .drawn none)

theorem Gone.fades (h : bar.Gone) (hupkeep : call.IsUpkeep)
    (hcall : bar.call call = .ok (after, answer)) : Fades ⟨bar, call, answer, after⟩ := by
  rcases h.of_call hupkeep hcall with ⟨hgone, hanswer⟩
  have hhidden : after.visibility = bar.visibility := hgone.hidden.trans h.hidden.symm
  have halpha : after.alpha = bar.alpha := hgone.transparent.trans h.transparent.symm
  refine ⟨?_, ?_, ?_, fun _ => ⟨hhidden, halpha⟩, fun _ => ⟨h, hgone, hanswer⟩⟩
  · rw [halpha]
    exact UInt8.le_refl _
  · intro _ hexiting
    cases h.hidden.symm.trans hexiting
  · intro _ hexiting
    cases h.hidden.symm.trans hexiting

theorem fades_of_exiting (hlinked : bar.linked = true) (hexiting : bar.visibility = .exiting)
    (hupkeep : call.IsUpkeep) (hcall : bar.call call = .ok (after, answer)) :
    Fades ⟨bar, call, answer, after⟩ := by
  have hseen : bar.visibility ≠ .hidden := by simp [hexiting]
  cases hdraw : call.isDraw with
  | false =>
      rcases upkeep_kept hupkeep hdraw hcall with ⟨halpha, hvisibility, _⟩
      have hother : call ≠ .draw := by
        rintro rfl
        cases hdraw
      -- The one change of visibility would be to fading, which it does already.
      have hsame : after.visibility = bar.visibility := by
        rcases hvisibility with hsame | ⟨_, hfading⟩
        · exact hsame
        · exact hfading.trans hexiting.symm
      refine ⟨?_, fun h => absurd h hother, fun h => absurd h hother, fun _ => ⟨hsame, halpha⟩,
        fun h => absurd h hseen⟩
      rw [halpha]
      exact UInt8.le_refl _
  | true =>
      rcases exists_draw_of_isDraw hdraw hcall with ⟨frame?, rfl, rfl, hdrawn⟩
      refine ⟨?_, ?_, ?_, fun h => absurd rfl h, fun h => absurd h hseen⟩
      · rcases faded_or_gone hlinked hexiting hdrawn with ⟨_, _, hfaded⟩ | ⟨_, hgone, _⟩
        · rw [UInt8.le_iff_toNat_le, hfaded]
          exact Nat.sub_le _ _
        · rw [hgone.transparent]
          exact UInt8.zero_le
      · intro _ _ habove
        rcases faded_or_gone hlinked hexiting hdrawn with ⟨_, hfaded⟩ | ⟨hbelow, _⟩
        · exact hfaded
        · exact absurd habove hbelow
      · intro _ _ hbelow
        rcases faded_or_gone hlinked hexiting hdrawn with ⟨habove, _⟩ | ⟨_, hgone, hnone⟩
        · exact absurd habove hbelow
        · exact ⟨hgone, congrArg Answer.drawn hnone⟩

theorem FadedBy.fades (h : FadedBy start frames bar) (hupkeep : call.IsUpkeep)
    (hcall : bar.call call = .ok (after, answer)) : Fades ⟨bar, call, answer, after⟩ := by
  rcases Nat.lt_or_ge (start.settings.fadeSteps start.alpha) frames with hover | hle
  · exact (h.gone hover).fades hupkeep hcall
  · exact fades_of_exiting h.linked (h.exiting hle).1 hupkeep hcall

/-- A linked thumb that fades, and is left to itself, is exiting as long as there were no more frames
than it takes to lower its alpha to the floor, and has lost one step with each; from the next frame on
it is hidden and nothing is left of it. The alpha never increases on the way, and only frames lower
it. -/
theorem run_fades_out {calls : List (Call H)} (hlinked : bar.linked = true)
    (hexiting : bar.visibility = .exiting) (hstep : bar.settings.fadeStep ≠ 0)
    (hupkeep : ∀ call ∈ calls, call.IsUpkeep) (h : bar.run calls = .ok (last, steps)) :
    FadedBy bar (frameCount steps) last ∧
      ∀ moment ∈ moments steps,
        FadedBy bar (frameCount moment.earlier) moment.event.before ∧ Fades moment.event := by
  refine ⟨.of_run hlinked hexiting hstep hupkeep h, ?_⟩
  rintro ⟨earlier, step, later⟩ hmoment
  rcases Machine.exists_run_of_append_eq (mem_moments_iff.1 hmoment) h with
    ⟨sofar, more, rfl, hsofar, hcall, _⟩
  have hbefore : FadedBy bar (frameCount earlier) step.before := by
    refine .of_run hlinked hexiting hstep ?_ hsofar
    intro call hmem
    exact hupkeep call (List.mem_append_left _ hmem)
  exact ⟨hbefore, hbefore.fades (hupkeep step.input (by simp)) hcall⟩

/-- Two steps of a fade lead below its floor. -/
def steepSettings : ScrollbarSettings :=
  { ScrollbarSettings.standard with thumbHeight := 2, fadeStep := 80, fadeFloor := 50, maxAlpha := 200 }

/-- A scroll, and the end of its delay. -/
def expiredCalls : List (Call RecordedHost) :=
  [.link (some (hostOfContent 1000)), .resize 3 200, .hostScrolled (hostOfContent 1000), .draw,
    .timerElapsed 1]

/-- Frames and timers, some of them late, with a size that cannot be painted and another colour. -/
def upkeepCalls : List (Call RecordedHost) :=
  [.timerElapsed 1, .draw, .takeRequests, .resize 0 200, .timerElapsed 2, .draw,
    .recolor (.solid 1 0 0), .draw, .timerElapsed 3, .draw, .takeRequests]

/-- The theorem speaks of three frames that hide a thumb, and of a fourth. -/
theorem run_fades_out_steep :
    ∃ bar before last steps,
      (new 0 steepSettings (.solid 0 0 1)).run expiredCalls = .ok (bar, before) ∧
        bar.run upkeepCalls = .ok (last, steps) ∧
        steps.map (fun step => (step.after.visibility, step.after.alpha)) =
          [(.exiting, 200), (.exiting, 120), (.exiting, 120), (.exiting, 120), (.exiting, 120),
            (.exiting, 40), (.exiting, 40), (.hidden, 0), (.hidden, 0), (.hidden, 0),
            (.hidden, 0)] ∧
        FadedBy bar (frameCount steps) last ∧
          ∀ moment ∈ moments steps,
            FadedBy bar (frameCount moment.earlier) moment.event.before ∧ Fades moment.event := by
  have hruns : (do
      let (bar, _) ← (new 0 steepSettings (.solid 0 0 1)).run expiredCalls
      let (_, steps) ← bar.run upkeepCalls
      return ((bar.linked, bar.visibility, bar.settings.fadeStep),
        steps.map fun step => (step.after.visibility, step.after.alpha))) =
      (.ok ((true, .exiting, 80),
        [(.exiting, 200), (.exiting, 120), (.exiting, 120), (.exiting, 120), (.exiting, 120),
          (.exiting, 40), (.exiting, 40), (.hidden, 0), (.hidden, 0), (.hidden, 0),
          (.hidden, 0)]) : Checked ((Bool × Visibility × UInt8) × List (Visibility × UInt8))) := by
    decide +kernel
  rcases Checked.bind_eq_ok_iff.1 hruns with ⟨⟨bar, before⟩, hbefore, hrest⟩
  rcases Checked.bind_eq_ok_iff.1 hrest with ⟨⟨last, steps⟩, hrun, hresult⟩
  rcases Prod.mk.inj (Except.ok.inj hresult) with ⟨hstart, hsteps⟩
  have hlinked : bar.linked = true := congrArg Prod.fst hstart
  have hexiting : bar.visibility = .exiting := congrArg (fun r => r.2.1) hstart
  have hfade : bar.settings.fadeStep = 80 := congrArg (fun r => r.2.2) hstart
  have hupkeep : ∀ call ∈ upkeepCalls, call.IsUpkeep := by
    simp [upkeepCalls, Call.IsUpkeep]
  refine ⟨bar, before, last, steps, hbefore, hrun, hsteps, ?_⟩
  exact run_fades_out hlinked hexiting (by simp [hfade]) hupkeep hrun

end Scrollbar

end OverlayScrollbar
