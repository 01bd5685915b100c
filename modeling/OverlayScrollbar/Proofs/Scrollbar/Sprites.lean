import OverlayScrollbar.Proofs.Scrollbar.Setup
import OverlayScrollbar.Proofs.Sprite.Cache

/-!
# Sprites that are up to date

The bitmaps that are kept were drawn for the width, the height and the tint that the scrollbar has
now: whatever changes one of these drops them, and only a frame draws them again.

- `Scrollbar.Fresh`          : the bitmaps are those of the scrollbar as it is
- `Scrollbar.Painting`       : what a call does to the bitmaps and to what they are drawn from
- `Scrollbar.call_painting`  : every call that does not fault does it
- `Scrollbar.Fresh.of_painting`, `Scrollbar.Painting.generation_eq` : one call

Main statement: `run_sprites_up_to_date`.
-/

namespace OverlayScrollbar

namespace Scrollbar

variable {H : Type} [ScrollHost H] {bar after : Scrollbar} {call : Call H}

/-- The bitmaps are those of the scrollbar as it is, and both are there or none is. -/
structure Fresh (bar : Scrollbar) : Prop where
  shape_eq : ∀ kind, bar.sprites.shape kind = kind.preset.withHeight bar.thumbHeight
  whole : bar.sprites.IsWhole
  drawn : ∀ kind sprite, bar.sprites.get? kind = some sprite →
    Sprite.rasterize (kind.preset.withHeight bar.thumbHeight) bar.spriteWidth bar.thumbHeight
      bar.tint = .ok (.ok sprite)

/-- What a call does to the bitmaps and to what they are drawn from. -/
inductive Painting (bar : Scrollbar) : Call H → Scrollbar → Prop
  /-- All stays as it is. -/
  | kept {call : Call H} {after : Scrollbar}
      (inactive : call = .draw → bar.linked = false ∨ bar.visibility = .hidden)
      (height : after.thumbHeight = bar.thumbHeight) (width : after.spriteWidth = bar.spriteWidth)
      (tint : after.tint = bar.tint) (sprites : after.sprites = bar.sprites) :
      Painting bar call after
  /-- The bitmaps are dropped. -/
  | dropped {call : Call H} {after : Scrollbar} (not_draw : call ≠ .draw)
      (height : after.thumbHeight = bar.thumbHeight)
      (sprites : after.sprites = bar.sprites.clear) :
      Painting bar call after
  /-- The bitmaps that are missing are drawn, if they can be. -/
  | ensured {drawn? : Except InvalidSize Unit} {after : Scrollbar}
      (height : after.thumbHeight = bar.thumbHeight) (width : after.spriteWidth = bar.spriteWidth)
      (tint : after.tint = bar.tint)
      (ensuring : bar.sprites.ensure bar.spriteWidth bar.thumbHeight bar.tint =
        .ok (after.sprites, drawn?)) :
      Painting bar .draw after

/-! ## What a call does -/

omit [ScrollHost H] in
theorem painting_of_setup (hsetup : after.setup = bar.setup) (hcall : call ≠ .draw) :
    Painting bar call after := by
  refine .kept (fun hdraw => absurd hdraw hcall) ?_ ?_ ?_ ?_
  · exact congrArg (fun setup => (Setup.settings setup).thumbHeight) hsetup
  · exact congrArg (fun setup => (max (Setup.width setup).nearest 0).toUInt32) hsetup
  · exact congrArg Setup.tint hsetup
  · exact congrArg Setup.sprites hsetup

omit [ScrollHost H] in
theorem draw_painting {frame? : Option Frame} (h : bar.draw = .ok (after, frame?)) :
    Painting bar (.draw : Call H) after := by
  cases draw_eq_ok h with
  | blank inactive => exact .kept (fun _ => inactive) rfl rfl rfl rfl
  | steady _ _ _ ensured after_eq =>
      subst after_eq
      exact .ensured rfl rfl rfl ensured
  | faded _ _ _ ensured after_eq =>
      subst after_eq
      exact .ensured rfl rfl rfl ensured
  | vanished _ _ _ ensured after_eq =>
      subst after_eq
      exact .ensured rfl rfl rfl ensured

theorem call_painting {answer : Answer H} (h : bar.call call = .ok (after, answer)) :
    Painting bar call after := by
  cases call_eq_ok h with
  | drawn drawing => exact draw_painting drawing
  | linked host? => exact .kept (fun hdraw => by cases hdraw) rfl rfl rfl rfl
  | scrolled scrolling => exact painting_of_setup (setup_hostScrolled scrolling) (by simp)
  | touched touching => exact painting_of_setup (setup_touch touching) (by simp)
  | elapsed token => exact painting_of_setup (setup_timerElapsed bar token) (by simp)
  | entered visibility => exact painting_of_setup (setup_enter bar visibility) (by simp)
  | resized => exact .dropped (by simp) rfl rfl
  | recolored => exact .dropped (by simp) rfl rfl
  | _ => exact painting_of_setup rfl (by simp)

/-! ## One call -/

theorem fresh_new (id : ListenerId) (settings : ScrollbarSettings) (tint : Color) :
    (new id settings tint).Fresh := by
  refine ⟨?_, rfl, ?_⟩
  · intro kind
    cases kind with
    | normal => rfl
    | dragging => rfl
  · intro kind sprite hsprite
    cases kind with
    | normal => cases hsprite
    | dragging => cases hsprite

omit [ScrollHost H] in
theorem Fresh.of_painting (h : bar.Fresh) (hpainting : Painting bar call after) : after.Fresh := by
  cases hpainting with
  | kept _ height width tint sprites =>
      constructor
      · rw [sprites, height]
        exact h.shape_eq
      · rw [sprites]
        exact h.whole
      · rw [sprites, height, width, tint]
        exact h.drawn
  | dropped _ height sprites =>
      -- Nothing is left that could be out of date.
      constructor
      · rw [sprites, height]
        intro kind
        rw [← h.shape_eq kind]
        cases kind with
        | normal => rfl
        | dragging => rfl
      · rw [sprites]
        rfl
      · rw [sprites]
        intro kind sprite hsprite
        rw [SpriteCache.get?_clear] at hsprite
        cases hsprite
  | ensured height width tint ensuring =>
      -- A cache with one bitmap would keep it beside a new one: this is where both or none is used.
      have hensuring := SpriteCache.ensure_eq_ok h.whole ensuring
      constructor
      · rw [height]
        intro kind
        exact (hensuring.shape_eq kind).trans (h.shape_eq kind)
      · exact hensuring.isWhole h.whole
      · rw [height, width, tint]
        intro kind sprite hsprite
        rcases hensuring.get?_eq_some hsprite with hbefore | hnew
        · exact h.drawn kind sprite hbefore
        · rw [h.shape_eq] at hnew
          exact hnew

namespace Painting

omit [ScrollHost H] in
/-- The generation counts up exactly if the bitmaps were missing and are there now. -/
theorem generation_eq (h : Painting bar call after) (hfresh : bar.Fresh) :
    after.sprites.generation = bar.sprites.generation +
      if bar.sprites.isReady = false ∧ after.sprites.isReady = true then 1 else 0 := by
  cases h with
  | kept _ _ _ _ sprites => simp [sprites]
  | dropped _ _ sprites => simp [sprites]
  | ensured _ _ _ ensuring => exact (SpriteCache.ensure_eq_ok hfresh.whole ensuring).generation_eq

omit [ScrollHost H] in
theorem eq_draw_of_built (h : Painting bar call after) (hmissing : bar.sprites.isReady = false)
    (hready : after.sprites.isReady = true) : call = .draw := by
  cases h with
  | kept _ _ _ _ sprites =>
      rw [sprites, hmissing] at hready
      cases hready
  | dropped _ _ sprites =>
      rw [sprites, SpriteCache.isReady_clear] at hready
      cases hready
  | ensured _ _ _ _ => rfl

omit [ScrollHost H] in
theorem isReady_of_draw (h : Painting bar (.draw : Call H) after) (hfresh : bar.Fresh)
    (hlinked : bar.linked = true) (hseen : bar.visibility ≠ .hidden)
    (hwidth : bar.spriteWidth ≠ 0) (hheight : bar.thumbHeight ≠ 0) :
    after.sprites.isReady = true := by
  cases h with
  | kept inactive _ _ _ _ =>
      rcases inactive rfl with hunlinked | hhidden
      · cases hlinked.symm.trans hunlinked
      · exact absurd hhidden hseen
  | dropped not_draw _ _ => exact absurd rfl not_draw
  | ensured _ _ _ ensuring =>
      exact (SpriteCache.ensure_eq_ok hfresh.whole ensuring).isReady_of_valid hwidth hheight

end Painting

/-! ## Runs -/

/-- After every run, both bitmaps are there or none is, and each one that is there is what the preset
shape of its look gives for the width of the strip, the height of the thumb and the tint as they are
now, although bitmaps that are there are kept whatever is asked for. The generation counts up by one
in every step that builds the bitmaps, which is a frame, and in no other; and a frame builds them if
they are missing, the thumb is seen and the bitmaps have pixels. -/
theorem run_sprites_up_to_date {id : ListenerId} {settings : ScrollbarSettings} {tint : Color}
    {calls : List (Call H)} {bar : Scrollbar} {steps : Steps H}
    (h : (new id settings tint).run calls = .ok (bar, steps)) :
    (bar.sprites.normal? = none ∧ bar.sprites.dragging? = none ∨
      bar.sprites.normal? ≠ none ∧ bar.sprites.dragging? ≠ none) ∧
    (∀ kind sprite, bar.sprites.get? kind = some sprite →
      Sprite.rasterize (kind.preset.withHeight settings.thumbHeight)
          (max bar.width.nearest 0).toUInt32 settings.thumbHeight bar.tint = .ok (.ok sprite) ∧
        ∀ width height tint, bar.sprites.ensure width height tint = .ok (bar.sprites, .ok ())) ∧
    ∀ step ∈ steps,
      step.after.sprites.generation = step.before.sprites.generation +
          (if step.before.sprites.isReady = false ∧ step.after.sprites.isReady = true then 1
            else 0) ∧
        (step.before.sprites.isReady = false → step.after.sprites.isReady = true →
          step.input = .draw) ∧
        (step.input = .draw → step.before.linked = true → step.before.visibility ≠ .hidden →
          (max step.before.width.nearest 0).toUInt32 ≠ 0 → settings.thumbHeight ≠ 0 →
            step.after.sprites.isReady = true) := by
  have hkept : ∀ step : Step Scrollbar (Call H) (Answer H), step.before.Fresh → True →
      step.before.call step.input = .ok (step.after, step.output) → step.after.Fresh := by
    intro step hbefore _ hcall
    exact hbefore.of_painting (call_painting hcall)
  have hnew := fresh_new id settings tint
  have hfresh : bar.Fresh := Machine.invariant_of_steps Fresh hnew hkept (fun _ _ => trivial) h
  have hsteps := Machine.invariant_of_mem_steps Fresh hnew hkept (fun _ _ => trivial) h
  have hheight : bar.thumbHeight = settings.thumbHeight :=
    congrArg ScrollbarSettings.thumbHeight (settings_of_run h).1
  refine ⟨SpriteCache.none_or_both_of_isWhole hfresh.whole, ?_, ?_⟩
  · intro kind sprite hsprite
    have hdrawn := hfresh.drawn kind sprite hsprite
    rw [hheight] at hdrawn
    -- If one bitmap is there, so is the other, and nothing is drawn whatever is asked for.
    have hready := SpriteCache.isReady_of_get?_eq_some hfresh.whole hsprite
    exact ⟨hdrawn, SpriteCache.ensure_of_isReady hready⟩
  · intro step hmem
    rcases hsteps step hmem with ⟨hbefore, _, hcall⟩
    have hpainting := call_painting hcall
    refine ⟨hpainting.generation_eq hbefore, hpainting.eq_draw_of_built, ?_⟩
    intro hinput hlinked hseen hwidth hpixels
    rw [hinput] at hpainting
    have hbeforeheight : step.before.thumbHeight = settings.thumbHeight :=
      congrArg ScrollbarSettings.thumbHeight ((settings_of_run h).2 step hmem).1
    exact hpainting.isReady_of_draw hbefore hlinked hseen hwidth (hbeforeheight ▸ hpixels)

/-- A scroll and two frames, and two more frames after the strip has become wider. -/
def widenedCalls : List (Call RecordedHost) :=
  [.link (some (hostOfContent 1000)), .resize 3 200, .hostScrolled (hostOfContent 1000), .draw,
    .draw, .resize 4 200, .draw, .draw]

/-- The step builds the bitmaps. -/
def builds (step : Step Scrollbar (Call H) (Answer H)) : Bool :=
  !step.before.sprites.isReady && step.after.sprites.isReady

/-- The theorem speaks of a run in which the bitmaps were built, dropped and built again. -/
theorem run_sprites_up_to_date_widened :
    ∃ bar steps sprite,
      (new 0 { ScrollbarSettings.standard with thumbHeight := 2 } (Color.solid 0 0 1)).run
          widenedCalls = .ok (bar, steps) ∧
        steps.map builds = [false, false, false, true, false, false, true, false] ∧
        (∀ step ∈ steps, builds step = true → step.input = .draw) ∧
        bar.sprites.generation = 2 ∧ bar.sprites.normal? = some sprite ∧
        Sprite.rasterize (Drawable.atRest.withHeight 2) 4 2 (Color.solid 0 0 1) =
          .ok (.ok sprite) := by
  have hmap : ((new 0 { ScrollbarSettings.standard with thumbHeight := 2 }
      (Color.solid 0 0 1)).run widenedCalls).map (fun reached =>
        (reached.2.map builds, reached.1.sprites.generation, reached.1.sprites.normal?.isSome,
          reached.1.spriteWidth, reached.1.tint)) =
      .ok ([false, false, false, true, false, false, true, false], 2, true, 4,
        Color.solid 0 0 1) := by
    decide +kernel
  rcases Checked.map_eq_ok_iff.1 hmap with ⟨⟨bar, steps⟩, hrun, hreached⟩
  have hbuilds : steps.map builds = _ := congrArg Prod.fst hreached
  have hgeneration : bar.sprites.generation = 2 := congrArg (fun r => r.2.1) hreached
  have hsome : bar.sprites.normal?.isSome = true := congrArg (fun r => r.2.2.1) hreached
  have hwidth : (max bar.width.nearest 0).toUInt32 = 4 := congrArg (fun r => r.2.2.2.1) hreached
  have htint : bar.tint = Color.solid 0 0 1 := congrArg (fun r => r.2.2.2.2) hreached
  rcases Option.isSome_iff_exists.1 hsome with ⟨sprite, hsprite⟩
  rcases run_sprites_up_to_date hrun with ⟨_, hdrawn, hsteps⟩
  have hnormal := (hdrawn .normal sprite hsprite).1
  rw [hwidth, htint] at hnormal
  refine ⟨bar, steps, sprite, hrun, hbuilds, ?_, hgeneration, hsprite, hnormal⟩
  intro step hmem hbuilt
  rcases Bool.and_eq_true_iff.1 hbuilt with ⟨hmissing, hready⟩
  exact (hsteps step hmem).2.1 (by simpa using hmissing) hready

end Scrollbar

end OverlayScrollbar
