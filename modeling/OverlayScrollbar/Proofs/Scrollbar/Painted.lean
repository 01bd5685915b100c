import OverlayScrollbar.Proofs.Scrollbar.Picture
import OverlayScrollbar.Proofs.Scrollbar.Sprites
import OverlayScrollbar.Proofs.Sprite.Images

/-!
# Frames that agree with the scrollbar

A frame is kept until another one is made. Meanwhile it agrees with the scrollbar, as long as no event
asks for another; and so do the images, although the bitmaps may be dropped.

- `Scrollbar.Agrees`            : a frame is there if it can be, with the look and alpha of the thumb
- `Scrollbar.agrees_of_draw`    : a frame that was just made
- `Scrollbar.Agrees.of_undrawn` : a frame that was made before, if no event has asked for another
- `Scrollbar.mirrors_of_run`    : the images, along a run
-/

namespace OverlayScrollbar

namespace Scrollbar

variable {H : Type} [ScrollHost H] {bar after : Scrollbar} {frame? : Option Frame}

/-- The frame has the look, the alpha and the generation of the scrollbar, and the alpha is full
unless the thumb fades. -/
structure Painted (bar : Scrollbar) (frame : Frame) : Prop where
  sprite_iff : frame.sprite = .dragging ↔ bar.visibility = .dragging
  alpha_eq : frame.alpha = bar.alpha
  full_of_steady : bar.visibility ≠ .exiting → bar.alpha = bar.settings.maxAlpha
  below_of_exiting : bar.visibility = .exiting → bar.alpha < bar.settings.maxAlpha
  generation_eq : frame.generation = bar.sprites.generation

/-- There is a frame exactly if there is a thumb with bitmaps, and it agrees with the scrollbar. -/
structure Agrees (bar : Scrollbar) (frame? : Option Frame) : Prop where
  isSome_iff : frame?.isSome = true ↔ bar.visibility ≠ .hidden ∧ bar.sprites.isReady = true
  painted : ∀ frame, frame? = some frame → bar.Painted frame

theorem agrees_of_hidden (hhidden : bar.visibility = .hidden) : bar.Agrees none := by
  constructor
  · constructor
    · intro hsome
      cases hsome
    · intro hseen
      exact absurd hhidden hseen.1
  · intro frame hframe
    cases hframe

/-! ## A frame that is made -/

omit [ScrollHost H] in
theorem isSome_frame? (bar : Scrollbar) (paintable : Bool) (sprite : SpriteKind) :
    (bar.frame? paintable sprite).isSome = paintable := by
  cases paintable with
  | false => rfl
  | true => rfl

/-- A thumb that is seen has a frame exactly if it can be painted. -/
theorem agrees_of_frame? {paintable : Bool} {sprite : SpriteKind} (hseen : bar.visibility ≠ .hidden)
    (hready : paintable = bar.sprites.isReady)
    (hpainted : bar.Painted ⟨sprite, bar.top, bar.alpha, bar.sprites.generation⟩) :
    bar.Agrees (bar.frame? paintable sprite) := by
  constructor
  · rw [isSome_frame?, hready]
    constructor
    · intro hbitmaps
      exact ⟨hseen, hbitmaps⟩
    · exact And.right
  · intro frame hframe
    rw [eq_of_frame?_eq_some hframe]
    exact hpainted

/-- A step of the fade takes some alpha off. -/
theorem alpha_lt_of_fade (hstep : bar.settings.fadeStep ≠ 0)
    (habove : bar.settings.fadeFloor < bar.alpha) :
    UInt8.ofNat (bar.alpha.toNat - bar.settings.fadeStep.toNat) < bar.alpha := by
  have hpositive : 0 < bar.settings.fadeStep.toNat := by
    apply Nat.pos_of_ne_zero
    intro hzero
    exact hstep (UInt8.toNat_inj.1 hzero)
  have hsome : 0 < bar.alpha.toNat := Nat.lt_of_le_of_lt (Nat.zero_le _) habove
  have hsmall := bar.alpha.toNat_lt
  show (UInt8.ofNat (bar.alpha.toNat - bar.settings.fadeStep.toNat)).toNat < bar.alpha.toNat
  rw [UInt8.toNat_ofNat', Nat.mod_eq_of_lt (by omega)]
  exact Nat.sub_lt hsome hpositive

theorem agrees_of_draw (hcoherent : bar.Coherent) (hstep : bar.settings.fadeStep ≠ 0)
    (hle : bar.alpha.toNat ≤ bar.settings.maxAlpha.toNat) (h : bar.draw = .ok (after, frame?)) :
    after.Agrees frame? := by
  cases draw_eq_ok h with
  | blank inactive =>
      apply agrees_of_hidden
      rcases inactive with hunlinked | hhidden
      · exact hcoherent.hidden_of_unlinked hunlinked
      · exact hhidden
  | steady _ seen not_exiting ensured after_eq =>
      have hvisibility : after.visibility = bar.visibility := by rw [after_eq]
      have hready := SpriteCache.isOk_of_ensure ensured
      apply agrees_of_frame? (hvisibility ▸ seen) (by rw [hready, after_eq])
      constructor
      · rw [hvisibility]
        by_cases hdragging : bar.visibility = .dragging
        · simp [hdragging]
        · simp [hdragging]
      · rfl
      · intro _
        rw [after_eq]
      · intro hexiting
        exact absurd (hvisibility.symm.trans hexiting) not_exiting
      · rfl
  | faded _ exiting above ensured after_eq =>
      have hvisibility : after.visibility = .exiting := by rw [after_eq, exiting]
      have hready := SpriteCache.isOk_of_ensure ensured
      apply agrees_of_frame? (by simp [hvisibility]) (by rw [hready, after_eq])
      constructor
      · simp [hvisibility]
      · rfl
      · intro hsteady
        exact absurd hvisibility hsteady
      · intro _
        -- A step of the fade lowers the alpha, which was at most the highest one before.
        have hbelow := alpha_lt_of_fade hstep above
        rw [after_eq]
        exact Nat.lt_of_lt_of_le hbelow hle
      · rfl
  | vanished _ _ _ _ after_eq =>
      subst after_eq
      exact agrees_of_hidden rfl

/-! ## A frame that is kept -/

/-- All that a frame agrees with is part of the set-up or is the visibility. -/
theorem Agrees.of_undrawn (h : bar.Agrees frame?) (hundrawn : Undrawn bar after)
    (hquiet : after.needsRedraw = false) : after.Agrees frame? := by
  rcases hundrawn.same_unless_redraw hquiet with ⟨_, hvisibility, hsetup⟩
  have hsprites : after.sprites = bar.sprites := congrArg Setup.sprites hsetup
  constructor
  · rw [hvisibility, hsprites]
    exact h.isSome_iff
  · intro frame hframe
    rcases h.painted frame hframe with ⟨hsprite, halpha, hfull, hbelow, hgeneration⟩
    constructor
    · rw [hvisibility]
      exact hsprite
    · rw [hundrawn.alpha]
      exact halpha
    · rw [hvisibility, hundrawn.alpha, hundrawn.settings]
      exact hfull
    · rw [hvisibility, hundrawn.alpha, hundrawn.settings]
      exact hbelow
    · rw [hsprites]
      exact hgeneration

/-! ## Images -/

omit [ScrollHost H] in
theorem mirrors_of_painting {images : ThumbImages} {call : Call H} (hfresh : bar.Fresh)
    (h : images.Mirrors bar.sprites) (hpainting : Painting bar call after) :
    images.Mirrors after.sprites := by
  cases hpainting with
  | kept _ _ _ _ sprites =>
      rw [sprites]
      exact h
  | dropped _ _ sprites =>
      rw [sprites]
      exact h.clear
  | ensured _ _ _ ensuring => exact h.of_ensuring (SpriteCache.ensure_eq_ok hfresh.whole ensuring)

/-- Images that are not refreshed stay those of the bitmaps, or become older than they are. -/
theorem mirrors_of_run {images : ThumbImages} {calls : List (Call H)} {steps : Steps H}
    (hfresh : bar.Fresh) (h : images.Mirrors bar.sprites)
    (hrun : bar.run calls = .ok (after, steps)) : after.Fresh ∧ images.Mirrors after.sprites := by
  have hkept : ∀ step : Step Scrollbar (Call H) (Answer H),
      step.before.Fresh ∧ images.Mirrors step.before.sprites → True →
        step.before.call step.input = .ok (step.after, step.output) →
          step.after.Fresh ∧ images.Mirrors step.after.sprites := by
    rintro step ⟨hbefore, hmirrors⟩ _ hcall
    have hpainting := call_painting hcall
    exact ⟨hbefore.of_painting hpainting, mirrors_of_painting hbefore hmirrors hpainting⟩
  exact Machine.invariant_of_steps (fun bar : Scrollbar => bar.Fresh ∧ images.Mirrors bar.sprites)
    ⟨hfresh, h⟩ hkept (fun _ _ => trivial) hrun

end Scrollbar

end OverlayScrollbar
