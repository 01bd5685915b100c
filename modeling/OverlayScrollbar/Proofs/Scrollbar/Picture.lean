import OverlayScrollbar.Proofs.Scrollbar.Event
import OverlayScrollbar.Proofs.Sprite.Cache

/-!
# Frames that are up to date

- `Scrollbar.Pictured`          : a frame shows the scrollbar as it is
- `Scrollbar.pictured_of_draw`  : a frame that was just made
- `Scrollbar.Pictured.of_undrawn` : a frame that was made before, if no event has asked for another
-/

namespace OverlayScrollbar

namespace Scrollbar

variable {bar after : Scrollbar} {frame? : Option Frame}

/-- The frame shows the scrollbar as it is: only an empty frame may still be asked for, a hidden thumb
is not painted, and the sprites of any other are drawn, or cannot be. -/
structure Pictured (bar : Scrollbar) (frame? : Option Frame) : Prop where
  hidden_of_redraw : bar.needsRedraw = true → bar.visibility = .hidden
  blank_of_hidden : bar.visibility = .hidden → frame? = none
  drawn_of_seen : bar.visibility ≠ .hidden → ∃ drawn?,
    bar.sprites.ensure bar.spriteWidth bar.thumbHeight bar.tint = .ok (bar.sprites, drawn?)

theorem pictured_of_draw (hcoherent : bar.Coherent) (h : bar.draw = .ok (after, frame?)) :
    after.Pictured frame? := by
  cases draw_eq_ok h with
  | blank inactive =>
      have hhidden : bar.visibility = .hidden := by
        rcases inactive with hunlinked | hhidden
        · exact hcoherent.hidden_of_unlinked hunlinked
        · exact hhidden
      constructor
      · exact fun hredraw => absurd hredraw Bool.false_ne_true
      · exact fun _ => rfl
      · exact fun hseen => absurd hhidden hseen
  | steady linked seen _ ensured after_eq =>
      have hdrawn := SpriteCache.ensure_ensure ensured
      subst after_eq
      constructor
      · exact fun hredraw => absurd hredraw Bool.false_ne_true
      · exact fun hhidden => absurd hhidden seen
      · exact fun _ => ⟨_, hdrawn⟩
  | faded linked exiting _ ensured after_eq =>
      have hdrawn := SpriteCache.ensure_ensure ensured
      have hseen : bar.visibility ≠ .hidden := by simp [exiting]
      subst after_eq
      constructor
      · exact fun hredraw => absurd hredraw Bool.false_ne_true
      · exact fun hhidden => absurd hhidden hseen
      · exact fun _ => ⟨_, hdrawn⟩
  | vanished _ _ _ _ after_eq =>
      -- The last step asks for a frame once more, although there is nothing left to paint.
      subst after_eq
      exact ⟨fun _ => rfl, fun _ => rfl, fun hseen => absurd rfl hseen⟩

/-- All that goes into a frame of a scrollbar that is seen is part of its set-up. -/
theorem Pictured.of_undrawn (h : bar.Pictured frame?) (hundrawn : Undrawn bar after)
    (hquiet : after.needsRedraw = false) : after.Pictured frame? := by
  rcases hundrawn.same_unless_redraw hquiet with ⟨_, hvisibility, hsetup⟩
  constructor
  · intro hredraw
    cases hquiet.symm.trans hredraw
  · rw [hvisibility]
    exact h.blank_of_hidden
  · rw [hvisibility]
    intro hseen
    rcases h.drawn_of_seen hseen with ⟨drawn?, hdrawn⟩
    have hsprites : after.sprites = bar.sprites := congrArg Setup.sprites hsetup
    have htint : after.tint = bar.tint := congrArg Setup.tint hsetup
    have hwidth : after.spriteWidth = bar.spriteWidth :=
      congrArg (fun setup => (max (Setup.width setup).nearest 0).toUInt32) hsetup
    have hheight : after.thumbHeight = bar.thumbHeight :=
      congrArg (fun setup => (Setup.settings setup).thumbHeight) hsetup
    rw [hsprites, htint, hwidth, hheight]
    exact ⟨drawn?, hdrawn⟩

/-- A frame leaves the settings, and does not raise the alpha above that of a thumb that does not
fade. -/
theorem alpha_le_of_draw (hle : bar.alpha.toNat ≤ bar.settings.maxAlpha.toNat)
    (h : bar.draw = .ok (after, frame?)) :
    after.settings = bar.settings ∧ after.alpha.toNat ≤ bar.settings.maxAlpha.toNat := by
  cases draw_eq_ok h with
  | blank => exact ⟨rfl, hle⟩
  | steady _ _ _ _ after_eq =>
      subst after_eq
      exact ⟨rfl, Nat.le_refl _⟩
  | faded _ _ _ _ after_eq =>
      subst after_eq
      refine ⟨rfl, ?_⟩
      -- A byte is at most the number that it is made from.
      have hfaded : (UInt8.ofNat (bar.alpha.toNat - bar.settings.fadeStep.toNat)).toNat ≤
          bar.alpha.toNat - bar.settings.fadeStep.toNat := by
        rw [UInt8.toNat_ofNat']
        exact Nat.mod_le _ _
      calc
        (UInt8.ofNat (bar.alpha.toNat - bar.settings.fadeStep.toNat)).toNat ≤
            bar.alpha.toNat - bar.settings.fadeStep.toNat := hfaded
        _ ≤ bar.alpha.toNat := Nat.sub_le _ _
        _ ≤ bar.settings.maxAlpha.toNat := hle
  | vanished _ _ _ _ after_eq =>
      subst after_eq
      exact ⟨rfl, Nat.zero_le _⟩

end Scrollbar

end OverlayScrollbar
