import OverlayScrollbar.Proofs.Scrollbar.Change
import OverlayScrollbar.Proofs.Scrollbar.Faultless
import OverlayScrollbar.Proofs.Scrollbar.Sprites

/-!
# A scrollbar that does not fault

A scrollbar whose strip has a height, whose bitmaps can be held, and whose counters are below their
words carries out every call without a fault. A call counts each counter up by at most one.

- `Scrollbar.BitmapFits`       : a bitmap as wide as the strip can be held
- `Scrollbar.Sound`            : what keeps a scrollbar from faults, with counters up to a bound
- `Scrollbar.Sound.of_call`    : a call keeps it, with a bound that is one higher
- `Scrollbar.Sound.exists_call` : a call does not fault
-/

namespace OverlayScrollbar

namespace Timers

theorem Transition.issued_le_succ {timers after : Timers} {requests : List TimerRequest}
    (h : timers.Transition requests after) : after.issued ≤ timers.issued + 1 := by
  cases h with
  | schedule delay => exact Nat.le_refl _
  | restart delay => exact Nat.le_refl _
  | _ => exact Nat.le_succ _

end Timers

namespace Sprite

theorem exists_rasterize (d : Drawable) {width height : UInt32} (tint : Color)
    (hfits : width.toNat * height.toNat * 4 < 2 ^ 63) :
    ∃ result, rasterize d width height tint = .ok result := by
  by_cases hinvalid : width = 0 ∨ height = 0
  · exact ⟨_, rasterize_of_invalid hinvalid⟩
  · exact ⟨_, rasterize_of_valid hinvalid hfits⟩

end Sprite

namespace SpriteCache

theorem exists_drawn (kept : Option Sprite) (shape : Drawable) {width height : UInt32} (tint : Color)
    (hfits : width.toNat * height.toNat * 4 < 2 ^ 63) :
    ∃ result, drawn kept shape width height tint = .ok result := by
  cases kept with
  | some sprite => exact ⟨_, rfl⟩
  | none => exact Sprite.exists_rasterize shape tint hfits

theorem exists_ensure (cache : SpriteCache) {width height : UInt32} (tint : Color)
    (hfits : width.toNat * height.toNat * 4 < 2 ^ 63) (hword : cache.generation + 1 < 2 ^ 64) :
    ∃ result, cache.ensure width height tint = .ok result := by
  rcases exists_drawn cache.normal? cache.normalShape tint hfits with ⟨normal?, hnormal⟩
  rcases exists_drawn cache.dragging? cache.draggingShape tint hfits with ⟨dragging?, hdragging⟩
  refine Checked.exists_bind_eq_ok hnormal ?_
  cases normal? with
  | error size => exact ⟨_, rfl⟩
  | ok normal =>
      refine Checked.exists_bind_eq_ok hdragging ?_
      cases dragging? with
      | error size => exact ⟨_, rfl⟩
      | ok dragging =>
          -- The generation counts up only if something was missing.
          dsimp only
          split
          · exact ⟨_, rfl⟩
          · have hcounted := Checked.word_eq_ok_iff.2 ⟨hword, rfl⟩
            exact Checked.exists_bind_eq_ok hcounted ⟨_, rfl⟩

end SpriteCache

namespace Scrollbar

/-- A bitmap as wide as a strip of the given width can be held. -/
def BitmapFits (settings : ScrollbarSettings) (width : Single) : Prop :=
  (max width.nearest 0).toUInt32.toNat * settings.thumbHeight.toNat * 4 < 2 ^ 63

instance (settings : ScrollbarSettings) (width : Single) : Decidable (BitmapFits settings width) :=
  inferInstanceAs (Decidable (_ < _))

/-- What keeps a scrollbar from faults. The tokens and the generation are at most the given number. -/
structure Sound (count : Nat) (bar : Scrollbar) : Prop where
  fresh : bar.Fresh
  issued_le : bar.timers.issued ≤ count
  generation_le : bar.sprites.generation ≤ count
  number : bar.height.isNaN = false
  fits : BitmapFits bar.settings bar.width

variable {H : Type} [ScrollHost H] {bar after : Scrollbar} {call : Call H} {answer : Answer H}
  {count : Nat}

theorem Sound.mono (h : bar.Sound count) {more : Nat} (hle : count ≤ more) : bar.Sound more :=
  ⟨h.fresh, Nat.le_trans h.issued_le hle, Nat.le_trans h.generation_le hle, h.number, h.fits⟩

theorem Sound.takeRequests (h : bar.Sound count) : bar.takeRequests.1.Sound count :=
  ⟨⟨h.fresh.shape_eq, h.fresh.whole, h.fresh.drawn⟩, h.issued_le, h.generation_le, h.number, h.fits⟩

/-- Only a call that sets the size of the strip changes it. -/
theorem size_of_call (hother : ∀ width height, call ≠ .resize width height)
    (h : bar.call call = .ok (after, answer)) :
    after.width = bar.width ∧ after.height = bar.height := by
  have of_setup : after.setup = bar.setup → after.width = bar.width ∧ after.height = bar.height := by
    intro hsetup
    exact ⟨congrArg Setup.width hsetup, congrArg Setup.height hsetup⟩
  cases call_eq_ok h with
  | resized => exact absurd rfl (hother _ _)
  | scrolled scrolling => exact of_setup (setup_hostScrolled scrolling)
  | touched touching => exact of_setup (setup_touch touching)
  | elapsed token => exact of_setup (setup_timerElapsed bar token)
  | drawn drawing =>
      have hsetup := setup_draw drawing
      exact ⟨congrArg Setup.width hsetup, congrArg Setup.height hsetup⟩
  | entered visibility => exact of_setup (setup_enter bar visibility)
  | _ => exact ⟨rfl, rfl⟩

theorem fits_resize {width height : Single} (hbefore : BitmapFits bar.settings bar.width)
    (hfits : BitmapFits bar.settings width) :
    BitmapFits bar.settings (bar.resize width height).width := by
  unfold resize
  split
  · exact hbefore
  · exact hfits

/-- A call keeps a scrollbar from faults, if it sets no size that leads to one. -/
theorem Sound.of_call (h : bar.Sound count)
    (hsize : ∀ width height, call = .resize width height →
      height.isNaN = false ∧ BitmapFits bar.settings width)
    (hcall : bar.call call = .ok (after, answer)) : after.Sound (count + 1) := by
  have hpainting := call_painting hcall
  have hsettings : after.settings = bar.settings := (call_settings hcall).1
  have hsized : after.height.isNaN = false ∧ BitmapFits after.settings after.width := by
    rw [hsettings]
    by_cases hresize : ∃ width height, call = .resize width height
    · rcases hresize with ⟨width, height, rfl⟩
      rcases hsize width height rfl with ⟨hnumber, hfits⟩
      cases hcall
      exact ⟨isNaN_height_resize width h.number hnumber, fits_resize h.fits hfits⟩
    · have hother : ∀ width height, call ≠ .resize width height := by
        intro width height heq
        exact hresize ⟨width, height, heq⟩
      rcases size_of_call hother hcall with ⟨hwidth, hheight⟩
      rw [hwidth, hheight]
      exact ⟨h.number, h.fits⟩
  refine ⟨h.fresh.of_painting hpainting, ?_, ?_, hsized.1, hsized.2⟩
  -- A call is one transition of the timers, and draws the bitmaps once at most.
  · calc
      after.timers.issued ≤ bar.timers.issued + 1 := (call_change hcall).transition.issued_le_succ
      _ ≤ count + 1 := Nat.succ_le_succ h.issued_le
  · rw [hpainting.generation_eq h.fresh]
    split
    · exact Nat.succ_le_succ h.generation_le
    · exact Nat.le_succ_of_le h.generation_le

/-- A call does not fault, as long as the host can be scrolled. -/
theorem Sound.exists_call (h : bar.Sound count) (hword : count + 1 < 2 ^ 64)
    (hscroll : ∀ host event, call = .touch host event → ∀ x y, ∃ host',
      ScrollHost.scrollTo (ScrollHost.abortFling host) x y = .ok host') :
    ∃ after answer, bar.call call = .ok (after, answer) := by
  have hissued : bar.timers.issued + 1 < 2 ^ 64 :=
    Nat.lt_of_le_of_lt (Nat.succ_le_succ h.issued_le) hword
  -- Only scrolls, touches and frames compute anything that may fault.
  cases call with
  | link host? => exact ⟨_, _, rfl⟩
  | timerElapsed token => exact ⟨_, _, rfl⟩
  | resize width height => exact ⟨_, _, rfl⟩
  | recolor tint => exact ⟨_, _, rfl⟩
  | takeRequests => exact ⟨_, _, rfl⟩
  | enter visibility => exact ⟨_, _, rfl⟩
  | hostScrolled host =>
      rcases exists_hostScrolled host h.number hissued with ⟨scrolled, hscrolled⟩
      exact ⟨_, _, Checked.bind_eq_ok_iff.2 ⟨scrolled, hscrolled, rfl⟩⟩
  | touch host event =>
      rcases exists_touch host event h.number hissued (hscroll host event rfl) with
          ⟨touched, htouched⟩
      exact ⟨_, _, Checked.bind_eq_ok_iff.2 ⟨touched, htouched, rfl⟩⟩
  | draw =>
      have hgeneration : bar.sprites.generation + 1 < 2 ^ 64 :=
        Nat.lt_of_le_of_lt (Nat.succ_le_succ h.generation_le) hword
      have hfits : bar.spriteWidth.toNat * bar.thumbHeight.toNat * 4 < 2 ^ 63 := h.fits
      have hensure := SpriteCache.exists_ensure bar.sprites bar.tint hfits hgeneration
      rcases exists_draw (fun _ => hissued) hensure with ⟨drawn, frame?, hdrawn⟩
      exact ⟨_, _, Checked.bind_eq_ok_iff.2 ⟨_, hdrawn, rfl⟩⟩

end Scrollbar

end OverlayScrollbar
