import OverlayScrollbar.Sprite.Cache

/-!
# Drawing the missing bitmaps

A cache that has both bitmaps or none stays so: both looks can be drawn at a size, or none can. To
draw the bitmaps that are missing, or to take them over as images, a second time changes nothing.

- `SpriteKind.preset`, `SpriteCache.shape` : the shape of a look
- `SpriteCache.IsWhole`      : both bitmaps are there, or none is
- `SpriteCache.none_or_both_of_isWhole`, `SpriteCache.isReady_of_get?_eq_some` : what this says
- `SpriteCache.Ensuring`, `SpriteCache.ensure_eq_ok` : the ways to draw what is missing
- `SpriteCache.ensure_ensure` : drawing what is missing once more
- `ThumbImages.sync_sync`     : taking over the images once more
-/

namespace OverlayScrollbar

/-- The shape of a look, at the height that it is meant for. -/
def SpriteKind.preset : SpriteKind → Drawable
  | .normal => .atRest
  | .dragging => .held

namespace Sprite

variable {d : Drawable} {width height : UInt32} {tint : Color}

theorem rasterize_of_invalid (h : width = 0 ∨ height = 0) :
    rasterize d width height tint = .ok (.error ⟨width, height⟩) := by
  unfold rasterize
  rw [if_pos h]
  rfl

theorem rasterize_of_valid (hvalid : ¬(width = 0 ∨ height = 0))
    (hfits : width.toNat * height.toNat * 4 < 2 ^ 63) :
    rasterize d width height tint =
      .ok (.ok ⟨width, height, .mk fun _ => paint d width height tint⟩) := by
  have hbuffer : checkBuffer (width.toNat * height.toNat * 4) = .ok () := by
    rw [checkBuffer, if_neg (by omega), if_neg (by omega)]
  unfold rasterize
  rw [if_neg hvalid, hbuffer]
  rfl

theorem exists_sprite_of_rasterize {drawn : Except InvalidSize Sprite}
    (hvalid : ¬(width = 0 ∨ height = 0)) (h : rasterize d width height tint = .ok drawn) :
    ∃ sprite, drawn = .ok sprite := by
  unfold rasterize at h
  rw [if_neg hvalid] at h
  rcases Checked.bind_eq_ok_iff.1 h with ⟨_, _, h⟩
  cases h
  exact ⟨_, rfl⟩

/-- A bitmap that is drawn has pixels, and they are painted. -/
theorem eq_paint_of_rasterize {sprite : Sprite}
    (h : rasterize d width height tint = .ok (.ok sprite)) :
    ¬(width = 0 ∨ height = 0) ∧
      sprite = ⟨width, height, .mk fun _ => paint d width height tint⟩ := by
  unfold rasterize at h
  split at h
  · cases h
  · rename_i hvalid
    rcases Checked.bind_eq_ok_iff.1 h with ⟨_, _, hsprite⟩
    cases hsprite
    exact ⟨hvalid, rfl⟩

/-- A bitmap has the size that was asked for. -/
theorem size_of_rasterize {sprite : Sprite} (h : rasterize d width height tint = .ok (.ok sprite)) :
    sprite.width = width ∧ sprite.height = height := by
  rw [(eq_paint_of_rasterize h).2]
  exact ⟨rfl, rfl⟩

end Sprite

namespace SpriteCache

/-- The shape of one look. -/
def shape (cache : SpriteCache) : SpriteKind → Drawable
  | .normal => cache.normalShape
  | .dragging => cache.draggingShape

/-- Both bitmaps are there, or none is. -/
def IsWhole (cache : SpriteCache) : Prop :=
  cache.normal?.isSome = cache.dragging?.isSome

/-- What becomes of a cache in which the missing bitmaps are drawn. -/
inductive Ensuring (cache : SpriteCache) (width height : UInt32) (tint : Color) : SpriteCache → Prop
  /-- Nothing is missing. -/
  | kept (ready : cache.isReady = true) : Ensuring cache width height tint cache
  /-- Nothing can be drawn at this size. -/
  | invalid (missing : cache.isReady = false) (no_pixels : width = 0 ∨ height = 0) :
      Ensuring cache width height tint cache
  /-- Both bitmaps are drawn, and the generation counts up. -/
  | built {normal dragging : Sprite} {after : SpriteCache} (missing : cache.isReady = false)
      (at_rest : Sprite.rasterize cache.normalShape width height tint = .ok (.ok normal))
      (held : Sprite.rasterize cache.draggingShape width height tint = .ok (.ok dragging))
      (after_eq : after =
        { cache with
          normal? := some normal
          dragging? := some dragging
          generation := cache.generation + 1 }) :
      Ensuring cache width height tint after

theorem eq_none_of_missing {cache : SpriteCache} (hwhole : cache.IsWhole)
    (hmissing : cache.isReady = false) : cache.normal? = none ∧ cache.dragging? = none := by
  unfold IsWhole at hwhole
  unfold isReady at hmissing
  rw [← hwhole, Bool.and_self] at hmissing
  have hdragging : cache.dragging?.isSome = false := hwhole.symm.trans hmissing
  constructor
  · exact Option.isNone_iff_eq_none.1 (Option.isSome_eq_false_iff.1 hmissing)
  · exact Option.isNone_iff_eq_none.1 (Option.isSome_eq_false_iff.1 hdragging)

theorem isReady_of_get?_eq_some {cache : SpriteCache} (hwhole : cache.IsWhole) {kind : SpriteKind}
    {sprite : Sprite} (hsprite : cache.get? kind = some sprite) : cache.isReady = true := by
  cases hready : cache.isReady with
  | true => rfl
  | false =>
      rcases eq_none_of_missing hwhole hready with ⟨hnormal, hdragging⟩
      cases kind with
      | normal => cases hnormal.symm.trans hsprite
      | dragging => cases hdragging.symm.trans hsprite

theorem none_or_both_of_isWhole {cache : SpriteCache} (hwhole : cache.IsWhole) :
    cache.normal? = none ∧ cache.dragging? = none ∨
      cache.normal? ≠ none ∧ cache.dragging? ≠ none := by
  cases hready : cache.isReady with
  | false => exact Or.inl (eq_none_of_missing hwhole hready)
  | true =>
      rcases Bool.and_eq_true_iff.1 hready with ⟨hnormal, hdragging⟩
      exact Or.inr ⟨Option.isSome_iff_ne_none.1 hnormal, Option.isSome_iff_ne_none.1 hdragging⟩

theorem ensure_eq_ok {cache after : SpriteCache} {width height : UInt32} {tint : Color}
    {drawn? : Except InvalidSize Unit} (hwhole : cache.IsWhole)
    (h : cache.ensure width height tint = .ok (after, drawn?)) :
    Ensuring cache width height tint after := by
  cases hready : cache.isReady with
  | true =>
      cases (ensure_of_isReady hready width height tint).symm.trans h
      exact .kept hready
  | false =>
      rcases eq_none_of_missing hwhole hready with ⟨hnormal, hdragging⟩
      unfold ensure at h
      rw [hnormal, hdragging] at h
      simp only [drawn] at h
      rcases Checked.bind_eq_ok_iff.1 h with ⟨normal?, hatrest, h⟩
      by_cases hinvalid : width = 0 ∨ height = 0
      · -- The first look fails, so that the second is not even tried.
        rw [Sprite.rasterize_of_invalid hinvalid] at hatrest
        cases hatrest
        cases h
        exact .invalid hready hinvalid
      · rcases Sprite.exists_sprite_of_rasterize hinvalid hatrest with ⟨normal, rfl⟩
        rcases Checked.bind_eq_ok_iff.1 h with ⟨dragging?, hheld, h⟩
        rcases Sprite.exists_sprite_of_rasterize hinvalid hheld with ⟨dragging, rfl⟩
        simp only [hready] at h
        rcases Checked.bind_eq_ok_iff.1 h with ⟨generation, hword, h⟩
        rcases Checked.word_eq_ok_iff.1 hword with ⟨_, rfl⟩
        cases h
        exact .built hready hatrest hheld rfl

namespace Ensuring

variable {cache after : SpriteCache} {width height : UInt32} {tint : Color}

theorem isWhole (h : Ensuring cache width height tint after) (hwhole : cache.IsWhole) :
    after.IsWhole := by
  cases h with
  | kept => exact hwhole
  | invalid => exact hwhole
  | built _ _ _ after_eq =>
      subst after_eq
      rfl

theorem shape_eq (h : Ensuring cache width height tint after) (kind : SpriteKind) :
    after.shape kind = cache.shape kind := by
  cases h with
  | kept => rfl
  | invalid => rfl
  | built _ _ _ after_eq =>
      subst after_eq
      cases kind with
      | normal => rfl
      | dragging => rfl

/-- A bitmap was there before, or is drawn with the size and tint that are asked for. -/
theorem get?_eq_some (h : Ensuring cache width height tint after) {kind : SpriteKind}
    {sprite : Sprite} (hsprite : after.get? kind = some sprite) :
    cache.get? kind = some sprite ∨
      Sprite.rasterize (cache.shape kind) width height tint = .ok (.ok sprite) := by
  cases h with
  | kept => exact Or.inl hsprite
  | invalid => exact Or.inl hsprite
  | built _ at_rest held after_eq =>
      subst after_eq
      refine Or.inr ?_
      cases kind with
      | normal =>
          cases hsprite
          exact at_rest
      | dragging =>
          cases hsprite
          exact held

/-- The generation counts up exactly if the bitmaps were missing and are there now. -/
theorem generation_eq (h : Ensuring cache width height tint after) :
    after.generation =
      cache.generation + if cache.isReady = false ∧ after.isReady = true then 1 else 0 := by
  cases h with
  | kept ready => simp [ready]
  | invalid missing _ => simp [missing]
  | built missing _ _ after_eq =>
      subst after_eq
      rw [if_pos ⟨missing, rfl⟩]

theorem isReady_of_valid (h : Ensuring cache width height tint after) (hwidth : width ≠ 0)
    (hheight : height ≠ 0) : after.isReady = true := by
  cases h with
  | kept ready => exact ready
  | invalid _ no_pixels =>
      rcases no_pixels with hzero | hzero
      · exact absurd hzero hwidth
      · exact absurd hzero hheight
  | built _ _ _ after_eq =>
      subst after_eq
      rfl

end Ensuring

/-- What was drawn for a size and a tint is not drawn again, and what could not be drawn still
cannot. -/
theorem ensure_ensure {cache after : SpriteCache} {width height : UInt32} {tint : Color}
    {drawn? : Except InvalidSize Unit} (h : cache.ensure width height tint = .ok (after, drawn?)) :
    after.ensure width height tint = .ok (after, drawn?) := by
  have hagain := h
  rcases Checked.bind_eq_ok_iff.1 h with ⟨normal?, hnormal, h⟩
  cases normal? with
  | error size =>
      cases h
      exact hagain
  | ok normal =>
      rcases Checked.bind_eq_ok_iff.1 h with ⟨dragging?, hdragging, h⟩
      cases dragging? with
      | error size =>
          cases h
          -- The bitmap at rest is there now, and the other fails as it did.
          unfold ensure
          rw [show drawn (some normal) cache.normalShape width height tint = .ok (.ok normal) from rfl]
          refine Checked.bind_eq_ok_iff.2 ⟨.ok normal, rfl, ?_⟩
          exact Checked.bind_eq_ok_iff.2 ⟨.error size, hdragging, rfl⟩
      | ok dragging =>
          -- Both bitmaps are there now, whether or not the generation counts up.
          have hready : after.isReady = true ∧ drawn? = .ok () := by
            simp only at h
            split at h
            · cases h
              exact ⟨rfl, rfl⟩
            · rcases Checked.bind_eq_ok_iff.1 h with ⟨generation, _, h⟩
              cases h
              exact ⟨rfl, rfl⟩
          rw [hready.2]
          exact ensure_of_isReady hready.1 width height tint

end SpriteCache

namespace ThumbImages

theorem sync_sync (images : ThumbImages) (cache : SpriteCache) :
    (images.sync cache).sync cache = images.sync cache := by
  cases hcurrent : images.isCurrent cache with
  | true => rw [sync_of_isCurrent hcurrent, sync_of_isCurrent hcurrent]
  | false =>
      have hsync : images.sync cache = ⟨cache.generation, cache.normal?, cache.dragging?⟩ := by
        simp [sync, hcurrent]
      rw [hsync]
      unfold sync
      split <;> rfl

end ThumbImages

end OverlayScrollbar
