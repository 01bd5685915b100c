import OverlayScrollbar.Proofs.Sprite.Cache

/-!
# Images that show the cache

The user interface takes the bitmaps over when their generation is another than that of its images.
That is enough for its images to be those of a cache with both bitmaps: bitmaps that are dropped come
back only with another generation.

- `SpriteCache.isOk_of_ensure`   : drawing what is missing succeeds if both bitmaps are there then
- `ThumbImages.Mirrors`          : the images are those of the cache, or of an older generation
- `ThumbImages.Mirrors.of_ensuring`, `ThumbImages.Mirrors.clear`, `ThumbImages.Mirrors.sync` : what
  keeps them so
- `ThumbImages.Mirrors.get?_sync` : images that were taken over are the bitmaps
-/

namespace OverlayScrollbar

namespace SpriteCache

variable {cache after : SpriteCache} {width height : UInt32} {tint : Color}

/-- A bitmap that is there is not drawn, so that it cannot be refused. -/
theorem eq_none_of_refused {kept : Option Sprite} {shape : Drawable} {size : InvalidSize}
    (h : drawn kept shape width height tint = .ok (.error size)) : kept = none := by
  cases kept with
  | none => rfl
  | some sprite => cases h

theorem isOk_of_ensure {drawn? : Except InvalidSize Unit}
    (h : cache.ensure width height tint = .ok (after, drawn?)) : drawn?.isOk = after.isReady := by
  rcases Checked.bind_eq_ok_iff.1 h with ⟨normal?, hnormal, h⟩
  cases normal? with
  | error size =>
      have hmissing := eq_none_of_refused hnormal
      cases h
      simp [isReady, hmissing, Except.isOk, Except.toBool]
  | ok normal =>
      rcases Checked.bind_eq_ok_iff.1 h with ⟨dragging?, hdragging, h⟩
      cases dragging? with
      | error size =>
          have hmissing := eq_none_of_refused hdragging
          cases h
          simp [isReady, hmissing, Except.isOk, Except.toBool]
      | ok dragging =>
          -- The generation counts up or not.
          simp only at h
          split at h
          · cases h
            rfl
          · rcases Checked.bind_eq_ok_iff.1 h with ⟨_, _, h⟩
            cases h
            rfl

theorem exists_get?_of_isReady (h : cache.isReady = true) (kind : SpriteKind) :
    ∃ sprite, cache.get? kind = some sprite := by
  rcases Bool.and_eq_true_iff.1 h with ⟨hnormal, hdragging⟩
  cases kind with
  | normal => exact Option.isSome_iff_exists.1 hnormal
  | dragging => exact Option.isSome_iff_exists.1 hdragging

/-- Bitmaps are drawn only if the generation counts up. -/
theorem Ensuring.lt_generation_or_eq (h : Ensuring cache width height tint after) :
    cache.generation < after.generation ∨ after = cache := by
  cases h with
  | kept => exact Or.inr rfl
  | invalid => exact Or.inr rfl
  | built _ _ _ after_eq =>
      subst after_eq
      exact Or.inl (Nat.lt_succ_self _)

end SpriteCache

namespace ThumbImages

variable {images : ThumbImages} {cache after : SpriteCache} {width height : UInt32} {tint : Color}

/-- The images are those of the cache, or of an older generation; bitmaps that are dropped may still
be shown by images of the same generation. -/
structure Mirrors (images : ThumbImages) (cache : SpriteCache) : Prop where
  generation_le : images.generation ≤ cache.generation
  get?_eq : images.generation = cache.generation → cache.isReady = true →
    ∀ kind, images.get? kind = cache.get? kind

theorem mirrors_empty (normalShape draggingShape : Drawable) :
    empty.Mirrors (SpriteCache.new normalShape draggingShape) := by
  constructor
  · exact Nat.le_refl 0
  · intro _ hready
    cases hready

namespace Mirrors

theorem clear (h : images.Mirrors cache) : images.Mirrors cache.clear := by
  constructor
  · exact h.generation_le
  · intro _ hready
    cases hready

theorem of_ensuring (h : images.Mirrors cache)
    (hensuring : SpriteCache.Ensuring cache width height tint after) : images.Mirrors after := by
  rcases hensuring.lt_generation_or_eq with hlt | rfl
  · -- The images are older than the bitmaps now.
    have holder := Nat.lt_of_le_of_lt h.generation_le hlt
    constructor
    · exact Nat.le_of_lt holder
    · intro hsame _
      exact absurd hsame (Nat.ne_of_lt holder)
  · exact h

theorem get?_sync (h : images.Mirrors cache) (hready : cache.isReady = true) (kind : SpriteKind) :
    (images.sync cache).get? kind = cache.get? kind := by
  cases hcurrent : images.isCurrent cache with
  | false => exact get?_sync_of_not_isCurrent hcurrent kind
  | true =>
      rw [sync_of_isCurrent hcurrent]
      have hsame : images.generation = cache.generation :=
        beq_iff_eq.1 (Bool.and_eq_true_iff.1 hcurrent).1
      exact h.get?_eq hsame hready kind

theorem sync (h : images.Mirrors cache) : (images.sync cache).Mirrors cache := by
  constructor
  · unfold ThumbImages.sync
    split
    · exact h.generation_le
    · exact Nat.le_refl _
  · intro _ hready
    exact h.get?_sync hready

end Mirrors

end ThumbImages

end OverlayScrollbar
