import OverlayScrollbar.Sprite.Basic

/-!
# The sprite cache

The two bitmaps of a thumb are drawn when they are first needed and kept until they are dropped. The
user interface holds a copy of them as images and refreshes it when the cache has drawn new ones.

- `SpriteKind`   : the thumb at rest or dragged
- `SpriteCache`  : the bitmaps and how often they were drawn
- `ThumbImages`  : the images that the user interface holds
-/

namespace OverlayScrollbar

/-- The two looks of a thumb. -/
inductive SpriteKind
  | normal
  | dragging
  deriving DecidableEq, Repr

/-- The bitmaps of a thumb, as far as they are drawn. -/
structure SpriteCache where
  /-- The shape of the thumb at rest. -/
  normalShape : Drawable
  /-- The shape of the dragged thumb. -/
  draggingShape : Drawable
  /-- The bitmap of the thumb at rest. -/
  normal? : Option Sprite
  /-- The bitmap of the dragged thumb. -/
  dragging? : Option Sprite
  /-- How often bitmaps were drawn. -/
  generation : Nat
  deriving DecidableEq, Repr

namespace SpriteCache

/-- A cache in which nothing is drawn. -/
def new (normalShape draggingShape : Drawable) : SpriteCache :=
  ⟨normalShape, draggingShape, none, none, 0⟩

/-- The bitmap of one look, if it is drawn. -/
def get? (cache : SpriteCache) : SpriteKind → Option Sprite
  | .normal => cache.normal?
  | .dragging => cache.dragging?

/-- Both bitmaps are drawn. -/
def isReady (cache : SpriteCache) : Bool :=
  cache.normal?.isSome && cache.dragging?.isSome

/-- Drops both bitmaps. -/
def clear (cache : SpriteCache) : SpriteCache :=
  { cache with normal? := none, dragging? := none }

/-- The bitmap that is there, or the bitmap of the shape. -/
def drawn (kept : Option Sprite) (shape : Drawable) (width height : UInt32) (tint : Color) :
    Checked (Except InvalidSize Sprite) :=
  match kept with
  | some sprite => .ok (.ok sprite)
  | none => Sprite.rasterize shape width height tint

/-- Draws the bitmaps that are missing. The generation counts up if there were any. -/
def ensure (cache : SpriteCache) (width height : UInt32) (tint : Color) :
    Checked (SpriteCache × Except InvalidSize Unit) := do
  match ← drawn cache.normal? cache.normalShape width height tint with
  | .error e => return (cache, .error e)
  | .ok normal =>
      let cache' := { cache with normal? := some normal }
      match ← drawn cache.dragging? cache.draggingShape width height tint with
      | .error e => return (cache', .error e)
      | .ok dragging =>
          let generation ←
            if cache.isReady then pure cache.generation
            else Checked.word (cache.generation + 1)
          return ({ cache' with dragging? := some dragging, generation := generation }, .ok ())

/-! ### What the operations do -/

@[simp]
theorem get?_clear (cache : SpriteCache) (kind : SpriteKind) : cache.clear.get? kind = none := by
  cases kind <;> rfl

@[simp]
theorem isReady_clear (cache : SpriteCache) : cache.clear.isReady = false :=
  rfl

@[simp]
theorem generation_clear (cache : SpriteCache) : cache.clear.generation = cache.generation :=
  rfl

/-- Bitmaps that are drawn stay, whatever size and tint are asked for. -/
theorem ensure_of_isReady {cache : SpriteCache} (h : cache.isReady = true) (width height : UInt32)
    (tint : Color) : cache.ensure width height tint = .ok (cache, .ok ()) := by
  obtain ⟨normalShape, draggingShape, normal?, dragging?, generation⟩ := cache
  cases normal? with
  | none => simp [isReady] at h
  | some normal =>
      cases dragging? with
      | none => simp [isReady] at h
      | some dragging => rfl

end SpriteCache

/-- The images that the user interface shows. -/
structure ThumbImages where
  /-- The cache's generation when the images were taken. -/
  generation : Nat
  /-- The image of the thumb at rest. -/
  normal? : Option Sprite
  /-- The image of the dragged thumb. -/
  dragging? : Option Sprite
  deriving DecidableEq, Repr

namespace ThumbImages

/-- No image is held. -/
def empty : ThumbImages :=
  ⟨0, none, none⟩

/-- The image of one look, if it is held. -/
def get? (images : ThumbImages) : SpriteKind → Option Sprite
  | .normal => images.normal?
  | .dragging => images.dragging?

/-- The images are those of the cache's generation. -/
def isCurrent (images : ThumbImages) (cache : SpriteCache) : Bool :=
  images.generation == cache.generation && images.normal?.isSome

/-- Takes the cache's bitmaps, unless the images are current. -/
def sync (images : ThumbImages) (cache : SpriteCache) : ThumbImages :=
  if images.isCurrent cache then images
  else ⟨cache.generation, cache.normal?, cache.dragging?⟩

/-- Whether `sync` puts another image in the place of the normal one, or removes it. -/
def replaces (images : ThumbImages) (cache : SpriteCache) : Bool :=
  !images.isCurrent cache && (images.normal?.isSome || cache.normal?.isSome)

theorem sync_of_isCurrent {images : ThumbImages} {cache : SpriteCache}
    (h : images.isCurrent cache = true) : images.sync cache = images := by
  simp [sync, h]

theorem get?_sync_of_not_isCurrent {images : ThumbImages} {cache : SpriteCache}
    (h : images.isCurrent cache = false) (kind : SpriteKind) :
    (images.sync cache).get? kind = cache.get? kind := by
  cases kind <;> simp [sync, h, get?, SpriteCache.get?]

end ThumbImages

end OverlayScrollbar
