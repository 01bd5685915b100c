import OverlayScrollbar.Single.Arithmetic
import OverlayScrollbar.Single.Order

/-!
# Points and rectangles

- `Point`, `Size`, `Rect` : places and extents in pixels
- `Rect.contains`         : whether a point lies in a rectangle
- `Rect.relative`         : a point as seen from a rectangle's corner
-/

namespace OverlayScrollbar

/-- A place in a plane whose second axis goes down. -/
structure Point where
  x : Single
  y : Single
  deriving DecidableEq, Repr

/-- A width and a height. -/
structure Size where
  width : Single
  height : Single
  deriving DecidableEq, Repr

/-- A rectangle, by its upper left corner and its size. -/
structure Rect where
  x : Single
  y : Single
  width : Single
  height : Single
  deriving DecidableEq, Repr

/-- Both sizes are equal in width and height. -/
def Size.same (a b : Size) : Bool :=
  a.width.sameSize b.width && a.height.sameSize b.height

namespace Rect

/-- The size of a rectangle. -/
def size (r : Rect) : Size :=
  ⟨r.width, r.height⟩

/-- The point lies in the rectangle; the right and lower edges do not belong to it. -/
def contains (r : Rect) (p : Point) : Bool :=
  decide (r.x ≤ p.x) && decide (p.x < r.x + r.width) &&
    decide (r.y ≤ p.y) && decide (p.y < r.y + r.height)

/-- The point as seen from the upper left corner. -/
def relative (r : Rect) (p : Point) : Point :=
  ⟨p.x - r.x, p.y - r.y⟩

end Rect

end OverlayScrollbar
