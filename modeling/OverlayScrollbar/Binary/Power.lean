/-!
# Powers of whole numbers

- `wholePower` : the powers that are written with `^`

A bound such as `2 ^ 64` is the same term in every module, whether or not the module also knows the
powers of algebra.
-/

namespace OverlayScrollbar

/-- The powers of a whole number are those of the core library. -/
@[default_instance 20000]
instance (priority := 20000) wholePower {α : Type} [NatPow α] : Pow α Nat :=
  instPowNat

end OverlayScrollbar
