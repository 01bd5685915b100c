import OverlayScrollbar.Decimal.Basic

/-!
# The shortest decimal that reads back

A floating-point number is written with the fewest digits that round to it, and among those with the
nearest. The decimals that round to a number form an interval around it; the search goes from coarse
grids of powers of ten to finer ones and stops at the first that meets the interval.

- `Cell`           : the interval that rounds to a number
- `Cell.onGrid?`   : the nearest point of a decimal grid, if the interval holds one
- `Cell.shortest`  : the shortest decimal
- `Single.shortest`, `Single.shortestDouble` : that decimal in single and in double precision
-/

namespace OverlayScrollbar

/-- How a number halfway between two decimals is written. -/
inductive HalfwayRule
  /-- The decimal with the even last digit is taken. -/
  | toEven
  /-- The larger decimal is taken. -/
  | up
  deriving DecidableEq, Repr

/-- The number `units * 2 ^ -scale` of a binary format with `bits` significant bits. -/
structure Cell where
  /-- The precision of the format. -/
  bits : Nat
  /-- The format's unit is `2 ^ -scale`. -/
  scale : Nat
  /-- The size of the number. -/
  units : Nat
  deriving DecidableEq, Repr

namespace Cell

/-! ## The interval around a number -/

/-- The distance from a number to the next larger one, in units. -/
def gap (c : Cell) : Nat :=
  2 ^ excessBits c.bits c.units

/-- The lower end of the interval, in quarter units. The number below a power of two is nearer. -/
def lower (c : Cell) : Nat :=
  if c.units = 2 ^ c.units.log2 ∧ 1 < c.gap then 4 * c.units - c.gap
  else 4 * c.units - 2 * c.gap

/-- The upper end of the interval, in quarter units. -/
def upper (c : Cell) : Nat :=
  4 * c.units + 2 * c.gap

/-- The ends belong to the interval if the last significant bit is zero. -/
def closed (c : Cell) : Bool :=
  c.units / c.gap % 2 == 0

/-! ## Decimal grids -/

/-- The number of grid steps `10 ^ exponent` nearest to the number, among those in the interval. -/
def onGrid? (c : Cell) (halfway : HalfwayRule) (exponent : Int) : Option Nat :=
  let step := 10 ^ exponent.toNat * (4 * 2 ^ c.scale)
  let widen := 10 ^ (-exponent).toNat
  let below := 4 * c.units * widen / step
  let rest := 4 * c.units * widen % step
  let lower := c.lower * widen
  let upper := c.upper * widen
  let holdsBelow := 0 < below ∧
    (if c.closed then lower ≤ below * step else lower < below * step)
  let holdsAbove :=
    if c.closed then (below + 1) * step ≤ upper else (below + 1) * step < upper
  let preferAbove := step < 2 * rest ∨
    (step = 2 * rest ∧ (halfway = .up ∨ below % 2 = 1))
  if holdsBelow ∧ (¬holdsAbove ∨ ¬preferAbove) then some below
  else if holdsAbove then some (below + 1)
  else none

/-- The first of the grids `10 ^ (fuel - scale)`, `10 ^ (fuel - 1 - scale)`, … that meets the
interval. The number itself lies on the last one. -/
def search (c : Cell) (halfway : HalfwayRule) : Nat → Nat × Int
  | 0 => (c.units * 5 ^ c.scale, -c.scale)
  | fuel + 1 =>
      let exponent : Int := (fuel + 1 : Nat) - (c.scale : Int)
      match c.onGrid? halfway exponent with
      | some steps => (steps, exponent)
      | none => c.search halfway fuel

/-- The shortest decimal that rounds to the number, as coefficient and exponent. The search starts
above every power of ten of single precision. -/
def shortest (c : Cell) (halfway : HalfwayRule) : Nat × Int :=
  if c.units = 0 then (0, 0) else c.search halfway (c.scale + 39)

end Cell

namespace Single

/-- The shortest decimal that rounds to a number in single precision. -/
def shortest (size : Magnitude) : Nat × Int :=
  Cell.shortest ⟨24, 149, size.units⟩ .toEven

/-- The shortest decimal that rounds to a number in double precision. -/
def shortestDouble (size : Magnitude) : Nat × Int :=
  Cell.shortest ⟨53, 1074, (doubleSize size).units⟩ .up

end Single

end OverlayScrollbar
