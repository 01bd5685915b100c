import OverlayScrollbar.Proofs.Decimal.Cell
import OverlayScrollbar.Proofs.Decimal.Separation

/-!
# How far the shortest decimal is from the boundaries

The shortest decimal of a single-precision number is read in steps that each round. It is still read as
the number, because it keeps a distance from both boundaries, or is a boundary itself.

- `Cell.onGrid?_isSome`  : a grid finer than the interval has a point in it
- `Cell.onGrid?_near`    : the point that is chosen is a nearest one
- `Cell.search_cases`    : the search stops at the first grid that has a point
- `Single.clear_shortest` : the distance of the shortest decimal from the boundaries

Main statement: `Single.clear_shortest`.
-/

namespace OverlayScrollbar

namespace Cell

variable {c : Cell} {halfway : HalfwayRule} {exponent : Int}

/-! ## Grids -/

/-- A point of a grid that is strictly inside the interval keeps the grid from being passed over. -/
theorem onGrid?_isSome_of_mem {n : Nat} (hn : 0 < n)
    (hlow : c.lower * gridDen exponent < n * c.gridStep exponent)
    (hhigh : n * c.gridStep exponent < c.upper * gridDen exponent) :
    (c.onGrid? halfway exponent).isSome = true := by
  rcases c.onGrid?_cases halfway exponent with
    ⟨below, rest, _, _, ⟨hsome, _⟩ | ⟨hsome, _⟩ | ⟨_, hnot, hnone⟩⟩
  · rw [hsome]
    rfl
  · rw [hsome]
    rfl
  · -- The points beside the number are not farther from it than the given one.
    exfalso
    rcases Nat.lt_or_ge below n with hless | hle
    · exact hnone (Within.of_lt (Nat.lt_of_le_of_lt (Nat.mul_le_mul_right _ hless) hhigh))
    · exact hnot ⟨Nat.lt_of_lt_of_le hn hle,
        Within.of_lt (Nat.lt_of_lt_of_le hlow (Nat.mul_le_mul_right _ hle))⟩

/-- A grid with steps shorter than the interval has a point in it. -/
theorem onGrid?_isSome
    (h : c.gridStep exponent + c.lower * gridDen exponent < c.upper * gridDen exponent) :
    (c.onGrid? halfway exponent).isSome = true := by
  have hstep := c.gridStep_pos exponent
  have hle := Nat.div_mul_le_self (c.lower * gridDen exponent) (c.gridStep exponent)
  have hlt := Nat.lt_mul_div_succ (c.lower * gridDen exponent) hstep
  -- The first point above the lower end is not yet at the upper one.
  apply onGrid?_isSome_of_mem (n := c.lower * gridDen exponent / c.gridStep exponent + 1)
    (Nat.succ_pos _)
  · rw [Nat.mul_comm (_ + 1)]
    exact hlt
  · rw [Nat.add_mul, Nat.one_mul]
    omega

/-- With the number in the middle of the interval, both ends are two gaps away from it. -/
theorem ends_mul_of_middle (hmiddle : c.lower + 2 * c.gap = 4 * c.units) (den : Nat) :
    c.lower * den + 2 * (c.gap * den) = 4 * c.units * den ∧
      c.upper * den = 4 * c.units * den + 2 * (c.gap * den) := by
  constructor
  · rw [← hmiddle]
    ring
  · unfold upper
    ring

/-- In an interval with the number in its middle, the point that is chosen is a nearest one. -/
theorem onGrid?_near {steps : Nat} (hlower : c.lower + 2 * c.gap = 4 * c.units) (hpos : 0 < c.lower)
    (h : c.onGrid? halfway exponent = some steps) :
    2 * (4 * c.units * gridDen exponent) ≤ 2 * (steps * c.gridStep exponent) + c.gridStep exponent ∧
      2 * (steps * c.gridStep exponent) ≤
        2 * (4 * c.units * gridDen exponent) + c.gridStep exponent := by
  rcases ends_mul_of_middle hlower (gridDen exponent) with ⟨hleft, hright⟩
  have hside := Nat.mul_pos hpos (gridDen_pos exponent)
  rcases c.onGrid?_cases halfway exponent with
    ⟨below, rest, hsplit, hrest, ⟨hsome, hbelow, hin, hnear⟩ | ⟨hsome, hin, hnear⟩ | ⟨hnone, _⟩⟩
  · cases h.symm.trans hsome
    have hinside := hin.le
    by_cases hother : Within c.closed ((steps + 1) * c.gridStep exponent)
        (c.upper * gridDen exponent)
    · have hhalf := hnear hother
      omega
    · -- The point above is beyond the end, which is as far from the number as the other end.
      have hout := Nat.not_lt.1 fun hlt => hother (Within.of_lt hlt)
      rw [Nat.add_mul, Nat.one_mul] at hout
      omega
  · cases h.symm.trans hsome
    have hinside := hin.le
    rw [Nat.add_mul, Nat.one_mul] at hinside ⊢
    by_cases hboth : 0 < below ∧
        Within c.closed (c.lower * gridDen exponent) (below * c.gridStep exponent)
    · have hhalf := hnear hboth.1 hboth.2
      omega
    · have hout : below * c.gridStep exponent ≤ c.lower * gridDen exponent := by
        apply Nat.not_lt.1
        intro hlt
        refine hboth ⟨?_, Within.of_lt hlt⟩
        apply Nat.pos_of_ne_zero
        rintro rfl
        omega
      omega
  · cases h.symm.trans hnone

/-! ## The search -/

theorem search_cases (c : Cell) (halfway : HalfwayRule) (fuel : Nat) :
    (c.onGrid? halfway (c.search halfway fuel).2 = some (c.search halfway fuel).1 ∨
        (c.search halfway fuel).2 = -(c.scale : Int)) ∧
      ∀ exponent, (c.search halfway fuel).2 < exponent → exponent ≤ (fuel : Int) - c.scale →
        c.onGrid? halfway exponent = none := by
  induction fuel with
  | zero =>
      unfold search
      refine ⟨Or.inr rfl, ?_⟩
      intro exponent hlow hhigh
      dsimp only at hlow
      omega
  | succ fuel ih =>
      unfold search
      dsimp only
      split
      · rename_i steps hgrid
        refine ⟨Or.inl hgrid, ?_⟩
        intro exponent hlow hhigh
        dsimp only at hlow
        omega
      · rename_i hnone
        refine ⟨ih.1, ?_⟩
        -- The grid at hand has no point either, and the others are known from the rest of the
        -- search.
        intro exponent hlow hhigh
        rcases Int.lt_or_le exponent ((fuel + 1 : Nat) - (c.scale : Int)) with hless | hge
        · exact ih.2 exponent hlow (by omega)
        · have heq : exponent = (fuel + 1 : Nat) - (c.scale : Int) := by omega
          rw [heq]
          exact hnone

/-! ## Distances -/

/-- A quotient in the interval of a cell is one of its ends, or at least the `2 ^ 28`th part of a step
away from them. -/
structure Clear (c : Cell) (num den : Nat) : Prop where
  lower : 4 * (num * 2 ^ c.scale) = c.lower * den ∨
    c.gap * den + 2 ^ 26 * (c.lower * den) ≤ 2 ^ 26 * (4 * (num * 2 ^ c.scale))
  upper : 4 * (num * 2 ^ c.scale) = c.upper * den ∨
    c.gap * den + 2 ^ 26 * (4 * (num * 2 ^ c.scale)) ≤ 2 ^ 26 * (c.upper * den)

end Cell

namespace Single

open Separation

variable {size : Magnitude}

/-- The interval that rounds to a number in single precision. -/
def singleCell (size : Magnitude) : Cell :=
  ⟨24, 149, size.units⟩

theorem held_singleCell (hpos : 0 < size.units) : (singleCell size).Held :=
  ⟨(by decide : 0 < 24), hpos, size.fits.2⟩

/-- The number of low bits of a number, below its 24 significant ones. -/
def lowBits (size : Magnitude) : Nat :=
  excessBits 24 size.units

theorem lowBits_lt (size : Magnitude) : lowBits size < 254 := by
  have hlimit : ∀ a b c : Nat, a + b = 24 + c → size.units < 2 ^ a * 2 ^ b →
      excessBits 24 size.units ≤ c := by
    intro a b c hsum hsize
    rw [← Nat.pow_add, hsum] at hsize
    exact excessBits_le_of_lt (by decide) hsize
  exact Nat.lt_succ_of_le (hlimit 128 149 253 rfl size.fits.1)

/-- Numbers with bits below the significant ones have a leading bit. -/
theorem leading_le {steps : Nat} (hunits : size.units = steps * 2 ^ lowBits size)
    (hsome : 0 < lowBits size) : 2 ^ 23 ≤ steps := by
  have hleading : 2 ^ (23 + lowBits size) ≤ size.units :=
    two_pow_le_of_excessBits (by decide) hsome
  rw [Nat.pow_add] at hleading
  apply Nat.le_of_mul_le_mul_right _ (Nat.two_pow_pos (lowBits size))
  rw [← hunits]
  exact hleading

/-- The ends of the interval, in quarters of a step. -/
theorem quarters_cases (hpos : 0 < size.units) :
    ∃ steps low, size.units = steps * 2 ^ lowBits size ∧
      (singleCell size).lower = low * 2 ^ lowBits size ∧
      (singleCell size).upper = (4 * steps + 2) * 2 ^ lowBits size ∧
      0 < steps ∧ steps < 2 ^ 24 ∧ (0 < lowBits size → 2 ^ 23 ≤ steps) ∧
      (low + 2 = 4 * steps ∨ low + 1 = 4 * steps ∧ steps = 2 ^ 23) := by
  obtain ⟨steps, hsteps⟩ := (held_singleCell hpos).gap_dvd
  have hgap : (singleCell size).gap = 2 ^ lowBits size := rfl
  have hunits : size.units = steps * 2 ^ lowBits size := by
    rw [Nat.mul_comm]
    exact hsteps
  have hsome : 0 < steps := by
    apply Nat.pos_of_ne_zero
    rintro rfl
    omega
  have hless : steps < 2 ^ 24 := by
    have hlimit := lt_two_pow_excessBits 24 size.units
    rw [Nat.pow_add, show excessBits 24 size.units = lowBits size from rfl, hunits] at hlimit
    exact Nat.lt_of_mul_lt_mul_right hlimit
  have hupper : (singleCell size).upper = (4 * steps + 2) * 2 ^ lowBits size := by
    show 4 * size.units + 2 * 2 ^ lowBits size = _
    rw [hunits, Nat.add_mul, Nat.mul_assoc]
  -- Below a power of two the lower end is half as far away.
  by_cases hpower : size.units = 2 ^ size.units.log2 ∧ 1 < (singleCell size).gap
  · have hlow : (singleCell size).lower = 4 * size.units - (singleCell size).gap := if_pos hpower
    refine ⟨steps, 4 * steps - 1, hunits, ?_, hupper, hsome, hless, leading_le hunits, Or.inr ?_⟩
    · rw [hlow, hgap, hunits, Nat.sub_mul, Nat.mul_assoc, Nat.one_mul]
    · refine ⟨by omega, ?_⟩
      have hlog : size.units.log2 = 23 + lowBits size := by
        have hlow : lowBits size ≠ 0 := by
          intro hnone
          rw [hgap, hnone] at hpower
          exact absurd hpower.2 (by decide)
        unfold lowBits excessBits at hlow ⊢
        omega
      have heq : steps * 2 ^ lowBits size = 2 ^ 23 * 2 ^ lowBits size := by
        rw [← hunits, ← Nat.pow_add, ← hlog]
        exact hpower.1
      exact Nat.eq_of_mul_eq_mul_right (Nat.two_pow_pos _) heq
  · have hlow : (singleCell size).lower = 4 * size.units - 2 * (singleCell size).gap := if_neg hpower
    refine ⟨steps, 4 * steps - 2, hunits, ?_, hupper, hsome, hless, leading_le hunits, Or.inl ?_⟩
    · rw [hlow, hgap, hunits, Nat.sub_mul, Nat.mul_assoc]
    · omega

/-! ## Points of a grid -/

/-- A decimal is a point of every finer grid. -/
theorem point_eq {exponent grid : Int} (h : grid ≤ exponent) (coefficient : Nat) :
    4 * (coefficient * 10 ^ exponent.toNat * 2 ^ 149) * 10 ^ (-grid).toNat =
      10 ^ (-exponent).toNat *
        (4 * (coefficient * 10 ^ (exponent - grid).toNat) * stepNum grid) := by
  have hpowers : exponent.toNat + (-grid).toNat =
      (-exponent).toNat + ((exponent - grid).toNat + grid.toNat) := by omega
  have hten : 10 ^ exponent.toNat * 10 ^ (-grid).toNat =
      10 ^ (-exponent).toNat * (10 ^ (exponent - grid).toNat * 10 ^ grid.toNat) := by
    rw [← Nat.pow_add, ← Nat.pow_add, ← Nat.pow_add, hpowers]
  unfold stepNum
  calc
    4 * (coefficient * 10 ^ exponent.toNat * 2 ^ 149) * 10 ^ (-grid).toNat =
        4 * coefficient * 2 ^ 149 * (10 ^ exponent.toNat * 10 ^ (-grid).toNat) := by ring
    _ = _ := by
        rw [hten]
        ring

/-- The distance of a decimal from an end of an interval, by a grid that it is a point of. -/
theorem distance_of_apart {exponent grid : Int} (h : grid ≤ exponent) {coefficient k quarters : Nat}
    (hapart : Apart (stepNum grid) (stepDen grid k)
      (coefficient * 10 ^ (exponent - grid).toNat : Nat) quarters) :
    (4 * (coefficient * 10 ^ exponent.toNat * 2 ^ 149) : Nat) =
        ((quarters * 2 ^ k * 10 ^ (-exponent).toNat : Nat) : Int) ∨
      ((2 ^ k * 10 ^ (-exponent).toNat : Nat) : Int) ≤
        2 ^ 26 * |((4 * (coefficient * 10 ^ exponent.toNat * 2 ^ 149) : Nat) : Int) -
          (quarters * 2 ^ k * 10 ^ (-exponent).toNat : Nat)| := by
  have hpoint := point_eq h coefficient
  have hden : (0 : Int) < (10 ^ (-grid).toNat : Nat) := Int.natCast_pos.2 (Nat.pow_pos (by decide))
  have hwide : (0 : Int) < (10 ^ (-exponent).toNat : Nat) :=
    Int.natCast_pos.2 (Nat.pow_pos (by decide))
  unfold Apart stepDen at hapart
  generalize coefficient * 10 ^ (exponent - grid).toNat = f at *
  generalize 4 * (coefficient * 10 ^ exponent.toNat * 2 ^ 149) = point at *
  generalize 10 ^ (-grid).toNat = den at *
  generalize 10 ^ (-exponent).toNat = wide at *
  generalize stepNum grid = num at *
  have hdist : ((point : Int) - (quarters * 2 ^ k * wide : Nat)) * den =
      wide * (4 * f * num - quarters * (den * 2 ^ k : Nat)) := by
    have hcast : (point : Int) * den = wide * (4 * f * num) := by exact_mod_cast hpoint
    push_cast
    linear_combination hcast
  -- Both sides are brought to the grid's denominator, where the distance is known.
  rcases hapart with heq | hfar
  · left
    rw [heq, sub_self, mul_zero] at hdist
    rcases mul_eq_zero.1 hdist with hzero | hnone
    · linarith
    · exact absurd hnone hden.ne'
  · right
    apply le_of_mul_le_mul_right _ hden
    calc
      ((2 ^ k * wide : Nat) : Int) * den = wide * (den * 2 ^ k : Nat) := by
        push_cast
        ring
      _ ≤ wide * (2 ^ 26 * |4 * (f : Int) * num - quarters * (den * 2 ^ k : Nat)|) :=
        mul_le_mul_of_nonneg_left hfar hwide.le
      _ = 2 ^ 26 * |((point : Int) - (quarters * 2 ^ k * wide : Nat)) * den| := by
        rw [hdist, abs_mul, abs_of_pos hwide]
        ring
      _ = _ := by
        rw [abs_mul, abs_of_pos hden]
        ring

theorem lower_of_distance {point low step : Nat} (h : low ≤ point)
    (hdist : (point : Int) = low ∨ (step : Int) ≤ 2 ^ 26 * |(point : Int) - low|) :
    point = low ∨ step + 2 ^ 26 * low ≤ 2 ^ 26 * point := by
  rcases hdist with heq | hfar
  · exact Or.inl (Int.ofNat_inj.1 heq)
  · right
    rw [abs_of_nonneg (by omega)] at hfar
    omega

theorem upper_of_distance {point high step : Nat} (h : point ≤ high)
    (hdist : (point : Int) = high ∨ (step : Int) ≤ 2 ^ 26 * |(point : Int) - high|) :
    point = high ∨ step + 2 ^ 26 * point ≤ 2 ^ 26 * high := by
  rcases hdist with heq | hfar
  · exact Or.inl (Int.ofNat_inj.1 heq)
  · right
    rw [abs_of_nonpos (by omega)] at hfar
    omega

/-! ## The shortest decimal -/

/-- The grids are searched down to one with steps shorter than the interval. -/
theorem le_exponent_shortest (hpos : 0 < size.units) {grid : Int} (hgrid : grid ≤ 39)
    (hwidth : 4 * stepNum grid + (singleCell size).lower * 10 ^ (-grid).toNat <
      (singleCell size).upper * 10 ^ (-grid).toNat) : grid ≤ (shortest size).2 := by
  have hsearch : shortest size = (singleCell size).search .toEven (149 + 39) :=
    if_neg (Nat.ne_of_gt hpos)
  have hcases := (singleCell size).search_cases .toEven (149 + 39)
  rw [← hsearch] at hcases
  have hsome : ((singleCell size).onGrid? .toEven grid).isSome = true := by
    apply Cell.onGrid?_isSome
    have hstep : (singleCell size).gridStep grid = 4 * stepNum grid := Nat.mul_left_comm _ _ _
    rw [hstep]
    exact hwidth
  apply Int.not_lt.1
  -- A search that went past the grid would have found no point on it.
  intro hless
  rw [hcases.2 grid hless (by
    have hscale : (singleCell size).scale = 149 := rfl
    rw [hscale]
    omega)] at hsome
  cases hsome

/-- Where a decimal lies between two ends, it lies between them on each grid that it is a point of. -/
theorem point_bounds {exponent grid : Int} (h : grid ≤ exponent) {coefficient k low high : Nat}
    (hlow : low * 2 ^ k * 10 ^ (-exponent).toNat ≤
      4 * (coefficient * 10 ^ exponent.toNat * 2 ^ 149))
    (hhigh : 4 * (coefficient * 10 ^ exponent.toNat * 2 ^ 149) ≤
      high * 2 ^ k * 10 ^ (-exponent).toNat) :
    low * stepDen grid k ≤ 4 * (coefficient * 10 ^ (exponent - grid).toNat) * stepNum grid ∧
      4 * (coefficient * 10 ^ (exponent - grid).toNat) * stepNum grid ≤
        high * stepDen grid k := by
  have hpoint := point_eq h coefficient
  have hwide : 0 < 10 ^ (-exponent).toNat := Nat.pow_pos (by decide)
  unfold stepDen
  generalize 10 ^ (-exponent).toNat = wide at *
  generalize 10 ^ (-grid).toNat = den at *
  have hside : ∀ quarters, wide * (quarters * (den * 2 ^ k)) = quarters * 2 ^ k * wide * den := by
    intro quarters
    ring
  constructor
  · apply Nat.le_of_mul_le_mul_left _ hwide
    rw [hside, ← hpoint]
    exact Nat.mul_le_mul_right den hlow
  · apply Nat.le_of_mul_le_mul_left _ hwide
    rw [hside, ← hpoint]
    exact Nat.mul_le_mul_right den hhigh

/-- What is known of the shortest decimal of a number, with both ends in quarters of a step. -/
structure Shown (size : Magnitude) (steps low : Nat) : Prop where
  units : size.units = steps * 2 ^ lowBits size
  lower : (singleCell size).lower = low * 2 ^ lowBits size
  upper : (singleCell size).upper = (4 * steps + 2) * 2 ^ lowBits size
  steps_lt : steps < 2 ^ 24
  steps_ge : 0 < lowBits size → 2 ^ 23 ≤ steps
  low_le : low * 2 ^ lowBits size * 10 ^ (-(shortest size).2).toNat ≤
    4 * ((shortest size).1 * 10 ^ (shortest size).2.toNat * 2 ^ 149)
  le_high : 4 * ((shortest size).1 * 10 ^ (shortest size).2.toNat * 2 ^ 149) ≤
    (4 * steps + 2) * 2 ^ lowBits size * 10 ^ (-(shortest size).2).toNat

theorem exists_shown (hpos : 0 < size.units) : ∃ steps low, Shown size steps low ∧ 0 < steps ∧
    (low + 2 = 4 * steps ∨ low + 1 = 4 * steps ∧ steps = 2 ^ 23) := by
  rcases quarters_cases hpos with ⟨steps, low, hunits, hlower, hupper, hsome, hless, hge, hlow⟩
  have hholds := (Cell.holds_shortest (held_singleCell hpos) .toEven).bounds
  rw [← Cell.upper_mul, hlower, hupper] at hholds
  exact ⟨steps, low, ⟨hunits, hlower, hupper, hless, hge, hholds.1, hholds.2⟩, hsome, hlow⟩

/-- An end that the grid of the decimal is apart from, or a point of. -/
theorem Shown.clear_of_apart {steps low : Nat} (h : Shown size steps low) {grid : Int}
    (hgrid : grid ≤ (shortest size).2)
    (hlow : Apart (stepNum grid) (stepDen grid (lowBits size))
      ((shortest size).1 * 10 ^ ((shortest size).2 - grid).toNat : Nat) low)
    (hhigh : Apart (stepNum grid) (stepDen grid (lowBits size))
      ((shortest size).1 * 10 ^ ((shortest size).2 - grid).toNat : Nat) (4 * steps + 2 : Nat)) :
    (singleCell size).Clear ((shortest size).1 * 10 ^ (shortest size).2.toNat)
      (10 ^ (-(shortest size).2).toNat) := by
  have hgap : (singleCell size).gap = 2 ^ lowBits size := rfl
  constructor
  · rw [h.lower, hgap]
    exact lower_of_distance h.low_le (distance_of_apart hgrid hlow)
  · rw [h.upper, hgap]
    exact upper_of_distance h.le_high (distance_of_apart hgrid hhigh)

/-- A point of the coarse grid, unless it is the one that comes close to an end. -/
theorem Shown.clear_of_coarse {steps low : Nat} (h : Shown size steps low)
    (hsome : 0 < steps) (hlow : low + 2 = 4 * steps)
    (hgrid : coarse (lowBits size) ≤ (shortest size).2) :
    (singleCell size).Clear ((shortest size).1 * 10 ^ (shortest size).2.toNat)
        (10 ^ (-(shortest size).2).toNat) ∨
      lowBits size = 42 ∧ coarse 42 ≤ (shortest size).2 ∧
        (shortest size).1 * 10 ^ ((shortest size).2 - coarse 42).toNat = 7038531 := by
  rcases point_bounds hgrid h.low_le h.le_high with ⟨hbelow, habove⟩
  have hnum : (0 : Int) < stepNum (coarse (lowBits size)) := Int.natCast_pos.2 (stepNum_pos _)
  -- The point is among the multiples for which the grid was settled.
  have hleast : least (lowBits size) ≤
      ((shortest size).1 * 10 ^ ((shortest size).2 - coarse (lowBits size)).toNat : Nat) := by
    unfold least
    split
    · exact Int.natCast_nonneg _
    · rename_i hbits
      have hge := h.steps_ge (Nat.pos_of_ne_zero hbits)
      have hmul := Nat.mul_le_mul_right (stepDen (coarse (lowBits size)) (lowBits size))
        (show 2 ^ 25 - 2 ≤ low by omega)
      apply Int.ediv_le_of_le_mul (by linarith)
      have hcast := Int.ofNat_le.2 (Nat.le_trans hmul hbelow)
      push_cast at hcast ⊢
      linarith
  have hlargest : (((shortest size).1 * 10 ^ ((shortest size).2 - coarse (lowBits size)).toNat : Nat)
      : Int) ≤ largest (lowBits size) := by
    have hless := h.steps_lt
    have hmul := Nat.mul_le_mul_right (stepDen (coarse (lowBits size)) (lowBits size))
      (show 4 * steps + 2 ≤ 4 * 2 ^ 24 by omega)
    unfold largest
    apply Int.le_ediv_of_mul_le hnum
    have hcast := Int.ofNat_le.2 (Nat.le_trans habove hmul)
    push_cast at hcast ⊢
    linarith
  rcases apart_or_hit (lowBits_lt size) hleast hlargest with ⟨hbits, hit⟩ | hapart
  · right
    rw [hbits] at hit hgrid
    exact ⟨hbits, hgrid, Int.ofNat_inj.1 hit⟩
  · exact Or.inl (h.clear_of_apart hgrid (hapart low (by omega)) (hapart _ (by omega)))

/-- A point of the next finer grid is one nearest to the number, and the steps of that grid are clearly
shorter than those of single precision. -/
theorem Shown.clear_of_finer {steps low : Nat} (h : Shown size steps low) (hpos : 0 < size.units)
    (hlow : low + 2 = 4 * steps) (hgrid : (shortest size).2 = coarse (lowBits size) - 1) :
    (singleCell size).Clear ((shortest size).1 * 10 ^ (shortest size).2.toNat)
      (10 ^ (-(shortest size).2).toNat) := by
  rcases coarse_spec (lowBits size) (lowBits_lt size) with ⟨_, hfiner, _, _, hleast, _⟩
  have hsearch : shortest size = (singleCell size).search .toEven (149 + 39) :=
    if_neg (Nat.ne_of_gt hpos)
  have hcases := ((singleCell size).search_cases .toEven (149 + 39)).1
  rw [← hsearch] at hcases
  have hscale : (singleCell size).scale = 149 := rfl
  have hgap : (singleCell size).gap = 2 ^ lowBits size := rfl
  have hchosen := hcases.resolve_right (by omega)
  have hmiddle : (singleCell size).lower + 2 * (singleCell size).gap = 4 * (singleCell size).units := by
    show _ = 4 * size.units
    rw [h.lower, hgap, h.units, ← Nat.add_mul, hlow, Nat.mul_assoc]
  have hlowpos : 0 < (singleCell size).lower := by
    have hlower := (Cell.lower_le (held_singleCell hpos)).1
    have hunits : (singleCell size).units = size.units := rfl
    omega
  -- The point is at most half a step of its grid from the number, and an end half a longer one.
  have hnear := Cell.onGrid?_near hmiddle hlowpos hchosen
  have hstep : (singleCell size).gridStep (shortest size).2 = 4 * stepNum (shortest size).2 :=
    Nat.mul_left_comm _ _ _
  have hpoint : 4 * ((shortest size).1 * 10 ^ (shortest size).2.toNat * 2 ^ 149) =
      (shortest size).1 * (singleCell size).gridStep (shortest size).2 := by
    rw [hstep]
    unfold stepNum
    ring
  have hden : stepDen (shortest size).2 (lowBits size) =
      (singleCell size).gap * Cell.gridDen (shortest size).2 := Nat.mul_comm _ _
  have hends := Cell.ends_mul_of_middle hmiddle (Cell.gridDen (shortest size).2)
  rw [← hgrid, hden] at hfiner
  constructor
  · right
    show _ * Cell.gridDen (shortest size).2 + 2 ^ 26 * (_ * Cell.gridDen (shortest size).2) ≤ _
    rw [hscale, hpoint]
    omega
  · right
    show _ * Cell.gridDen (shortest size).2 + _ ≤ 2 ^ 26 * (_ * Cell.gridDen (shortest size).2)
    rw [hscale, hpoint]
    omega

/-- Around a power of two, both ends are far from all points of a grid that is still finer. -/
theorem Shown.clear_of_power {steps low : Nat} (h : Shown size steps low)
    (hlow : low + 1 = 4 * steps) (hsteps : steps = 2 ^ 23)
    (hgrid : coarse (lowBits size) - 2 ≤ (shortest size).2) :
    (singleCell size).Clear ((shortest size).1 * 10 ^ (shortest size).2.toNat)
      (10 ^ (-(shortest size).2).toNat) := by
  have hnum : (0 : Int) < stepNum (coarse (lowBits size) - 2) := Int.natCast_pos.2 (stepNum_pos _)
  have hfar := far_power (lowBits size) (lowBits_lt size)
  have hlow' : (low : Int) = 2 ^ 25 - 1 := by omega
  have hhigh' : ((4 * steps + 2 : Nat) : Int) = 2 ^ 25 + 2 := by omega
  apply h.clear_of_apart hgrid
  · rw [hlow']
    exact apart_of_far hnum (hfar _ (by simp)) _
  · rw [hhigh']
    exact apart_of_far hnum (hfar _ (by simp)) _

/-- The width of an interval is four or three quarters of a step. -/
theorem Shown.le_exponent {steps low : Nat} (h : Shown size steps low) (hpos : 0 < size.units)
    (grid : Int) (hgrid : grid ≤ 39) {width : Nat} (hwidth : low + width = 4 * steps + 2)
    (hstep : 4 * stepNum grid < width * stepDen grid (lowBits size)) :
    grid ≤ (shortest size).2 := by
  apply le_exponent_shortest hpos hgrid
  have hden : ∀ quarters, quarters * 2 ^ lowBits size * 10 ^ (-grid).toNat =
      quarters * stepDen grid (lowBits size) := by
    intro quarters
    unfold stepDen
    ring
  rw [h.lower, h.upper, hden, hden, ← hwidth, Nat.add_mul]
  omega

/-- The shortest decimal of a number keeps a distance from the ends of the interval that rounds to the
number, or is one of them, apart from one decimal. Its exponent is at least that of the second grid below
the coarse one. -/
theorem clear_shortest (hpos : 0 < size.units) :
    coarse (lowBits size) - 2 ≤ (shortest size).2 ∧
      ((singleCell size).Clear ((shortest size).1 * 10 ^ (shortest size).2.toNat)
          (10 ^ (-(shortest size).2).toNat) ∨
        lowBits size = 42 ∧ coarse 42 ≤ (shortest size).2 ∧
          (shortest size).1 * 10 ^ ((shortest size).2 - coarse 42).toNat = 7038531) := by
  rcases exists_shown hpos with ⟨steps, low, hshown, hsome, hlow | ⟨hlow, hsteps⟩⟩
  · rcases coarse_spec (lowBits size) (lowBits_lt size) with ⟨_, hfiner, _, _, _, hgrid⟩
    have hden := stepDen_pos (coarse (lowBits size) - 1) (lowBits size)
    have hle := hshown.le_exponent hpos (coarse (lowBits size) - 1) (by omega)
      (show low + 4 = 4 * steps + 2 by omega) (by omega)
    refine ⟨by omega, ?_⟩
    rcases Int.lt_or_le (shortest size).2 (coarse (lowBits size)) with hless | hge
    · exact Or.inl (hshown.clear_of_finer hpos hlow (by omega))
    · exact hshown.clear_of_coarse hsome hlow hge
  · rcases coarse_spec (lowBits size) (lowBits_lt size) with ⟨_, _, hshort, _, _, hgrid⟩
    have hle := hshown.le_exponent hpos (coarse (lowBits size) - 2) (by omega)
      (show low + 3 = 4 * steps + 2 by omega) hshort
    exact ⟨hle, Or.inl (hshown.clear_of_power hlow hsteps hle)⟩

end Single

end OverlayScrollbar
