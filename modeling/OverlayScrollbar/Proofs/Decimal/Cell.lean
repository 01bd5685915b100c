import OverlayScrollbar.Decimal.Shortest
import OverlayScrollbar.Proofs.Binary.Rounding

/-!
# The interval that rounds to a number

A quotient in the interval of a cell rounds to the number of the cell, and the search for the shortest
decimal does not leave the interval. So the shortest decimal rounds back to its number.

- `roundDiv_eq`           : the quotients that round to a whole number
- `Within`                : a bound, which an interval has in it or not
- `Cell.Held`             : the number of a cell has no more bits than its format
- `Cell.Holds`            : a quotient lies in the interval of a cell
- `Cell.roundBits_eq`     : such a quotient rounds to the number of the cell
- `Cell.onGrid?_cases`    : the choice of a point on a grid
- `Cell.holds_shortest`   : the shortest decimal lies in the interval
-/

namespace OverlayScrollbar

variable {p num den q k : Nat}

/-! ## Quotients near a number -/

/-- The quotients that round to a whole number: those that are nearer to it than a half, and for an even
number also those halfway to the next. -/
theorem roundDiv_eq (hden : 0 < den) (hlow : 2 * (den * q) ≤ 2 * num + den)
    (hhigh : 2 * num ≤ 2 * (den * q) + den)
    (htie : q % 2 = 0 ∨ 2 * (den * q) < 2 * num + den ∧ 2 * num < 2 * (den * q) + den) :
    roundDiv num den = q := by
  rcases Nat.lt_or_ge num (den * q) with hless | hge
  · -- The quotient lies in the step below the number, in its upper half.
    obtain ⟨m, rfl⟩ : ∃ m, q = m + 1 := by
      apply Nat.exists_eq_succ_of_ne_zero
      rintro rfl
      omega
    rw [Nat.mul_add_one] at *
    obtain ⟨rest, rfl⟩ := Nat.exists_eq_add_of_le (show den * m ≤ num by omega)
    rw [roundDiv_mul_add m (by omega), if_neg (by omega)]
    split
    · rfl
    · omega
  · -- The quotient lies in the step above the number, in its lower half.
    obtain ⟨rest, rfl⟩ := Nat.exists_eq_add_of_le hge
    rw [roundDiv_mul_add q (by omega)]
    split
    · rfl
    · rw [if_neg (by omega)]
      omega

/-- A quotient near a number of as many steps as its own bits leave rounds to that number. -/
theorem roundBits_eq_of_near (hden : 0 < den) (hk : excessBits p (num / den) = k)
    (hlow : 2 * (den * (q * 2 ^ k)) ≤ 2 * num + den * 2 ^ k)
    (hhigh : 2 * num ≤ 2 * (den * (q * 2 ^ k)) + den * 2 ^ k)
    (htie : q % 2 = 0 ∨ 2 * (den * (q * 2 ^ k)) < 2 * num + den * 2 ^ k ∧
      2 * num < 2 * (den * (q * 2 ^ k)) + den * 2 ^ k) :
    roundBits p num den = q * 2 ^ k := by
  have hstep : den * (q * 2 ^ k) = den * 2 ^ k * q := by
    rw [Nat.mul_assoc, Nat.mul_comm q]
  rw [hstep] at hlow hhigh htie
  unfold roundBits
  dsimp only
  rw [hk, roundDiv_eq (Nat.mul_pos hden (Nat.two_pow_pos k)) hlow hhigh htie]

/-- The low bits of a number that is between two powers of two. -/
theorem excessBits_eq {n : Nat} (hp : 0 < p) (hlow : k = 0 ∨ 2 ^ (p - 1 + k) ≤ n)
    (hhigh : n < 2 ^ (p + k)) : excessBits p n = k := by
  apply Nat.le_antisymm (excessBits_le_of_lt hp hhigh)
  rcases hlow with rfl | hlow
  · exact Nat.zero_le _
  · have hpos : n ≠ 0 := Nat.ne_of_gt (Nat.lt_of_lt_of_le (Nat.two_pow_pos _) hlow)
    have hlog := (Nat.le_log2 hpos).2 hlow
    unfold excessBits
    omega

/-! ## Ends of an interval -/

/-- A bound of an interval, which is part of it if the interval is closed. -/
def Within (closed : Bool) (low high : Nat) : Prop :=
  if closed then low ≤ high else low < high

instance (closed : Bool) (low high : Nat) : Decidable (Within closed low high) :=
  inferInstanceAs (Decidable (if closed then low ≤ high else low < high))

namespace Within

variable {closed : Bool} {low high : Nat}

theorem of_lt (h : low < high) : Within closed low high := by
  cases closed with
  | true => exact Nat.le_of_lt h
  | false => exact h

theorem le (h : Within closed low high) : low ≤ high := by
  cases closed with
  | true => exact h
  | false => exact Nat.le_of_lt h

theorem lt_of_open (h : Within closed low high) (hopen : ¬closed = true) : low < high := by
  unfold Within at h
  rwa [if_neg hopen] at h

theorem mul_right_iff {factor : Nat} (hfactor : 0 < factor) :
    Within closed (low * factor) (high * factor) ↔ Within closed low high := by
  cases closed with
  | true => exact Nat.mul_le_mul_right_iff hfactor
  | false => exact Nat.mul_lt_mul_right hfactor

end Within

/-! ## Cells -/

namespace Cell

variable {c : Cell} {halfway : HalfwayRule} {exponent : Int}

/-- The number of a cell has no more bits than its format, and is not zero. -/
structure Held (c : Cell) : Prop where
  bits_pos : 0 < c.bits
  units_pos : 0 < c.units
  gap_dvd : c.gap ∣ c.units

/-- A quotient lies in the interval of a cell, of which the ends are part or not. -/
def Holds (c : Cell) (num den : Nat) : Prop :=
  if c.closed then c.lower * den ≤ 4 * (num * 2 ^ c.scale) ∧ 4 * (num * 2 ^ c.scale) ≤ c.upper * den
  else c.lower * den < 4 * (num * 2 ^ c.scale) ∧ 4 * (num * 2 ^ c.scale) < c.upper * den

theorem Held.gap_le (h : c.Held) : c.gap ≤ c.units :=
  Nat.le_of_dvd h.units_pos h.gap_dvd

theorem holds_iff : c.Holds num den ↔
    Within c.closed (c.lower * den) (4 * (num * 2 ^ c.scale)) ∧
      Within c.closed (4 * (num * 2 ^ c.scale)) (c.upper * den) := by
  unfold Holds
  cases c.closed with
  | true => exact Iff.rfl
  | false => exact Iff.rfl

/-- Quotients of one value lie in the same intervals. -/
theorem Holds.of_eq (h : c.Holds num den) {num' den' : Nat} (hden : 0 < den)
    (heq : num * den' = num' * den) (hden' : 0 < den') : c.Holds num' den' := by
  have hscale : 4 * (num' * 2 ^ c.scale) * den = 4 * (num * 2 ^ c.scale) * den' := by
    rw [Nat.mul_assoc 4, Nat.mul_assoc 4, Nat.mul_right_comm num', ← heq, Nat.mul_right_comm num]
  rcases holds_iff.1 h with ⟨hlow, hhigh⟩
  refine holds_iff.2 ⟨(Within.mul_right_iff hden).1 ?_, (Within.mul_right_iff hden).1 ?_⟩
  · rw [hscale, Nat.mul_right_comm c.lower]
    exact (Within.mul_right_iff hden').2 hlow
  · rw [hscale, Nat.mul_right_comm c.upper]
    exact (Within.mul_right_iff hden').2 hhigh

theorem lt_upper (c : Cell) : 4 * c.units < c.upper :=
  Nat.lt_add_of_pos_right (Nat.mul_pos (by decide) (Nat.two_pow_pos _))

theorem upper_mul (c : Cell) (den : Nat) :
    c.upper * den = 4 * (den * c.units) + 2 * (den * c.gap) := by
  unfold upper
  rw [Nat.add_mul, Nat.mul_assoc, Nat.mul_assoc, Nat.mul_comm c.units, Nat.mul_comm c.gap]

/-- The ends of the interval are half a step away, and the lower end of a power of two is a quarter of a
step away. -/
theorem lower_mul (c : Cell) (den : Nat) :
    c.lower * den = 4 * (den * c.units) - 2 * (den * c.gap) ∧
        ¬(c.units = 2 ^ c.units.log2 ∧ 1 < c.gap) ∨
      c.lower * den = 4 * (den * c.units) - den * c.gap ∧
        c.units = 2 ^ c.units.log2 ∧ 1 < c.gap := by
  unfold lower
  split
  · rename_i hpower
    right
    refine ⟨?_, hpower⟩
    rw [Nat.sub_mul, Nat.mul_assoc, Nat.mul_comm c.units, Nat.mul_comm c.gap]
  · rename_i hpower
    left
    refine ⟨?_, hpower⟩
    rw [Nat.sub_mul, Nat.mul_assoc, Nat.mul_assoc, Nat.mul_comm c.units, Nat.mul_comm c.gap]

/-- What lies in an interval is at most half a step away from the number. -/
theorem Holds.bounds (h : c.Holds num den) :
    c.lower * den ≤ 4 * (num * 2 ^ c.scale) ∧
      4 * (num * 2 ^ c.scale) ≤ 4 * (den * c.units) + 2 * (den * c.gap) := by
  rw [← upper_mul]
  exact (holds_iff.1 h).imp Within.le Within.le

theorem Held.add_gap_le (h : c.Held) :
    c.units + c.gap ≤ 2 ^ (c.bits + excessBits c.bits c.units) := by
  have hbits := lt_two_pow_excessBits c.bits c.units
  have hgap : 2 ^ excessBits c.bits c.units = c.gap := rfl
  rcases h.gap_dvd with ⟨steps, hsteps⟩
  rw [Nat.pow_add, hgap, Nat.mul_comm] at hbits ⊢
  rw [hsteps] at hbits
  have hless := Nat.lt_of_mul_lt_mul_left hbits
  calc
    c.units + c.gap = c.gap * (steps + 1) := by rw [Nat.mul_add_one, ← hsteps]
    _ ≤ c.gap * 2 ^ c.bits := Nat.mul_le_mul_left _ hless

/-- A number that is no power of two is at least one step above the power of two below it. -/
theorem Held.two_pow_add_gap_le (h : c.Held) (hsome : 0 < excessBits c.bits c.units)
    (hpower : ¬(c.units = 2 ^ c.units.log2 ∧ 1 < c.gap)) :
    2 ^ (c.bits - 1 + excessBits c.bits c.units) + c.gap ≤ c.units := by
  have hleading := two_pow_le_of_excessBits h.bits_pos hsome
  have hgap : c.gap = 2 ^ excessBits c.bits c.units := rfl
  have hone : 1 < c.gap := by
    rw [hgap]
    exact Nat.one_lt_two_pow (Nat.ne_of_gt hsome)
  have hdvd : c.gap ∣ 2 ^ (c.bits - 1 + excessBits c.bits c.units) := by
    rw [hgap]
    exact Nat.pow_dvd_pow 2 (Nat.le_add_left _ _)
  -- The two differ, and both are whole numbers of steps.
  have hne : c.units ≠ 2 ^ (c.bits - 1 + excessBits c.bits c.units) := by
    intro hsame
    refine hpower ⟨?_, hone⟩
    generalize c.bits - 1 + excessBits c.bits c.units = e at hsame
    rw [hsame, Nat.log2_two_pow]
  have hless := Nat.le_of_dvd (by omega) (Nat.dvd_sub h.gap_dvd hdvd)
  omega

/-- In the interval of a number that is no power of two, or that has no bits below its format, numbers
have as many low bits as that number. -/
theorem excessBits_of_holds (hheld : c.Held) (hden : 0 < den) {scaled : Nat}
    (hlow : 4 * (den * c.units) - 2 * (den * c.gap) ≤ 4 * scaled)
    (hhigh : 4 * scaled ≤ 4 * (den * c.units) + 2 * (den * c.gap))
    (habove : c.units * den ≤ scaled ∨ ¬(c.units = 2 ^ c.units.log2 ∧ 1 < c.gap)) :
    excessBits c.bits (scaled / den) = excessBits c.bits c.units := by
  have hgap : c.gap = 2 ^ excessBits c.bits c.units := rfl
  have hstep : 0 < den * c.gap := Nat.mul_pos hden (Nat.two_pow_pos _)
  apply excessBits_eq hheld.bits_pos
  · rcases Nat.eq_zero_or_pos (excessBits c.bits c.units) with hnone | hsome
    · exact Or.inl hnone
    · right
      -- The leading bit stays: only below a power of two would it be lost.
      have hleading := two_pow_le_of_excessBits hheld.bits_pos hsome
      apply (Nat.le_div_iff_mul_le hden).2
      rcases habove with habove | hpower
      · exact Nat.le_trans (Nat.mul_le_mul_right _ hleading) habove
      · have hnext := hheld.two_pow_add_gap_le hsome hpower
        have hmul := Nat.mul_le_mul_left den hnext
        rw [Nat.mul_add] at hmul
        rw [Nat.mul_comm]
        omega
  · apply Nat.div_lt_of_lt_mul
    calc
      scaled < den * (c.units + c.gap) := by
        rw [Nat.mul_add]
        omega
      _ ≤ den * 2 ^ (c.bits + excessBits c.bits c.units) := Nat.mul_le_mul_left _ hheld.add_gap_le

/-- A power of two with low bits to spare, and the length of its step. -/
theorem Held.exists_power (hheld : c.Held) (hpower : c.units = 2 ^ c.units.log2)
    (hgap : 1 < c.gap) : ∃ j, c.units = 2 ^ c.bits * 2 ^ j ∧ c.gap = 2 * 2 ^ j := by
  have hbits := hheld.bits_pos
  rcases Nat.lt_or_ge c.units.log2 c.bits with hsmall | hlarge
  · -- A number that the format holds whole has steps of one unit.
    have hnone : excessBits c.bits c.units = 0 := by
      unfold excessBits
      omega
    unfold gap at hgap
    rw [hnone] at hgap
    exact absurd hgap (Nat.lt_irrefl 1)
  · obtain ⟨j, hj⟩ := Nat.exists_eq_add_of_le hlarge
    have hexcess : excessBits c.bits c.units = j + 1 := by
      unfold excessBits
      omega
    refine ⟨j, ?_, ?_⟩
    · rw [← Nat.pow_add, ← hj]
      exact hpower
    · unfold gap
      rw [hexcess, Nat.pow_succ, Nat.mul_comm]

/-- Just below a power of two numbers have one low bit less than it. -/
theorem excessBits_below_power {bits j n : Nat} (hbits : 0 < bits)
    (hlow : 2 ^ bits * 2 ^ j ≤ n + 2 ^ j) (hhigh : n < 2 ^ bits * 2 ^ j) :
    excessBits bits n = j := by
  obtain ⟨b, rfl⟩ : ∃ b, bits = b + 1 := ⟨bits - 1, by omega⟩
  apply excessBits_eq hbits
  · right
    have hone := Nat.mul_le_mul_right (2 ^ j) (show 1 ≤ 2 ^ b from Nat.two_pow_pos b)
    rw [Nat.pow_succ', Nat.mul_assoc] at hlow
    rw [Nat.add_sub_cancel, Nat.pow_add]
    omega
  · rw [Nat.pow_add]
    exact hhigh

/-- Just below a power of two the steps are half as long. -/
theorem roundBits_below_power (hheld : c.Held) (hden : 0 < den) {scaled : Nat}
    (hpower : c.units = 2 ^ c.units.log2) (hgap : 1 < c.gap)
    (hlow : 4 * (den * c.units) - den * c.gap ≤ 4 * scaled) (hbelow : scaled < den * c.units) :
    roundBits c.bits scaled den = c.units := by
  rcases hheld.exists_power hpower hgap with ⟨j, hunits, hstep⟩
  have heven : 2 ^ c.bits % 2 ^ 1 = 0 :=
    Nat.mod_eq_zero_of_dvd (Nat.pow_dvd_pow 2 hheld.bits_pos)
  rw [hstep, Nat.mul_left_comm den 2] at hlow
  -- Below the power one bit less is dropped than above it.
  have hexcess : excessBits c.bits (scaled / den) = j := by
    apply excessBits_below_power hheld.bits_pos
    · rw [← hunits]
      apply Nat.sub_le_iff_le_add.1
      apply (Nat.le_div_iff_mul_le hden).2
      rw [Nat.mul_comm, Nat.mul_sub]
      omega
    · rw [← hunits]
      exact Nat.div_lt_of_lt_mul hbelow
  rw [hunits] at hlow hbelow ⊢
  exact roundBits_eq_of_near hden hexcess (by omega) (by omega) (Or.inl heven)

/-- A quotient in the interval of a cell rounds to the number of the cell. -/
theorem roundBits_eq (hheld : c.Held) (hden : 0 < den) (h : c.Holds num den) :
    roundBits c.bits (num * 2 ^ c.scale) den = c.units := by
  rcases h.bounds with ⟨hlow, hhigh⟩
  rcases holds_iff.1 h with ⟨hlower, hupper⟩
  rw [upper_mul] at hupper
  generalize num * 2 ^ c.scale = scaled at *
  have hgap : c.gap = 2 ^ excessBits c.bits c.units := rfl
  have hstep : 0 < den * c.gap := Nat.mul_pos hden (Nat.two_pow_pos _)
  have hsteps : c.units / c.gap * 2 ^ excessBits c.bits c.units = c.units :=
    Nat.div_mul_cancel hheld.gap_dvd
  have hparity : c.closed = true → c.units / c.gap % 2 = 0 := by
    intro hclosed
    exact beq_iff_eq.1 hclosed
  have hmul : den * c.units = c.units * den := Nat.mul_comm _ _
  by_cases hfull : c.units * den ≤ scaled ∨ ¬(c.units = 2 ^ c.units.log2 ∧ 1 < c.gap)
  · -- The number and the quotient have as many low bits.
    have hnear : 4 * (den * c.units) - 2 * (den * c.gap) ≤ 4 * scaled := by
      rcases c.lower_mul den with ⟨hend, _⟩ | ⟨hend, _⟩
      · omega
      · omega
    have hbits := excessBits_of_holds hheld hden hnear hhigh hfull
    have hround := @roundBits_eq_of_near c.bits scaled den (c.units / c.gap) _ hden hbits
    rw [hsteps, ← hgap] at hround
    apply hround
    · omega
    · omega
    · by_cases hclosed : c.closed = true
      · exact Or.inl (hparity hclosed)
      · -- The ends of an open interval are halfway, but they are not part of it.
        have hleft := hlower.lt_of_open hclosed
        have hright := hupper.lt_of_open hclosed
        rcases hfull with hfull | hpower
        · exact Or.inr ⟨by omega, by omega⟩
        · rcases c.lower_mul den with ⟨hend, _⟩ | ⟨_, hpower'⟩
          · exact Or.inr ⟨by omega, by omega⟩
          · exact absurd hpower' hpower
  · -- What is left lies below a power of two, on finer steps than those above it.
    have hpower : c.units = 2 ^ c.units.log2 ∧ 1 < c.gap :=
      Decidable.not_not.1 fun hnot => hfull (Or.inr hnot)
    rcases c.lower_mul den with ⟨_, hnot⟩ | ⟨hend, _⟩
    · exact absurd hpower hnot
    · exact roundBits_below_power hheld hden hpower.1 hpower.2 (hend ▸ hlow) (by omega)

/-! ## The number in its interval -/

theorem lower_le (hheld : c.Held) : 2 * c.units ≤ c.lower ∧ c.lower < 4 * c.units := by
  have hgap := hheld.gap_le
  have hpos : 0 < c.gap := Nat.two_pow_pos _
  unfold lower
  split
  · omega
  · omega

/-- The lower end of an interval is above zero. -/
theorem Holds.num_pos (h : c.Holds num den) (hheld : c.Held) (hden : 0 < den) : 0 < num := by
  have hlow := h.bounds.1
  have hlower := (lower_le hheld).1
  have hunits := hheld.units_pos
  have hside := Nat.mul_pos (show 0 < c.lower by omega) hden
  apply Nat.pos_of_ne_zero
  rintro rfl
  rw [Nat.zero_mul] at hlow
  omega

/-- The number itself lies in its interval. -/
theorem holds_self (hheld : c.Held) (hden : 0 < den) (h : num * 2 ^ c.scale = den * c.units) :
    c.Holds num den := by
  have hpos : 0 < den * c.gap := Nat.mul_pos hden (Nat.two_pow_pos _)
  -- Neither end is the number, so that it does not matter whether they are part.
  have hlower : c.lower * den < 4 * (den * c.units) := by
    rw [Nat.mul_comm den, ← Nat.mul_assoc]
    exact Nat.mul_lt_mul_of_pos_right (lower_le hheld).2 hden
  rw [holds_iff, upper_mul, h]
  exact ⟨Within.of_lt (by omega), Within.of_lt (by omega)⟩

/-! ## Grids -/

/-- A step of a grid, in quarter units times the denominator of the grid. -/
def gridStep (c : Cell) (exponent : Int) : Nat :=
  10 ^ exponent.toNat * (4 * 2 ^ c.scale)

/-- The denominator of a grid. -/
def gridDen (exponent : Int) : Nat :=
  10 ^ (-exponent).toNat

theorem gridStep_pos (c : Cell) (exponent : Int) : 0 < c.gridStep exponent :=
  Nat.mul_pos (Nat.pow_pos (by decide)) (Nat.mul_pos (by decide) (Nat.two_pow_pos _))

theorem gridDen_pos (exponent : Int) : 0 < gridDen exponent :=
  Nat.pow_pos (by decide)

/-- Of two points that are in the interval the nearer one is chosen. -/
theorem choose_cases (below rest step : Nat) (lower upper more : Prop) [Decidable lower]
    [Decidable upper] [Decidable more] (chosen : Option Nat)
    (h : chosen = if (0 < below ∧ lower) ∧ (¬upper ∨ ¬(step < 2 * rest ∨ step = 2 * rest ∧ more)) then
      some below else if upper then some (below + 1) else none) :
    (chosen = some below ∧ 0 < below ∧ lower ∧ (upper → 2 * rest ≤ step)) ∨
      (chosen = some (below + 1) ∧ upper ∧ (0 < below → lower → step ≤ 2 * rest)) ∨
      (chosen = none ∧ ¬(0 < below ∧ lower) ∧ ¬upper) := by
  subst h
  by_cases hbelow : 0 < below ∧ lower
  · by_cases hupper : upper
    · by_cases hprefer : step < 2 * rest ∨ step = 2 * rest ∧ more
      · rw [if_neg fun h => h.2.elim (fun hnot => hnot hupper) (fun hnot => hnot hprefer),
          if_pos hupper]
        exact Or.inr (Or.inl ⟨rfl, hupper, fun _ _ => by omega⟩)
      · rw [if_pos ⟨hbelow, Or.inr hprefer⟩]
        exact Or.inl ⟨rfl, hbelow.1, hbelow.2, fun _ => by omega⟩
    · rw [if_pos ⟨hbelow, Or.inl hupper⟩]
      exact Or.inl ⟨rfl, hbelow.1, hbelow.2, fun h => absurd h hupper⟩
  · rw [if_neg fun h => hbelow h.1]
    by_cases hupper : upper
    · rw [if_pos hupper]
      exact Or.inr (Or.inl ⟨rfl, hupper, fun h h' => absurd ⟨h, h'⟩ hbelow⟩)
    · rw [if_neg hupper]
      exact Or.inr (Or.inr ⟨rfl, hbelow, hupper⟩)

/-- What the choice on a grid depends on: the points below and above the number, of which each one is
checked for the end on its own side. -/
theorem onGrid?_cases (c : Cell) (halfway : HalfwayRule) (exponent : Int) :
    ∃ below rest, 4 * c.units * gridDen exponent = below * c.gridStep exponent + rest ∧
      rest < c.gridStep exponent ∧
      ((c.onGrid? halfway exponent = some below ∧ 0 < below ∧
          Within c.closed (c.lower * gridDen exponent) (below * c.gridStep exponent) ∧
          (Within c.closed ((below + 1) * c.gridStep exponent) (c.upper * gridDen exponent) →
            2 * rest ≤ c.gridStep exponent)) ∨
        (c.onGrid? halfway exponent = some (below + 1) ∧
          Within c.closed ((below + 1) * c.gridStep exponent) (c.upper * gridDen exponent) ∧
          (0 < below →
            Within c.closed (c.lower * gridDen exponent) (below * c.gridStep exponent) →
              c.gridStep exponent ≤ 2 * rest)) ∨
        (c.onGrid? halfway exponent = none ∧
          ¬(0 < below ∧
            Within c.closed (c.lower * gridDen exponent) (below * c.gridStep exponent)) ∧
          ¬Within c.closed ((below + 1) * c.gridStep exponent) (c.upper * gridDen exponent))) := by
  have hrest := Nat.mod_lt (4 * c.units * gridDen exponent) (c.gridStep_pos exponent)
  refine ⟨4 * c.units * gridDen exponent / c.gridStep exponent,
    4 * c.units * gridDen exponent % c.gridStep exponent, (Nat.div_add_mod' _ _).symm, hrest, ?_⟩
  exact choose_cases _ _ _ _ _ _ _ rfl

/-- A point of a grid is in the interval if both ends are on its sides. -/
theorem holds_grid_iff (steps : Nat) :
    c.Holds (steps * 10 ^ exponent.toNat) (10 ^ (-exponent).toNat) ↔
      Within c.closed (c.lower * gridDen exponent) (steps * c.gridStep exponent) ∧
        Within c.closed (steps * c.gridStep exponent) (c.upper * gridDen exponent) := by
  have hproduct : 4 * (steps * 10 ^ exponent.toNat * 2 ^ c.scale) =
      steps * c.gridStep exponent := by
    unfold gridStep
    rw [Nat.mul_assoc steps, Nat.mul_left_comm 4, Nat.mul_left_comm 4]
  rw [holds_iff, hproduct]
  rfl

theorem holds_of_onGrid? (hheld : c.Held) {steps : Nat}
    (h : c.onGrid? halfway exponent = some steps) :
    c.Holds (steps * 10 ^ exponent.toNat) (10 ^ (-exponent).toNat) := by
  have hlower : c.lower * gridDen exponent < 4 * c.units * gridDen exponent :=
    Nat.mul_lt_mul_of_pos_right (lower_le hheld).2 (gridDen_pos exponent)
  have hupper : 4 * c.units * gridDen exponent < c.upper * gridDen exponent :=
    Nat.mul_lt_mul_of_pos_right c.lt_upper (gridDen_pos exponent)
  rw [holds_grid_iff]
  -- The other end is beyond the number, seen from the point that is chosen.
  rcases c.onGrid?_cases halfway exponent with
    ⟨below, rest, hsplit, hrest, ⟨hsome, _, hin, _⟩ | ⟨hsome, hin, _⟩ | ⟨hnone, _⟩⟩
  · cases h.symm.trans hsome
    exact ⟨hin, Within.of_lt (by omega)⟩
  · cases h.symm.trans hsome
    refine ⟨Within.of_lt ?_, hin⟩
    rw [Nat.add_mul, Nat.one_mul]
    omega
  · cases h.symm.trans hnone

/-! ## The search -/

theorem holds_search (hheld : c.Held) (halfway : HalfwayRule) (fuel : Nat) :
    c.Holds ((c.search halfway fuel).1 * 10 ^ (c.search halfway fuel).2.toNat)
      (10 ^ (-(c.search halfway fuel).2).toNat) := by
  induction fuel with
  | zero =>
      -- On the last grid lies the number itself.
      have hplaces : (-(-(c.scale : Int))).toNat = c.scale := by omega
      have hwhole : (-(c.scale : Int)).toNat = 0 := by omega
      unfold search
      dsimp only
      rw [hplaces, hwhole]
      apply holds_self hheld (Nat.pow_pos (by decide))
      rw [Nat.pow_zero, Nat.mul_one, Nat.mul_assoc, ← Nat.mul_pow, Nat.mul_comm]
  | succ fuel ih =>
      unfold search
      dsimp only
      split
      · rename_i steps hgrid
        exact holds_of_onGrid? hheld hgrid
      · exact ih

/-- The exponents of the grids that are searched. -/
theorem search_exponent_le (c : Cell) (halfway : HalfwayRule) (fuel : Nat) :
    (c.search halfway fuel).2 ≤ (fuel : Int) - c.scale ∧
      -(c.scale : Int) ≤ (c.search halfway fuel).2 := by
  induction fuel with
  | zero =>
      unfold search
      dsimp only
      omega
  | succ fuel ih =>
      unfold search
      dsimp only
      split
      · dsimp only
        omega
      · omega

/-- The shortest decimal lies in the interval. -/
theorem holds_shortest (hheld : c.Held) (halfway : HalfwayRule) :
    c.Holds ((c.shortest halfway).1 * 10 ^ (c.shortest halfway).2.toNat)
      (10 ^ (-(c.shortest halfway).2).toNat) := by
  unfold shortest
  rw [if_neg (Nat.ne_of_gt hheld.units_pos)]
  exact holds_search hheld halfway _

/-- Zero is written without places. -/
theorem shortest_exponent (h : c.units = 0 ∨ c.Held) {halfway : HalfwayRule}
    (hzero : (c.shortest halfway).1 = 0) : (c.shortest halfway).2 = 0 := by
  rcases h with hnone | hheld
  · unfold shortest
    rw [if_pos hnone]
  · have hholds := holds_shortest hheld halfway
    have hpos := hholds.num_pos hheld (Nat.pow_pos (by decide))
    rw [hzero, Nat.zero_mul] at hpos
    exact absurd hpos (Nat.lt_irrefl 0)

end Cell

end OverlayScrollbar
