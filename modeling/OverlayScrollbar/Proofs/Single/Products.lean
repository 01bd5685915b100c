import OverlayScrollbar.Proofs.Single.Limits
import OverlayScrollbar.Proofs.Single.Value

/-!
# Products above zero

A product of two numbers above zero is rounded to nothing if it is at most half of the smallest length that
single precision holds. A multiple of a number has the sign of the number.

- `roundBits_eq_zero_iff`            : what is rounded to nothing
- `Single.zero_lt_mul_iff`           : the product of two numbers above zero
- `Single.zero_lt_mul_of_one_le_iff` : the sign of a multiple
-/

namespace OverlayScrollbar

/-- A quotient is rounded to nothing if it is at most a half. -/
theorem roundBits_eq_zero_iff {p num den : Nat} (hp : 0 < p) (hden : 0 < den) :
    roundBits p num den = 0 ↔ 2 * num ≤ den := by
  have hexcess : ∀ n, n ≤ 1 → excessBits p n = 0 := by
    intro n hn
    apply Nat.le_zero.1
    apply excessBits_le_of_lt hp
    calc
      n ≤ 1 := hn
      _ < 2 ^ (p + 0) := Nat.one_lt_two_pow (by omega)
  -- Below one no bits are dropped, and the quotient is rounded as it is; from one on it cannot
  -- vanish.
  rcases Nat.lt_or_ge num den with hless | hmore
  · have hrounded : roundBits p num den = roundDiv num den := by
      unfold roundBits
      dsimp only
      rw [Nat.div_eq_of_lt hless, hexcess 0 (Nat.zero_le 1), Nat.pow_zero, Nat.mul_one, Nat.mul_one]
    rw [hrounded]
    unfold roundDiv
    rw [Nat.div_eq_of_lt hless, Nat.mod_eq_of_lt hless]
    dsimp only
    split
    · omega
    · split <;> omega
  · have hone : 1 ≤ roundBits p num den := by
      apply le_roundBits hp hden
      · rw [hexcess 1 (Nat.le_refl 1)]
        decide
      · rw [Nat.mul_one]
        exact hmore
    omega

namespace Single

variable {a b x : Single}

/-! ## Products of two numbers -/

/-- What is not a number makes every product not a number. -/
theorem isNaN_of_zero_lt_mul (h : 0 < a * b) : a.isNaN = false ∧ b.isNaN = false := by
  have hnan : ¬0 < nan := by decide +kernel
  constructor
  · cases ha : a.isNaN with
    | false => rfl
    | true =>
        rw [eq_nan_of_isNaN ha, nan_mul] at h
        exact absurd h hnan
  · cases hb : b.isNaN with
    | false => rfl
    | true =>
        rw [eq_nan_of_isNaN hb, mul_comm, nan_mul] at h
        exact absurd h hnan

theorem zero_lt_round_iff {num den : Nat} (hden : 0 < den) :
    0 < round false num den ↔ den < 2 * num := by
  have hlimit := unitLimit_pos
  have hnone : roundBits 24 num den = 0 ↔ 2 * num ≤ den := roundBits_eq_zero_iff (by decide) hden
  rw [lt_iff, rank?_round, rank?_zero]
  simp only [Bool.false_eq_true, if_false, Option.some.injEq, exists_and_left, exists_eq_left']
  unfold roundedUnits
  omega

theorem eq_infinity_of_zero_lt (ha : ¬a.IsFinite) (hpos : 0 < a) : a = infinity false := by
  cases a with
  | nan => cases isNaN_of_le_right (le_of_lt hpos)
  | infinity negative =>
      cases negative with
      | false => rfl
      | true => exact absurd hpos (by decide +kernel)
  | finite _ _ => exact absurd trivial ha

/-- An infinity stays one, whatever above zero it is multiplied by. -/
theorem mul_infinity_of_zero_lt (hpos : 0 < a) : a * infinity false = infinity false := by
  by_cases ha : a.IsFinite
  · exact mul_infinity ha hpos false
  · rw [eq_infinity_of_zero_lt ha hpos]
    rfl

/-- A product of two lengths is above zero if it is more than half of the smallest one. -/
theorem zero_lt_mul_finite_iff (size size' : Magnitude) :
    0 < finite false size * finite false size' ↔ unitsPerOne < 2 * (size.units * size'.units) :=
  zero_lt_round_iff unitsPerOne_pos

/-- The smallest length is `1 / 2 ^ 149`. -/
theorem half_unit_lt_value_mul_iff (size size' : Magnitude) :
    1 / 2 ^ 150 < (finite false size).value * (finite false size').value ↔
      unitsPerOne < 2 * (size.units * size'.units) := by
  have hone : (unitsPerOne : ℚ) ≠ 0 := Nat.cast_ne_zero.2 (Nat.ne_of_gt unitsPerOne_pos)
  have htwo : (2 : ℚ) ^ 150 = 2 * unitsPerOne := by
    unfold unitsPerOne
    push_cast
    ring
  have hhalf : (1 : ℚ) / 2 ^ 150 =
      (unitsPerOne : Nat) / ((2 * unitsPerOne * unitsPerOne : Nat) : ℚ) := by
    rw [htwo]
    push_cast
    field_simp
  have hproduct : (finite false size).value * (finite false size').value =
      (2 * (size.units * size'.units) : Nat) / ((2 * unitsPerOne * unitsPerOne : Nat) : ℚ) := by
    show (size.units : ℚ) / unitsPerOne * ((size'.units : ℚ) / unitsPerOne) = _
    push_cast
    field_simp
  have hscale : 0 < 2 * unitsPerOne * unitsPerOne :=
    Nat.mul_pos (Nat.mul_pos Nat.two_pos unitsPerOne_pos) unitsPerOne_pos
  rw [hhalf, hproduct, div_lt_div_iff_of_pos_right (Nat.cast_pos.2 hscale), Nat.cast_lt]

/-- A product of two numbers above zero is above zero if one of them is infinite, or if it is more than half
of the smallest length. -/
theorem zero_lt_mul_iff (ha : 0 < a) (hb : 0 < b) : 0 < a * b ↔
    (a.IsFinite → b.IsFinite → 1 / 2 ^ 150 < a.value * b.value) := by
  have hinfinity : (0 : Single) < infinity false := by decide +kernel
  by_cases hfinite : a.IsFinite
  · by_cases hfinite' : b.IsFinite
    · rcases exists_finite_of_zero_lt hfinite ha with ⟨size, rfl⟩
      rcases exists_finite_of_zero_lt hfinite' hb with ⟨size', rfl⟩
      rw [zero_lt_mul_finite_iff, half_unit_lt_value_mul_iff]
      exact ⟨fun h _ _ => h, fun h => h hfinite hfinite'⟩
    · rw [eq_infinity_of_zero_lt hfinite' hb, mul_infinity_of_zero_lt ha]
      exact ⟨fun _ _ h => h.elim, fun _ => hinfinity⟩
  · rw [eq_infinity_of_zero_lt hfinite ha, mul_comm, mul_infinity_of_zero_lt hb]
    exact ⟨fun _ h => h.elim, fun _ => hinfinity⟩

/-! ## Multiples of one number -/

/-- An infinite multiple of what is not above zero is a negative infinity, or no number. -/
theorem not_zero_lt_infinity_mul (h : a ≤ 0) : ¬0 < infinity false * a := by
  have hnegative : ¬0 < infinity true := by decide +kernel
  cases a with
  | nan => cases isNaN_of_le_left h
  | infinity negative =>
      cases negative with
      | false => exact absurd h (by decide +kernel)
      | true => exact hnegative
  | finite negative size =>
      -- An infinite multiple of zero is not a number.
      show ¬0 < if size.units = 0 then nan else infinity (false != negative)
      split
      · decide +kernel
      · rename_i hsize
        cases negative with
        | false => exact absurd (zero_lt_finite (Nat.pos_of_ne_zero hsize)) (not_lt_of_le h)
        | true => exact hnegative

theorem not_zero_lt_mul (hpos : 0 < x) (h : a ≤ 0) : ¬0 < x * a := by
  by_cases hfinite : x.IsFinite
  · exact not_lt_of_le (mul_le_zero hfinite hpos h)
  · rw [eq_infinity_of_zero_lt hfinite hpos]
    exact not_zero_lt_infinity_mul h

theorem le_mul_of_one_le (ha : 0 < a) (hx : 1 ≤ x) : a ≤ x * a := by
  rw [mul_comm]
  by_cases hfinite : a.IsFinite
  · have hmore := mul_le_mul_left hfinite ha hx
    rwa [mul_one hfinite] at hmore
  · -- An infinite number is its own multiple.
    have hpos : 0 < x := lt_of_lt_of_le (by decide +kernel) hx
    rw [eq_infinity_of_zero_lt hfinite ha, mul_comm, mul_infinity_of_zero_lt hpos]
    decide +kernel

/-- A multiple of a number has the sign of the number. -/
theorem zero_lt_mul_of_one_le_iff (hx : 1 ≤ x) : 0 < x * a ↔ 0 < a := by
  have hpos : 0 < x := lt_of_lt_of_le (by decide +kernel) hx
  constructor
  · intro hproduct
    apply lt_of_not_le (isNaN_of_zero_lt_mul hproduct).2 isNaN_zero
    intro hnone
    exact not_zero_lt_mul hpos hnone hproduct
  · intro ha
    exact lt_of_lt_of_le ha (le_mul_of_one_le ha hx)

end Single

end OverlayScrollbar
