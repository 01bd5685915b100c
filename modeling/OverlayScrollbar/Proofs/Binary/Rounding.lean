import OverlayScrollbar.Binary.Rounding

/-!
# Rounding keeps the order

- `roundDiv_mono`, `roundBits_mono` : a smaller quotient is not rounded above a larger one
- `roundBits_le`, `le_roundBits`    : rounding does not go beyond a number that is held exactly
- `roundBits_mul`                   : and leaves such a number as it is
-/

namespace OverlayScrollbar

variable {p a b : Nat}

/-! ## Whole numbers -/

/-- What is left over beyond the whole steps decides on rounding. -/
theorem roundDiv_mul_add {den rest : Nat} (q : Nat) (h : rest < den) :
    roundDiv (den * q + rest) den =
      if 2 * rest < den then q else if den < 2 * rest then q + 1 else q + q % 2 := by
  have hden : 0 < den := Nat.lt_of_le_of_lt (Nat.zero_le rest) h
  unfold roundDiv
  dsimp only
  rw [Nat.mul_add_div hden, Nat.mul_add_mod, Nat.div_eq_of_lt h, Nat.mod_eq_of_lt h, Nat.add_zero]

theorem le_roundDiv (num den : Nat) : num / den ≤ roundDiv num den := by
  unfold roundDiv
  grind

theorem roundDiv_le_succ (num den : Nat) : roundDiv num den ≤ num / den + 1 := by
  unfold roundDiv
  grind

theorem roundDiv_mono (den : Nat) (h : a ≤ b) : roundDiv a den ≤ roundDiv b den := by
  rcases Nat.eq_or_lt_of_le (Nat.div_le_div_right h) with hsame | hless
  · -- Between the same two whole numbers the remainders decide, and a tie goes the same way.
    have ha := Nat.div_add_mod a den
    have hb := Nat.div_add_mod b den
    have hremainder : a % den ≤ b % den := by
      rw [hsame] at ha
      omega
    unfold roundDiv
    grind
  · calc
      roundDiv a den ≤ a / den + 1 := roundDiv_le_succ a den
      _ ≤ b / den := hless
      _ ≤ roundDiv b den := le_roundDiv b den

/-! ## Significant bits -/

theorem excessBits_mono (hp : 0 < p) (h : a ≤ b) : excessBits p a ≤ excessBits p b :=
  excessBits_le_of_lt hp (Nat.lt_of_le_of_lt h (lt_two_pow_excessBits p b))

theorem two_pow_le_of_excessBits {n : Nat} (hp : 0 < p) (hexcess : 0 < excessBits p n) :
    2 ^ (p - 1 + excessBits p n) ≤ n := by
  have hleading : p - 1 + excessBits p n = n.log2 := by
    unfold excessBits at hexcess ⊢
    omega
  have hn : n ≠ 0 := by
    intro hzero
    rw [hzero] at hexcess
    simp [excessBits] at hexcess
    omega
  rw [hleading]
  exact Nat.log2_self_le hn

/-- Rounding to fewer bits than there are leaves the leading one. -/
theorem two_pow_le_roundDiv {den : Nat} (hp : 0 < p) (hexcess : 0 < excessBits p (a / den)) :
    2 ^ (p - 1) ≤ roundDiv a (den * 2 ^ excessBits p (a / den)) := by
  have hlarge := two_pow_le_of_excessBits hp hexcess
  generalize excessBits p (a / den) = k at hlarge ⊢
  rw [Nat.pow_add] at hlarge
  calc
    2 ^ (p - 1) ≤ a / den / 2 ^ k := (Nat.le_div_iff_mul_le (Nat.two_pow_pos k)).2 hlarge
    _ = a / (den * 2 ^ k) := Nat.div_div_eq_div_mul a den (2 ^ k)
    _ ≤ roundDiv a (den * 2 ^ k) := le_roundDiv a (den * 2 ^ k)

theorem roundBits_mono (den : Nat) (hp : 0 < p) (h : a ≤ b) :
    roundBits p a den ≤ roundBits p b den := by
  have hexcess := excessBits_mono hp (Nat.div_le_div_right h (c := den))
  unfold roundBits
  dsimp only
  rcases Nat.eq_or_lt_of_le hexcess with hsame | hless
  · rw [hsame]
    exact Nat.mul_le_mul_right _ (roundDiv_mono _ h)
  · -- The larger quotient has more bits, so that a power of two lies between the results.
    have ha := roundDiv_excessBits_le p a den
    have hb := two_pow_le_roundDiv hp (Nat.zero_lt_of_lt hless)
    generalize excessBits p (a / den) = j at hless ha ⊢
    generalize excessBits p (b / den) = k at hless hb ⊢
    calc
      roundDiv a (den * 2 ^ j) * 2 ^ j ≤ 2 ^ p * 2 ^ j := Nat.mul_le_mul_right _ ha
      _ = 2 ^ (p + j) := (Nat.pow_add 2 p j).symm
      _ ≤ 2 ^ (p - 1 + k) := Nat.pow_le_pow_right Nat.two_pos (by omega)
      _ = 2 ^ (p - 1) * 2 ^ k := Nat.pow_add 2 (p - 1) k
      _ ≤ roundDiv b (den * 2 ^ k) * 2 ^ k := Nat.mul_le_mul_right _ hb

/-- Rounding does not go beyond a number that is held exactly. -/
theorem roundBits_le {num den m : Nat} (hp : 0 < p) (hm : 2 ^ excessBits p m ∣ m)
    (h : num ≤ den * m) : roundBits p num den ≤ m := by
  have hexcess : excessBits p (num / den) ≤ excessBits p m :=
    excessBits_mono hp (Nat.div_le_of_le_mul h)
  -- The bits that are dropped are zero in the larger number.
  rcases Nat.dvd_trans (Nat.pow_dvd_pow 2 hexcess) hm with ⟨q, hq⟩
  unfold roundBits
  dsimp only
  generalize excessBits p (num / den) = k at hq
  have hbound : num ≤ den * 2 ^ k * q := by
    calc
      num ≤ den * m := h
      _ = den * 2 ^ k * q := by rw [hq, Nat.mul_assoc]
  calc
    roundDiv num (den * 2 ^ k) * 2 ^ k ≤ q * 2 ^ k := Nat.mul_le_mul_right _ (roundDiv_le hbound)
    _ = m := by rw [hq, Nat.mul_comm]

theorem roundDiv_mul {den : Nat} (hden : 0 < den) (q : Nat) : roundDiv (den * q) den = q := by
  apply Nat.le_antisymm
  · exact roundDiv_le (Nat.le_refl _)
  · calc
      q = den * q / den := (Nat.mul_div_cancel_left q hden).symm
      _ ≤ roundDiv (den * q) den := le_roundDiv (den * q) den

/-- A number that is held exactly is not rounded. -/
theorem roundBits_mul {den m : Nat} (hden : 0 < den) (hm : 2 ^ excessBits p m ∣ m) :
    roundBits p (den * m) den = m := by
  rcases hm with ⟨q, hq⟩
  have hpow : 0 < den * 2 ^ excessBits p m := Nat.mul_pos hden (Nat.two_pow_pos _)
  have hnum : den * m = den * 2 ^ excessBits p m * q := by
    rw [Nat.mul_assoc, ← hq]
  unfold roundBits
  dsimp only
  rw [Nat.mul_div_cancel_left m hden, hnum, roundDiv_mul hpow, Nat.mul_comm]
  exact hq.symm

theorem le_roundBits {num den m : Nat} (hp : 0 < p) (hden : 0 < den)
    (hm : 2 ^ excessBits p m ∣ m) (h : den * m ≤ num) : m ≤ roundBits p num den := by
  calc
    m = roundBits p (den * m) den := (roundBits_mul hden hm).symm
    _ ≤ roundBits p num den := roundBits_mono den hp h

end OverlayScrollbar
