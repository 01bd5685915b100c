import OverlayScrollbar.Binary.Power

/-!
# Rounding to a number of significant bits

Every floating-point result of this library is an exact quotient of whole numbers, rounded once.

- `roundDiv`   : a quotient rounded to the nearest whole number, ties to even
- `excessBits` : how many low bits a number has beyond the significant ones
- `roundBits`  : a quotient rounded to a whole number with at most `p` significant bits
- `squareRoot` : the whole part of a square root

Main statement: `pow_excessBits_dvd_roundBits`, the result of `roundBits p` has no more than `p`
significant bits.
-/

namespace OverlayScrollbar

/-! ## Quotients -/

/-- The quotient rounded to the nearest whole number; a tie goes to the even neighbour. -/
def roundDiv (num den : Nat) : Nat :=
  let q := num / den
  let r := num % den
  if 2 * r < den then q
  else if den < 2 * r then q + 1
  else q + q % 2

theorem roundDiv_le {num den b : Nat} (h : num ≤ den * b) : roundDiv num den ≤ b := by
  rcases Nat.eq_zero_or_pos den with rfl | hd
  · have : num = 0 := by omega
    subst this
    simp [roundDiv]
  · have hq : num / den ≤ b := Nat.div_le_of_le_mul h
    have hsplit := Nat.div_add_mod num den
    unfold roundDiv
    dsimp only
    rcases Nat.lt_or_ge (num / den) b with hlt | hge
    · split
      · omega
      · split <;> omega
    · have hqb : num / den = b := Nat.le_antisymm hq hge
      -- At the bound itself nothing is left over that could be rounded up.
      have hr : num % den = 0 := by
        rw [hqb] at hsplit
        omega
      rw [hr, hqb]
      simp [hd]

/-! ## Significant bits -/

/-- The number of low bits that `n` has beyond its `p` leading ones. -/
def excessBits (p n : Nat) : Nat :=
  n.log2 + 1 - p

/-- The quotient rounded to the nearest whole number with at most `p` significant bits; a tie goes
to the neighbour whose last significant bit is zero. -/
def roundBits (p num den : Nat) : Nat :=
  let k := excessBits p (num / den)
  roundDiv num (den * 2 ^ k) * 2 ^ k

theorem lt_two_pow_excessBits (p n : Nat) : n < 2 ^ (p + excessBits p n) := by
  have h : n < 2 ^ (n.log2 + 1) := Nat.lt_log2_self
  refine Nat.lt_of_lt_of_le h (Nat.pow_le_pow_right (by omega) ?_)
  unfold excessBits
  omega

theorem excessBits_le_of_lt {p n k : Nat} (hp : 0 < p) (h : n < 2 ^ (p + k)) :
    excessBits p n ≤ k := by
  unfold excessBits
  rcases Nat.eq_zero_or_pos n with rfl | hn
  · rw [Nat.log2_zero]
    omega
  · have := (Nat.log2_lt (by omega)).2 h
    omega

theorem excessBits_two_pow {p k : Nat} : excessBits p (2 ^ (p + k)) = k + 1 := by
  unfold excessBits
  rw [Nat.log2_two_pow]
  omega

theorem roundDiv_excessBits_le (p num den : Nat) :
    roundDiv num (den * 2 ^ excessBits p (num / den)) ≤ 2 ^ p := by
  rcases Nat.eq_zero_or_pos den with rfl | hd
  · have hpow : 0 < 2 ^ p := Nat.pow_pos (by omega)
    unfold roundDiv
    simp only [Nat.zero_mul, Nat.div_zero, Nat.mod_zero]
    split
    · omega
    · split <;> omega
  · apply roundDiv_le
    have hlt : num / den < 2 ^ (p + excessBits p (num / den)) := lt_two_pow_excessBits p _
    have hnum : num < den * 2 ^ (p + excessBits p (num / den)) := (Nat.div_lt_iff_lt_mul hd).1 hlt
      |> fun h => by rwa [Nat.mul_comm] at h
    rw [Nat.mul_assoc, ← Nat.pow_add, Nat.add_comm (excessBits p (num / den)) p]
    exact Nat.le_of_lt hnum

/-- Rounding to `p` bits leaves at most `p` significant bits. -/
theorem pow_excessBits_dvd_roundBits {p : Nat} (hp : 0 < p) (num den : Nat) :
    2 ^ excessBits p (roundBits p num den) ∣ roundBits p num den := by
  have hle := roundDiv_excessBits_le p num den
  unfold roundBits
  dsimp only
  generalize excessBits p (num / den) = k at hle ⊢
  generalize roundDiv num (den * 2 ^ k) = m at hle ⊢
  rcases Nat.lt_or_ge m (2 ^ p) with hlt | hge
  · have hmk : m * 2 ^ k < 2 ^ (p + k) := by
      rw [Nat.pow_add]
      exact Nat.mul_lt_mul_of_pos_right hlt (Nat.pow_pos (by omega))
    exact Nat.dvd_trans (Nat.pow_dvd_pow 2 (excessBits_le_of_lt hp hmk)) (Nat.dvd_mul_left _ _)
  · have hm : m = 2 ^ p := Nat.le_antisymm hle hge
    rw [hm, ← Nat.pow_add, excessBits_two_pow]
    exact Nat.pow_dvd_pow 2 (by omega)

/-! ## Square roots -/

/-- Newton's steps from a guess that is not below the square root. They go down until the whole part
of the root is reached. -/
def squareRootFrom (n guess : Nat) : Nat :=
  let next := (guess + n / guess) / 2
  if next < guess then squareRootFrom n next else guess
termination_by guess

/-- The whole part of the square root. -/
def squareRoot (n : Nat) : Nat :=
  if n ≤ 1 then n else squareRootFrom n (2 ^ (n.log2 / 2 + 1))

/-- The square root rounded to `p` significant bits, in units of `2 ^ -scale`.

An inexact root lies strictly between two whole numbers, so that half a unit stands for its missing
part as long as it has more than `p + 1` bits. -/
def roundSquareRoot (p scale n : Nat) : Nat :=
  let scaled := n * 4 ^ scale
  let r := squareRoot scaled
  roundBits p (2 * r + if r * r = scaled then 0 else 1) 2

end OverlayScrollbar
