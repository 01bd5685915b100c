import OverlayScrollbar.Proofs.Single.Halves

/-!
# Diagonals

The diagonal of a rectangle is a square root that is taken to 53 bits and rounded once more. None of these
steps goes beyond a length whose square is not smaller than the two squares together.

- `squareRoot_le`, `roundSquareRoot_le` : square roots are not too large
- `pow_excessBits_dvd_of_lt` : a multiple of a power of two that has few bits beyond it
- `Single.Measures.hypot`    : the diagonal of a rectangle of two lengths
- `Single.Halves.hypot`      : the same of whole numbers of halves
-/

namespace OverlayScrollbar

/-! ## Square roots -/

/-- The steps end at a guess that is not too large, wherever they start. -/
theorem squareRootFrom_mul_self_le (n guess : Nat) :
    squareRootFrom n guess * squareRootFrom n guess ≤ n := by
  fun_induction squareRootFrom n guess with
  | case1 guess next hless ih => exact ih
  | case2 guess next hends =>
      -- A step that does not go down shows that the guess is not above its quotient.
      have hquotient : guess ≤ n / guess := by omega
      calc
        guess * guess ≤ n / guess * guess := Nat.mul_le_mul_right guess hquotient
        _ ≤ n := Nat.div_mul_le_self n guess

theorem squareRoot_mul_self_le (n : Nat) : squareRoot n * squareRoot n ≤ n := by
  unfold squareRoot
  split
  · rename_i hsmall
    exact Nat.le_trans (Nat.mul_le_mul_left n hsmall) (Nat.le_of_eq (Nat.mul_one n))
  · exact squareRootFrom_mul_self_le n _

theorem squareRoot_le {n m : Nat} (h : n ≤ m * m) : squareRoot n ≤ m :=
  Nat.mul_self_le_mul_self_iff.1 (Nat.le_trans (squareRoot_mul_self_le n) h)

/-- A rounded square root is not above a number that is held exactly, if its square is not below. -/
theorem roundSquareRoot_le {p scale n m : Nat} (hp : 0 < p)
    (hm : 2 ^ excessBits p (m * 2 ^ scale) ∣ m * 2 ^ scale) (h : n ≤ m * m) :
    roundSquareRoot p scale n ≤ m * 2 ^ scale := by
  have hscaled : n * 4 ^ scale ≤ m * 2 ^ scale * (m * 2 ^ scale) := by
    calc
      n * 4 ^ scale ≤ m * m * (2 * 2) ^ scale := Nat.mul_le_mul_right _ h
      _ = m * 2 ^ scale * (m * 2 ^ scale) := by rw [Nat.mul_pow, Nat.mul_mul_mul_comm]
  have hroot := squareRoot_le hscaled
  unfold roundSquareRoot
  apply roundBits_le hp hm
  generalize m * 2 ^ scale = bound at hscaled hroot
  rcases Nat.eq_or_lt_of_le hroot with hsame | hless
  · -- A root that is as large as it can be has no missing part.
    have hexact : squareRoot (n * 4 ^ scale) * squareRoot (n * 4 ^ scale) = n * 4 ^ scale :=
      Nat.le_antisymm (squareRoot_mul_self_le _) (hsame.symm ▸ hscaled)
    rw [if_pos hexact]
    omega
  · split <;> omega

/-! ## Bits of squares -/

theorem pow_excessBits_dvd_of_lt {p k n : Nat} (hp : 0 < p) (hlt : n < 2 ^ (p + k))
    (hdvd : 2 ^ k ∣ n) : 2 ^ excessBits p n ∣ n :=
  Nat.dvd_trans (Nat.pow_dvd_pow 2 (excessBits_le_of_lt hp hlt)) hdvd

/-- The square of a number of 24 bits has at most 53. -/
theorem pow_excessBits_dvd_mul_self {m : Nat} (hm : 2 ^ excessBits 24 m ∣ m) :
    2 ^ excessBits 53 (m * m) ∣ m * m := by
  have hlt := lt_two_pow_excessBits 24 m
  generalize excessBits 24 m = k at hm hlt
  apply pow_excessBits_dvd_of_lt (k := k + k) (by decide)
  · calc
      m * m < 2 ^ (24 + k) * 2 ^ (24 + k) := Nat.mul_self_lt_mul_self hlt
      _ = 2 ^ (24 + k + (24 + k)) := (Nat.pow_add 2 _ _).symm
      _ ≤ 2 ^ (53 + (k + k)) := Nat.pow_le_pow_right Nat.two_pos (by omega)
  · rw [Nat.pow_add]
    exact Nat.mul_dvd_mul hm hm

/-- A number of 24 bits has at most 53 at every scale. -/
theorem pow_excessBits_dvd_scaled {m : Nat} (hm : 2 ^ excessBits 24 m ∣ m) (scale : Nat) :
    2 ^ excessBits 53 (m * 2 ^ scale) ∣ m * 2 ^ scale := by
  have hlt := lt_two_pow_excessBits 24 m
  generalize excessBits 24 m = k at hm hlt
  apply pow_excessBits_dvd_of_lt (k := k + scale) (by decide)
  · calc
      m * 2 ^ scale < 2 ^ (24 + k) * 2 ^ scale := Nat.mul_lt_mul_of_pos_right hlt (Nat.two_pow_pos _)
      _ = 2 ^ (24 + k + scale) := (Nat.pow_add 2 _ _).symm
      _ ≤ 2 ^ (53 + (k + scale)) := Nat.pow_le_pow_right Nat.two_pos (by omega)
  · rw [Nat.pow_add]
    exact Nat.mul_dvd_mul_right hm _

namespace Single

variable {a b c : Single}

/-! ## Diagonals -/

/-- The diagonal of a rectangle is a length, and not above one whose square is not below the two squares
together. -/
theorem Measures.hypot {x y m : Nat} (ha : Measures a x) (hb : Measures b y) (hm : Fits m)
    (h : x * x + y * y ≤ m * m) : ∃ n, Measures (hypot a b) n ∧ n ≤ m := by
  rcases ha.cases with ⟨_, size, rfl, rfl, _⟩
  rcases hb.cases with ⟨_, size', rfl, rfl, _⟩
  have hsquare : roundBits 53 (size.units * size.units + size'.units * size'.units) 1 ≤ m * m :=
    roundBits_le (by decide) (pow_excessBits_dvd_mul_self hm.2) (by omega)
  have hroot := roundSquareRoot_le (by decide) (pow_excessBits_dvd_scaled hm.2 64) hsquare
  rw [Nat.mul_comm m] at hroot
  have hrank := rank?_round_signed false
    (roundSquareRoot 53 64 (roundBits 53 (size.units * size.units + size'.units * size'.units) 1))
    (2 ^ 64)
  exact ⟨_, measures_of_rounded hm hroot hrank, roundBits_le (by decide) hm.2 hroot⟩

/-- The same of whole numbers of halves. -/
theorem Halves.hypot {i j k : Nat} (ha : Halves a i) (hb : Halves b j) (hc : Halves c k)
    (h : i * i + j * j ≤ k * k) : (hypot a b).IsFinite ∧ hypot a b ≤ c := by
  have hsquares : i * 2 ^ 148 * (i * 2 ^ 148) + j * 2 ^ 148 * (j * 2 ^ 148) ≤
      k * 2 ^ 148 * (k * 2 ^ 148) := by
    rw [Nat.mul_mul_mul_comm, Nat.mul_mul_mul_comm j, Nat.mul_mul_mul_comm k, ← Nat.add_mul]
    exact Nat.mul_le_mul_right _ h
  rcases ha.measures.hypot hb.measures hc.measures.fits hsquares with ⟨n, hn, hle⟩
  exact ⟨hn.isFinite, (hn.le_iff hc.measures).2 hle⟩

end Single

end OverlayScrollbar
