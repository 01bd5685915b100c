import OverlayScrollbar.Proofs.Binary.Double
import OverlayScrollbar.Proofs.Single.Whole

/-!
# Multiples of a length

A multiple of a length is rounded, and so is what comes out when it is divided by the length again; the
whole number nearest to that is still the one that the length was multiplied by, as long as it has at
most 22 bits. This holds down to the shortest lengths, since a multiple of few bits is not rounded.

- `near_roundBits_mul`            : how far a whole number is rounded
- `Single.exists_round_eq`, `Single.exists_mul_near` : a quotient, and a product of two lengths
- `Single.exists_mul_eq_finite`   : a multiple of a length
- `Single.nearest_round_quarters` : a quotient that is off a whole number by at most a quarter

Main statement: `Single.nearest_mul_div`.
-/

namespace OverlayScrollbar

/-- A whole number is rounded by a small part of itself, however few bits it has. -/
theorem near_roundBits_mul {p den : Nat} (hp : 0 < p) (hden : 0 < den) (a : Nat) :
    Near 1 p (roundBits p (den * a) den) a := by
  rcases Nat.lt_or_ge a (2 ^ p) with hfew | hmany
  · -- So few bits are all kept.
    have hexcess : excessBits p a = 0 := Nat.le_zero.1 (excessBits_le_of_lt hp hfew)
    rw [roundBits_mul hden (by rw [hexcess]; exact Nat.one_dvd a)]
    unfold Near
    omega
  · apply Near.cancel hden
    apply roundBits_near hp hden
    exact Nat.mul_le_mul_left den (Nat.le_trans (Nat.pow_le_pow_right Nat.two_pos (by omega)) hmany)

namespace Single

variable {n m num den units : Nat} {length : Magnitude}

theorem exists_round_eq (negative : Bool) (hm : Fits m) (h : num ≤ den * m) :
    ∃ size, round negative num den = finite negative size ∧ size.units = roundBits 24 num den ∧
      size.units ≤ m := by
  have hbound : roundBits 24 num den ≤ m := roundBits_le (by decide) hm.2 h
  have hlimit : roundBits 24 num den < unitLimit := Nat.lt_of_le_of_lt hbound hm.1
  exact ⟨⟨_, fits_roundBits hlimit⟩, by rw [round, dif_pos hlimit], rfl, hbound⟩

/-- A product with a factor that is not too small differs from the exact one by a small part of it. -/
theorem exists_mul_near (negative : Bool) {a : Magnitude} (factor : Magnitude) (hm : Fits m)
    (hhigh : a.units * factor.units ≤ unitsPerOne * m)
    (hlow : unitsPerOne * 2 ^ 23 ≤ a.units * factor.units) :
    ∃ product, finite negative a * finite false factor = finite negative product ∧
      Near 1 24 (unitsPerOne * product.units) (a.units * factor.units) ∧ product.units ≤ m := by
  have hproduct : finite negative a * finite false factor =
      round negative (a.units * factor.units) unitsPerOne := by
    show round (negative != false) _ _ = _
    rw [Bool.bne_false]
  rcases exists_round_eq negative hm hhigh with ⟨product, hround, hunits, hbound⟩
  have hnear := roundBits_near (p := 24) (by decide) unitsPerOne_pos hlow
  rw [← hunits] at hnear
  exact ⟨product, hproduct.trans hround, hnear, hbound⟩

/-- A multiple of a length that is not too large differs from the exact one by a small part of it. -/
theorem exists_mul_eq_finite (hn : n ≤ 2 ^ 24) (h : (ofNat n * finite false length).IsFinite) :
    ∃ product : Magnitude, ofNat n * finite false length = finite false product ∧
      Near 1 24 product.units (n * length.units) := by
  have hproduct : ofNat n * finite false length =
      round false (unitsPerOne * (n * length.units)) unitsPerOne := by
    rw [ofNat_eq_finite hn, ← Nat.mul_assoc, Nat.mul_comm unitsPerOne]
    rfl
  have hnear : Near 1 24 (roundBits 24 (unitsPerOne * (n * length.units)) unitsPerOne)
      (n * length.units) := near_roundBits_mul (by decide) unitsPerOne_pos _
  rw [hproduct] at h ⊢
  unfold round at h ⊢
  -- A multiple that is rounded to infinity is excluded by the hypothesis.
  split at h
  · rename_i hlimit
    rw [dif_pos hlimit]
    exact ⟨_, rfl, hnear⟩
  · exact h.elim

/-- A number that differs from a whole one by at most a quarter is nearest to it. -/
theorem nearest_finite_of_quarters {quarter : Nat} {size : Magnitude}
    (hone : unitsPerOne = 4 * quarter) (hlow : (4 * n - 1) * quarter ≤ size.units)
    (hhigh : size.units ≤ (4 * n + 1) * quarter) : (finite false size).nearest = ofNat n := by
  have hpositive : 0 < quarter := by
    have hunits := unitsPerOne_pos
    omega
  have hwhole : (2 * size.units + unitsPerOne) / (2 * unitsPerOne) = n := by
    rw [Nat.add_one_mul, Nat.mul_assoc] at hhigh
    rw [Nat.sub_one_mul, Nat.mul_assoc] at hlow
    rw [hone]
    apply Nat.div_eq_of_lt_le
    · calc
        n * (2 * (4 * quarter)) = 8 * (n * quarter) := by ring
        _ ≤ 2 * size.units + 4 * quarter := by omega
    · calc
        2 * size.units + 4 * quarter < 8 * (n * quarter) + 8 * quarter := by omega
        _ = (n + 1) * (2 * (4 * quarter)) := by ring
  show ofRatio false ((2 * size.units + unitsPerOne) / (2 * unitsPerOne)) 1 = ofNat n
  rw [hwhole]
  rfl

/-- A quotient that differs from a whole number by at most a quarter is rounded to a number that is
nearest to it. -/
theorem nearest_round_quarters {num den : Nat} (hn : n < 2 ^ 22) (hden : 0 < den)
    (hlow : 4 * (n * den) ≤ 4 * num + den) (hhigh : 4 * num ≤ 4 * (n * den) + den) :
    (round false (num * unitsPerOne) den).nearest = ofNat n := by
  obtain ⟨quarter, hquarter⟩ : ∃ quarter, quarter = 2 ^ 147 := ⟨_, rfl⟩
  have hone : unitsPerOne = 4 * quarter := by
    rw [hquarter]
    decide +kernel
  -- The quarters on both sides of the whole number are held exactly.
  have hfits : ∀ j ≤ 2 ^ 24, Fits (j * quarter) := by
    intro j hj
    rw [hquarter]
    exact fits_mul_two_pow hj (by decide)
  have habove : num * unitsPerOne ≤ den * ((4 * n + 1) * quarter) := by
    rw [hone, ← Nat.mul_assoc, ← Nat.mul_assoc]
    apply Nat.mul_le_mul_right
    calc
      num * 4 = 4 * num := Nat.mul_comm num 4
      _ ≤ 4 * (n * den) + den := hhigh
      _ = den * (4 * n + 1) := by ring
  have hbelow : den * ((4 * n - 1) * quarter) ≤ num * unitsPerOne := by
    rw [hone, ← Nat.mul_assoc, ← Nat.mul_assoc]
    apply Nat.mul_le_mul_right
    calc
      den * (4 * n - 1) = 4 * (n * den) - den := by
        rw [Nat.mul_sub_one, Nat.mul_left_comm, Nat.mul_comm den n]
      _ ≤ num * 4 := by omega
  rcases exists_round_eq false (hfits _ (by omega)) habove with ⟨size, hround, hunits, hupper⟩
  rw [hround]
  apply nearest_finite_of_quarters hone _ hupper
  rw [hunits]
  exact le_roundBits (by decide) hden (hfits _ (by omega)).2 hbelow

/-- A multiple of a length, divided by the length, is nearest to the number that the length was
multiplied by, for as long as the multiple is finite. -/
theorem nearest_mul_div (hn : n < 2 ^ 22) (hlength : 0 < length.units)
    (h : (ofNat n * finite false length).IsFinite) :
    (ofNat n * finite false length / finite false length).nearest = ofNat n := by
  rcases exists_mul_eq_finite (by omega) h with ⟨product, hproduct, hnear⟩
  rw [hproduct, finite_div false product hlength]
  -- The rounding of the product is below a quarter of the length.
  have hpart : 4 * (n * length.units) ≤ 2 ^ 24 * length.units := by
    rw [← Nat.mul_assoc]
    exact Nat.mul_le_mul_right _ (by omega)
  rcases hnear with ⟨hmost, hleast⟩
  apply nearest_round_quarters hn hlength
  · omega
  · omega

end Single

end OverlayScrollbar
