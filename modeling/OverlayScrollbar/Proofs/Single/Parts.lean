import Mathlib.Tactic.Ring
import OverlayScrollbar.Proofs.Single.Whole

/-!
# Whole parts of numbers

A whole part of a finite number is held exactly, however large the number is: from `2 ^ 23` on every
number is whole already, and below that a whole number has few enough bits. What is cut off is held
exactly too.

- `Single.fits_of_dvd`      : a number that has no lower bits than a larger one
- `Single.fits_cut`         : the whole part, and what is cut off
- `Single.trunc_finite`     : rounding toward zero
- `Single.nearest_finite`   : rounding to the nearest whole number
- `Single.exists_sub_trunc` : a number less its whole part
- `Single.add_eq_round`     : a sum of two numbers of one direction
- `Single.toInt32_finite`   : the whole part as a whole number of 32 bits
-/

namespace OverlayScrollbar

namespace Single

variable {units m : Nat} {negative : Bool}

/-! ## Numbers that are held exactly -/

theorem fits_of_dvd (hfits : Fits units) (hle : m ≤ units)
    (hdvd : 2 ^ excessBits 24 units ∣ m) : Fits m := by
  refine ⟨Nat.lt_of_le_of_lt hle hfits.1, ?_⟩
  exact Nat.dvd_trans (Nat.pow_dvd_pow 2 (excessBits_mono (by decide) hle)) hdvd

/-- A number either has bits for parts of one, or is whole. -/
theorem unitsPerOne_dvd_or_lt (hfits : Fits units) :
    unitsPerOne ∣ units ∨ 2 ^ excessBits 24 units ∣ unitsPerOne ∧ units < 2 ^ 23 * unitsPerOne := by
  rcases Nat.lt_or_ge (excessBits 24 units) 149 with hfew | hmany
  · refine Or.inr ⟨Nat.pow_dvd_pow 2 (Nat.le_of_lt hfew), ?_⟩
    calc
      units < 2 ^ (24 + excessBits 24 units) := lt_two_pow_excessBits 24 units
      _ ≤ 2 ^ (23 + 149) := Nat.pow_le_pow_right Nat.two_pos (by omega)
      _ = 2 ^ 23 * unitsPerOne := Nat.pow_add 2 23 149
  · exact Or.inl (Nat.dvd_trans (Nat.pow_dvd_pow 2 hmany) hfits.2)

/-- The whole part is held exactly, and so is what is cut off. -/
theorem fits_cut (hfits : Fits units) :
    Fits (units / unitsPerOne * unitsPerOne) ∧ Fits (units % unitsPerOne) := by
  rcases unitsPerOne_dvd_or_lt hfits with hwhole | ⟨hdvd, _⟩
  · rw [Nat.div_mul_cancel hwhole, Nat.mod_eq_zero_of_dvd hwhole]
    exact ⟨hfits, fits_zero⟩
  · have hcut : 2 ^ excessBits 24 units ∣ units / unitsPerOne * unitsPerOne :=
      Nat.dvd_trans hdvd (Nat.dvd_mul_left _ _)
    refine ⟨fits_of_dvd hfits (Nat.div_mul_le_self _ _) hcut, ?_⟩
    apply fits_of_dvd hfits (Nat.mod_le _ _)
    exact (Nat.dvd_mod_iff hdvd).2 hfits.2

/-- The nearest whole number is held exactly. -/
theorem fits_nearest (hfits : Fits units) :
    Fits ((2 * units + unitsPerOne) / (2 * unitsPerOne) * unitsPerOne) := by
  rcases unitsPerOne_dvd_or_lt hfits with ⟨whole, hwhole⟩ | ⟨_, hsmall⟩
  · -- A whole number is the nearest to itself.
    have hnearest : (2 * units + unitsPerOne) / (2 * unitsPerOne) = whole := by
      have hone := unitsPerOne_pos
      rw [hwhole]
      apply Nat.div_eq_of_lt_le
      · calc
          whole * (2 * unitsPerOne) = 2 * (unitsPerOne * whole) := by ring
          _ ≤ 2 * (unitsPerOne * whole) + unitsPerOne := Nat.le_add_right _ _
      · calc
          2 * (unitsPerOne * whole) + unitsPerOne < 2 * (unitsPerOne * whole) + 2 * unitsPerOne := by
            omega
          _ = (whole + 1) * (2 * unitsPerOne) := by ring
    rw [hnearest, Nat.mul_comm, ← hwhole]
    exact hfits
  · -- Below `2 ^ 23` the nearest whole number has no more than 24 bits.
    apply fits_whole
    have hone := unitsPerOne_pos
    apply Nat.le_of_lt_succ
    rw [Nat.div_lt_iff_lt_mul (by omega)]
    omega

/-! ## Rounding to whole numbers -/

/-- Rounding toward zero takes the whole part. -/
theorem trunc_finite (negative : Bool) (size : Magnitude) :
    (finite negative size).trunc =
      finite negative ⟨size.units / unitsPerOne * unitsPerOne, (fits_cut size.fits).1⟩ :=
  round_one negative ⟨_, (fits_cut size.fits).1⟩

/-- Rounding to the nearest whole number adds a half and takes the whole part. -/
theorem nearest_finite (negative : Bool) (size : Magnitude) :
    (finite negative size).nearest =
      finite negative ⟨(2 * size.units + unitsPerOne) / (2 * unitsPerOne) * unitsPerOne,
        fits_nearest size.fits⟩ :=
  round_one negative ⟨_, fits_nearest size.fits⟩

/-- What is left when a part of a number is taken away, and is held exactly, is not rounded; it has the
sign of the number, or is zero. -/
theorem exists_sub_part (negative : Bool) {size whole : Magnitude} (part : Magnitude)
    (h : whole.units + part.units = size.units) :
    ∃ (sign : Bool) (left : Magnitude),
      finite negative size - finite negative whole = finite sign left ∧
        (sign = negative ∨ left.units = 0) ∧ left.units = part.units := by
  have hleft : signedUnits negative size + signedUnits (!negative) whole =
      signedUnits negative part := by
    rw [signedUnits_not]
    unfold signedUnits
    split <;> omega
  show ∃ (sign : Bool) (left : Magnitude),
    Single.add (finite negative size) (finite (!negative) whole) = finite sign left ∧ _
  simp only [Single.add, hleft]
  -- A difference of zero takes a sign of its own, whatever the sign of the number was.
  by_cases hnone : part.units = 0
  · have hzero : signedUnits negative part = 0 := by
      unfold signedUnits
      split <;> omega
    rw [if_pos hzero]
    exact ⟨_, _, rfl, Or.inr rfl, hnone.symm⟩
  · have hsome : signedUnits negative part ≠ 0 := by
      unfold signedUnits
      split <;> omega
    have hsign : decide (signedUnits negative part < 0) = negative := by
      cases negative with
      | true => exact decide_eq_true (by simp only [signedUnits, if_true]; omega)
      | false => exact decide_eq_false (by simp only [signedUnits, Bool.false_eq_true, if_false]; omega)
    have hsize : (signedUnits negative part).natAbs = part.units := by
      unfold signedUnits
      split <;> omega
    rw [if_neg hsome, hsign, hsize, round_one]
    exact ⟨negative, part, rfl, Or.inl rfl, rfl⟩

/-- What is left of a number when its whole part is taken away is not rounded. -/
theorem exists_sub_trunc (negative : Bool) (size : Magnitude) :
    ∃ (sign : Bool) (left : Magnitude),
      finite negative size - (finite negative size).trunc = finite sign left ∧
        (sign = negative ∨ left.units = 0) ∧ left.units = size.units % unitsPerOne := by
  rw [trunc_finite]
  exact exists_sub_part negative ⟨size.units % unitsPerOne, (fits_cut size.fits).2⟩
    (Nat.div_add_mod' size.units unitsPerOne)

/-! ## Sums and whole parts of one direction -/

/-- Two numbers of one direction are added without their signs. -/
theorem add_eq_round {sign : Bool} {a b : Magnitude} (hsign : sign = negative ∨ a.units = 0)
    (hb : 0 < b.units) :
    finite sign a + finite negative b = round negative (a.units + b.units) 1 := by
  have hsum : signedUnits sign a + signedUnits negative b =
      if negative then -((a.units + b.units : Nat) : Int) else (a.units + b.units : Nat) := by
    unfold signedUnits
    rcases hsign with rfl | hnone
    · split <;> omega
    · split <;> split <;> omega
  show Single.add (finite sign a) (finite negative b) = _
  simp only [Single.add, hsum]
  cases negative with
  | true =>
      simp only [if_true]
      rw [if_neg (by omega), decide_eq_true (by omega), Int.natAbs_neg, Int.natAbs_natCast]
  | false =>
      simp only [Bool.false_eq_true, if_false]
      rw [if_neg (by omega), decide_eq_false (by omega), Int.natAbs_natCast]

/-- A number that is held to 32 bits has no more than its whole part, and its sign. -/
theorem toInt32_finite (negative : Bool) (size : Magnitude) :
    (finite negative size).toInt32.natAbs ≤ size.units / unitsPerOne ∧
      ((finite negative size).toInt32 = 0 ∨
        (finite negative size).toInt32.sign = if negative then -1 else 1) := by
  unfold toInt32 wholeBetween
  dsimp only
  generalize size.units / unitsPerOne = whole
  cases negative with
  | true =>
      simp only [if_true]
      refine ⟨by omega, ?_⟩
      rcases Nat.eq_zero_or_pos whole with hnone | hsome
      · exact Or.inl (by omega)
      · exact Or.inr (Int.sign_eq_neg_one_of_neg (by omega))
  | false =>
      simp only [Bool.false_eq_true, if_false]
      refine ⟨by omega, ?_⟩
      rcases Nat.eq_zero_or_pos whole with hnone | hsome
      · exact Or.inl (by omega)
      · exact Or.inr (Int.sign_eq_one_of_pos (by omega))

end Single

end OverlayScrollbar
