import OverlayScrollbar.Proofs.Single.Lengths

/-!
# Numbers that are limited

A number that is limited from both sides is finite, whatever it was before, and a number that is limited to
the interval from zero to one stays a part of what it is multiplied by. What is not a number can come in
only where two infinities meet, or zero and an infinity.

- `Single.roundedSum_signedUnits` : the units of a number are not rounded
- `Single.isNaN_abs`, `Single.isNaN_hypot`, `Single.isNaN_add_left` : results that are numbers
- `Single.isFinite_max_min`, `Single.isFinite_sub_of_nonneg`, `Single.isFinite_half` : finite results
- `Single.clampUnit_mem`     : a number that is limited to the interval from zero to one
- `Single.mul_mem`, `Single.div_mem`, `Single.sub_mem` : parts of a length
- `Single.sub_pos_of_lt`, `Single.le_add_left` : what is taken from a length or added to it
- `Single.toUInt8_le_toUInt8` : the byte of a larger number is not smaller
-/

namespace OverlayScrollbar

namespace Single

variable {a b x : Single}

/-! ## Units -/

theorem natAbs_signedUnits (negative : Bool) (size : Magnitude) :
    (signedUnits negative size).natAbs = size.units := by
  cases negative with
  | true => exact Int.natAbs_neg _
  | false => rfl

/-- The units of a number are not rounded. -/
theorem roundedSum_signedUnits (negative : Bool) (size : Magnitude) :
    roundedSum (signedUnits negative size) = signedUnits negative size := by
  apply roundedSum_of_fits
  rw [natAbs_signedUnits]
  exact size.fits

/-! ## Results that are numbers -/

theorem eq_nan_of_isNaN (h : a.isNaN = true) : a = nan := by
  cases a with
  | nan => rfl
  | _ => cases h

theorem nan_mul (a : Single) : nan * a = nan :=
  rfl

theorem isNaN_abs (h : a.isNaN = false) : a.abs.isNaN = false := by
  cases a with
  | nan => exact h
  | _ => rfl

theorem isNaN_neg (h : a.isNaN = false) : (-a).isNaN = false := by
  cases a with
  | nan => exact h
  | _ => rfl

theorem isNaN_hypot (ha : a.isNaN = false) (hb : b.isNaN = false) : (hypot a b).isNaN = false := by
  cases a with
  | nan => cases ha
  | infinity _ => cases b <;> rfl
  | finite _ _ =>
      cases b with
      | nan => cases hb
      | infinity _ => rfl
      | finite _ _ => exact isNaN_round _ _ _

theorem isNaN_add_left (ha : a.IsFinite) (hb : b.isNaN = false) : (a + b).isNaN = false := by
  cases a with
  | finite _ _ =>
      cases b with
      | nan => cases hb
      | infinity _ => rfl
      | finite _ _ => exact isNaN_add rfl trivial
  | _ => exact ha.elim

theorem isNaN_max (ha : a.isNaN = false) (hb : b.isNaN = false) : (max a b).isNaN = false := by
  show (Single.max a b).isNaN = false
  unfold Single.max
  split
  · exact hb
  · split
    · exact hb
    · exact ha

theorem isNaN_min (ha : a.isNaN = false) (hb : b.isNaN = false) : (min a b).isNaN = false := by
  show (Single.min a b).isNaN = false
  unfold Single.min
  split
  · exact hb
  · split
    · exact hb
    · exact ha

theorem left_le_max (ha : a.isNaN = false) : a ≤ max a b := by
  show a ≤ Single.max a b
  unfold Single.max
  rw [ha, if_neg Bool.false_ne_true]
  split
  · rename_i hlt
    exact le_of_lt hlt
  · exact le_refl_iff.2 ha

theorem right_le_max (ha : a.isNaN = false) (hb : b.isNaN = false) : b ≤ max a b := by
  show b ≤ Single.max a b
  unfold Single.max
  rw [ha, if_neg Bool.false_ne_true]
  split
  · exact le_refl_iff.2 hb
  · rename_i hnot
    exact (not_lt_iff ha hb).1 hnot

theorem max_zero_eq_right (h : a < 0) : max a 0 = 0 := by
  show Single.max a 0 = 0
  unfold Single.max
  rw [isNaN_of_le_left (le_of_lt h), if_neg Bool.false_ne_true]
  exact if_pos h

/-! ## Finite results -/

/-- Limiting a number to zero keeps it above zero, and brings nothing above it. -/
theorem zero_lt_max_zero_iff : 0 < max a 0 ↔ 0 < a := by
  constructor
  · intro h
    -- What is not a number gives way to zero, which is not above zero.
    cases hnumber : a.isNaN with
    | true =>
        rw [eq_nan_of_isNaN hnumber] at h
        exact absurd h (by decide +kernel)
    | false =>
        apply lt_of_not_le hnumber isNaN_zero
        intro hnone
        exact not_lt_of_le (max_le hnone (le_refl_iff.2 isNaN_zero)) h
  · intro h
    exact lt_of_lt_of_le h (left_le_max (isNaN_of_le_right (le_of_lt h)))

theorem isFinite_max_zero (h : a.IsFinite) : (max a 0).IsFinite := by
  show (Single.max a 0).IsFinite
  unfold Single.max
  rw [h.isNaN, if_neg Bool.false_ne_true]
  split
  · exact isFinite_of_zero rank?_zero
  · exact h

theorem isFinite_min_zero (h : 0 ≤ a) : (min a 0).IsFinite := by
  have hzero : (0 : Single).IsFinite := isFinite_of_zero rank?_zero
  show (Single.min a 0).IsFinite
  unfold Single.min
  rw [isNaN_of_le_right h, if_neg Bool.false_ne_true]
  split
  · exact hzero
  · rename_i hnot
    exact isFinite_of_mem h ((not_lt_iff isNaN_zero (isNaN_of_le_right h)).1 hnot) hzero

/-- A number that is limited from both sides is finite, and so is what was none. -/
theorem isFinite_max_min (a : Single) (hb : b.IsFinite) : (max (min a b) 0).IsFinite := by
  have hbelow : max (min a b) 0 ≤ max b 0 := max_zero_le_max_zero (min_le_right a hb.isNaN)
  exact isFinite_of_mem (zero_le_max_left _) hbelow (isFinite_max_zero hb)

theorem isFinite_half (h : a.IsFinite) : (a / 2).IsFinite := by
  cases a with
  | finite negative size =>
      have hhalf : finite negative size / 2 =
          round negative (size.units * unitsPerOne) (2 * unitsPerOne) := by
        show finite negative size / ofNat 2 = _
        rw [ofNat_eq_finite (by decide), finite_div negative size]
        exact Nat.mul_pos Nat.two_pos unitsPerOne_pos
      rw [hhalf]
      apply isFinite_round size.fits
      rw [Nat.mul_comm, Nat.mul_assoc, Nat.mul_comm 2]
      exact Nat.le_mul_of_pos_right _ Nat.two_pos
  | _ => exact h.elim

theorem zero_le_half (h : a.IsFinite) (hnonneg : 0 ≤ a) : 0 ≤ a / 2 := by
  have hzero : (0 : Single) ≤ 0 / 2 := by decide +kernel
  exact le_trans hzero (div_le_div_right (isFinite_of_zero rank?_zero) h (by decide +kernel) hnonneg)

/-- The difference of two finite lengths is finite, whichever is the larger one. -/
theorem isFinite_sub_of_nonneg (ha : a.IsFinite) (hb : b.IsFinite) (hleft : 0 ≤ a) (hright : 0 ≤ b) :
    (a - b).IsFinite := by
  rcases exists_measures ha hleft with ⟨x, hx⟩
  rcases exists_measures hb hright with ⟨y, hy⟩
  obtain ⟨m, hm, hdifference⟩ : ∃ m, Fits m ∧ ((x : Int) - y).natAbs ≤ m := by
    rcases Nat.le_total x y with hle | hle
    · exact ⟨y, hy.fits, by omega⟩
    · exact ⟨x, hx.fits, by omega⟩
  have hbound := natAbs_roundedSum_le hm hdifference
  exact isFinite_of_rank? (hx.sub hy) (Nat.lt_of_le_of_lt hbound hm.1)

/-! ## Parts of one -/

theorem measures_one : Measures 1 unitsPerOne := by
  have hone := measures_ofNat (j := 1) (by decide)
  rwa [Nat.one_mul] at hone

theorem clampUnit_mem (h : a.isNaN = false) : 0 ≤ a.clampUnit ∧ a.clampUnit ≤ 1 := by
  have hzero : (0 : Single) ≤ 1 := by decide +kernel
  have hone : (1 : Single).isNaN = false := isNaN_of_le_right hzero
  unfold clampUnit
  split
  · exact ⟨le_refl_iff.2 isNaN_zero, hzero⟩
  · rename_i hlow
    split
    · exact ⟨hzero, le_refl_iff.2 hone⟩
    · rename_i hhigh
      exact ⟨(not_lt_iff h isNaN_zero).1 hlow, (not_lt_iff hone h).1 hhigh⟩

theorem exists_measures_clampUnit (h : a.isNaN = false) :
    ∃ n, Measures a.clampUnit n ∧ n ≤ unitsPerOne := by
  rcases clampUnit_mem h with ⟨hlow, hhigh⟩
  rcases exists_measures (isFinite_of_mem hlow hhigh measures_one.isFinite) hlow with ⟨n, hn⟩
  exact ⟨n, hn, (hn.le_iff measures_one).1 hhigh⟩

/-- A part of a length is finite, and is not longer. -/
theorem Measures.part {m n : Nat} (ha : Measures a m) (hb : Measures b n) (hn : n ≤ unitsPerOne) :
    ∃ k, Measures (a * b) k ∧ k ≤ m := by
  have hproduct : m * n ≤ unitsPerOne * m := by
    rw [Nat.mul_comm]
    exact Nat.mul_le_mul_right m hn
  exact ⟨_, ha.mul hb ha.fits hproduct, roundBits_le (by decide) ha.fits.2 hproduct⟩

/-- The same of numbers in order. -/
theorem mul_mem (ha : a.IsFinite) (hnonneg : 0 ≤ a) (hlow : 0 ≤ b) (hhigh : b ≤ 1) :
    (a * b).IsFinite ∧ 0 ≤ a * b ∧ a * b ≤ a := by
  have hb := isFinite_of_mem hlow hhigh measures_one.isFinite
  rcases exists_measures ha hnonneg with ⟨m, hm⟩
  rcases exists_measures hb hlow with ⟨n, hn⟩
  rcases hm.part hn ((hn.le_iff measures_one).1 hhigh) with ⟨k, hk, hle⟩
  exact ⟨hk.isFinite, (measures_zero.le_iff hk).2 (Nat.zero_le k), (hk.le_iff hm).2 hle⟩

/-- A length over a longer one. -/
theorem div_mem (hb : b.IsFinite) (hpos : 0 < b) (hlow : 0 ≤ a) (hhigh : a ≤ b) :
    0 ≤ a / b ∧ a / b ≤ 1 := by
  have ha := isFinite_of_mem hlow hhigh hb
  constructor
  · have hnone : (0 : Single) ≤ 0 / b := le_iff.2 ⟨0, 0, rank?_zero, rank?_zero_div hpos, Int.le_refl 0⟩
    exact le_trans hnone (div_le_div_right measures_zero.isFinite ha hpos hlow)
  · rw [← div_self hb hpos]
    exact div_le_div_right ha hb hpos hhigh

/-- What is left of a length. -/
theorem sub_mem (ha : a.IsFinite) (hb : b.IsFinite) (hlow : 0 ≤ b) (hhigh : b ≤ a) :
    (a - b).IsFinite ∧ 0 ≤ a - b ∧ a - b ≤ a := by
  rcases exists_measures ha (le_trans hlow hhigh) with ⟨m, hm⟩
  rcases exists_measures hb hlow with ⟨n, hn⟩
  have hrest := hm.sub_of_le hn ((hn.le_iff hm).1 hhigh)
  have hmost : roundBits 24 (m - n) 1 ≤ m := roundBits_le (by decide) hm.fits.2 (by omega)
  exact ⟨hrest.isFinite, (measures_zero.le_iff hrest).2 (Nat.zero_le _), (hrest.le_iff hm).2 hmost⟩

/-- What is left of a length above another does not vanish. -/
theorem sub_pos_of_lt (ha : a.IsFinite) (hb : b.IsFinite) (hlow : 0 ≤ b) (h : b < a) : 0 < a - b := by
  rcases exists_measures ha (le_trans hlow (le_of_lt h)) with ⟨m, hm⟩
  rcases exists_measures hb hlow with ⟨n, hn⟩
  have hroom := (hn.lt_iff hm).1 h
  have hleft : 1 ≤ roundBits 24 (m - n) 1 :=
    le_roundBits (by decide) Nat.one_pos (by decide) (by omega)
  exact (measures_zero.lt_iff (hm.sub_of_le hn (Nat.le_of_lt hroom))).2 hleft

/-- To add a length does not make a number smaller. -/
theorem le_add_left (ha : a.IsFinite) (hnonneg : 0 ≤ a) (hb : b.IsFinite) : b ≤ a + b := by
  rcases exists_measures ha hnonneg with ⟨m, hm⟩
  rcases hm.cases with ⟨negative, size, rfl, _, hunits⟩
  cases b with
  | finite negative' size' =>
      have hsum := roundedSum_mono (show signedUnits negative' size' ≤
        signedUnits negative size + signedUnits negative' size' by omega)
      rw [roundedSum_signedUnits] at hsum
      exact le_iff.2 ⟨_, _, rfl, rank?_add, hsum⟩
  | _ => exact hb.elim

theorem mul_comm (a b : Single) : a * b = b * a := by
  show Single.mul a b = Single.mul b a
  cases a <;> cases b <;> simp only [Single.mul, bne_comm, Nat.mul_comm]

/-- Products with one positive factor are in the order of the other factors. -/
theorem mul_le_mul_right (hx : x.IsFinite) (hpos : 0 < x) (h : a ≤ b) : a * x ≤ b * x := by
  rw [mul_comm a, mul_comm b]
  exact mul_le_mul_left hx hpos h

/-! ## Bytes -/

theorem wholeUpTo_le (limit : Nat) (a : Single) : a.wholeUpTo limit ≤ limit := by
  unfold wholeUpTo
  split
  · exact Nat.zero_le _
  · split
    · exact Nat.zero_le _
    · exact Nat.le_refl _
  · split
    · exact Nat.zero_le _
    · exact Nat.min_le_right _ _

theorem wholeUpTo_le_wholeUpTo (limit : Nat) (h : a ≤ b) :
    a.wholeUpTo limit ≤ b.wholeUpTo limit := by
  rcases le_cases h with rfl | rfl | ⟨negative, size, negative', size', rfl, rfl, hle⟩
  · exact Nat.zero_le _
  · exact wholeUpTo_le limit a
  · cases negative with
    | true => exact Nat.zero_le _
    | false =>
        cases negative' with
        | true =>
            -- Only the two zeros are in this order.
            have hnone : (size.units : Int) ≤ -(size'.units : Int) := hle
            have hunits : size.units = 0 := by omega
            show min (size.units / unitsPerOne) limit ≤ 0
            rw [hunits, Nat.zero_div]
            exact Nat.min_le_left 0 limit
        | false =>
            have hunits : size.units ≤ size'.units := Int.ofNat_le.1 hle
            have hwhole := Nat.div_le_div_right (c := unitsPerOne) hunits
            show min (size.units / unitsPerOne) limit ≤ min (size'.units / unitsPerOne) limit
            omega

theorem toUInt8_le_toUInt8 (h : a ≤ b) : a.toUInt8 ≤ b.toUInt8 := by
  have hbyte : ∀ x : Single, x.toUInt8.toNat = x.wholeUpTo 255 := by
    intro x
    have hmost := wholeUpTo_le 255 x
    show (UInt8.ofNat (x.wholeUpTo 255)).toNat = _
    exact UInt8.toNat_ofNat_of_lt (Nat.lt_succ_of_le hmost)
  rw [UInt8.le_iff_toNat_le, hbyte, hbyte]
  exact wholeUpTo_le_wholeUpTo 255 h

end Single

end OverlayScrollbar
