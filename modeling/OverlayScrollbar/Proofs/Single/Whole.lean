import OverlayScrollbar.Proofs.Single.Rank

/-!
# Numbers that are held exactly

Whole numbers and halves are held exactly as long as they are not too large, so that rounding never
takes a number past one of them. A number of pixels that was rounded and then cut off is less than one
pixel away from what it stands for.

- `Single.fits_whole`, `Single.fits_half` : whole numbers and halves
- `Single.round_mul`                      : a number that is held exactly is not rounded
- `Single.mul_one`, `Single.one_mul`, `Single.div_self` : the number one
- `Single.exists_trunc_round`, `Single.exists_trunc_sub` : the error of a rounded and cut length
- `Single.ofNat_le_nearest_round`         : a quotient of at least a half is rounded up
- `Single.rank?_mul_of_zero`, `Single.rank?_div_of_zero` : what is nothing stays so
-/

namespace OverlayScrollbar

namespace Single

variable {a b : Single} {negative : Bool} {num den i j m : Nat}

/-! ## Whole numbers and halves -/

theorem unitsPerOne_pos : 0 < unitsPerOne :=
  Nat.two_pow_pos 149

/-- One is two halves. -/
theorem unitsPerOne_eq : unitsPerOne = 2 * 2 ^ 148 := by
  decide +kernel

theorem fits_mul_two_pow (hj : j ≤ 2 ^ 24) (hi : i ≤ 149) : Fits (j * 2 ^ i) := by
  constructor
  · calc
      j * 2 ^ i ≤ 2 ^ 24 * 2 ^ 149 := Nat.mul_le_mul hj (Nat.pow_le_pow_right Nat.two_pos hi)
      _ < unitLimit := by decide +kernel
  · rcases Nat.eq_or_lt_of_le hj with rfl | hlt
    · rw [← Nat.pow_add, excessBits_two_pow]
      exact Nat.pow_dvd_pow 2 (by omega)
    · -- Fewer than 2 ^ 24 multiples have no bits beyond the multiple itself.
      have hbits : j * 2 ^ i < 2 ^ (24 + i) := by
        rw [Nat.pow_add]
        exact Nat.mul_lt_mul_of_pos_right hlt (Nat.two_pow_pos i)
      have hexcess := excessBits_le_of_lt (show 0 < 24 by omega) hbits
      exact Nat.dvd_trans (Nat.pow_dvd_pow 2 hexcess) (Nat.dvd_mul_left _ _)

theorem fits_whole (hj : j ≤ 2 ^ 24) : Fits (j * unitsPerOne) :=
  fits_mul_two_pow hj (Nat.le_refl 149)

theorem fits_half (hj : j ≤ 2 ^ 24) : Fits (j * 2 ^ 148) :=
  fits_mul_two_pow hj (by omega)

theorem zero_lt_finite {size : Magnitude} (h : 0 < size.units) : 0 < finite false size :=
  lt_iff.2 ⟨0, _, rank?_zero, rfl, Int.natCast_pos.2 h⟩

theorem units_pos_of_zero_lt {size : Magnitude} (h : 0 < finite false size) : 0 < size.units := by
  rcases lt_iff.1 h with ⟨z, y, hz, hy, hlt⟩
  cases rank?_zero.symm.trans hz
  cases hy
  exact Int.natCast_pos.1 hlt

/-- A quotient by a length is rounded once. -/
theorem finite_div (negative : Bool) (size : Magnitude) {length : Magnitude}
    (hlength : 0 < length.units) :
    finite negative size / finite false length =
      round negative (size.units * unitsPerOne) length.units := by
  show (if length.units = 0 then _ else round (negative != false) _ _) = _
  rw [if_neg (Nat.ne_of_gt hlength), Bool.bne_false]

/-! ## Numbers that are not rounded -/

theorem round_mul (negative : Bool) (hden : 0 < den) (size : Magnitude) :
    round negative (den * size.units) den = finite negative size := by
  have hexact : roundBits 24 (den * size.units) den = size.units :=
    roundBits_mul hden size.fits.2
  rcases size with ⟨units, fits⟩
  unfold round
  simp only [hexact]
  exact dif_pos fits.1

theorem round_one (negative : Bool) (size : Magnitude) :
    round negative size.units 1 = finite negative size := by
  have hexact := round_mul negative Nat.one_pos size
  rw [Nat.one_mul] at hexact
  exact hexact

theorem round_zero (negative : Bool) (hden : 0 < den) : round negative 0 den = zero negative :=
  round_mul negative hden ⟨0, fits_zero⟩

theorem roundedUnits_mul (hden : 0 < den) (hm : Fits m) : roundedUnits (den * m) den = m := by
  unfold roundedUnits
  rw [roundBits_mul hden hm.2]
  exact Nat.min_eq_left (Nat.le_of_lt hm.1)

theorem le_roundedUnits (hden : 0 < den) (hm : Fits m) (h : den * m ≤ num) :
    m ≤ roundedUnits num den := by
  calc
    m = roundedUnits (den * m) den := (roundedUnits_mul hden hm).symm
    _ ≤ roundedUnits num den := roundedUnits_mono den h

theorem roundedSum_of_fits {sum : Int} (h : Fits sum.natAbs) : roundedSum sum = sum := by
  have hexact := roundedUnits_mul Nat.one_pos h
  rw [Nat.one_mul] at hexact
  unfold roundedSum
  rw [hexact]
  split
  · omega
  · omega

theorem ofNat_eq_finite (hj : j ≤ 2 ^ 24) :
    ofNat j = finite false ⟨j * unitsPerOne, fits_whole hj⟩ :=
  round_one false ⟨j * unitsPerOne, fits_whole hj⟩

theorem rank?_ofNat (hj : j ≤ 2 ^ 24) : (ofNat j).rank? = some (j * unitsPerOne : Nat) := by
  rw [ofNat_eq_finite hj]
  rfl

/-- Rounding keeps the order of whole numbers. -/
theorem ofNat_le_ofNat {k : Nat} (h : j ≤ k) : ofNat j ≤ ofNat k := by
  have hrounded := roundedUnits_mono 1 (Nat.mul_le_mul_right unitsPerOne h)
  exact le_iff.2 ⟨_, _, rank?_round false (j * unitsPerOne) 1,
    rank?_round false (k * unitsPerOne) 1, Int.ofNat_le.2 hrounded⟩

/-! ## One -/

theorem one_eq_finite : (1 : Single) = finite false ⟨1 * unitsPerOne, fits_whole (by decide)⟩ :=
  ofNat_eq_finite (by decide)

theorem mul_one (ha : a.IsFinite) : a * 1 = a := by
  cases a with
  | finite negative size =>
      rw [one_eq_finite]
      show round (negative != false) (size.units * (1 * unitsPerOne)) unitsPerOne = _
      rw [Nat.one_mul, Nat.mul_comm, Bool.bne_false]
      exact round_mul negative unitsPerOne_pos size
  | _ => exact ha.elim

theorem one_mul (ha : a.IsFinite) : 1 * a = a := by
  cases a with
  | finite negative size =>
      rw [one_eq_finite]
      show round (false != negative) (1 * unitsPerOne * size.units) unitsPerOne = _
      rw [Nat.one_mul, Bool.false_bne]
      exact round_mul negative unitsPerOne_pos size
  | _ => exact ha.elim

theorem div_self (ha : a.IsFinite) (hpos : 0 < a) : a / a = 1 := by
  rcases exists_finite_of_zero_lt ha hpos with ⟨size, rfl⟩
  have hunits := units_pos_of_zero_lt hpos
  rw [one_eq_finite, finite_div false size hunits]
  have hnum : size.units * unitsPerOne = size.units * (1 * unitsPerOne) := by rw [Nat.one_mul]
  rw [hnum]
  exact round_mul false hunits ⟨1 * unitsPerOne, fits_whole (by decide)⟩

/-! ## Differences -/

theorem signedUnits_not (negative : Bool) (size : Magnitude) :
    signedUnits (!negative) size = -signedUnits negative size := by
  cases negative <;> simp [signedUnits]

theorem rank?_sub {negative negative' : Bool} {size size' : Magnitude} :
    (finite negative size - finite negative' size').rank? =
      some (roundedSum (signedUnits negative size - signedUnits negative' size')) := by
  have hsum : (finite negative size - finite negative' size').rank? =
      some (roundedSum (signedUnits negative size + signedUnits (!negative') size')) := rank?_add
  rw [hsum, signedUnits_not, Int.sub_eq_add_neg]

/-- The difference of two lengths is their exact difference, rounded once. -/
theorem sub_eq_round (size size' : Magnitude) :
    finite false size - finite false size' =
      round (decide (size.units < size'.units))
        ((size.units : Int) - size'.units).natAbs 1 := by
  show Single.add (finite false size) (finite true size') = _
  have hsum : signedUnits false size + signedUnits true size' =
      (size.units : Int) - size'.units := rfl
  simp only [Single.add, hsum]
  split
  · rename_i hzero
    have hsame : ¬size.units < size'.units := by omega
    rw [hzero, decide_eq_false hsame]
    exact (round_zero false Nat.one_pos).symm
  · have hless : ((size.units : Int) - size'.units < 0) ↔ size.units < size'.units := by omega
    simp only [hless]

theorem isFinite_of_rank? {r : Int} (h : a.rank? = some r) (hr : r.natAbs < unitLimit) :
    a.IsFinite := by
  cases a with
  | nan => cases h
  | finite _ _ => trivial
  | infinity negative =>
      cases h
      cases negative with
      | true =>
          simp only [if_true, Int.natAbs_neg, Int.natAbs_natCast] at hr
          exact absurd hr (Nat.lt_irrefl _)
      | false =>
          simp only [Bool.false_eq_true, if_false, Int.natAbs_natCast] at hr
          exact absurd hr (Nat.lt_irrefl _)

/-- What is left of a length above another does not vanish. -/
theorem zero_lt_sub {size size' : Magnitude} (h : size'.units < size.units) :
    0 < finite false size - finite false size' := by
  have hunit : Fits 1 := fits_mul_two_pow (j := 1) (i := 0) (by decide) (by decide)
  have hleft : 1 ≤ roundedUnits ((size.units : Int) - size'.units).natAbs 1 := by
    apply le_roundedUnits Nat.one_pos hunit
    omega
  rw [sub_eq_round, decide_eq_false (Nat.lt_asymm h)]
  exact lt_iff.2 ⟨0, _, rank?_zero, rank?_round false _ _, Int.natCast_pos.2 hleft⟩

theorem le_infinity (h : a.isNaN = false) : a ≤ infinity false := by
  cases a with
  | nan => cases h
  | infinity negative => cases negative <;> decide +kernel
  | finite negative size =>
      exact le_iff.2 ⟨_, _, rfl, rfl, Int.le_of_lt (signedUnits_mem negative size).2⟩

/-- Of two numbers, a smaller one that is not zero is the smaller one exactly. -/
theorem min_eq_right_of_le (h : b ≤ a) (hpos : 0 < b) : min a b = b := by
  show Single.min a b = b
  unfold Single.min
  split
  · rfl
  · split
    · rfl
    · rename_i hnot
      -- Neither is below the other: only two zeros could then differ.
      have hsame := sameSize_iff.2 ⟨(not_lt_iff (isNaN_of_le_right (le_of_lt hpos))
        (isNaN_of_le_right h)).1 hnot, h⟩
      rcases eq_or_zero_of_rank? (rank?_of_sameSize hsame) with heq | ⟨_, hzero⟩
      · exact heq
      · rcases lt_iff.1 hpos with ⟨r, s, hr, hs, hlt⟩
        cases rank?_zero.symm.trans hr
        cases hzero.symm.trans hs
        omega

theorem max_zero_eq_left (h : 0 < a) : max a 0 = a := by
  show Single.max a 0 = a
  unfold Single.max
  rw [isNaN_of_le_right (le_of_lt h), if_neg Bool.false_ne_true]
  exact if_neg (not_lt_of_le (le_of_lt h))

theorem min_le_left (b : Single) (ha : a.isNaN = false) : min a b ≤ a := by
  show Single.min a b ≤ a
  unfold Single.min
  rw [ha, if_neg Bool.false_ne_true]
  split
  · rename_i hlt
    exact le_of_lt hlt
  · exact le_refl_iff.2 ha

theorem rank?_max_zero_of_le (h : a ≤ 0) : (max a 0).rank? = some 0 := by
  have hzero : (0 : Single) ≤ 0 := le_refl_iff.2 isNaN_zero
  have hsame := sameSize_iff.2 ⟨max_le h hzero, zero_le_max_left a⟩
  exact (rank?_of_sameSize hsame).trans rank?_zero

/-! ## Lengths that are rounded and cut off -/

theorem trunc_whole (negative : Bool) (size : Magnitude) (h : size.units ≤ 2 ^ 24 * unitsPerOne) :
    ∃ fits, (finite negative size).trunc =
      finite negative ⟨size.units / unitsPerOne * unitsPerOne, fits⟩ := by
  have hwhole : size.units / unitsPerOne ≤ 2 ^ 24 := by
    apply Nat.div_le_of_le_mul
    rw [Nat.mul_comm]
    exact h
  have htrunc : (finite negative size).trunc =
      round negative (size.units / unitsPerOne * unitsPerOne) 1 := rfl
  rw [htrunc]
  exact ⟨fits_whole hwhole, round_one negative ⟨_, fits_whole hwhole⟩⟩

/-- A length lies between two whole numbers, or is one. -/
theorem exists_whole_le (num : Nat) (hden : 0 < den) :
    ∃ below above, den * (below * unitsPerOne) ≤ num ∧ num ≤ den * (above * unitsPerOne) ∧
      num < den * ((below + 1) * unitsPerOne) ∧
      den * (above * unitsPerOne) < num + den * unitsPerOne := by
  have hproduct : ∀ i, den * (i * unitsPerOne) = den * unitsPerOne * i := by
    intro i
    rw [Nat.mul_assoc, Nat.mul_comm i]
  have hlow := Nat.mul_div_le num (den * unitsPerOne)
  have hhigh := Nat.lt_mul_div_succ num (Nat.mul_pos hden unitsPerOne_pos)
  simp only [hproduct]
  generalize num / (den * unitsPerOne) = below at hlow hhigh
  generalize den * unitsPerOne = unit at hlow hhigh ⊢
  rw [Nat.mul_add_one] at hhigh
  -- A whole length is its own bound on both sides.
  by_cases hexact : num = unit * below
  · refine ⟨below, below, hlow, ?_, ?_, ?_⟩
    · omega
    · rw [Nat.mul_add_one]
      exact hhigh
    · omega
  · refine ⟨below, below + 1, hlow, ?_, ?_, ?_⟩
    · rw [Nat.mul_add_one]
      omega
    · rw [Nat.mul_add_one]
      exact hhigh
    · rw [Nat.mul_add_one]
      omega

/-- The whole number above a length is no larger than a whole number that the length is not above. -/
theorem le_of_whole_lt (h : num ≤ den * (j * unitsPerOne))
    (hi : den * (i * unitsPerOne) < num + den * unitsPerOne) : i ≤ j := by
  have hless : den * unitsPerOne * i < den * unitsPerOne * (j + 1) := by
    calc
      den * unitsPerOne * i = den * (i * unitsPerOne) := by
        rw [Nat.mul_assoc, Nat.mul_comm unitsPerOne]
      _ < num + den * unitsPerOne := hi
      _ ≤ den * (j * unitsPerOne) + den * unitsPerOne := Nat.add_le_add_right h _
      _ = den * unitsPerOne * (j + 1) := by
        rw [Nat.mul_add_one, Nat.mul_assoc den unitsPerOne, Nat.mul_comm unitsPerOne j]
  exact Nat.le_of_lt_succ (Nat.lt_of_mul_lt_mul_left hless)

/-- To round a length, and then to cut off what is not whole, changes it by less than one. -/
theorem exists_trunc_round (negative : Bool) (hden : 0 < den) (hj : j ≤ 2 ^ 24)
    (h : num ≤ den * (j * unitsPerOne)) :
    ∃ (i : Nat) (size : Magnitude), (round negative num den).trunc = finite negative size ∧
      size.units = i * unitsPerOne ∧ i ≤ j ∧
      num < den * ((i + 1) * unitsPerOne) ∧ den * (i * unitsPerOne) < num + den * unitsPerOne := by
  rcases exists_whole_le num hden with ⟨below, above, hlow, hcover, hnext, hhigh⟩
  have habove : above ≤ j := le_of_whole_lt h hhigh
  have hbelow : below ≤ above := by
    have hless : den * (below * unitsPerOne) ≤ den * (above * unitsPerOne) := Nat.le_trans hlow hcover
    exact Nat.le_of_mul_le_mul_right (Nat.le_of_mul_le_mul_left hless hden) unitsPerOne_pos
  have hsmall : above ≤ 2 ^ 24 := Nat.le_trans habove hj
  -- Rounding does not go past either of them, and so neither does cutting off.
  have hrounded : below * unitsPerOne ≤ roundBits 24 num den :=
    le_roundBits (by decide) hden (fits_whole (Nat.le_trans hbelow hsmall)).2 hlow
  have hrounded' : roundBits 24 num den ≤ above * unitsPerOne :=
    roundBits_le (by decide) (fits_whole hsmall).2 hcover
  have hlimit : roundBits 24 num den < unitLimit :=
    Nat.lt_of_le_of_lt hrounded' (fits_whole hsmall).1
  have hbound : roundBits 24 num den ≤ 2 ^ 24 * unitsPerOne :=
    Nat.le_trans hrounded' (Nat.mul_le_mul_right _ hsmall)
  rcases trunc_whole negative ⟨_, fits_roundBits hlimit⟩ hbound with ⟨fits, htrunc⟩
  have hleast : below ≤ roundBits 24 num den / unitsPerOne :=
    (Nat.le_div_iff_mul_le unitsPerOne_pos).2 hrounded
  have hmost : roundBits 24 num den / unitsPerOne ≤ above :=
    Nat.div_le_of_le_mul (Nat.mul_comm unitsPerOne _ ▸ hrounded')
  refine ⟨roundBits 24 num den / unitsPerOne, ⟨_, fits⟩, ?_, rfl, Nat.le_trans hmost habove, ?_, ?_⟩
  · unfold round
    rw [dif_pos hlimit]
    exact htrunc
  · calc
      num < den * ((below + 1) * unitsPerOne) := hnext
      _ ≤ den * ((roundBits 24 num den / unitsPerOne + 1) * unitsPerOne) :=
        Nat.mul_le_mul_left _ (Nat.mul_le_mul_right _ (Nat.succ_le_succ hleast))
  · calc
      den * (roundBits 24 num den / unitsPerOne * unitsPerOne) ≤ den * (above * unitsPerOne) :=
        Nat.mul_le_mul_left _ (Nat.mul_le_mul_right _ hmost)
      _ < num + den * unitsPerOne := hhigh

/-- The same of a whole multiple of a length. -/
theorem exists_trunc_mul {count : Nat} {size : Magnitude} (hcount : count ≤ 2 ^ 24)
    (hj : j ≤ 2 ^ 24) (h : count * size.units ≤ j * unitsPerOne) :
    (ofNat count * finite false size).IsFinite ∧
    ∃ (i : Nat) (product : Magnitude),
      (ofNat count * finite false size).trunc = finite false product ∧
      product.units = i * unitsPerOne ∧ i ≤ j ∧ count * size.units < (i + 1) * unitsPerOne := by
  have hproduct : ofNat count * finite false size =
      round false (unitsPerOne * (count * size.units)) unitsPerOne := by
    rw [ofNat_eq_finite hcount, ← Nat.mul_assoc, Nat.mul_comm unitsPerOne]
    rfl
  have hnum : unitsPerOne * (count * size.units) ≤ unitsPerOne * (j * unitsPerOne) :=
    Nat.mul_le_mul_left _ h
  rw [hproduct]
  refine ⟨isFinite_round (fits_whole hj) hnum, ?_⟩
  rcases exists_trunc_round false unitsPerOne_pos hj hnum with
    ⟨i, product, htrunc, hunits, hi, hlow, _⟩
  exact ⟨i, product, htrunc, hunits, hi, Nat.lt_of_mul_lt_mul_left hlow⟩

/-- The same of a difference of lengths, which may be negative. -/
theorem exists_trunc_sub {size size' : Magnitude} (hj : j ≤ 2 ^ 24)
    (h : size.units ≤ j * unitsPerOne) (h' : size'.units ≤ j * unitsPerOne) :
    (finite false size - finite false size').IsFinite ∧
    ∃ (i : Int) (negative : Bool) (left : Magnitude),
      (finite false size - finite false size').trunc = finite negative left ∧
      signedUnits negative left = i * unitsPerOne ∧ i.natAbs ≤ j ∧
      i * unitsPerOne < (size.units : Int) - size'.units + unitsPerOne := by
  have hbound : ((size.units : Int) - size'.units).natAbs ≤ 1 * (j * unitsPerOne) := by omega
  rcases exists_trunc_round (decide (size.units < size'.units)) Nat.one_pos hj hbound with
    ⟨i, left, htrunc, hunits, hsmall, hlow, hhigh⟩
  rw [← sub_eq_round] at htrunc
  refine ⟨sub_eq_round size size' ▸ isFinite_round (fits_whole hj) hbound, ?_⟩
  rw [Nat.one_mul, Nat.add_one_mul] at hlow
  rw [Nat.one_mul, Nat.one_mul] at hhigh
  -- The difference is rounded by its size, so that its sign decides on which side it is cut.
  by_cases hless : size.units < size'.units
  · rw [decide_eq_true hless] at htrunc
    refine ⟨-i, true, left, htrunc, ?_, by omega, ?_⟩
    · show -(left.units : Int) = -i * unitsPerOne
      rw [hunits, Int.natCast_mul, Int.neg_mul]
    · rw [Int.neg_mul, ← Int.natCast_mul]
      omega
  · rw [decide_eq_false hless] at htrunc
    refine ⟨i, false, left, htrunc, ?_, by omega, ?_⟩
    · show (left.units : Int) = i * unitsPerOne
      rw [hunits, Int.natCast_mul]
    · rw [← Int.natCast_mul]
      omega

/-! ## Whole numbers below -/

/-- To round to a whole number by a rule that goes from some size on at least to `j`. -/
theorem ofNat_le_mapWhole {whole : Bool → Nat → Nat} (hj : j ≤ 2 ^ 24) (hm : Fits m)
    (hwhole : ∀ units, m ≤ units → j ≤ whole false units) (hden : 0 < den) (h : den * m ≤ num) :
    ofNat j ≤ (round false num den).mapWhole whole := by
  by_cases hlimit : roundBits 24 num den < unitLimit
  · have hrounded : m ≤ roundBits 24 num den := le_roundBits (by decide) hden hm.2 h
    have hrank : j * unitsPerOne ≤
        roundedUnits (whole false (roundBits 24 num den) * unitsPerOne) 1 := by
      apply le_roundedUnits Nat.one_pos (fits_whole hj)
      rw [Nat.one_mul]
      exact Nat.mul_le_mul_right _ (hwhole _ hrounded)
    rw [round, dif_pos hlimit]
    exact le_iff.2 ⟨_, _, rank?_ofNat hj, rank?_round _ _ _, Int.ofNat_le.2 hrank⟩
  · -- What is too large is above all numbers.
    rw [round, dif_neg hlimit]
    exact le_iff.2 ⟨_, _, rank?_ofNat hj, rfl, Int.ofNat_le.2 (Nat.le_of_lt (fits_whole hj).1)⟩

theorem ofNat_le_floor_round (hj : j ≤ 2 ^ 24) (hden : 0 < den)
    (h : den * (j * unitsPerOne) ≤ num) : ofNat j ≤ (round false num den).floor := by
  refine ofNat_le_mapWhole hj (fits_whole hj) ?_ hden h
  intro units hunits
  exact (Nat.le_div_iff_mul_le unitsPerOne_pos).2 hunits

theorem ofNat_le_trunc_round (hj : j ≤ 2 ^ 24) (hden : 0 < den)
    (h : den * (j * unitsPerOne) ≤ num) : ofNat j ≤ (round false num den).trunc := by
  refine ofNat_le_mapWhole hj (fits_whole hj) ?_ hden h
  intro units hunits
  exact (Nat.le_div_iff_mul_le unitsPerOne_pos).2 hunits

/-- A quotient that is at least a half above a whole number is rounded to the next one, or further. -/
theorem ofNat_le_nearest_round (hj : j + 1 ≤ 2 ^ 23) (hden : 0 < den)
    (h : den * ((2 * j + 1) * 2 ^ 148) ≤ num) : ofNat (j + 1) ≤ (round false num den).nearest := by
  refine ofNat_le_mapWhole (by omega) (fits_half (by omega)) ?_ hden h
  intro units hunits
  apply (Nat.le_div_iff_mul_le (Nat.mul_pos Nat.two_pos unitsPerOne_pos)).2
  rw [unitsPerOne_eq]
  generalize 2 ^ 148 = half at hunits ⊢
  rw [Nat.add_one_mul, Nat.mul_assoc] at hunits
  rw [Nat.add_one_mul, Nat.mul_left_comm j, Nat.mul_left_comm j]
  omega

/-- A number that is not below a whole number has a whole part that is not. -/
theorem ofNat_le_trunc (hj : j ≤ 2 ^ 24) (hpos : 0 < j) (h : ofNat j ≤ a) : ofNat j ≤ a.trunc := by
  rcases le_iff.1 h with ⟨r, s, hr, hs, hle⟩
  cases (rank?_ofNat hj).symm.trans hr
  have hunits : 0 < j * unitsPerOne := Nat.mul_pos hpos unitsPerOne_pos
  cases a with
  | nan => cases hs
  | infinity negative => exact h
  | finite negative size =>
      cases hs
      cases negative with
      | false =>
          rw [← round_one]
          apply ofNat_le_trunc_round hj Nat.one_pos
          rw [Nat.one_mul]
          exact Int.ofNat_le.1 hle
      | true =>
          have hbelow : ((j * unitsPerOne : Nat) : Int) ≤ -(size.units : Int) := hle
          omega

/-! ## Whole parts -/

theorem le_wholeUpTo {limit : Nat} (hj : j ≤ 2 ^ 24) (hpos : 0 < j) (hlimit : j ≤ limit)
    (h : ofNat j ≤ a) : j ≤ a.wholeUpTo limit := by
  rcases le_iff.1 h with ⟨r, s, hr, hs, hle⟩
  cases (rank?_ofNat hj).symm.trans hr
  have hunits : 0 < j * unitsPerOne := Nat.mul_pos hpos unitsPerOne_pos
  cases a with
  | nan => cases hs
  | infinity negative =>
      cases hs
      cases negative with
      | false => exact hlimit
      | true =>
          have hbelow : ((j * unitsPerOne : Nat) : Int) ≤ -(unitLimit : Int) := hle
          omega
  | finite negative size =>
      cases hs
      cases negative with
      | false =>
          have hwhole : j ≤ size.units / unitsPerOne :=
            (Nat.le_div_iff_mul_le unitsPerOne_pos).2 (Int.ofNat_le.1 hle)
          exact Nat.le_min.2 ⟨hwhole, hlimit⟩
      | true =>
          have hbelow : ((j * unitsPerOne : Nat) : Int) ≤ -(size.units : Int) := hle
          omega

theorem le_toInt64 (hj : j ≤ 2 ^ 24) (h : ofNat j ≤ a) : (j : Int) ≤ a.toInt64 := by
  rcases le_iff.1 h with ⟨r, s, hr, hs, hle⟩
  cases (rank?_ofNat hj).symm.trans hr
  unfold toInt64 wholeBetween
  cases a with
  | nan => cases hs
  | infinity negative =>
      cases hs
      have hlimit := unitLimit_pos
      cases negative with
      | false =>
          show (j : Int) ≤ 2 ^ 63 - 1
          omega
      | true =>
          have hnone : ((j * unitsPerOne : Nat) : Int) ≤ -(unitLimit : Int) := hle
          omega
  | finite negative size =>
      cases hs
      cases negative with
      | false =>
          have hwhole : j ≤ size.units / unitsPerOne :=
            (Nat.le_div_iff_mul_le unitsPerOne_pos).2 (Int.ofNat_le.1 hle)
          simp only [Bool.false_eq_true, if_false]
          omega
      | true =>
          have hnone : ((j * unitsPerOne : Nat) : Int) ≤ -(size.units : Int) := hle
          have hj0 : j = 0 := by
            rcases Nat.mul_eq_zero.1 (show j * unitsPerOne = 0 by omega) with hzero | hzero
            · exact hzero
            · exact absurd hzero (Nat.ne_of_gt unitsPerOne_pos)
          have hsize : size.units = 0 := by omega
          simp only [hj0, hsize, Nat.zero_div]
          decide

theorem toInt64_le (hj : j ≤ 2 ^ 24) (h : a ≤ ofNat j) : a.toInt64 ≤ j := by
  rcases le_iff.1 h with ⟨r, s, hr, hs, hle⟩
  cases (rank?_ofNat hj).symm.trans hs
  unfold toInt64 wholeBetween
  cases a with
  | nan => cases hr
  | infinity negative =>
      cases hr
      cases negative with
      | false =>
          have hbelow := (fits_whole hj).1
          have hnone : (unitLimit : Int) ≤ ((j * unitsPerOne : Nat) : Int) := hle
          omega
      | true =>
          show (-2 ^ 63 : Int) ≤ j
          omega
  | finite negative size =>
      cases hr
      cases negative with
      | false =>
          have hwhole : size.units / unitsPerOne ≤ j :=
            Nat.div_le_of_le_mul (Nat.mul_comm j _ ▸ Int.ofNat_le.1 hle)
          simp only [Bool.false_eq_true, if_false]
          omega
      | true =>
          have hwhole : 0 ≤ ((size.units / unitsPerOne : Nat) : Int) := Int.natCast_nonneg _
          simp only [if_true]
          omega

/-! ## Limits -/

theorem le_clamp {x lo hi y : Single} (h : x.clamp lo hi = .ok y) (hx : a ≤ x) (hhi : a ≤ hi) :
    a ≤ y := by
  unfold clamp at h
  split at h
  · cases h
    split
    · rename_i hlow
      exact le_trans hx (le_of_lt hlow)
    · split
      · exact hhi
      · exact hx
  · cases h

theorem clamp_le {x lo hi y : Single} (h : x.clamp lo hi = .ok y) (hx : x ≤ a) (hlo : lo ≤ a) :
    y ≤ a := by
  unfold clamp at h
  split at h
  · cases h
    split
    · exact hlo
    · split
      · rename_i hhigh
        exact le_trans (le_of_lt hhigh) hx
      · exact hx
  · cases h

/-! ## What is nothing -/

theorem eq_zero_of_rank?_zero (h : a.rank? = some 0) : ∃ negative, a = zero negative := by
  rcases exists_finite_of_rank?_zero h with ⟨negative, ⟨units, fits⟩, rfl, hzero⟩
  have hunits : units = 0 := by
    cases negative with
    | true =>
        have hnone : -(units : Int) = 0 := hzero
        omega
    | false => exact Int.ofNat.inj hzero
  subst hunits
  exact ⟨negative, rfl⟩

theorem rank?_zero_of (negative : Bool) : (zero negative).rank? = some 0 := by
  cases negative <;> rfl

theorem isFinite_of_zero (h : a.rank? = some 0) : a.IsFinite :=
  isFinite_of_rank? h unitLimit_pos

theorem rank?_mul_of_zero (ha : a.rank? = some 0) (hb : b.IsFinite) :
    (a * b).rank? = some 0 ∧ (b * a).rank? = some 0 := by
  rcases eq_zero_of_rank?_zero ha with ⟨negative, rfl⟩
  cases b with
  | finite negative' size =>
      have hleft : zero negative * finite negative' size =
          round (negative != negative') (0 * size.units) unitsPerOne := rfl
      have hright : finite negative' size * zero negative =
          round (negative' != negative) (size.units * 0) unitsPerOne := rfl
      rw [hleft, hright, Nat.zero_mul, Nat.mul_zero, round_zero _ unitsPerOne_pos,
        round_zero _ unitsPerOne_pos]
      exact ⟨rank?_zero_of _, rank?_zero_of _⟩
  | _ => exact hb.elim

theorem rank?_div_of_zero (ha : a.rank? = some 0) (hb : b.IsFinite) (hpos : 0 < b) :
    (a / b).rank? = some 0 := by
  rcases eq_zero_of_rank?_zero ha with ⟨negative, rfl⟩
  rcases exists_finite_of_zero_lt hb hpos with ⟨size, rfl⟩
  have hunits := units_pos_of_zero_lt hpos
  have hquotient : zero negative / finite false size = round negative (0 * unitsPerOne) size.units :=
    finite_div negative ⟨0, fits_zero⟩ hunits
  rw [hquotient, Nat.zero_mul, round_zero _ hunits]
  exact rank?_zero_of _

theorem rank?_trunc_of_zero (ha : a.rank? = some 0) : a.trunc.rank? = some 0 := by
  rcases eq_zero_of_rank?_zero ha with ⟨negative, rfl⟩
  cases negative <;> decide +kernel

theorem rank?_nearest_of_zero (ha : a.rank? = some 0) : a.nearest.rank? = some 0 := by
  rcases eq_zero_of_rank?_zero ha with ⟨negative, rfl⟩
  cases negative <;> decide +kernel

theorem rank?_sub_of_zero (ha : a.rank? = some 0) (hb : b.rank? = some 0) :
    (a - b).rank? = some 0 := by
  rcases eq_zero_of_rank?_zero ha with ⟨negative, rfl⟩
  rcases eq_zero_of_rank?_zero hb with ⟨negative', rfl⟩
  cases negative <;> cases negative' <;> decide +kernel

end Single

end OverlayScrollbar
