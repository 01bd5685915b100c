import OverlayScrollbar.Proofs.Single.Limits

/-!
# Whole numbers of halves

The centre of a pixel and the middle of a bitmap are whole numbers of halves. As long as there are at most
`2 ^ 24` of them, single precision holds them exactly, on either side of zero, and so it does their sums and
differences.

- `Single.Halves`            : a number and how many halves it stands for
- `Single.Halves.add`, `Single.Halves.sub`, `Single.Halves.abs` : exact results
- `Single.Halves.abs_eq_abs` : numbers that differ only in their signs
- `Single.Halves.max`, `Single.Halves.min`, `Single.Halves.le_iff` : the order is the one of the halves
- `Single.halves_half`, `Single.halves_sub_half` : the middle of a side, and how far a pixel is from it
-/

namespace OverlayScrollbar

namespace Single

variable {a b : Single} {i j : Int}

/-! ## Halves -/

/-- The number is finite and stands for so many halves, on either side of zero. -/
structure Halves (a : Single) (i : Int) : Prop where
  isFinite : a.IsFinite
  rank?_eq : a.rank? = some (i * 2 ^ 148)

theorem fits_halves (h : i.natAbs ≤ 2 ^ 24) : Fits (i * 2 ^ 148).natAbs := by
  rw [Int.natAbs_mul]
  exact fits_half h

theorem halves_of_rank? (hi : i.natAbs ≤ 2 ^ 24) (h : a.rank? = some (i * 2 ^ 148)) : Halves a i :=
  ⟨isFinite_of_rank? h (fits_halves hi).1, h⟩

theorem Measures.halves {n : Nat} (h : Measures a (n * 2 ^ 148)) : Halves a n := by
  refine ⟨h.isFinite, h.rank?_eq.trans ?_⟩
  rw [Int.natCast_mul]
  rfl

theorem Halves.measures {n : Nat} (h : Halves a n) : Measures a (n * 2 ^ 148) := by
  refine ⟨h.isFinite, h.rank?_eq.trans ?_⟩
  rw [Int.natCast_mul]
  rfl

theorem halves_zero : Halves 0 0 :=
  measures_zero.halves (n := 0)

/-- A half. -/
theorem halves_one : Halves 0.5 1 :=
  ⟨by decide +kernel, by decide +kernel⟩

theorem Halves.cases (h : Halves a i) :
    ∃ negative size, a = finite negative size ∧ signedUnits negative size = i * 2 ^ 148 := by
  rcases h with ⟨hfinite, hrank⟩
  cases a with
  | finite negative size => exact ⟨negative, size, rfl, Option.some.inj hrank⟩
  | _ => exact hfinite.elim

theorem Halves.add (ha : Halves a i) (hb : Halves b j) (h : (i + j).natAbs ≤ 2 ^ 24) :
    Halves (a + b) (i + j) := by
  rcases ha.cases with ⟨negative, size, rfl, hx⟩
  rcases hb.cases with ⟨negative', size', rfl, hy⟩
  refine halves_of_rank? h (rank?_add.trans ?_)
  rw [hx, hy, ← Int.add_mul, roundedSum_of_fits (fits_halves h)]

theorem Halves.sub (ha : Halves a i) (hb : Halves b j) (h : (i - j).natAbs ≤ 2 ^ 24) :
    Halves (a - b) (i - j) := by
  rcases ha.cases with ⟨negative, size, rfl, hx⟩
  rcases hb.cases with ⟨negative', size', rfl, hy⟩
  refine halves_of_rank? h (rank?_sub.trans ?_)
  rw [hx, hy, ← Int.sub_mul, roundedSum_of_fits (fits_halves h)]

theorem Halves.abs (h : Halves a i) : Halves a.abs i.natAbs := by
  rcases h.cases with ⟨negative, size, rfl, hx⟩
  have hunits : size.units = i.natAbs * 2 ^ 148 := by
    rw [← natAbs_signedUnits negative size, hx, Int.natAbs_mul]
    rfl
  exact Measures.halves ⟨trivial, congrArg (fun units : Nat => some (units : Int)) hunits⟩

/-- Numbers that differ only in their signs. -/
theorem Halves.abs_eq_abs (ha : Halves a i) (hb : Halves b j) (h : i.natAbs = j.natAbs) :
    a.abs = b.abs := by
  rcases ha.cases with ⟨negative, ⟨units, fits⟩, rfl, hx⟩
  rcases hb.cases with ⟨negative', ⟨units', fits'⟩, rfl, hy⟩
  have hunits : units = units' := by
    calc
      units = (i * 2 ^ 148).natAbs := by rw [← hx, natAbs_signedUnits]
      _ = (j * 2 ^ 148).natAbs := by rw [Int.natAbs_mul, Int.natAbs_mul, h]
      _ = units' := by rw [← hy, natAbs_signedUnits]
  subst hunits
  rfl

/-! ## Order -/

theorem Halves.lt_iff (ha : Halves a i) (hb : Halves b j) : a < b ↔ i < j := by
  rw [Single.lt_iff, ha.rank?_eq, hb.rank?_eq]
  simp only [Option.some.injEq, exists_and_left, exists_eq_left']
  omega

theorem Halves.le_iff (ha : Halves a i) (hb : Halves b j) : a ≤ b ↔ i ≤ j := by
  rw [Single.le_iff, ha.rank?_eq, hb.rank?_eq]
  simp only [Option.some.injEq, exists_and_left, exists_eq_left']
  omega

theorem Halves.max (ha : Halves a i) (hb : Halves b j) : Halves (max a b) (max i j) := by
  show Halves (Single.max a b) _
  unfold Single.max
  rw [ha.isFinite.isNaN, if_neg Bool.false_ne_true]
  by_cases hlt : a < b
  · rw [if_pos hlt, Int.max_eq_right (Int.le_of_lt ((ha.lt_iff hb).1 hlt))]
    exact hb
  · rw [if_neg hlt, Int.max_eq_left (Int.not_lt.1 fun h => hlt ((ha.lt_iff hb).2 h))]
    exact ha

theorem Halves.min (ha : Halves a i) (hb : Halves b j) : Halves (min a b) (min i j) := by
  show Halves (Single.min a b) _
  unfold Single.min
  rw [ha.isFinite.isNaN, if_neg Bool.false_ne_true]
  by_cases hlt : b < a
  · rw [if_pos hlt, Int.min_eq_right (Int.le_of_lt ((hb.lt_iff ha).1 hlt))]
    exact hb
  · rw [if_neg hlt, Int.min_eq_left (Int.not_lt.1 fun h => hlt ((hb.lt_iff ha).2 h))]
    exact ha

/-! ## Sides of a bitmap -/

theorem ofNat_sub_one {j : Nat} (hpos : 1 ≤ j) (hj : j ≤ 2 ^ 24) : ofNat j - 1 = ofNat (j - 1) := by
  have hless : ¬j * unitsPerOne < 1 * unitsPerOne := Nat.not_lt.2 (Nat.mul_le_mul_right _ hpos)
  have hunits : (((j * unitsPerOne : Nat) : Int) - (1 * unitsPerOne : Nat)).natAbs =
      (j - 1) * unitsPerOne := by
    rw [Nat.sub_mul]
    omega
  rw [one_eq_finite, ofNat_eq_finite hj, sub_eq_round, decide_eq_false hless]
  dsimp only
  rw [hunits]
  rfl

theorem halves_ofNat {j : Nat} (hj : j ≤ 2 ^ 24) : Halves (ofNat j) (2 * j) := by
  have hunits : j * unitsPerOne = 2 * j * 2 ^ 148 := by
    rw [unitsPerOne_eq, Nat.mul_left_comm, Nat.mul_assoc]
  have hhalves := (hunits ▸ measures_ofNat hj).halves
  rwa [Int.natCast_mul] at hhalves

/-- The middle of a side. -/
theorem halves_half {j : Nat} (hj : j ≤ 2 ^ 24) : Halves (ofNat j / 2) j := by
  have htwo : Measures 2 (2 * unitsPerOne) := measures_ofNat (by decide)
  have hpositive : 0 < 2 * unitsPerOne := Nat.mul_pos Nat.two_pos unitsPerOne_pos
  have hexact : j * unitsPerOne * unitsPerOne = 2 * unitsPerOne * (j * 2 ^ 148) := by
    rw [Nat.mul_right_comm, Nat.mul_comm _ unitsPerOne, Nat.mul_comm 2, Nat.mul_assoc unitsPerOne]
    congr 1
    rw [Nat.mul_left_comm, ← unitsPerOne_eq]
  have hhalf := (measures_ofNat hj).div htwo hpositive (fits_half hj) (Nat.le_of_eq hexact)
  rw [hexact, roundBits_mul hpositive (fits_half hj).2] at hhalf
  exact hhalf.halves

/-- How far the centre of a pixel is from the middle of a side. -/
theorem halves_sub_half {i j : Nat} (hi : i < j) (hj : j ≤ 2 ^ 23) :
    Halves (ofNat i + 0.5 - ofNat j / 2) (2 * i + 1 - j) := by
  have hcentre := (halves_ofNat (show i ≤ 2 ^ 24 by omega)).add halves_one (by omega)
  exact hcentre.sub (halves_half (by omega)) (by omega)

end Single

end OverlayScrollbar
