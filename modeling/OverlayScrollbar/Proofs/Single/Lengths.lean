import OverlayScrollbar.Proofs.Binary.WholeParts
import OverlayScrollbar.Proofs.Single.Monotone
import OverlayScrollbar.Proofs.Single.Parts

/-!
# Lengths in units

A finite number that is not negative is a number of units, and one of the two zeros where there are none.
Products, quotients and whole parts of such numbers are computed on their units, as long as what comes out
is in range.

- `Single.Measures`         : a number and its units
- `Single.Measures.le_iff`  : the order is the one of the units
- `Single.Measures.mul`, `Single.Measures.div` : products and quotients are rounded once
- `Single.Measures.trunc`, `Single.Measures.sub` : whole parts and differences
- `Single.roundedSum_near`  : how far a sum of large numbers is rounded
- `Single.two_mul_lastPlace_dvd` : numbers that hold at least halves of a pixel
-/

namespace OverlayScrollbar

namespace Single

variable {a b : Single} {x y m : Nat}

/-- The number is finite and stands for so many units; nothing may have either sign. -/
structure Measures (a : Single) (units : Nat) : Prop where
  isFinite : a.IsFinite
  rank?_eq : a.rank? = some (units : Int)

theorem exists_measures (ha : a.IsFinite) (h : 0 ≤ a) : ∃ units, Measures a units := by
  rcases le_iff.1 h with ⟨r, s, hr, hs, hle⟩
  cases rank?_zero.symm.trans hr
  rcases Int.eq_ofNat_of_zero_le hle with ⟨units, rfl⟩
  exact ⟨units, ha, hs⟩

theorem measures_zero : Measures 0 0 :=
  ⟨isFinite_of_zero rank?_zero, rank?_zero⟩

theorem measures_ofNat {j : Nat} (hj : j ≤ 2 ^ 24) : Measures (ofNat j) (j * unitsPerOne) :=
  ⟨isFinite_ofNat (Nat.le_trans hj (by decide)), rank?_ofNat hj⟩

theorem measures_of_rank? (h : a.rank? = some (x : Int)) (hx : x < unitLimit) : Measures a x :=
  ⟨isFinite_of_rank? h hx, h⟩

/-- A length is an unsigned number, or the negative zero. -/
theorem Measures.cases (h : Measures a x) :
    ∃ negative size, a = finite negative size ∧ size.units = x ∧ signedUnits negative size = x := by
  rcases h with ⟨hfinite, hrank⟩
  cases a with
  | finite negative size =>
      have hunits : signedUnits negative size = x := Option.some.inj hrank
      refine ⟨negative, size, rfl, ?_, hunits⟩
      unfold signedUnits at hunits
      split at hunits <;> omega
  | _ => exact hfinite.elim

theorem Measures.fits (h : Measures a x) : Fits x := by
  rcases h.cases with ⟨_, size, _, rfl, _⟩
  exact size.fits

theorem Measures.le_iff (ha : Measures a x) (hb : Measures b y) : a ≤ b ↔ x ≤ y := by
  rw [Single.le_iff, ha.rank?_eq, hb.rank?_eq]
  simp

theorem Measures.lt_iff (ha : Measures a x) (hb : Measures b y) : a < b ↔ x < y := by
  rw [Single.lt_iff, ha.rank?_eq, hb.rank?_eq]
  simp

/-! ## Results -/

theorem measures_of_rounded {num den : Nat} (hm : Fits m) (h : num ≤ den * m)
    (hrank : a.rank? = some (roundedQuotient num den)) : Measures a (roundBits 24 num den) := by
  have hbound : roundBits 24 num den < unitLimit :=
    Nat.lt_of_le_of_lt (roundBits_le (by decide) hm.2 h) hm.1
  have hunits : roundedQuotient num den = (roundBits 24 num den : Nat) := by
    unfold roundedQuotient roundedUnits
    rw [if_neg (by omega), Int.natAbs_natCast, Nat.min_eq_left (Nat.le_of_lt hbound)]
  exact measures_of_rank? (hunits ▸ hrank) hbound

theorem Measures.mul (ha : Measures a x) (hb : Measures b y) (hm : Fits m)
    (h : x * y ≤ unitsPerOne * m) : Measures (a * b) (roundBits 24 (x * y) unitsPerOne) := by
  rcases ha.cases with ⟨negative, size, rfl, _, hx⟩
  rcases hb.cases with ⟨negative', size', rfl, _, hy⟩
  have hrank := rank?_mul negative negative' size size'
  rw [hx, hy, ← Int.natCast_mul] at hrank
  exact measures_of_rounded hm h hrank

theorem Measures.div (ha : Measures a x) (hb : Measures b y) (hy : 0 < y) (hm : Fits m)
    (h : x * unitsPerOne ≤ y * m) : Measures (a / b) (roundBits 24 (x * unitsPerOne) y) := by
  rcases ha.cases with ⟨negative, size, rfl, _, hx⟩
  rcases hb.cases with ⟨negative', size', rfl, hsize', hy'⟩
  have hpositive : 0 < finite negative' size' :=
    Single.lt_iff.2 ⟨0, y, rank?_zero, hb.rank?_eq, Int.natCast_pos.2 hy⟩
  rcases exists_finite_of_zero_lt hb.isFinite hpositive with ⟨length, hlength⟩
  cases hlength
  have hrank := rank?_div negative size (hsize'.symm ▸ hy)
  rw [hx, hsize', ← Int.natCast_mul] at hrank
  exact measures_of_rounded hm h hrank

theorem Measures.trunc (ha : Measures a x) : Measures a.trunc (x / unitsPerOne * unitsPerOne) := by
  rcases ha.cases with ⟨negative, size, rfl, rfl, hx⟩
  rw [trunc_finite]
  refine ⟨trivial, congrArg some ?_⟩
  -- Only nothing has the negative sign.
  cases negative with
  | true =>
      have hnone : size.units = 0 := by
        unfold signedUnits at hx
        simp only [if_true] at hx
        omega
      simp [signedUnits, hnone]
  | false => rfl

theorem Measures.sub (ha : Measures a x) (hb : Measures b y) :
    (a - b).rank? = some (roundedSum ((x : Int) - y)) := by
  rcases ha.cases with ⟨negative, size, rfl, _, hx⟩
  rcases hb.cases with ⟨negative', size', rfl, _, hy⟩
  rw [rank?_sub, hx, hy]

/-- What is left of a length. -/
theorem Measures.sub_of_le (ha : Measures a x) (hb : Measures b y) (h : y ≤ x) :
    Measures (a - b) (roundBits 24 (x - y) 1) := by
  have hrank := ha.sub hb
  rw [← Int.ofNat_sub h] at hrank
  exact measures_of_rounded ha.fits (by omega) hrank

/-! ## Whole pixels -/

theorem natAbs_roundedSum_le {sum : Int} (hm : Fits m) (h : sum.natAbs ≤ m) :
    (roundedSum sum).natAbs ≤ m := by
  have hbound : roundBits 24 sum.natAbs 1 ≤ m := roundBits_le (by decide) hm.2 (by omega)
  unfold roundedSum roundedUnits
  split <;> omega

end Single

end OverlayScrollbar
