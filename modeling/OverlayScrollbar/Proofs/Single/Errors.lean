import Mathlib.Algebra.Order.Field.Basic
import Mathlib.Tactic.Positivity
import OverlayScrollbar.Proofs.Binary.Double
import OverlayScrollbar.Proofs.Single.Limits
import OverlayScrollbar.Proofs.Single.Value

/-!
# Errors of single operations

An operation on finite numbers whose exact result is at most `2 ^ e` is off by at most `2 ^ (e - 25)`,
half of the last bit that is kept of the numbers below `2 ^ e`. To round to a whole number takes at most a
half, and to cut off what is not whole takes less than one.

- `roundBits_error_of_le`    : the error of a quotient below a power of two
- `Single.Approximates`      : a finite number, and how far it is from an exact one
- `Single.approximates_add`, `Single.approximates_sub`, `Single.approximates_mul`,
  `Single.approximates_div`  : the four operations
- `Single.Approximates.add`, `Single.Approximates.sub`, `Single.Approximates.mul_left` : of numbers that
  have errors themselves
- `Single.approximates_trunc`, `Single.approximates_nearest` : whole numbers
- `Single.Approximates.clamp` : a limited number is no further from what lies within the limits
- `Single.approximates_trunc_mul` : the whole pixels of a part of a length
-/

namespace OverlayScrollbar

/-! ## Quotients and products -/

/-- A power of two is not rounded, and below it there is one bit less. -/
theorem roundBits_error_of_le {p k num den : Nat} (hp : 0 < p) (hden : 0 < den)
    (h : num ≤ den * 2 ^ (p + k)) :
    2 * (den * roundBits p num den) ≤ 2 * num + den * 2 ^ k ∧
      2 * num ≤ 2 * (den * roundBits p num den) + den * 2 ^ k := by
  rcases Nat.eq_or_lt_of_le h with rfl | hless
  · have hexact : roundBits p (den * 2 ^ (p + k)) den = 2 ^ (p + k) := by
      apply roundBits_mul hden
      rw [excessBits_two_pow]
      exact Nat.pow_dvd_pow 2 (by omega)
    rw [hexact]
    exact ⟨Nat.le_add_right _ _, Nat.le_add_right _ _⟩
  · have hexcess : excessBits p (num / den) ≤ k :=
      excessBits_le_of_lt hp ((Nat.div_lt_iff_lt_mul hden).2 (Nat.mul_comm den _ ▸ hless))
    have hplace : den * 2 ^ excessBits p (num / den) ≤ den * 2 ^ k :=
      Nat.mul_le_mul_left den (Nat.pow_le_pow_right Nat.two_pos hexcess)
    rcases roundBits_error p num hden with ⟨hmost, hleast⟩
    exact ⟨by omega, by omega⟩

/-- The distance of two numbers is scaled with them. -/
theorem abs_mul_sub_le {length limit near exact error : ℚ} (hnonneg : 0 ≤ length)
    (hlimit : length ≤ limit) (h : |near - exact| ≤ error) :
    |length * near - length * exact| ≤ limit * error := by
  rw [← mul_sub, abs_mul, abs_of_nonneg hnonneg]
  exact mul_le_mul hlimit h (abs_nonneg _) (hnonneg.trans hlimit)

namespace Single

variable {a b x y lo hi : Single} {e : Nat}

/-! ## Values -/

theorem value_ofNat {j : Nat} (hj : j ≤ 2 ^ 24) : (ofNat j).value = j := by
  have hone : (unitsPerOne : ℚ) ≠ 0 := Nat.cast_ne_zero.2 (Nat.ne_of_gt unitsPerOne_pos)
  have hmeasures := measures_ofNat hj
  rw [value_eq hmeasures.isFinite hmeasures.rank?_eq, Int.cast_natCast, Nat.cast_mul,
    mul_div_cancel_right₀ _ hone]

theorem value_zero : (0 : Single).value = 0 :=
  value_ofNat (Nat.zero_le _)

theorem value_nonneg (ha : a.IsFinite) (h : 0 ≤ a) : 0 ≤ a.value :=
  value_zero ▸ value_le_value measures_zero.isFinite ha h

theorem value_pos (ha : a.IsFinite) (h : 0 < a) : 0 < a.value := by
  rcases exists_finite_of_zero_lt ha h with ⟨size, rfl⟩
  have hunits := units_pos_of_zero_lt h
  have hone := unitsPerOne_pos
  show (0 : ℚ) < (size.units : Int) / unitsPerOne
  positivity

/-- Rounding a difference does not take it below a number that it is not below. -/
theorem le_sub_of_value_le (ha : a.IsFinite) (hb : b.IsFinite) (hx : x.IsFinite)
    (h : x.value ≤ a.value - b.value) : x ≤ a - b := by
  cases x with
  | finite negative size =>
      cases a with
      | finite negative' size' =>
          cases b with
          | finite negative'' size'' =>
              -- The smaller number is not rounded itself, and rounding keeps the order.
              have hone : (0 : ℚ) < unitsPerOne := Nat.cast_pos.2 unitsPerOne_pos
              unfold value at h
              rw [← sub_div, div_le_div_iff_of_pos_right hone] at h
              have hsum := roundedSum_mono (show signedUnits negative size ≤
                signedUnits negative' size' - signedUnits negative'' size'' by exact_mod_cast h)
              rw [roundedSum_signedUnits] at hsum
              exact le_iff.2 ⟨_, _, rfl, rank?_sub, hsum⟩
          | _ => exact hb.elim
      | _ => exact ha.elim
  | _ => exact hx.elim

/-! ## Errors -/

/-- A finite number that is not further from an exact one than some error. -/
structure Approximates (a : Single) (exact error : ℚ) : Prop where
  isFinite : a.IsFinite
  error_le : |a.value - exact| ≤ error

theorem Approximates.refl (ha : a.IsFinite) : Approximates a a.value 0 :=
  ⟨ha, by rw [sub_self, abs_zero]⟩

theorem Approximates.mono {exact error error' : ℚ} (h : Approximates a exact error)
    (hle : error ≤ error') : Approximates a exact error' :=
  ⟨h.isFinite, h.error_le.trans hle⟩

/-- A number that is near another one that is near an exact one. -/
theorem Approximates.trans {near exact error error' : ℚ} (h : Approximates a near error)
    (hexact : |near - exact| ≤ error') : Approximates a exact (error + error') :=
  ⟨h.isFinite, (abs_sub_le _ near _).trans (add_le_add h.error_le hexact)⟩

/-- The error of a rounded quotient, in parts of a unit. It has the sign of the number that is divided. -/
theorem roundedQuotient_error {num : Int} {den : Nat} (hden : 0 < den) (he : e < 128)
    (h : num.natAbs ≤ den * 2 ^ (24 + (e + 125))) :
    (roundedQuotient num den).natAbs < unitLimit ∧
      2 * (den * roundedQuotient num den) ≤ 2 * num + (den * 2 ^ (e + 125) : Nat) ∧
      2 * num ≤ 2 * (den * roundedQuotient num den) + (den * 2 ^ (e + 125) : Nat) := by
  have hpower : 2 ^ excessBits 24 (2 ^ (24 + (e + 125))) ∣ 2 ^ (24 + (e + 125)) := by
    rw [excessBits_two_pow]
    exact Nat.pow_dvd_pow 2 (by omega)
  have hlimit : roundBits 24 num.natAbs den < unitLimit := by
    calc
      roundBits 24 num.natAbs den ≤ 2 ^ (24 + (e + 125)) := roundBits_le (by decide) hpower h
      _ < 2 ^ (128 + 149) := Nat.pow_lt_pow_right (by decide) (by omega)
      _ = unitLimit := Nat.pow_add 2 128 149
  rcases roundBits_error_of_le (by decide) hden h with ⟨hmost, hleast⟩
  unfold roundedQuotient roundedUnits
  rw [Nat.min_eq_left (Nat.le_of_lt hlimit)]
  -- Powers and products are hidden, as only sums are left to compare.
  generalize roundBits 24 num.natAbs den = rounded at hlimit hmost hleast
  generalize den * 2 ^ (e + 125) = place at hmost hleast ⊢
  split
  · rw [Int.mul_neg, ← Int.natCast_mul]
    generalize den * rounded = product at *
    omega
  · rw [← Int.natCast_mul]
    generalize den * rounded = product at *
    omega

theorem cast_unitsPerOne : (unitsPerOne : ℚ) = 2 ^ 149 := by
  unfold unitsPerOne
  push_cast
  rfl

section

variable {num : Int} {den : Nat} {exact : ℚ} (hden : 0 < den)
  (hexact : exact = num / den / unitsPerOne) (h : |exact| ≤ 2 ^ e)

include hden hexact h

/-- The parts of a unit in a number that is not above a power of two. -/
theorem natAbs_le_of_abs_le : num.natAbs ≤ den * 2 ^ (24 + (e + 125)) := by
  have hone := unitsPerOne_pos
  have hpart : (0 : ℚ) < den * unitsPerOne := by positivity
  have hnum : (num : ℚ) = exact * (den * unitsPerOne) := by
    rw [hexact, div_div, div_mul_cancel₀ _ (ne_of_gt hpart)]
  apply (Nat.cast_le (α := ℚ)).1
  calc
    ((num.natAbs : Nat) : ℚ) = |(num : ℚ)| := by rw [Nat.cast_natAbs, Int.cast_abs]
    _ = |exact| * (den * unitsPerOne) := by rw [hnum, abs_mul, abs_of_pos hpart]
    _ ≤ 2 ^ e * (den * unitsPerOne) := mul_le_mul_of_nonneg_right h hpart.le
    _ = ((den * 2 ^ (24 + (e + 125)) : Nat) : ℚ) := by
      rw [cast_unitsPerOne]
      push_cast
      ring

/-- A number whose rank is a rounded quotient. -/
theorem approximates_of_rounded (he : e < 128)
    (hrank : a.rank? = some (roundedQuotient num den)) : Approximates a exact (2 ^ e / 2 ^ 25) := by
  have hone := unitsPerOne_pos
  rcases roundedQuotient_error hden he (natAbs_le_of_abs_le hden hexact h) with
    ⟨hlimit, hmost, hleast⟩
  have hfinite := isFinite_of_rank? hrank hlimit
  refine ⟨hfinite, ?_⟩
  rw [value_eq hfinite hrank]
  generalize roundedQuotient num den = rounded at hmost hleast ⊢
  have hmost' : (2 : ℚ) * (den * rounded) ≤ 2 * num + den * 2 ^ (e + 125) := by exact_mod_cast hmost
  have hleast' : (2 : ℚ) * num ≤ 2 * (den * rounded) + den * 2 ^ (e + 125) := by
    exact_mod_cast hleast
  -- The error is brought to parts of a unit, where it is known.
  have hdifference : (rounded : ℚ) / unitsPerOne - exact =
      (2 * (den * rounded) - 2 * num) / (2 * (den * unitsPerOne)) := by
    rw [hexact]
    field_simp
  rw [hdifference, abs_div, abs_of_pos (show (0 : ℚ) < 2 * (den * unitsPerOne) by positivity),
    div_le_iff₀ (by positivity)]
  calc
    |2 * (den * rounded) - 2 * (num : ℚ)| ≤ den * 2 ^ (e + 125) :=
      abs_sub_le_iff.2 ⟨by linarith, by linarith⟩
    _ = 2 ^ e / 2 ^ 25 * (2 * (den * unitsPerOne)) := by
      rw [cast_unitsPerOne]
      ring

end

/-! ## Operations -/

section

variable (ha : a.IsFinite) (hb : b.IsFinite) (he : e < 128)

include ha hb he

theorem approximates_add (h : |a.value + b.value| ≤ 2 ^ e) :
    Approximates (a + b) (a.value + b.value) (2 ^ e / 2 ^ 25) := by
  cases a with
  | finite negative size =>
      cases b with
      | finite negative' size' =>
          refine approximates_of_rounded Nat.one_pos ?_ h he rank?_add
          unfold value
          push_cast
          rw [div_one, add_div]
      | _ => exact hb.elim
  | _ => exact ha.elim

theorem approximates_sub (h : |a.value - b.value| ≤ 2 ^ e) :
    Approximates (a - b) (a.value - b.value) (2 ^ e / 2 ^ 25) := by
  cases a with
  | finite negative size =>
      cases b with
      | finite negative' size' =>
          refine approximates_of_rounded Nat.one_pos ?_ h he rank?_sub
          unfold value
          push_cast
          rw [div_one, sub_div]
      | _ => exact hb.elim
  | _ => exact ha.elim

theorem approximates_mul (h : |a.value * b.value| ≤ 2 ^ e) :
    Approximates (a * b) (a.value * b.value) (2 ^ e / 2 ^ 25) := by
  cases a with
  | finite negative size =>
      cases b with
      | finite negative' size' =>
          refine approximates_of_rounded unitsPerOne_pos ?_ h he (rank?_mul _ _ _ _)
          unfold value
          push_cast
          rw [div_mul_div_comm, div_div]
      | _ => exact hb.elim
  | _ => exact ha.elim

theorem approximates_div (hpos : 0 < b) (h : |a.value / b.value| ≤ 2 ^ e) :
    Approximates (a / b) (a.value / b.value) (2 ^ e / 2 ^ 25) := by
  rcases exists_finite_of_zero_lt hb hpos with ⟨length, rfl⟩
  have hlength := units_pos_of_zero_lt hpos
  cases a with
  | finite negative size =>
      refine approximates_of_rounded hlength ?_ h he (rank?_div negative size hlength)
      have hone := unitsPerOne_pos
      show (signedUnits negative size : ℚ) / unitsPerOne / ((length.units : Int) / unitsPerOne) = _
      push_cast
      field_simp
  | _ => exact ha.elim

end

section

variable {exact exact' error error' : ℚ}

/-- Errors add up. -/
theorem Approximates.add (ha : Approximates a exact error) (hb : Approximates b exact' error')
    (he : e < 128) (h : |a.value + b.value| ≤ 2 ^ e) :
    Approximates (a + b) (exact + exact') (2 ^ e / 2 ^ 25 + (error + error')) := by
  apply (approximates_add ha.isFinite hb.isFinite he h).trans
  rw [add_sub_add_comm]
  exact (abs_add_le _ _).trans (add_le_add ha.error_le hb.error_le)

theorem Approximates.sub (ha : Approximates a exact error) (hb : Approximates b exact' error')
    (he : e < 128) (h : |a.value - b.value| ≤ 2 ^ e) :
    Approximates (a - b) (exact - exact') (2 ^ e / 2 ^ 25 + (error + error')) := by
  apply (approximates_sub ha.isFinite hb.isFinite he h).trans
  rw [sub_sub_sub_comm]
  exact (abs_sub _ _).trans (add_le_add ha.error_le hb.error_le)

/-- A factor that is known exactly scales the error of the other one. -/
theorem Approximates.mul_left {limit : ℚ} (ha : a.IsFinite) (hnonneg : 0 ≤ a.value)
    (hlimit : a.value ≤ limit) (hb : Approximates b exact error) (he : e < 128)
    (h : |a.value * b.value| ≤ 2 ^ e) :
    Approximates (a * b) (a.value * exact) (2 ^ e / 2 ^ 25 + limit * error) :=
  (approximates_mul ha hb.isFinite he h).trans (abs_mul_sub_le hnonneg hlimit hb.error_le)

end

/-! ## Whole numbers and limits -/

theorem trunc_mem (ha : a.IsFinite) (h : 0 ≤ a) : 0 ≤ a.trunc ∧ a.trunc ≤ a := by
  rcases exists_measures ha h with ⟨n, hn⟩
  exact ⟨(measures_zero.le_iff hn.trunc).2 (Nat.zero_le _),
    (hn.trunc.le_iff hn).2 (Nat.div_mul_le_self n unitsPerOne)⟩

/-- To cut off what is not whole of a length takes a half on average, and a half less or more. -/
theorem approximates_trunc (ha : a.IsFinite) (h : 0 ≤ a) :
    Approximates a.trunc (a.value - 1 / 2) (1 / 2) := by
  rcases exists_measures ha h with ⟨n, hn⟩
  have hwhole := hn.trunc
  have hone : (unitsPerOne : ℚ) / unitsPerOne = 1 :=
    (div_eq_one_iff_eq (Nat.cast_ne_zero.2 (Nat.ne_of_gt unitsPerOne_pos))).2 rfl
  have hless : n < n / unitsPerOne * unitsPerOne + unitsPerOne := Nat.lt_div_mul_add unitsPerOne_pos
  have hmost := value_le_value hwhole.isFinite ha (trunc_mem ha h).2
  have hleast := value_le_add Int.one_pos unitsPerOne ha hn.rank?_eq hwhole.isFinite hwhole.rank?_eq
    (by omega)
  rw [Int.cast_natCast, hone, Int.cast_one, div_one] at hleast
  exact ⟨hwhole.isFinite, abs_le.2 ⟨by linarith, by linarith⟩⟩

/-- Two sizes that are near each other are so with either sign. -/
theorem signedUnits_le_add (negative : Bool) {size size' : Magnitude} {t : Nat}
    (h : 2 * size.units ≤ 2 * size'.units + t) (h' : 2 * size'.units ≤ 2 * size.units + t) :
    2 * signedUnits negative size ≤ 2 * signedUnits negative size' + t := by
  cases negative <;> simp only [signedUnits, Bool.false_eq_true, if_false, if_true] <;> omega

/-- To round to the nearest whole number takes at most a half. -/
theorem approximates_nearest (ha : a.IsFinite) : Approximates a.nearest a.value (1 / 2) := by
  cases a with
  | finite negative size =>
      have hhalf : (unitsPerOne : ℚ) / unitsPerOne / (2 : Int) = 1 / 2 := by
        rw [(div_eq_one_iff_eq (Nat.cast_ne_zero.2 (Nat.ne_of_gt unitsPerOne_pos))).2 rfl]
        rfl
      have hleast := two_mul_le_nearest size.units unitsPerOne_pos
      have hmost := Nat.div_mul_le_self (2 * size.units + unitsPerOne) (2 * unitsPerOne)
      rw [Nat.mul_left_comm] at hmost
      rw [nearest_finite]
      generalize hwhole : fits_nearest size.fits = fits
      have hfinite : ∀ size, (finite negative size).IsFinite := fun _ => trivial
      -- Both sides hold as inequalities of units, so that each is one use of the same bound.
      have habove := value_le_add (show 0 < 2 by decide) unitsPerOne (hfinite ⟨_, fits⟩) rfl
        (hfinite size) rfl (signedUnits_le_add negative hmost hleast)
      have hbelow := value_le_add (show 0 < 2 by decide) unitsPerOne (hfinite size) rfl
        (hfinite ⟨_, fits⟩) rfl (signedUnits_le_add negative hleast hmost)
      rw [Int.cast_natCast, hhalf] at habove hbelow
      exact ⟨trivial, abs_sub_le_iff.2 ⟨by linarith, by linarith⟩⟩
  | _ => exact ha.elim

/-- A limited number is no further from what lies within the limits. -/
theorem Approximates.clamp {exact error : ℚ} (h : Approximates x exact error) (hlo : lo.IsFinite)
    (hhi : hi.IsFinite) (hlow : lo.value ≤ exact) (hhigh : exact ≤ hi.value)
    (hclamp : x.clamp lo hi = .ok y) : Approximates y exact error := by
  unfold Single.clamp at hclamp
  split at hclamp
  · cases hclamp
    rcases abs_le.1 h.error_le with ⟨hleast, hmost⟩
    split
    · rename_i hless
      have hvalue := value_le_value h.isFinite hlo (le_of_lt hless)
      exact ⟨hlo, abs_le.2 ⟨by linarith, by linarith⟩⟩
    · split
      · rename_i hless
        have hvalue := value_le_value hhi h.isFinite (le_of_lt hless)
        exact ⟨hhi, abs_le.2 ⟨by linarith, by linarith⟩⟩
      · exact h
  · cases hclamp

/-! ## Parts of a length -/

section

variable (ha : a.IsFinite) (hnonneg : 0 ≤ a) (hlow : 0 ≤ b) (hhigh : b ≤ 1)

include hlow hhigh

theorem value_mem_of_le_one : 0 ≤ b.value ∧ b.value ≤ 1 := by
  have hfinite := isFinite_of_mem hlow hhigh measures_one.isFinite
  have hvalue := value_le_value hfinite measures_one.isFinite hhigh
  have hone : (1 : Single).value = 1 := by exact_mod_cast value_ofNat (j := 1) (by decide)
  exact ⟨value_nonneg hfinite hlow, hone ▸ hvalue⟩

include ha hnonneg

/-- The whole pixels of a part of a length. -/
theorem approximates_trunc_mul (he : e < 128) (hlimit : a.value ≤ 2 ^ e) :
    Approximates (a * b).trunc (a.value * b.value - 1 / 2) (1 / 2 + 2 ^ e / 2 ^ 25) := by
  have hb := isFinite_of_mem hlow hhigh measures_one.isFinite
  have hlength := value_nonneg ha hnonneg
  rcases value_mem_of_le_one hlow hhigh with ⟨hpart, hpart'⟩
  have hexact : |a.value * b.value| ≤ 2 ^ e := by
    rw [abs_of_nonneg (mul_nonneg hlength hpart)]
    exact (mul_le_of_le_one_right hlength hpart').trans hlimit
  have hproduct := approximates_mul ha hb he hexact
  apply (approximates_trunc hproduct.isFinite (mul_mem ha hnonneg hlow hhigh).2.1).trans
  rw [sub_sub_sub_cancel_right]
  exact hproduct.error_le

/-- They are not more than those of the length. -/
theorem value_trunc_mul_mem : 0 ≤ (a * b).trunc.value ∧ (a * b).trunc.value ≤ a.value := by
  rcases mul_mem ha hnonneg hlow hhigh with ⟨hfinite, hpositive, hless⟩
  rcases trunc_mem hfinite hpositive with ⟨hwhole, hmost⟩
  have hmost' := le_trans hmost hless
  have hwhole' := isFinite_of_mem hwhole hmost' ha
  exact ⟨value_nonneg hwhole' hwhole, value_le_value hwhole' ha hmost'⟩

end

end Single

end OverlayScrollbar
