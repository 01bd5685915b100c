import OverlayScrollbar.Proofs.Binary.Rounding
import OverlayScrollbar.Single.Arithmetic
import OverlayScrollbar.Single.Order
import OverlayScrollbar.Single.Whole

/-!
# Finite numbers

Lengths that are measured are finite. Their sums and differences are numbers, and so are quotients and
products in which zero and infinity do not meet.

- `Single.IsFinite`           : neither an infinity nor not a number
- `Single.isNaN_add`, `Single.isNaN_sub`, `Single.isNaN_div`, `Single.isNaN_mul` : when a result is a
  number
- `Single.isFinite_sub`       : what is left of a finite length is finite
- `Single.sub_le_sub_right`   : differences keep the order
- `Single.exists_clamp_eq_ok` : limiting to an interval
-/

namespace OverlayScrollbar

namespace Single

variable {a b x lo hi : Single}

/-- The number is neither an infinity nor not a number. -/
def IsFinite : Single → Prop
  | .finite _ _ => True
  | _ => False

instance (a : Single) : Decidable a.IsFinite := by
  cases a <;> unfold IsFinite <;> infer_instance

theorem IsFinite.isNaN (h : a.IsFinite) : a.isNaN = false := by
  cases a with
  | finite _ _ => rfl
  | _ => exact h.elim

/-! ## Order -/

theorem rank?_zero : (0 : Single).rank? = some 0 := by
  decide +kernel

theorem isNaN_zero : (0 : Single).isNaN = false := by
  decide +kernel

theorem isNaN_of_le_right (h : a ≤ b) : b.isNaN = false := by
  rcases le_iff.1 h with ⟨_, y, _, hy, _⟩
  cases b <;> simp_all [isNaN, rank?]

theorem lt_of_not_le (ha : a.isNaN = false) (hb : b.isNaN = false) (h : ¬a ≤ b) : b < a := by
  by_cases hlt : b < a
  · exact hlt
  · exact absurd ((not_lt_iff hb ha).1 hlt) h

theorem not_lt_of_le (h : a ≤ b) : ¬b < a := by
  intro hlt
  exact lt_irrefl b (lt_of_lt_of_le hlt h)

theorem zero_le_max_left (a : Single) : 0 ≤ max a 0 := by
  show 0 ≤ Single.max a 0
  unfold Single.max
  split
  · exact le_refl_iff.2 isNaN_zero
  · rename_i hnumber
    split
    · exact le_refl_iff.2 isNaN_zero
    · rename_i hnot
      exact (not_lt_iff (eq_false_of_ne_true hnumber) isNaN_zero).1 hnot

theorem zero_le_max_right (b : Single) : 0 ≤ max 0 b := by
  show 0 ≤ Single.max 0 b
  unfold Single.max
  split
  · rename_i hnan
    cases isNaN_zero.symm.trans hnan
  · split
    · rename_i hlt
      exact le_of_lt hlt
    · exact le_refl_iff.2 isNaN_zero

theorem isNaN_max_zero (a : Single) : (max a 0).isNaN = false :=
  isNaN_of_le_right (zero_le_max_left a)

theorem max_le (ha : a ≤ hi) (hb : b ≤ hi) : max a b ≤ hi := by
  show Single.max a b ≤ hi
  unfold Single.max
  split
  · exact hb
  · split
    · exact hb
    · exact ha

theorem le_max_right (h : x ≤ b) : x ≤ max 0 b := by
  show x ≤ Single.max 0 b
  unfold Single.max
  split
  · exact h
  · split
    · exact h
    · rename_i hnot
      exact le_trans h ((not_lt_iff isNaN_zero (isNaN_of_le_right h)).1 hnot)

theorem min_le_right (a : Single) (hb : b.isNaN = false) : min a b ≤ b := by
  show Single.min a b ≤ b
  unfold Single.min
  split
  · exact le_refl_iff.2 hb
  · rename_i hnumber
    split
    · exact le_refl_iff.2 hb
    · rename_i hnot
      exact (not_lt_iff hb (eq_false_of_ne_true hnumber)).1 hnot

theorem exists_clamp_eq_ok (x : Single) (h : lo ≤ hi) : ∃ y, x.clamp lo hi = .ok y := by
  unfold clamp
  rw [if_pos h]
  exact ⟨_, rfl⟩

/-! ## Results that are numbers -/

theorem isNaN_round (negative : Bool) (num den : Nat) : (round negative num den).isNaN = false := by
  unfold round
  split <;> rfl

theorem isFinite_neg (h : a.IsFinite) : (-a).IsFinite := by
  cases a with
  | finite _ _ => trivial
  | _ => exact h.elim

theorem isNaN_nearest (h : a.isNaN = false) : a.nearest.isNaN = false := by
  cases a with
  | finite _ _ => exact isNaN_round _ _ _
  | _ => exact h

/-- Only two infinities can add up to what is not a number. -/
theorem isNaN_add (ha : a.isNaN = false) (hb : b.IsFinite) : (a + b).isNaN = false := by
  show (Single.add a b).isNaN = false
  cases b with
  | finite negative size =>
      cases a with
      | nan => exact ha
      | infinity _ => rfl
      | finite negative' size' =>
          simp only [Single.add]
          split
          · rfl
          · exact isNaN_round _ _ _
  | _ => exact hb.elim

theorem isNaN_sub (ha : a.isNaN = false) (hb : b.IsFinite) : (a - b).isNaN = false :=
  isNaN_add ha (isFinite_neg hb)

theorem isNaN_div (ha : a.IsFinite) (hb : 0 < b) : (a / b).isNaN = false := by
  show (Single.div a b).isNaN = false
  have hpositive : ∀ r, b.rank? = some r → 0 < r := by
    intro r hr
    rcases lt_iff.1 hb with ⟨z, y, hz, hy, hlt⟩
    cases rank?_zero.symm.trans hz
    cases hr.symm.trans hy
    exact hlt
  cases a with
  | finite negative size =>
      cases b with
      | nan => simp [lt_iff, rank?] at hb
      | infinity _ => rfl
      | finite negative' size' =>
          -- A number above zero has units to divide by.
          have hunits : size'.units ≠ 0 := by
            intro hzero
            have hrank := hpositive _ rfl
            cases negative' <;> simp [signedUnits, hzero] at hrank
          simp only [Single.div, if_neg hunits]
          exact isNaN_round _ _ _
  | _ => exact ha.elim

theorem isNaN_mul (ha : a.IsFinite) (hpos : 0 < a) (hb : b.isNaN = false) :
    (a * b).isNaN = false := by
  show (Single.mul a b).isNaN = false
  cases a with
  | finite negative size =>
      cases b with
      | nan => exact hb
      | finite _ _ => exact isNaN_round _ _ _
      | infinity negative' =>
          -- An infinite multiple of zero would not be a number.
          have hunits : size.units ≠ 0 := by
            intro hzero
            rcases lt_iff.1 hpos with ⟨z, y, hz, hy, hlt⟩
            cases rank?_zero.symm.trans hz
            cases hy
            cases negative <;> simp [signedUnits, hzero] at hlt
          simp only [Single.mul, if_neg hunits]
          rfl
  | _ => exact ha.elim

/-! ## Lengths -/

theorem isFinite_round {negative : Bool} {num den m : Nat} (hm : Fits m) (h : num ≤ den * m) :
    (round negative num den).IsFinite := by
  have hbound : roundBits 24 num den < unitLimit :=
    Nat.lt_of_le_of_lt (roundBits_le (by omega) hm.2 h) hm.1
  rw [round, dif_pos hbound]
  trivial

theorem isFinite_ofNat {n : Nat} (h : n ≤ 2 ^ 64) : (ofNat n).IsFinite := by
  -- A power of two is held exactly.
  have hfits : Fits (2 ^ 64 * unitsPerOne) := by decide +kernel
  refine isFinite_round hfits ?_
  rw [Nat.one_mul]
  exact Nat.mul_le_mul_right _ h

/-- The size of a rounded number; one that is too large has the size of an infinity. -/
def roundedUnits (num den : Nat) : Nat :=
  min (roundBits 24 num den) unitLimit

theorem roundedUnits_mono {m n : Nat} (den : Nat) (h : m ≤ n) :
    roundedUnits m den ≤ roundedUnits n den := by
  have hrounded := roundBits_mono den (show 0 < 24 by omega) h
  unfold roundedUnits
  omega

theorem rank?_round (negative : Bool) (num den : Nat) : (round negative num den).rank? =
    some (if negative then -(roundedUnits num den : Int) else roundedUnits num den) := by
  unfold round roundedUnits
  split
  · rename_i hfits
    rw [Nat.min_eq_left (Nat.le_of_lt hfits)]
    rfl
  · rename_i hlarge
    rw [Nat.min_eq_right (Nat.le_of_not_lt hlarge)]
    rfl

theorem zero_le_round (num den : Nat) : 0 ≤ round false num den :=
  le_iff.2 ⟨0, _, rank?_zero, rank?_round false num den, Int.natCast_nonneg _⟩

theorem round_le_zero (num den : Nat) : round true num den ≤ 0 :=
  le_iff.2 ⟨_, 0, rank?_round true num den, rank?_zero,
    Int.neg_nonpos_of_nonneg (Int.natCast_nonneg _)⟩

theorem zero_le_ofNat (n : Nat) : 0 ≤ ofNat n :=
  zero_le_round _ _

/-- What is left of a finite length is finite. -/
theorem isFinite_sub (ha : a.IsFinite) (hb : b.IsFinite) (hnonneg : 0 ≤ b) (hleft : 0 < a - b) :
    (a - b).IsFinite := by
  cases a with
  | finite negative size =>
      cases b with
      | finite negative' size' =>
          have htaken : 0 ≤ signedUnits negative' size' := by
            rcases le_iff.1 hnonneg with ⟨z, y, hz, hy, hle⟩
            cases rank?_zero.symm.trans hz
            cases hy
            exact hle
          have hsub : finite negative size - finite negative' size' =
              Single.add (finite negative size) (finite (!negative') size') := rfl
          rw [hsub] at hleft ⊢
          simp only [Single.add] at hleft ⊢
          generalize hsum : signedUnits negative size + signedUnits (!negative') size' = sum at hleft ⊢
          have hle : sum ≤ size.units := by
            have hopposite : signedUnits (!negative') size' = -signedUnits negative' size' := by
              cases negative' <;> simp [signedUnits]
            have hown : signedUnits negative size ≤ size.units := by
              cases negative <;> simp [signedUnits]
            omega
          split
          · trivial
          · rename_i hnonzero
            rw [if_neg hnonzero] at hleft
            by_cases hnegative : sum < 0
            · -- Below zero nothing is left.
              rw [decide_eq_true hnegative] at hleft
              exact absurd hleft (not_lt_of_le (round_le_zero _ _))
            · refine isFinite_round size.fits ?_
              omega
      | _ => exact hb.elim
  | _ => exact ha.elim

/-! ## Differences in order -/

/-- The rank of a rounded quotient, which has the sign of the number that is divided. -/
def roundedQuotient (num : Int) (den : Nat) : Int :=
  if num < 0 then -(roundedUnits num.natAbs den : Int) else roundedUnits num.natAbs den

theorem roundedQuotient_mono {s t : Int} (den : Nat) (h : s ≤ t) :
    roundedQuotient s den ≤ roundedQuotient t den := by
  unfold roundedQuotient
  by_cases ht : t < 0
  · -- Both are negative, and the smaller one has the larger size.
    have hs : s < 0 := Int.lt_of_le_of_lt h ht
    have hsize := roundedUnits_mono den (show t.natAbs ≤ s.natAbs by omega)
    rw [if_pos hs, if_pos ht]
    omega
  · by_cases hs : s < 0
    · rw [if_pos hs, if_neg ht]
      omega
    · have hsize := roundedUnits_mono den (show s.natAbs ≤ t.natAbs by omega)
      rw [if_neg hs, if_neg ht]
      omega

theorem roundedUnits_zero (den : Nat) : roundedUnits 0 den = 0 := by
  have hnone : roundBits 24 0 den ≤ 0 := roundBits_le (by decide) (Nat.dvd_zero _) (Nat.zero_le _)
  unfold roundedUnits
  omega

theorem rank?_round_signed (negative : Bool) (num den : Nat) : (round negative num den).rank? =
    some (roundedQuotient (if negative then -(num : Int) else num) den) := by
  rw [rank?_round]
  unfold roundedQuotient
  cases negative with
  | false =>
      simp only [Bool.false_eq_true, if_false]
      rw [if_neg (by omega), Int.natAbs_natCast]
  | true =>
      simp only [if_true, Int.natAbs_neg, Int.natAbs_natCast]
      -- A negative zero has the rank of zero.
      rcases Nat.eq_zero_or_pos num with rfl | hpos
      · rw [roundedUnits_zero]
        rfl
      · rw [if_pos (by omega)]

/-- The rank of a rounded sum. -/
def roundedSum (sum : Int) : Int :=
  if sum < 0 then -(roundedUnits sum.natAbs 1 : Int) else roundedUnits sum.natAbs 1

theorem roundedSum_mono {s t : Int} (h : s ≤ t) : roundedSum s ≤ roundedSum t :=
  roundedQuotient_mono 1 h

theorem rank?_add {negative negative' : Bool} {size size' : Magnitude} :
    (finite negative size + finite negative' size').rank? =
      some (roundedSum (signedUnits negative size + signedUnits negative' size')) := by
  show (Single.add (finite negative size) (finite negative' size')).rank? = _
  simp only [Single.add]
  generalize signedUnits negative size + signedUnits negative' size' = sum
  split
  · rename_i hzero
    rw [hzero]
    cases negative <;> cases negative' <;> decide +kernel
  · rw [rank?_round]
    simp [roundedSum]

theorem sub_le_sub_right (ha : a.IsFinite) (hb : b.IsFinite) (hx : x.IsFinite) (h : a ≤ b) :
    a - x ≤ b - x := by
  cases a with
  | finite _ _ =>
      cases b with
      | finite _ _ =>
          cases x with
          | finite _ _ =>
              rcases le_iff.1 h with ⟨_, _, hra, hrb, hle⟩
              cases hra
              cases hrb
              exact le_iff.2 ⟨_, _, rank?_add, rank?_add,
                roundedSum_mono (Int.add_le_add_right hle _)⟩
          | _ => exact hx.elim
      | _ => exact hb.elim
  | _ => exact ha.elim

end Single

end OverlayScrollbar
