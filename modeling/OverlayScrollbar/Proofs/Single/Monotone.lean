import OverlayScrollbar.Proofs.Single.Whole

/-!
# Operations that keep the order

An operation that rounds a monotone function of its operand keeps the order of the numbers, with the
infinities at both ends. Of two numbers in order the first is negative infinity, or the second is infinity,
or both are finite with their units in order; every result below goes through these three cases.

- `Single.le_cases`         : two numbers in order
- `Single.rank?_mul`, `Single.rank?_div` : products and quotients as rounded quotients of whole numbers
- `Single.sub_le_sub`, `Single.div_le_div_right`, `Single.mul_le_mul_left` : differences, quotients and
  products
- `Single.trunc_le_trunc`, `Single.nearest_le_nearest` : rounding to whole numbers
- `Single.min_le_min_right`, `Single.max_zero_le_max_zero`, `Single.clamp_le_clamp` : limits
-/

namespace OverlayScrollbar

namespace Single

variable {a b x y y' lo hi : Single}

/-! ## Numbers in order -/

theorem neg_infinity_le (h : a.isNaN = false) : infinity true ≤ a := by
  cases a with
  | nan => cases h
  | infinity negative => cases negative <;> decide +kernel
  | finite negative size =>
      exact le_iff.2 ⟨_, _, rfl, rfl, Int.le_of_lt (signedUnits_mem negative size).1⟩

theorem isNaN_of_le_left (h : a ≤ b) : a.isNaN = false := by
  rcases le_iff.1 h with ⟨r, _, hr, _⟩
  cases a with
  | nan => cases hr
  | _ => rfl

theorem le_cases (h : a ≤ b) : a = infinity true ∨ b = infinity false ∨
    ∃ negative size negative' size', a = finite negative size ∧ b = finite negative' size' ∧
      signedUnits negative size ≤ signedUnits negative' size' := by
  rcases le_iff.1 h with ⟨r, s, hr, hs, hle⟩
  have hlimit := unitLimit_pos
  -- The rank of an infinity is the limit, and every finite number stays below it.
  cases a with
  | nan => cases hr
  | infinity negative =>
      cases negative with
      | true => exact Or.inl rfl
      | false =>
          cases hr
          cases b with
          | nan => cases hs
          | infinity negative' =>
              cases negative' with
              | false => exact Or.inr (Or.inl rfl)
              | true =>
                  cases hs
                  have habsurd : (unitLimit : Int) ≤ -(unitLimit : Int) := hle
                  omega
          | finite negative' size' =>
              cases hs
              exact absurd hle (Int.not_le.2 (signedUnits_mem negative' size').2)
  | finite negative size =>
      cases hr
      cases b with
      | nan => cases hs
      | infinity negative' =>
          cases negative' with
          | false => exact Or.inr (Or.inl rfl)
          | true =>
              cases hs
              exact absurd hle (Int.not_le.2 (signedUnits_mem negative size).1)
      | finite negative' size' =>
          cases hs
          exact Or.inr (Or.inr ⟨_, _, _, _, rfl, rfl, hle⟩)

/-- A number between zero and a finite number is finite. -/
theorem isFinite_of_mem (hlow : 0 ≤ a) (h : a ≤ b) (hb : b.IsFinite) : a.IsFinite := by
  rcases le_cases h with rfl | rfl | ⟨_, _, _, _, rfl, _, _⟩
  · exact absurd hlow (by decide +kernel)
  · exact hb.elim
  · trivial

/-! ## Products and quotients -/

theorem rank?_mul (negative negative' : Bool) (size size' : Magnitude) :
    (finite negative size * finite negative' size').rank? =
      some (roundedQuotient (signedUnits negative size * signedUnits negative' size')
        unitsPerOne) := by
  have hproduct : signedUnits negative size * signedUnits negative' size' =
      if (negative != negative') then -((size.units * size'.units : Nat) : Int)
        else (size.units * size'.units : Nat) := by
    rw [Int.natCast_mul]
    unfold signedUnits
    cases negative <;> cases negative' <;>
      simp only [Bool.false_eq_true, if_false, if_true, bne_self_eq_false, Bool.bne_false,
        Bool.bne_true, Bool.not_false, Int.neg_mul, Int.mul_neg, Int.neg_neg]
  rw [hproduct]
  exact rank?_round_signed (negative != negative') _ unitsPerOne

theorem rank?_div (negative : Bool) (size : Magnitude) {length : Magnitude}
    (hlength : 0 < length.units) :
    (finite negative size / finite false length).rank? =
      some (roundedQuotient (signedUnits negative size * unitsPerOne) length.units) := by
  have hnum : signedUnits negative size * unitsPerOne =
      if negative then -((size.units * unitsPerOne : Nat) : Int)
        else (size.units * unitsPerOne : Nat) := by
    rw [Int.natCast_mul]
    unfold signedUnits
    cases negative <;> simp only [Bool.false_eq_true, if_false, if_true, Int.neg_mul]
  rw [finite_div negative size hlength, hnum]
  exact rank?_round_signed negative _ _

/-- Quotients by one length are in the order of the numbers that are divided. -/
theorem div_le_div_right (ha : a.IsFinite) (hb : b.IsFinite) (hx : 0 < x) (h : a ≤ b) :
    a / x ≤ b / x := by
  rcases le_cases h with rfl | rfl | ⟨negative, size, negative', size', rfl, rfl, hle⟩
  · exact ha.elim
  · exact hb.elim
  · cases x with
    | nan => cases isNaN_of_le_right (le_of_lt hx)
    | infinity sign =>
        -- Both quotients by an infinity are nothing.
        exact le_iff.2 ⟨0, 0, rank?_zero_of _, rank?_zero_of _, Int.le_refl 0⟩
    | finite sign length =>
        have hfinite : (finite sign length).IsFinite := trivial
        rcases exists_finite_of_zero_lt hfinite hx with ⟨length, hlength⟩
        rw [hlength] at hx ⊢
        have hunits := units_pos_of_zero_lt hx
        refine le_iff.2 ⟨_, _, rank?_div _ _ hunits, rank?_div _ _ hunits, ?_⟩
        exact roundedQuotient_mono _ (Int.mul_le_mul_of_nonneg_right hle (Int.natCast_nonneg _))

theorem rank?_zero_div (hx : 0 < x) : (0 / x).rank? = some 0 := by
  cases x with
  | nan => cases isNaN_of_le_right (le_of_lt hx)
  | infinity _ =>
      rcases eq_zero_of_rank?_zero rank?_zero with ⟨sign, hzero⟩
      rw [hzero]
      exact rank?_zero_of _
  | finite _ _ => exact rank?_div_of_zero rank?_zero trivial hx

theorem div_le_zero (ha : a.IsFinite) (hx : 0 < x) (h : a ≤ 0) : a / x ≤ 0 := by
  have hzero : (0 : Single).IsFinite := isFinite_of_zero rank?_zero
  have hnone : 0 / x ≤ 0 := le_iff.2 ⟨0, 0, rank?_zero_div hx, rank?_zero, Int.le_refl 0⟩
  exact le_trans (div_le_div_right ha hzero hx h) hnone

theorem mul_infinity (hx : x.IsFinite) (hpos : 0 < x) (negative : Bool) :
    x * infinity negative = infinity negative := by
  rcases exists_finite_of_zero_lt hx hpos with ⟨size, rfl⟩
  have hunits := units_pos_of_zero_lt hpos
  show (if size.units = 0 then nan else infinity (false != negative)) = _
  rw [if_neg (Nat.ne_of_gt hunits), Bool.false_bne]

/-- Products with one length are in the order of the other factors. -/
theorem mul_le_mul_left (hx : x.IsFinite) (hpos : 0 < x) (h : a ≤ b) : x * a ≤ x * b := by
  rcases le_cases h with rfl | rfl | ⟨negative, size, negative', size', rfl, rfl, hle⟩
  · rw [mul_infinity hx hpos]
    exact neg_infinity_le (isNaN_mul hx hpos (isNaN_of_le_right h))
  · rw [mul_infinity hx hpos]
    exact le_infinity (isNaN_mul hx hpos (isNaN_of_le_left h))
  · rcases exists_finite_of_zero_lt hx hpos with ⟨length, rfl⟩
    refine le_iff.2 ⟨_, _, rank?_mul _ _ _ _, rank?_mul _ _ _ _, ?_⟩
    exact roundedQuotient_mono _ (Int.mul_le_mul_of_nonneg_left hle (Int.natCast_nonneg _))

theorem mul_le_zero (hx : x.IsFinite) (hpos : 0 < x) (h : a ≤ 0) : x * a ≤ 0 := by
  have hnone : x * 0 ≤ 0 :=
    le_iff.2 ⟨0, 0, (rank?_mul_of_zero rank?_zero hx).2, rank?_zero, Int.le_refl 0⟩
  exact le_trans (mul_le_mul_left hx hpos h) hnone

/-! ## Differences -/

/-- What is left after the same finite number is taken away. -/
theorem sub_le_sub (hx : x.IsFinite) (h : a ≤ b) : a - x ≤ b - x := by
  rcases le_cases h with rfl | rfl | ⟨negative, size, negative', size', rfl, rfl, hle⟩
  · cases x with
    | finite _ _ => exact neg_infinity_le (isNaN_sub (isNaN_of_le_right h) hx)
    | _ => exact hx.elim
  · cases x with
    | finite _ _ => exact le_infinity (isNaN_sub (isNaN_of_le_left h) hx)
    | _ => exact hx.elim
  · exact sub_le_sub_right trivial trivial hx h

theorem sub_le_zero_of_le (h : a ≤ 0) (hx : x.IsFinite) (hnonneg : 0 ≤ x) : a - x ≤ 0 :=
  le_trans (sub_le_sub hx h) (sub_le_zero rank?_zero hx hnonneg)

/-! ## Whole numbers -/

theorem isNaN_mapWhole (whole : Bool → Nat → Nat) : (a.mapWhole whole).isNaN = a.isNaN := by
  cases a with
  | finite _ _ => exact isNaN_round _ _ _
  | _ => rfl

theorem mapWhole_finite (whole : Nat → Nat) (negative : Bool) (size : Magnitude) :
    (finite negative size).mapWhole (fun _ => whole) =
      round negative (whole size.units * unitsPerOne) 1 :=
  rfl

section

variable {whole : Nat → Nat} (hmono : ∀ {m n}, m ≤ n → whole m ≤ whole n) (hzero : whole 0 = 0)

include hmono hzero

/-- A monotone rule that does not look at the sign keeps the order of signed numbers of units. -/
theorem signed_whole_le (unit : Nat) {negative negative' : Bool} {size size' : Magnitude}
    (h : signedUnits negative size ≤ signedUnits negative' size') :
    (if negative then -((whole size.units * unit : Nat) : Int) else (whole size.units * unit : Nat)) ≤
      if negative' then -((whole size'.units * unit : Nat) : Int)
        else (whole size'.units * unit : Nat) := by
  cases negative with
  | true =>
      cases negative' with
      | true =>
          have hunits : size'.units ≤ size.units := Int.ofNat_le.1 (Int.neg_le_neg_iff.1 h)
          exact Int.neg_le_neg (Int.ofNat_le.2 (Nat.mul_le_mul_right _ (hmono hunits)))
      | false =>
          simp only [if_true, Bool.false_eq_true, if_false]
          omega
  | false =>
      cases negative' with
      | true =>
          -- Only the two zeros are in this order.
          have hnone : (size.units : Int) ≤ -(size'.units : Int) := h
          have hunits : size.units = 0 := by omega
          have hunits' : size'.units = 0 := by omega
          rw [hunits, hunits', hzero, Nat.zero_mul]
          exact Int.le_refl 0
      | false =>
          have hunits : size.units ≤ size'.units := Int.ofNat_le.1 h
          exact Int.ofNat_le.2 (Nat.mul_le_mul_right _ (hmono hunits))

/-- To round to a whole number by such a rule. -/
theorem mapWhole_le_mapWhole (h : a ≤ b) :
    a.mapWhole (fun _ => whole) ≤ b.mapWhole (fun _ => whole) := by
  rcases le_cases h with rfl | rfl | ⟨negative, size, negative', size', rfl, rfl, hle⟩
  · exact neg_infinity_le ((isNaN_mapWhole _).trans (isNaN_of_le_right h))
  · exact le_infinity ((isNaN_mapWhole _).trans (isNaN_of_le_left h))
  · rw [mapWhole_finite, mapWhole_finite]
    refine le_iff.2 ⟨_, _, rank?_round_signed _ _ _, rank?_round_signed _ _ _, ?_⟩
    exact roundedQuotient_mono 1 (signed_whole_le hmono hzero unitsPerOne hle)

end

theorem trunc_le_trunc (h : a ≤ b) : a.trunc ≤ b.trunc :=
  mapWhole_le_mapWhole Nat.div_le_div_right (Nat.zero_div _) h

theorem trunc_le_zero (h : a ≤ 0) : a.trunc ≤ 0 := by
  have hnone : (0 : Single).trunc ≤ 0 :=
    le_iff.2 ⟨0, 0, rank?_trunc_of_zero rank?_zero, rank?_zero, Int.le_refl 0⟩
  exact le_trans (trunc_le_trunc h) hnone

theorem nearest_le_nearest (h : a ≤ b) : a.nearest ≤ b.nearest := by
  refine mapWhole_le_mapWhole ?_ ?_ h
  · intro m n hle
    exact Nat.div_le_div_right (by omega)
  · rw [Nat.mul_zero, Nat.zero_add]
    exact Nat.div_eq_of_lt (by have hone := unitsPerOne_pos; omega)

theorem nearest_le_zero (h : a ≤ 0) : a.nearest ≤ 0 := by
  have hnone : (0 : Single).nearest ≤ 0 :=
    le_iff.2 ⟨0, 0, rank?_nearest_of_zero rank?_zero, rank?_zero, Int.le_refl 0⟩
  exact le_trans (nearest_le_nearest h) hnone

/-! ## Limits -/

theorem min_le_min_right (x : Single) (h : a ≤ b) : min a x ≤ min b x := by
  have ha := isNaN_of_le_left h
  show Single.min a x ≤ Single.min b x
  unfold Single.min
  rw [ha, isNaN_of_le_right h, if_neg Bool.false_ne_true, if_neg Bool.false_ne_true]
  by_cases hb : x < b
  · rw [if_pos hb]
    split
    · exact le_refl_iff.2 (isNaN_of_le_left (le_of_lt hb))
    · rename_i hnot
      exact (not_lt_iff (isNaN_of_le_left (le_of_lt hb)) ha).1 hnot
  · rw [if_neg hb, if_neg (fun hlt => hb (lt_of_lt_of_le hlt h))]
    exact h

theorem le_max_zero (h : a ≤ b) : a ≤ max b 0 := by
  show a ≤ Single.max b 0
  unfold Single.max
  rw [isNaN_of_le_right h, if_neg Bool.false_ne_true]
  split
  · rename_i hlt
    exact le_trans h (le_of_lt hlt)
  · exact h

theorem max_zero_le_max_zero (h : a ≤ b) : max a 0 ≤ max b 0 :=
  max_le (le_max_zero h) (zero_le_max_left b)

theorem clamp_le_clamp (h : a ≤ b) (hy : a.clamp lo hi = .ok y) (hy' : b.clamp lo hi = .ok y') :
    y ≤ y' := by
  rcases clamp_mem (isNaN_of_le_left h) hy with ⟨hlow, hhigh⟩
  rcases clamp_mem (isNaN_of_le_right h) hy' with ⟨hlow', hhigh'⟩
  by_cases hless : lo ≤ a
  · exact le_clamp hy' (clamp_le hy h (le_trans hless h)) hhigh
  · -- What lies below the interval is limited to its lower end.
    have hlt := lt_of_not_le (isNaN_of_le_left hlow) (isNaN_of_le_left h) hless
    exact le_trans (clamp_le hy (le_of_lt hlt) (le_refl_iff.2 (isNaN_of_le_left hlow))) hlow'

end Single

end OverlayScrollbar
