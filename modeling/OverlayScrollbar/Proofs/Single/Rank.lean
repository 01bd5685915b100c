import OverlayScrollbar.Proofs.Single.Finite

/-!
# Numbers of one rank

Two numbers of one rank are the same, or are the two zeros. Comparisons, differences and limits do
not tell numbers of one rank apart.

- `Single.eq_or_zero_of_rank?` : the numbers of one rank
- `Single.rank?_sub_congr`, `Single.rank?_min_congr`, `Single.rank?_max_congr` : results of one rank
- `Single.sub_le_zero`         : nothing is left of zero
- `Single.exists_mul_eq_round`, `Single.round_eq_of_sameSize` : multiples of a length have no sign, and
  are told apart by their size
-/

namespace OverlayScrollbar

namespace Single

variable {a a' b b' : Single}

theorem unitLimit_pos : 0 < unitLimit := by
  decide +kernel

/-- A finite number lies between the infinities. -/
theorem signedUnits_mem (negative : Bool) (size : Magnitude) :
    -(unitLimit : Int) < signedUnits negative size ∧ signedUnits negative size < unitLimit := by
  have hlimit := size.fits.1
  cases negative with
  | true =>
      show -(unitLimit : Int) < -(size.units : Int) ∧ -(size.units : Int) < unitLimit
      omega
  | false =>
      show -(unitLimit : Int) < (size.units : Int) ∧ (size.units : Int) < unitLimit
      omega

/-- No finite number has the rank of an infinity. -/
theorem rank?_infinity_ne (sign negative : Bool) (size : Magnitude) :
    (infinity sign).rank? ≠ (finite negative size).rank? := by
  intro h
  have hrank : (if sign then -(unitLimit : Int) else unitLimit) = signedUnits negative size :=
    Option.some.inj h
  rcases signedUnits_mem negative size with ⟨hlow, hhigh⟩
  cases sign with
  | true => exact absurd hrank (Int.ne_of_lt hlow)
  | false => exact absurd hrank.symm (Int.ne_of_lt hhigh)

/-- Two finite numbers of one rank are one, or both are zero. -/
theorem eq_or_zero_of_signedUnits {negative negative' : Bool} {size size' : Magnitude}
    (h : signedUnits negative size = signedUnits negative' size') :
    finite negative size = finite negative' size' ∨ signedUnits negative size = 0 := by
  by_cases hsign : negative = negative'
  · subst hsign
    have hunits : size.units = size'.units := by
      cases negative with
      | true => exact Int.ofNat.inj (Int.neg_inj.1 h)
      | false => exact Int.ofNat.inj h
    rcases size with ⟨units, fits⟩
    rcases size' with ⟨units', fits'⟩
    cases hunits
    exact Or.inl rfl
  · -- Of two numbers with different signs, one is not above zero and one not below.
    refine Or.inr ?_
    cases negative with
    | true =>
        cases negative' with
        | true => exact absurd rfl hsign
        | false =>
            have hopposite : -(size.units : Int) = size'.units := h
            show -(size.units : Int) = 0
            omega
    | false =>
        cases negative' with
        | true =>
            have hopposite : (size.units : Int) = -(size'.units : Int) := h
            show (size.units : Int) = 0
            omega
        | false => exact absurd rfl hsign

/-- Two numbers of one rank are one, or both are zero. -/
theorem eq_or_zero_of_rank? (h : a.rank? = b.rank?) :
    a = b ∨ a.rank? = some 0 ∧ b.rank? = some 0 := by
  cases a with
  | nan =>
      cases b with
      | nan => exact Or.inl rfl
      | infinity _ => cases h
      | finite _ _ => cases h
  | infinity sign =>
      cases b with
      | nan => cases h
      | infinity sign' =>
          have hlimit := unitLimit_pos
          have hrank : (if sign then -(unitLimit : Int) else unitLimit) =
              if sign' then -(unitLimit : Int) else unitLimit := Option.some.inj h
          refine Or.inl (congrArg infinity ?_)
          cases sign <;> cases sign' <;> simp at hrank ⊢ <;> omega
      | finite negative size => exact absurd h (rank?_infinity_ne sign negative size)
  | finite negative size =>
      cases b with
      | nan => cases h
      | infinity sign => exact absurd h.symm (rank?_infinity_ne sign negative size)
      | finite negative' size' =>
          rcases eq_or_zero_of_signedUnits (Option.some.inj h) with hsame | hzero
          · exact Or.inl hsame
          · have hrank : (finite negative size).rank? = some 0 := congrArg some hzero
            exact Or.inr ⟨hrank, h.symm.trans hrank⟩

/-! ## Comparison -/

theorem lt_congr (ha : a.rank? = a'.rank?) (hb : b.rank? = b'.rank?) : a < b ↔ a' < b' := by
  rw [lt_iff, lt_iff, ha, hb]

theorem isNaN_congr (h : a.rank? = b.rank?) : a.isNaN = b.isNaN := by
  rw [Bool.eq_iff_iff, isNaN_iff, isNaN_iff, h]

theorem rank?_of_sameSize (h : a.sameSize b = true) : a.rank? = b.rank? := by
  rcases sameSize_iff.1 h with ⟨hle, hge⟩
  rcases le_iff.1 hle with ⟨x, y, hx, hy, hxy⟩
  rcases le_iff.1 hge with ⟨y', x', hy', hx', hyx⟩
  cases hx.symm.trans hx'
  cases hy.symm.trans hy'
  rw [hx, hy, Int.le_antisymm hxy hyx]

/-! ## Results -/

theorem rank?_min_congr (ha : a.rank? = a'.rank?) (hb : b.rank? = b'.rank?) :
    (min a b).rank? = (min a' b').rank? := by
  show (Single.min a b).rank? = (Single.min a' b').rank?
  unfold Single.min
  rw [isNaN_congr ha]
  simp only [lt_congr hb ha]
  split
  · exact hb
  · split
    · exact hb
    · exact ha

theorem rank?_max_congr (ha : a.rank? = a'.rank?) (hb : b.rank? = b'.rank?) :
    (max a b).rank? = (max a' b').rank? := by
  show (Single.max a b).rank? = (Single.max a' b').rank?
  unfold Single.max
  rw [isNaN_congr ha]
  simp only [lt_congr ha hb]
  split
  · exact hb
  · split
    · exact hb
    · exact ha

theorem exists_finite_of_rank?_zero (h : a.rank? = some 0) :
    ∃ negative size, a = finite negative size ∧ signedUnits negative size = 0 := by
  cases a with
  | nan => cases h
  | infinity sign =>
      have hlimit := unitLimit_pos
      have hrank : (if sign then -(unitLimit : Int) else unitLimit) = 0 := Option.some.inj h
      cases sign <;> simp at hrank <;> omega
  | finite negative size => exact ⟨negative, size, rfl, Option.some.inj h⟩

/-- Nothing is left of zero. -/
theorem sub_le_zero (ha : a.rank? = some 0) (hb : b.IsFinite) (hnonneg : 0 ≤ b) : a - b ≤ 0 := by
  rcases exists_finite_of_rank?_zero ha with ⟨negative, size, rfl, hzero⟩
  cases b with
  | finite negative' size' =>
      rcases le_iff.1 hnonneg with ⟨z, y, hz, hy, hle⟩
      cases rank?_zero.symm.trans hz
      cases hy
      -- The difference is the sum with the opposite, and sums keep the order of their exact values.
      have hopposite : signedUnits (!negative') size' = -signedUnits negative' size' := by
        cases negative' <;> simp [signedUnits]
      have hsum : roundedSum (signedUnits negative size + signedUnits (!negative') size') ≤
          roundedSum 0 := by
        apply roundedSum_mono
        omega
      exact le_iff.2 ⟨_, 0, rank?_add, rank?_zero, hsum⟩
  | _ => exact hb.elim

/-- The two zeros leave the same. -/
theorem rank?_sub_congr (h : a.rank? = b.rank?) (x : Single) : (a - x).rank? = (b - x).rank? := by
  rcases eq_or_zero_of_rank? h with rfl | ⟨ha, hb⟩
  · rfl
  · rcases exists_finite_of_rank?_zero ha with ⟨_, _, rfl, hzero⟩
    rcases exists_finite_of_rank?_zero hb with ⟨_, _, rfl, hzero'⟩
    cases x with
    | nan => rfl
    | infinity _ => rfl
    | finite _ _ =>
        refine rank?_add.trans ?_
        rw [hzero, ← hzero']
        exact rank?_add.symm

/-! ## Numbers without a sign -/

theorem lt_or_lt_of_not_sameSize (ha : a.isNaN = false) (hb : b.isNaN = false)
    (h : a.sameSize b = false) : a < b ∨ b < a := by
  by_cases hlt : a < b
  · exact Or.inl hlt
  · refine Or.inr ?_
    apply lt_of_not_le ha hb
    intro hle
    have hsame := sameSize_iff.2 ⟨hle, (not_lt_iff ha hb).1 hlt⟩
    cases h.symm.trans hsame

theorem round_of_rank?_zero {num den : Nat} (h : (round false num den).rank? = some 0) :
    round false num den = zero false := by
  have hunits : roundedUnits num den = 0 := by
    rw [rank?_round] at h
    exact Int.ofNat.inj (Option.some.inj h)
  have hlimit := unitLimit_pos
  have hnone : roundBits 24 num den = 0 := by
    unfold roundedUnits at hunits
    omega
  unfold round zero
  rw [dif_pos (hnone ▸ hlimit)]
  simp only [hnone]

/-- Rounded numbers without a sign are told apart by their size. -/
theorem round_eq_of_sameSize {num den num' den' : Nat}
    (h : (round false num den).sameSize (round false num' den') = true) :
    round false num den = round false num' den' := by
  rcases eq_or_zero_of_rank? (rank?_of_sameSize h) with hsame | ⟨hzero, hzero'⟩
  · exact hsame
  · rw [round_of_rank?_zero hzero, round_of_rank?_zero hzero']

theorem exists_finite_of_zero_lt (ha : a.IsFinite) (hpos : 0 < a) :
    ∃ size, a = finite false size := by
  cases a with
  | finite negative size =>
      cases negative with
      | false => exact ⟨size, rfl⟩
      | true =>
          rcases lt_iff.1 hpos with ⟨z, y, hz, hy, hlt⟩
          cases rank?_zero.symm.trans hz
          cases hy
          have hunits : (0 : Int) < -(size.units : Int) := hlt
          omega
  | _ => exact ha.elim

theorem exists_ofNat_eq {n : Nat} (h : n ≤ 2 ^ 64) : ∃ size, ofNat n = finite false size := by
  have hfinite := isFinite_ofNat h
  unfold ofNat ofRatio round at *
  split at hfinite
  · rename_i hfits
    rw [dif_pos hfits]
    exact ⟨_, rfl⟩
  · exact hfinite.elim

/-- A multiple of a finite length above zero is rounded once, and has no sign. -/
theorem exists_mul_eq_round {n : Nat} (hn : n ≤ 2 ^ 64) (ha : a.IsFinite) (hpos : 0 < a) :
    ∃ num den, ofNat n * a = round false num den := by
  rcases exists_ofNat_eq hn with ⟨count, hcount⟩
  rcases exists_finite_of_zero_lt ha hpos with ⟨size, rfl⟩
  rw [hcount]
  exact ⟨_, _, rfl⟩

end Single

end OverlayScrollbar
