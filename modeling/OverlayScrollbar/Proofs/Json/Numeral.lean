import OverlayScrollbar.Json.Writer
import OverlayScrollbar.Proofs.Decimal.Digits
import OverlayScrollbar.Proofs.Decimal.ReadBack
import OverlayScrollbar.Proofs.Decimal.Shortest

/-!
# How numbers are written

The numeral of a number has all digits of its shortest decimal, with or without an exponent.

- `Numeral.parts_eq` : the significand and the power of ten that are read
- `Numeral.Spelled`  : numerals that can be read
- `Numeral.Writes`   : how a decimal is written as a numeral
- `Numeral.writes_positional`, `Numeral.writes_scientific` : without an exponent and with one

Main statement: `Single.writes_numeral`.
-/

namespace OverlayScrollbar

/-! ## Digits -/

namespace Numeral

theorem le_foldl_digits (start : Nat) (digits : List Char) :
    start ≤ digits.foldl (fun n c => n * 10 + (digitValue? c).getD 0) start := by
  induction digits generalizing start with
  | nil => exact Nat.le_refl _
  | cons c rest ih =>
      exact Nat.le_trans (show start ≤ start * 10 + (digitValue? c).getD 0 by omega) (ih _)

/-- Digits that fit a 64-bit word are all read. -/
theorem absorb_eq {start : Nat} {digits : List Char}
    (h : digits.foldl (fun n c => n * 10 + (digitValue? c).getD 0) start < 2 ^ 64) :
    absorb start digits =
      (digits.foldl (fun n c => n * 10 + (digitValue? c).getD 0) start, 0) := by
  induction digits generalizing start with
  | nil => rfl
  | cons c rest ih =>
      have hnext := Nat.lt_of_le_of_lt (le_foldl_digits _ rest) h
      unfold absorb
      dsimp only
      rw [if_pos hnext]
      exact ih h

theorem parts_eq {n : Numeral} (h : digitsValue 10 (n.whole ++ n.fraction) < 2 ^ 64) :
    n.parts = (digitsValue 10 (n.whole ++ n.fraction), n.exponentValue - n.fraction.length) := by
  unfold digitsValue at h ⊢
  rw [List.foldl_append] at h ⊢
  have hwhole := absorb_eq (Nat.lt_of_le_of_lt (le_foldl_digits _ _) h)
  unfold parts
  rw [hwhole]
  dsimp only
  rw [absorb_eq h]
  dsimp only
  congr 1
  omega

/-! ## How a number is written -/

/-- The parts of a numeral are such as can be read. There are digits before the point, and only a zero
that stands alone starts them. -/
structure Spelled (n : Numeral) : Prop where
  whole_digits : AllDigits n.whole
  whole_first : n.whole = ['0'] ∨ ∃ c rest, n.whole = c :: rest ∧ c ≠ '0'
  fraction_digits : AllDigits n.fraction
  exponent_digits : ∀ sign digits, n.exponent? = some (sign, digits) →
    AllDigits digits ∧ digits ≠ []

/-- How a decimal is written as a numeral. Zeros may follow the digits of the coefficient. -/
structure Writes (n : Numeral) (coefficient : Nat) (exponent : Int) : Prop extends Spelled n where
  not_whole : n.isWhole = false
  value : ∃ zeros : Nat, digitsValue 10 (n.whole ++ n.fraction) = coefficient * 10 ^ zeros ∧
    n.exponentValue - n.fraction.length = exponent - zeros ∧ zeros ≤ (exponent + 1).toNat ∧
    (zeros = 0 ∨ coefficient * 10 ^ zeros < 10 ^ 14)

theorem lt_pow_length_decimalDigits (n : Nat) : n < 10 ^ (decimalDigits n).length :=
  (Nat.length_toDigits_le_iff (by decide) Nat.length_toDigits_pos).1 (Nat.le_refl _)

/-- A decimal that is written without an exponent. -/
theorem writes_positional {coefficient : Nat} {exponent : Int}
    (h : coefficient = 0 → exponent = 0)
    (hsmall : exponent + ((decimalDigits coefficient).length - 1 : Nat) ≤ 12) (negative : Bool) :
    Writes ⟨negative, (positionalParts coefficient exponent).1,
      (positionalParts coefficient exponent).2, none⟩ coefficient exponent := by
  have hparts := positional_positionalParts coefficient exponent h
  rcases hparts.value with ⟨zeros, hvalue, hlength, hzeros⟩
  refine ⟨⟨hparts.whole_digits, hparts.whole_first, hparts.places_digits, ?_⟩, ?_, zeros, hvalue, ?_,
    hzeros, ?_⟩
  · rintro sign digits hnone
    cases hnone
  · unfold isWhole
    simp [hparts.places_ne]
  · show (0 : Int) - ((positionalParts coefficient exponent).2.length : Int) = _
    omega
  · -- Zeros are put in only where there are few digits.
    rcases Nat.eq_zero_or_pos zeros with hnone | hsome
    · exact Or.inl hnone
    · right
      have hlimit := lt_pow_length_decimalDigits coefficient
      have hdigits : 0 < (decimalDigits coefficient).length := Nat.length_toDigits_pos
      calc
        coefficient * 10 ^ zeros < 10 ^ (decimalDigits coefficient).length * 10 ^ zeros :=
          Nat.mul_lt_mul_of_pos_right hlimit (Nat.pow_pos (by decide))
        _ = 10 ^ ((decimalDigits coefficient).length + zeros) := (Nat.pow_add 10 _ _).symm
        _ ≤ 10 ^ 14 := Nat.pow_le_pow_right (by decide) (by omega)

/-- A decimal that is written with its point after the first digit. -/
theorem writes_scientific {coefficient : Nat} {exponent : Int} (hpos : 0 < coefficient)
    (negative : Bool) :
    Writes ⟨negative, (decimalDigits coefficient).take 1, (decimalDigits coefficient).drop 1,
      some (decide (exponent + ((decimalDigits coefficient).length - 1 : Nat) < 0),
        decimalDigits (exponent + ((decimalDigits coefficient).length - 1 : Nat)).natAbs)⟩
      coefficient exponent := by
  have hdigits := allDigits_decimalDigits coefficient
  refine ⟨⟨fun c hc => hdigits c (List.mem_of_mem_take hc), Or.inr ?_,
    fun c hc => hdigits c (List.mem_of_mem_drop hc), ?_⟩, ?_, 0, ?_, ?_, Nat.zero_le _, Or.inl rfl⟩
  · rcases exists_decimalDigits_cons hpos with ⟨c, rest, hcons, hc⟩
    rw [hcons]
    exact ⟨c, [], rfl, hc⟩
  · rintro sign digits hsome
    cases hsome
    exact ⟨allDigits_decimalDigits _, Nat.toDigits_ne_nil⟩
  · unfold isWhole
    simp
  · dsimp only
    rw [List.take_append_drop, digitsValue_decimalDigits, Nat.pow_zero, Nat.mul_one]
  · unfold exponentValue
    dsimp only
    rw [digitsValue_decimalDigits, List.length_drop]
    split
    · rename_i hnegative
      have hless := of_decide_eq_true hnegative
      omega
    · rename_i hnot
      have hge : ¬_ := fun hless => hnot (decide_eq_true hless)
      omega

end Numeral

namespace Single

/-- The numeral of a number writes its shortest decimal. -/
theorem writes_numeral (negative : Bool) (size : Magnitude) :
    (numeral negative size).negative = negative ∧
      (numeral negative size).Writes (shortest size).1 (shortest size).2 := by
  have hzero : (shortest size).1 = 0 → (shortest size).2 = 0 := by
    apply Cell.shortest_exponent
    rcases Nat.eq_zero_or_pos size.units with hnone | hpos
    · exact Or.inl hnone
    · exact Or.inr (held_singleCell hpos)
  unfold numeral
  -- The search for the shortest decimal must stay closed: it would be run to its end here.
  obtain ⟨found, hfound⟩ : ∃ found, found = shortest := ⟨_, rfl⟩
  rw [← hfound] at hzero ⊢
  generalize found size = decimal at hzero ⊢
  rcases decimal with ⟨coefficient, exponent⟩
  dsimp only at hzero ⊢
  split
  · rename_i hpower
    exact ⟨rfl, Numeral.writes_positional hzero hpower.2 negative⟩
  · rename_i hpower
    refine ⟨rfl, Numeral.writes_scientific (Nat.pos_of_ne_zero ?_) negative⟩
    rintro rfl
    rw [hzero rfl] at hpower
    exact hpower (by decide)

end Single

end OverlayScrollbar
