import OverlayScrollbar.Decimal.Text

/-!
# Digits that read back

The digits of a whole number are read as that number, and a decimal that is written without an exponent
has the digits of its coefficient, to which zeros may be added.

- `digitsValue_decimalDigits`  : the digits of a whole number
- `exists_decimalDigits_cons`  : only zero starts with the digit zero
- `Positional`                 : how a decimal is written without an exponent
- `positional_positionalParts` : the parts before and after the point
-/

namespace OverlayScrollbar

variable {c : Char} {digits more : List Char} {n : Nat} {exponent : Int}

/-! ## Digits of base ten -/

theorem digit_mem_of_isDigit (h : c.isDigit = true) : '0' ≤ c ∧ c ≤ '9' := by
  rcases Bool.and_eq_true_iff.1 h with ⟨hlow, hhigh⟩
  exact ⟨of_decide_eq_true hlow, of_decide_eq_true hhigh⟩

theorem digitValue?_of_isDigit (h : c.isDigit = true) :
    digitValue? c = some (c.toNat - '0'.toNat) :=
  if_pos (digit_mem_of_isDigit h)

theorem isDigitOf_ten_of_isDigit (h : c.isDigit = true) : isDigitOf 10 c = true := by
  have hvalue : c.toNat - '0'.toNat < 10 := by
    have hhigh : c.toNat ≤ '9'.toNat := (digit_mem_of_isDigit h).2
    have hzero : '0'.toNat = 48 := rfl
    have hnine : '9'.toNat = 57 := rfl
    omega
  unfold isDigitOf
  rw [digitValue?_of_isDigit h]
  exact decide_eq_true hvalue

/-- What is no digit of base ten has another value, or none. -/
theorem isDigitOf_ten_of_not_isDigit (h : c.isDigit = false) : isDigitOf 10 c = false := by
  have hrange : ¬('0' ≤ c ∧ c ≤ '9') := by
    rintro ⟨hlow, hhigh⟩
    have hdigit : c.isDigit = true :=
      Bool.and_eq_true_iff.2 ⟨decide_eq_true hlow, decide_eq_true hhigh⟩
    cases h.symm.trans hdigit
  unfold isDigitOf digitValue?
  rw [if_neg hrange]
  -- The letters that are digits of base sixteen have values from ten on.
  split
  · rename_i d hd
    split at hd
    · cases hd
      exact decide_eq_false (by omega)
    · split at hd
      · cases hd
        exact decide_eq_false (by omega)
      · cases hd
  · rfl

/-- Every character is a digit of base ten. -/
def AllDigits (digits : List Char) : Prop :=
  ∀ c ∈ digits, c.isDigit = true

theorem AllDigits.append (h : AllDigits digits) (hmore : AllDigits more) :
    AllDigits (digits ++ more) := by
  intro c hc
  rcases List.mem_append.1 hc with hleft | hright
  · exact h c hleft
  · exact hmore c hright

theorem allDigits_zeros (n : Nat) : AllDigits (List.replicate n '0') := by
  intro c hc
  rw [List.eq_of_mem_replicate hc]
  rfl

theorem digitsValue_ten (h : AllDigits digits) :
    digitsValue 10 digits = Nat.ofDigitChars 10 digits 0 := by
  -- By induction on the digits, with the value of those that are read already left open.
  have hfold : ∀ start, digits.foldl (fun n c => n * 10 + (digitValue? c).getD 0) start =
      Nat.ofDigitChars 10 digits start := by
    induction digits with
    | nil =>
        intro start
        rfl
    | cons c rest ih =>
        intro start
        have hc := digitValue?_of_isDigit (h c List.mem_cons_self)
        have hrest := ih (fun d hd => h d (List.mem_cons_of_mem _ hd))
          (start * 10 + (c.toNat - '0'.toNat))
        rw [Nat.ofDigitChars_cons, List.foldl_cons, hc, Nat.mul_comm 10]
        exact hrest
  exact hfold 0

/-! ## Digits of whole numbers -/

theorem allDigits_decimalDigits (n : Nat) : AllDigits (decimalDigits n) :=
  fun _ hc => Nat.isDigit_of_mem_toDigits (by decide) (by decide) hc

theorem digitsValue_decimalDigits (n : Nat) : digitsValue 10 (decimalDigits n) = n := by
  rw [digitsValue_ten (allDigits_decimalDigits n)]
  exact Nat.ofDigitChars_toDigits (by decide) (by decide)

theorem exists_decimalDigits_cons (h : 0 < n) :
    ∃ c rest, decimalDigits n = c :: rest ∧ c ≠ '0' := by
  -- The digits of a tenth of the number come first, so that the induction takes the last one off.
  induction n using Nat.strongRecOn with
  | ind n ih =>
      unfold decimalDigits at ih ⊢
      rw [Nat.toDigits_eq_if (by decide)]
      split
      · refine ⟨_, [], rfl, ?_⟩
        intro hzero
        have hnone := Nat.digitChar_eq_zero.1 hzero
        omega
      · rcases ih (n / 10) (by omega) (by omega) with ⟨c, rest, hdigits, hc⟩
        rw [hdigits]
        exact ⟨c, rest ++ [(n % 10).digitChar], rfl, hc⟩

theorem decimalDigits_first (n : Nat) :
    decimalDigits n = ['0'] ∨ ∃ c rest, decimalDigits n = c :: rest ∧ c ≠ '0' := by
  rcases Nat.eq_zero_or_pos n with rfl | hpos
  · exact Or.inl rfl
  · exact Or.inr (exists_decimalDigits_cons hpos)

theorem ne_nil_of_first {digits : List Char}
    (h : digits = ['0'] ∨ ∃ c rest, digits = c :: rest ∧ c ≠ '0') : digits ≠ [] := by
  rcases h with rfl | ⟨c, rest, rfl, _⟩
  · exact List.cons_ne_nil _ _
  · exact List.cons_ne_nil _ _

/-! ## Decimals without an exponent -/

/-- The parts of a decimal that is written without an exponent. Zeros may follow the digits of the
coefficient, and the places make up for them. -/
structure Positional (coefficient : Nat) (exponent : Int) (whole places : List Char) : Prop where
  whole_digits : AllDigits whole
  places_digits : AllDigits places
  whole_first : whole = ['0'] ∨ ∃ c rest, whole = c :: rest ∧ c ≠ '0'
  places_ne : places ≠ []
  value : ∃ zeros : Nat, digitsValue 10 (whole ++ places) = coefficient * 10 ^ zeros ∧
    (places.length : Int) = zeros - exponent ∧ zeros ≤ (exponent + 1).toNat

theorem digitsValue_append_zeros (h : AllDigits digits) (zeros : Nat) :
    digitsValue 10 (digits ++ List.replicate zeros '0') = digitsValue 10 digits * 10 ^ zeros := by
  rw [digitsValue_ten (h.append (allDigits_zeros zeros)), digitsValue_ten h,
    Nat.ofDigitChars_append, Nat.ofDigitChars_replicate_zero, Nat.mul_comm]

theorem digitsValue_zeros_append (h : AllDigits digits) (zeros : Nat) :
    digitsValue 10 (List.replicate zeros '0' ++ digits) = digitsValue 10 digits := by
  rw [digitsValue_ten ((allDigits_zeros zeros).append h), digitsValue_ten h,
    Nat.ofDigitChars_append, Nat.ofDigitChars_replicate_zero, Nat.mul_zero]

/-- A whole number gets its zeros, and one place. -/
theorem positional_append_zeros (hdigits : AllDigits digits)
    (hfirst : digits = ['0'] ∧ exponent = 0 ∨ ∃ c rest, digits = c :: rest ∧ c ≠ '0')
    (hwhole : 0 ≤ exponent) :
    Positional (digitsValue 10 digits) exponent (digits ++ List.replicate exponent.toNat '0')
      ['0'] := by
  have hzeros : List.replicate exponent.toNat '0' ++ ['0'] =
      List.replicate (exponent.toNat + 1) '0' := by
    rw [List.replicate_succ']
  refine ⟨hdigits.append (allDigits_zeros _), allDigits_zeros 1, ?_, List.cons_ne_nil _ _,
    exponent.toNat + 1, ?_, ?_, by omega⟩
  · rcases hfirst with ⟨hzero, hexponent⟩ | ⟨c, rest, hcons, hc⟩
    · left
      rw [hzero, hexponent]
      rfl
    · right
      exact ⟨c, rest ++ List.replicate exponent.toNat '0', by rw [hcons]; rfl, hc⟩
  · rw [List.append_assoc, hzeros, digitsValue_append_zeros hdigits]
  · simp
    omega

/-- The point stands between two digits, if there are more of them than places. -/
theorem positional_take_drop (hdigits : AllDigits digits)
    (hfirst : ∃ c rest, digits = c :: rest ∧ c ≠ '0') (hfraction : exponent < 0)
    (hinside : (-exponent).toNat < digits.length) :
    Positional (digitsValue 10 digits) exponent
      (digits.take (digits.length - (-exponent).toNat))
      (digits.drop (digits.length - (-exponent).toNat)) := by
  refine ⟨?_, ?_, Or.inr ?_, ?_, 0, ?_, ?_, Nat.zero_le _⟩
  · intro c hc
    exact hdigits c (List.mem_of_mem_take hc)
  · intro c hc
    exact hdigits c (List.mem_of_mem_drop hc)
  · -- At least one digit stands before the point, and so the first one does.
    rcases hfirst with ⟨c, rest, hcons, hc⟩
    obtain ⟨kept, hkept⟩ : ∃ kept, digits.length - (-exponent).toNat = kept + 1 :=
      ⟨digits.length - (-exponent).toNat - 1, by omega⟩
    rw [hkept, hcons]
    exact ⟨c, rest.take kept, rfl, hc⟩
  · intro hnone
    have hlength := List.drop_eq_nil_iff.1 hnone
    omega
  · rw [List.take_append_drop, Nat.pow_zero, Nat.mul_one]
  · rw [List.length_drop]
    omega

/-- The digits stand behind the point, after the zeros that the places want. -/
theorem positional_zeros_append (hdigits : AllDigits digits) (hne : digits ≠ [])
    (hoff : digits.length ≤ (-exponent).toNat) :
    Positional (digitsValue 10 digits) exponent ['0']
      (List.replicate ((-exponent).toNat - digits.length) '0' ++ digits) := by
  have hzeros : ['0'] ++ (List.replicate ((-exponent).toNat - digits.length) '0' ++ digits) =
      List.replicate ((-exponent).toNat - digits.length + 1) '0' ++ digits := by
    rw [List.replicate_succ]
    rfl
  have hlength := List.length_pos_iff.2 hne
  refine ⟨allDigits_zeros 1, (allDigits_zeros _).append hdigits, Or.inl rfl,
    List.append_ne_nil_of_right_ne_nil _ hne, 0, ?_, ?_, Nat.zero_le _⟩
  · rw [hzeros, digitsValue_zeros_append hdigits, Nat.pow_zero, Nat.mul_one]
  · rw [List.length_append, List.length_replicate]
    omega

theorem positional_positionalParts (coefficient : Nat) (exponent : Int)
    (h : coefficient = 0 → exponent = 0) :
    Positional coefficient exponent (positionalParts coefficient exponent).1
      (positionalParts coefficient exponent).2 := by
  have hdigits := allDigits_decimalDigits coefficient
  have hvalue := digitsValue_decimalDigits coefficient
  have hfirst : decimalDigits coefficient = ['0'] ∧ exponent = 0 ∨
      ∃ c rest, decimalDigits coefficient = c :: rest ∧ c ≠ '0' := by
    rcases Nat.eq_zero_or_pos coefficient with hzero | hpos
    · exact Or.inl ⟨by rw [hzero]; rfl, h hzero⟩
    · exact Or.inr (exists_decimalDigits_cons hpos)
  unfold positionalParts
  dsimp only
  generalize decimalDigits coefficient = digits at *
  rw [← hvalue]
  by_cases hwhole : 0 ≤ exponent
  · rw [if_pos hwhole]
    exact positional_append_zeros hdigits hfirst hwhole
  · -- Zero is a whole number, so that these digits start with another one.
    have hcons : ∃ c rest, digits = c :: rest ∧ c ≠ '0' := by
      rcases hfirst with ⟨_, hexponent⟩ | hcons
      · exact absurd (Int.le_of_eq hexponent.symm) hwhole
      · exact hcons
    rw [if_neg hwhole]
    by_cases hinside : (-exponent).toNat < digits.length
    · rw [if_pos hinside]
      exact positional_take_drop hdigits hcons (Int.not_le.1 hwhole) hinside
    · rw [if_neg hinside]
      exact positional_zeros_append hdigits (ne_nil_of_first (Or.inr hcons))
        (Nat.not_lt.1 hinside)

end OverlayScrollbar
