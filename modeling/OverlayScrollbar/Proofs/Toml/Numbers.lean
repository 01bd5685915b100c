import OverlayScrollbar.Proofs.Decimal.ReadBack
import OverlayScrollbar.Toml.Reader
import OverlayScrollbar.Toml.Writer

/-!
# Numbers of TOML that read back

A number that is written at the end of a line is read as that number. Nothing of it is taken for a date
or a time, and the reader stops at the line end.

- `dateTime_digits`  : digits are no date and no time without the mark that follows the first of them
- `underscored_digits` : digits are read up to the first other character
- `number_word`      : whole numbers
- `number_float`     : floating-point numbers, those that are not finite too
-/

namespace OverlayScrollbar

namespace TomlReader

variable {digits rest : List Char} {c : Char}

/-! ## Dates and times -/

/-- Where digits are asked for, only digits are taken, so that a mark after them is the first character
that is no digit. -/
theorem mark_of_fixedDigits (hdigits : AllDigits digits) (hc : c.isDigit = false) {d : Char}
    (hd : d.isDigit = false) (hne : d ≠ c) {count n : Nat} {after : List Char}
    (h : fixedDigits count (digits ++ c :: rest) = some (n, after)) : mark d after = none := by
  unfold fixedDigits at h
  dsimp only at h
  split at h
  · rename_i htaken
    cases h
    -- To take more than the digits there are would take the character after them, too.
    have hcount : count ≤ digits.length := by
      rcases Nat.lt_or_ge digits.length count with hmore | hle
      · have hall := List.all_eq_true.1 htaken.2 c (by
          rw [List.take_append, List.take_of_length_le (Nat.le_of_lt hmore)]
          obtain ⟨more, hlonger⟩ : ∃ more, count - digits.length = more + 1 :=
            ⟨count - digits.length - 1, by omega⟩
          rw [hlonger, List.take_succ_cons]
          exact List.mem_append_right _ List.mem_cons_self)
        rw [isDigitOf_ten_of_not_isDigit hc] at hall
        cases hall
      · exact hle
    rw [List.drop_append_of_le_length hcount]
    -- What is left begins with a digit or with the character, and neither is the mark.
    cases hdrop : digits.drop count with
    | nil => exact if_neg hne
    | cons e more =>
        apply if_neg
        rintro rfl
        have hmem : d ∈ digits := List.mem_of_mem_drop (hdrop ▸ List.mem_cons_self)
        rw [hdigits d hmem] at hd
        cases hd
  · cases h

theorem mark_of_pair (hdigits : AllDigits digits) (hc : c.isDigit = false) {d : Char}
    (hd : d.isDigit = false) (hne : d ≠ c) {lo hi n : Nat} {after : List Char}
    (h : pair lo hi (digits ++ c :: rest) = some (n, after)) : mark d after = none := by
  rcases Option.bind_eq_some_iff.1 h with ⟨⟨m, found⟩, hfixed, hbounds⟩
  dsimp only at hbounds
  split at hbounds
  · cases hbounds
    exact mark_of_fixedDigits hdigits hc hd hne hfixed
  · cases hbounds

/-- Digits are no date and no time, unless the first other character is a mark of one. -/
theorem dateTime_digits (hdigits : AllDigits digits) (hc : c.isDigit = false) (hdash : '-' ≠ c)
    (hcolon : ':' ≠ c) : dateTime (digits ++ c :: rest) = none := by
  have hdate : date (digits ++ c :: rest) = none := by
    unfold date
    cases hfixed : fixedDigits 4 (digits ++ c :: rest) with
    | none => rfl
    | some found =>
        show (mark '-' found.2).bind _ = none
        rw [mark_of_fixedDigits hdigits hc (by decide) hdash hfixed]
        rfl
  have htime : time (digits ++ c :: rest) = none := by
    unfold time
    cases hpair : pair 0 23 (digits ++ c :: rest) with
    | none => rfl
    | some found =>
        show (mark ':' found.2).bind _ = none
        rw [mark_of_pair hdigits hc (by decide) hcolon hpair]
        rfl
  unfold dateTime
  rw [hdate]
  exact htime

/-- What starts with no digit is no date and no time. -/
theorem dateTime_other (hc : c.isDigit = false) : dateTime (c :: rest) = none := by
  have hfixed : ∀ count, 0 < count → fixedDigits count (c :: rest) = none := by
    intro count hcount
    obtain ⟨more, rfl⟩ : ∃ more, count = more + 1 := ⟨count - 1, by omega⟩
    apply if_neg
    rw [List.take_succ_cons, List.all_cons, isDigitOf_ten_of_not_isDigit hc]
    simp
  have hdate : date (c :: rest) = none := by
    unfold date
    rw [hfixed 4 (by decide)]
    rfl
  unfold dateTime time pair
  rw [hdate, hfixed 2 (by decide)]
  rfl

/-! ## Digits -/

theorem underscored_digits (hdigits : AllDigits digits) (hsome : digits ≠ []) (hc : c.isDigit = false)
    (hline : c ≠ '_') : underscored 10 (digits ++ c :: rest) = some (digits, c :: rest) := by
  induction digits with
  | nil => exact absurd rfl hsome
  | cons d more ih =>
      have hd := isDigitOf_ten_of_isDigit (hdigits d List.mem_cons_self)
      -- Only the last digit is followed by another character, which may be no underscore.
      cases more with
      | nil =>
          unfold underscored
          simp [hd, hline, isDigitOf_ten_of_not_isDigit hc]
      | cons e more =>
          have hmore : AllDigits (e :: more) := fun x hx => hdigits x (List.mem_cons_of_mem _ hx)
          have he := hmore e List.mem_cons_self
          have hunder : e ≠ '_' := by
            rintro rfl
            cases he
          have hread := ih hmore (List.cons_ne_nil _ _)
          rw [List.cons_append] at hread
          unfold underscored
          simp [hd, hunder, isDigitOf_ten_of_isDigit he, hread]

/-- A whole number without leading zeros. -/
theorem wholeDigits_digits (hdigits : AllDigits digits)
    (hfirst : digits = ['0'] ∨ ∃ d more, digits = d :: more ∧ d ≠ '0') (hc : c.isDigit = false)
    (hline : c ≠ '_') (rest : List Char) :
    wholeDigits (digits ++ c :: rest) = some (digits, c :: rest) := by
  rcases hfirst with rfl | ⟨d, more, rfl, hd⟩
  · rfl
  · rw [← underscored_digits hdigits (List.cons_ne_nil _ _) hc hline]
    unfold wholeDigits
    split
    · rename_i hcons
      cases hcons
      exact absurd rfl hd
    · rfl

/-! ## Signs -/

/-- A digit is none of the letters and signs that a number may start with. -/
theorem ne_of_isDigit (hc : c.isDigit = true) {d : Char} (hd : d.isDigit = false) : c ≠ d := by
  rintro rfl
  cases hc.symm.trans hd

theorem sign_digit (negative : Bool) (hc : c.isDigit = true) :
    sign ((if negative then ['-'] else []) ++ c :: rest) = (negative, c :: rest) := by
  cases negative with
  | true => rfl
  | false =>
      have hminus := ne_of_isDigit hc (d := '-') rfl
      have hplus := ne_of_isDigit hc (d := '+') rfl
      show sign (c :: rest) = _
      unfold sign
      split
      · rename_i hcons
        cases hcons
        exact absurd rfl hminus
      · rename_i hcons
        cases hcons
        exact absurd rfl hplus
      · rfl

theorem specialFloat_digit (negative : Bool) (hc : c.isDigit = true) :
    specialFloat ((if negative then ['-'] else []) ++ c :: rest) = none := by
  unfold specialFloat
  rw [sign_digit negative hc]
  dsimp only
  split
  · rename_i hcons
    cases hcons
    cases hc
  · rename_i hcons
    cases hcons
    cases hc
  · rfl

/-- Digits that no mark of a date, a time or another base follows are read as a decimal number. -/
theorem number_digits (negative : Bool) (hdigits : AllDigits digits) (hsome : digits ≠ [])
    (hc : c.isDigit = false) (hdate : '-' ≠ c ∧ ':' ≠ c) (hbase : c ≠ 'x' ∧ c ≠ 'o' ∧ c ≠ 'b')
    (rest : List Char) :
    number ((if negative then ['-'] else []) ++ (digits ++ c :: rest)) =
      decimalNumber ((if negative then ['-'] else []) ++ (digits ++ c :: rest)) := by
  obtain ⟨d, more, rfl⟩ := List.exists_cons_of_ne_nil hsome
  have hspecial : specialFloat ((if negative then ['-'] else []) ++ (d :: more ++ c :: rest)) = none :=
    specialFloat_digit negative (hdigits d List.mem_cons_self)
  have hnone : dateTime ((if negative then ['-'] else []) ++ (d :: more ++ c :: rest)) = none := by
    cases negative with
    | true => exact dateTime_other rfl
    | false =>
        show dateTime (d :: more ++ c :: rest) = none
        exact dateTime_digits hdigits hc hdate.1 hdate.2
  unfold number
  rw [hnone]
  dsimp only
  rw [hspecial]
  cases negative with
  | true => rfl
  | false =>
      -- The second character is a digit or the one after the digits, and no mark of a base.
      have hsecond : ∀ e found, more ++ c :: rest = e :: found → e ≠ 'x' ∧ e ≠ 'o' ∧ e ≠ 'b' := by
        intro e found hcons
        cases more with
        | nil =>
            cases hcons
            exact hbase
        | cons m more =>
            cases hcons
            have hm := hdigits e (by simp)
            exact ⟨ne_of_isDigit hm rfl, ne_of_isDigit hm rfl, ne_of_isDigit hm rfl⟩
      dsimp only [Bool.false_eq_true, if_false, List.nil_append, List.cons_append]
      split
      · rename_i hcons
        exact absurd rfl (hsecond _ _ (List.cons.inj hcons).2).1
      · rename_i hcons
        exact absurd rfl (hsecond _ _ (List.cons.inj hcons).2).2.1
      · rename_i hcons
        exact absurd rfl (hsecond _ _ (List.cons.inj hcons).2).2.2
      · rfl

/-! ## Numbers at the end of a line -/

/-- A whole number at the end of a line, if it fits. -/
theorem number_word {n : Nat} (h : n < 2 ^ 63) (rest : List Char) :
    number (decimalDigits n ++ '\n' :: rest) = some (.integer n, '\n' :: rest) := by
  have hdigits := allDigits_decimalDigits n
  have hfirst := decimalDigits_first n
  have hsome := ne_nil_of_first hfirst
  have hwhole := wholeDigits_digits (c := '\n') hdigits hfirst rfl (by decide) rest
  have hsign : sign (decimalDigits n ++ '\n' :: rest) =
      (false, decimalDigits n ++ '\n' :: rest) := by
    obtain ⟨d, more, hcons⟩ := List.exists_cons_of_ne_nil hsome
    rw [hcons] at hdigits ⊢
    exact sign_digit false (hdigits d List.mem_cons_self)
  have hnumber := number_digits (c := '\n') false hdigits hsome rfl (by decide) (by decide) rest
  have hbounded : boundedInteger n = some (.integer n) := if_pos (by omega)
  refine hnumber.trans ?_
  show decimalNumber (decimalDigits n ++ '\n' :: rest) = _
  unfold decimalNumber
  rw [hsign]
  dsimp only
  rw [hwhole]
  simp [fraction, exponent, digitsValue_decimalDigits, hbounded]

/-- A decimal with a point, at the end of a line. -/
theorem number_positional (negative : Bool) {whole places : List Char} (hwhole : AllDigits whole)
    (hfirst : whole = ['0'] ∨ ∃ c rest, whole = c :: rest ∧ c ≠ '0') (hplaces : AllDigits places)
    (hsome : places ≠ []) (rest : List Char) :
    number ((if negative then ['-'] else []) ++ (whole ++ '.' :: places) ++ '\n' :: rest) =
      (floatValue ⟨negative, digitsValue 10 (whole ++ places), -(places.length : Int)⟩).map
        fun x => (.float x, '\n' :: rest) := by
  have hnumber := number_digits (c := '.') negative hwhole (ne_nil_of_first hfirst) rfl (by decide)
    (by decide) (places ++ '\n' :: rest)
  have htext : (if negative then ['-'] else []) ++ (whole ++ '.' :: places) ++ '\n' :: rest =
      (if negative then ['-'] else []) ++ (whole ++ '.' :: (places ++ '\n' :: rest)) := by
    simp
  rw [htext, hnumber]
  have hsign :
      sign ((if negative then ['-'] else []) ++ (whole ++ '.' :: (places ++ '\n' :: rest))) =
        (negative, whole ++ '.' :: (places ++ '\n' :: rest)) := by
    obtain ⟨d, more, rfl⟩ := List.exists_cons_of_ne_nil (ne_nil_of_first hfirst)
    exact sign_digit negative (hwhole d List.mem_cons_self)
  have hread := wholeDigits_digits (c := '.') hwhole hfirst rfl (by decide) (places ++ '\n' :: rest)
  have hfraction : fraction ('.' :: (places ++ '\n' :: rest)) = some (places, '\n' :: rest) :=
    underscored_digits hplaces hsome rfl (by decide)
  unfold decimalNumber
  rw [hsign]
  dsimp only
  rw [hread]
  have hexponent : exponent ('\n' :: rest) = some (0, '\n' :: rest) := rfl
  have hlength : ('\n' :: rest).length ≠ ('.' :: (places ++ '\n' :: rest)).length := by
    simp
    omega
  dsimp only [bind, Option.bind]
  rw [hfraction]
  dsimp only
  rw [hexponent]
  dsimp only
  rw [if_neg hlength, Int.zero_sub]
  cases floatValue _ with
  | none => rfl
  | some x => rfl

theorem floatValue_of_double? {d : Decimal} {size : DoubleSize} (h : d.double? = some size) :
    floatValue d = some (.finite d.negative size) := by
  unfold floatValue
  rw [h]

/-- How a floating-point number is written. -/
theorem float_cases (x : Single) :
    x = .nan ∧ TomlWriter.float x = ['n', 'a', 'n'] ∨
      (∃ negative, x = .infinity negative ∧
        TomlWriter.float x = (if negative then ['-'] else []) ++ ['i', 'n', 'f']) ∨
      ∃ negative size whole places, x = .finite negative size ∧
        Positional (Single.shortestDouble size).1 (Single.shortestDouble size).2 whole places ∧
        TomlWriter.float x = (if negative then ['-'] else []) ++ (whole ++ '.' :: places) := by
  have hparts := Single.positional_shortestDouble
  unfold TomlWriter.float
  -- The search for the shortest decimal must stay closed: it would be run to its end here.
  obtain ⟨shortest, hshortest⟩ : ∃ shortest, shortest = Single.shortestDouble := ⟨_, rfl⟩
  rw [← hshortest] at hparts ⊢
  cases x with
  | nan => exact Or.inl ⟨rfl, rfl⟩
  | infinity negative => exact Or.inr (Or.inl ⟨negative, rfl, rfl⟩)
  | finite negative size =>
      exact Or.inr (Or.inr ⟨negative, size, _, _, rfl, hparts size, rfl⟩)

/-- Every floating-point number at the end of a line is read as the number that it was written for. -/
theorem number_float (x : Single) (rest : List Char) :
    number (TomlWriter.float x ++ '\n' :: rest) = some (.float x.toDouble, '\n' :: rest) := by
  rcases float_cases x with ⟨rfl, htext⟩ | ⟨negative, rfl, htext⟩ |
    ⟨negative, size, whole, places, rfl, hparts, htext⟩
  · rw [htext]
    rfl
  · rw [htext]
    cases negative with
    | true => rfl
    | false => rfl
  · have hread := floatValue_of_double? (Decimal.double?_of_positional negative hparts)
    rw [htext, number_positional negative hparts.whole_digits hparts.whole_first
      hparts.places_digits hparts.places_ne, hread]
    rfl

end TomlReader

end OverlayScrollbar
