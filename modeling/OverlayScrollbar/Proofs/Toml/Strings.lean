import OverlayScrollbar.Toml.Reader
import OverlayScrollbar.Toml.Writer

/-!
# Strings of TOML that read back

A text is written in one of four kinds of strings. Each of them is read as the text that it was written
for, with whatever quotes, backslashes, line ends and control characters there are in it.

- `Coded`              : how the reader takes a character of a basic string
- `basicBody_text`, `literalBody_text`  : strings that fit on one line
- `longBasicBody_text`, `longLiteralBody_text` : strings in three quotes, after quotes that may still
  turn out to be closing ones
- `string_text`        : whatever kind is chosen

Main statement: `string_text`.
-/

namespace OverlayScrollbar

namespace TomlReader

variable {c : Char} {text acc s rest : List Char}

/-! ## Characters -/

/-- How a character of a basic string is written: as it is, or by a backslash with the letter of an
escape and what follows that. -/
inductive Coded (c : Char) : List Char → Prop
  | plain (hplain : isPlain c = true) (hslash : c ≠ '\\') : Coded c [c]
  | escape (letter : Char) (more : List Char) (hletter : letter ≠ '\n' ∧ letter ≠ '\r')
      (hblank : isBlank letter = false)
      (hread : ∀ rest, escape (letter :: (more ++ rest)) = some (c, rest)) :
      Coded c ('\\' :: letter :: more)

theorem toNat_lt_of_isAsciiControl (h : TomlWriter.isAsciiControl c = true) : c.toNat < 128 := by
  rcases Bool.or_eq_true_iff.1 h with hlow | hdelete
  · have hless : c.toNat < ' '.toNat := of_decide_eq_true hlow
    exact Nat.lt_trans hless (by decide)
  · rw [eq_of_beq hdelete]
    decide

theorem isPlain_of_not_isAsciiControl (h : TomlWriter.isAsciiControl c = false) :
    isPlain c = true := by
  rcases Bool.or_eq_false_iff.1 h with ⟨hlow, hdelete⟩
  have hge : ' ' ≤ c := Nat.not_lt.1 (of_decide_eq_false hlow)
  unfold isPlain
  rw [decide_eq_true hge, bne, hdelete]
  exact Bool.or_true _

theorem codePoint?_hexDigits {n : Nat} (h : n < 128) :
    codePoint? (hexDigits true 4 n) = some (Char.ofNat n) := by
  revert n
  decide

theorem escape_hexDigits (h : c.toNat < 128) (rest : List Char) :
    escape ('u' :: (hexDigits true 4 c.toNat ++ rest)) = some (c, rest) := by
  have hpoint := codePoint?_hexDigits h
  rw [Char.ofNat_toNat] at hpoint
  show (codePoint? (hexDigits true 4 c.toNat)).map (·, rest) = _
  rw [hpoint]
  rfl

theorem coded_escaped (c : Char) (hquote : c ≠ '"') (hline : c ≠ '\n') :
    Coded c (TomlWriter.escaped c) := by
  unfold TomlWriter.escaped
  split
  · rename_i hc
    subst hc
    exact .escape 'b' [] (by decide) rfl fun _ => rfl
  · split
    · rename_i hc
      subst hc
      exact .escape 't' [] (by decide) rfl fun _ => rfl
    · split
      · rename_i hc
        subst hc
        exact .escape 'f' [] (by decide) rfl fun _ => rfl
      · split
        · rename_i hc
          subst hc
          exact .escape 'r' [] (by decide) rfl fun _ => rfl
        · split
          · rename_i hc
            subst hc
            exact .escape '\\' [] (by decide) rfl fun _ => rfl
          · rename_i hslash
            split
            · rename_i hcontrol
              exact .escape 'u' _ (by decide) rfl
                (escape_hexDigits (toNat_lt_of_isAsciiControl hcontrol))
            · rename_i hcontrol
              exact .plain (isPlain_of_not_isAsciiControl (Bool.eq_false_iff.2 hcontrol)) hslash

/-! ## Strings on one line -/

theorem basicBody_plain (hplain : isPlain c = true) (hquote : c ≠ '"') (hslash : c ≠ '\\') :
    basicBody acc (c :: rest) = basicBody (c :: acc) rest := by
  rw [basicBody.eq_def]
  split
  · rename_i hcons
    cases hcons
  · rename_i hcons
    cases hcons
    exact absurd rfl hquote
  · rename_i hcons
    cases hcons
    exact absurd rfl hslash
  · rename_i hcons
    cases hcons
    exact if_pos hplain

theorem basicBody_escape (h : escape s = some (c, rest)) :
    basicBody acc ('\\' :: s) = basicBody (c :: acc) rest := by
  rw [basicBody]
  split
  · rename_i hread
    cases h.symm.trans hread
    rfl
  · rename_i hnone
    cases h.symm.trans hnone

theorem basicBody_coded {code : List Char} (h : Coded c code) (hquote : c ≠ '"') :
    basicBody acc (code ++ rest) = basicBody (c :: acc) rest := by
  cases h with
  | plain hplain hslash => exact basicBody_plain hplain hquote hslash
  | escape letter more _ _ hread => exact basicBody_escape (hread rest)

/-- The characters of a basic string up to its closing quote. -/
theorem basicBody_text (text acc rest : List Char) :
    basicBody acc (TomlWriter.basicBody text ++ '"' :: rest) = some (acc.reverse ++ text, rest) := by
  fun_induction TomlWriter.basicBody text generalizing acc with
  | case1 =>
      rw [basicBody.eq_def]
      simp
  | case2 more ih =>
      rw [List.cons_append, List.cons_append, basicBody_escape (c := '"') rfl, ih]
      simp
  | case3 more ih =>
      rw [List.cons_append, List.cons_append, basicBody_escape (c := '\n') rfl, ih]
      simp
  | case4 c more hquote hline ih =>
      have hcoded := coded_escaped c (fun h => hquote h) (fun h => hline h)
      rw [List.append_assoc, basicBody_coded hcoded (fun h => hquote h), ih]
      simp

/-- The characters of a literal string up to its closing quote. -/
theorem literalBody_text (hplain : ∀ c ∈ text, isPlain c = true ∧ c ≠ '\'') (acc rest : List Char) :
    literalBody acc (text ++ '\'' :: rest) = some (acc.reverse ++ text, rest) := by
  induction text generalizing acc with
  | nil => simp [literalBody]
  | cons c more ih =>
      have hc := hplain c List.mem_cons_self
      have hread := ih (fun d hd => hplain d (List.mem_cons_of_mem _ hd)) (c :: acc)
      rw [List.cons_append, literalBody, if_pos hc.1, hread]
      · simp
      · exact hc.2

/-! ## Runs of quotes -/

/-- Quotes before three others are as good as quotes after them. -/
theorem replicate_append_three (quote : Char) (run : Nat) (rest : List Char) :
    List.replicate run quote ++ (quote :: quote :: quote :: rest) =
      quote :: quote :: quote :: (List.replicate run quote ++ rest) := by
  induction run with
  | zero => rfl
  | succ run ih => rw [List.replicate_succ, List.cons_append, ih, List.cons_append]

/-- Quotes that close nothing yet: up to two belong to the string once another character follows. -/
theorem closing_run {quote : Char} {run : Nat} (hrun : run ≤ 2) (hrest : rest.head? ≠ some quote)
    (acc : List Char) :
    closing quote acc (List.replicate run quote ++ rest) =
      (acc.reverse ++ List.replicate run quote, rest) := by
  have hne : ∀ c more, rest = c :: more → c ≠ quote := by
    rintro c more rfl rfl
    exact hrest rfl
  unfold closing
  match run, hrun with
  | 0, _ =>
      cases rest with
      | nil => simp
      | cons c more =>
          cases more with
          | nil => simp [hne c [] rfl]
          | cons d more => simp [hne c _ rfl]
  | 1, _ =>
      cases rest with
      | nil => simp
      | cons c more => simp [hne c _ rfl]
  | 2, _ => simp

/-- A reader that takes single quotes takes a run of up to two. -/
theorem read_run {read : List Char → List Char → Option (List Char × List Char)} {quote d : Char}
    (hone : ∀ acc, read acc (quote :: d :: rest) = read (quote :: acc) (d :: rest))
    (htwo : ∀ acc, read acc (quote :: quote :: d :: rest) = read (quote :: acc) (quote :: d :: rest))
    {run : Nat} (hrun : run ≤ 2) (acc : List Char) :
    read acc (List.replicate run quote ++ d :: rest) =
      read (List.replicate run quote ++ acc) (d :: rest) := by
  match run, hrun with
  | 0, _ => rfl
  | 1, _ => exact hone acc
  | 2, _ => exact (htwo acc).trans (hone _)

theorem longBasicBody_run {d : Char} (hd : d ≠ '"') {run : Nat} (hrun : run ≤ 2)
    (acc : List Char) :
    longBasicBody acc (List.replicate run '"' ++ d :: rest) =
      longBasicBody (List.replicate run '"' ++ acc) (d :: rest) := by
  have hthree : ∀ more more' : List Char, d :: more ≠ '"' :: more' := by
    rintro more more' hcons
    cases hcons
    exact hd rfl
  apply read_run _ _ hrun
  · intro acc
    rw [longBasicBody]
    rintro more hcons
    exact hthree _ _ hcons
  · intro acc
    rw [longBasicBody]
    rintro more hcons
    exact hthree _ _ (List.cons.inj hcons).2

theorem longLiteralBody_run {d : Char} (hd : d ≠ '\'') {run : Nat} (hrun : run ≤ 2)
    (acc : List Char) :
    longLiteralBody acc (List.replicate run '\'' ++ d :: rest) =
      longLiteralBody (List.replicate run '\'' ++ acc) (d :: rest) := by
  have hthree : ∀ more more' : List Char, d :: more ≠ '\'' :: more' := by
    rintro more more' hcons
    cases hcons
    exact hd rfl
  have hquote : isPlain '\'' = true := rfl
  apply read_run _ _ hrun
  · intro acc
    rw [longLiteralBody, if_pos hquote]
    · rintro more _ hcons
      exact hthree _ _ hcons
    · decide
    · rintro more hcons
      cases hcons
  · intro acc
    rw [longLiteralBody, if_pos hquote]
    · rintro more _ hcons
      exact hthree _ _ (List.cons.inj hcons).2
    · decide
    · rintro more hcons
      cases hcons

/-! ## Strings in three quotes -/

theorem longBasicBody_plain (hplain : isPlain c = true) (hquote : c ≠ '"') (hslash : c ≠ '\\') :
    longBasicBody acc (c :: rest) = longBasicBody (c :: acc) rest := by
  have hline : c ≠ '\n' := by
    rintro rfl
    cases hplain
  have hreturn : c ≠ '\r' := by
    rintro rfl
    cases hplain
  rw [longBasicBody, if_pos hplain]
  all_goals grind

/-- An escape is no continuation of a line. -/
theorem longBasicBody_escape {letter : Char} (hletter : letter ≠ '\n' ∧ letter ≠ '\r')
    (hblank : isBlank letter = false) (h : escape (letter :: s) = some (c, rest)) :
    longBasicBody acc ('\\' :: letter :: s) = longBasicBody (c :: acc) rest := by
  -- A line goes on only after a backslash with nothing but blanks behind it.
  have hcontinuation : lineContinuation (letter :: s) = none := by
    unfold lineContinuation skipBlanks
    rw [List.dropWhile_cons_of_neg (by simp [hblank])]
    split
    · rename_i hcons
      cases hcons
      exact absurd rfl hletter.1
    · rename_i hcons
      cases hcons
      exact absurd rfl hletter.2
    · rfl
  rw [longBasicBody]
  split
  · rename_i hsome
    cases hcontinuation.symm.trans hsome
  · split
    · rename_i hread
      cases h.symm.trans hread
      rfl
    · rename_i hnone
      cases h.symm.trans hnone

theorem longBasicBody_coded {code : List Char} (h : Coded c code) (hquote : c ≠ '"') :
    longBasicBody acc (code ++ rest) = longBasicBody (c :: acc) rest := by
  cases h with
  | plain hplain hslash => exact longBasicBody_plain hplain hquote hslash
  | escape letter more hletter hblank hread =>
      exact longBasicBody_escape hletter hblank (hread rest)

theorem Coded.head_ne {code : List Char} (h : Coded c code) (hquote : c ≠ '"') :
    ∃ d more, code = d :: more ∧ d ≠ '"' := by
  cases h with
  | plain => exact ⟨c, [], rfl, hquote⟩
  | escape letter more => exact ⟨'\\', letter :: more, rfl, by decide⟩

/-- The characters of a long basic string up to its closing quotes. Before them are quotes that the
reader has not taken yet: they would be taken for closing ones if one more followed. -/
theorem longBasicBody_text {run : Nat} (hrun : run ≤ 2) (hrest : rest.head? ≠ some '"')
    (text acc : List Char) :
    longBasicBody acc (List.replicate run '"' ++
        (TomlWriter.longBasicBody run text ++ ('"' :: '"' :: '"' :: rest))) =
      some (acc.reverse ++ List.replicate run '"' ++ text, rest) := by
  fun_induction TomlWriter.longBasicBody run text generalizing acc with
  | case1 run =>
      rw [List.nil_append, replicate_append_three, longBasicBody, closing_run hrun hrest, List.append_nil]
  -- The third quote in a row is written as an escape, so that it closes nothing.
  | case2 more ih =>
      rw [List.cons_append, longBasicBody_run (by decide) (Nat.le_refl 2), List.cons_append,
        longBasicBody_escape (c := '"') (by decide) rfl rfl]
      have hread := ih (Nat.zero_le 2) ('"' :: (List.replicate 2 '"' ++ acc))
      refine hread.trans ?_
      simp
  -- One more quote that is not taken yet.
  | case3 run more hless ih =>
      have hread := ih (by omega) acc
      rw [List.replicate_succ', List.append_assoc, List.append_assoc] at hread
      refine hread.trans ?_
      simp
  | case4 run more ih =>
      have hread := ih (Nat.zero_le 2) ('\n' :: (List.replicate run '"' ++ acc))
      rw [List.cons_append, longBasicBody_run (by decide) hrun, longBasicBody]
      refine hread.trans ?_
      simp
  | case5 run c more hquote hline ih =>
      have hcoded := coded_escaped c (fun h => hquote h) (fun h => hline h)
      rcases hcoded.head_ne (fun h => hquote h) with ⟨d, code, hcode, hd⟩
      have hread := ih (Nat.zero_le 2) (c :: (List.replicate run '"' ++ acc))
      rw [List.append_assoc, hcode, List.cons_append, longBasicBody_run hd hrun, ← List.cons_append,
        ← hcode, longBasicBody_coded hcoded (fun h => hquote h)]
      refine hread.trans ?_
      simp

/-- Runs that were seen are no longer than the longest one. -/
theorem le_longestRun (c : Char) (best run : Nat) (text : List Char) :
    best ≤ TomlWriter.longestRun c best run text ∧ run ≤ TomlWriter.longestRun c best run text := by
  fun_induction TomlWriter.longestRun c best run text with
  | case1 best run => omega
  | case2 best run more ih => omega
  | case3 best run d more hne ih => omega

theorem longLiteralBody_plain (hplain : isPlain c = true ∨ c = '\n') (hquote : c ≠ '\'') :
    longLiteralBody acc (c :: rest) = longLiteralBody (c :: acc) rest := by
  rcases hplain with hplain | rfl
  · have hline : c ≠ '\n' := by
      rintro rfl
      cases hplain
    have hreturn : c ≠ '\r' := by
      rintro rfl
      cases hplain
    rw [longLiteralBody, if_pos hplain]
    all_goals grind
  · rw [longLiteralBody]

/-- The characters of a long literal string up to its closing quotes, after quotes that the reader has
not taken yet. -/
theorem longLiteralBody_text {run best : Nat} (hrest : rest.head? ≠ some '\'')
    (hplain : ∀ c ∈ text, isPlain c = true ∨ c = '\n')
    (hruns : TomlWriter.longestRun '\'' best run text ≤ 2) (acc : List Char) :
    longLiteralBody acc (List.replicate run '\'' ++ (text ++ ('\'' :: '\'' :: '\'' :: rest))) =
      some (acc.reverse ++ List.replicate run '\'' ++ text, rest) := by
  induction text generalizing run best acc with
  | nil =>
      have hrun : run ≤ 2 := Nat.le_trans (le_longestRun _ best run []).2 hruns
      rw [List.nil_append, replicate_append_three, longLiteralBody, closing_run hrun hrest, List.append_nil]
  | cons c more ih =>
      have hmore : ∀ d ∈ more, isPlain d = true ∨ d = '\n' :=
        fun d hd => hplain d (List.mem_cons_of_mem _ hd)
      have hrun : run ≤ 2 := Nat.le_trans (le_longestRun _ best run _).2 hruns
      unfold TomlWriter.longestRun at hruns
      split at hruns
      · rename_i hquote
        subst hquote
        have hread := ih hmore hruns acc
        rw [List.replicate_succ', List.append_assoc, List.append_assoc] at hread
        refine hread.trans ?_
        simp
      · rename_i hquote
        have hread := ih hmore hruns (c :: (List.replicate run '\'' ++ acc))
        rw [List.cons_append, longLiteralBody_run hquote hrun,
          longLiteralBody_plain (hplain c List.mem_cons_self) hquote]
        refine hread.trans ?_
        simp

/-! ## Kinds of strings -/

theorem dropNewline_cons (hline : c ≠ '\n') (hreturn : c ≠ '\r') :
    dropNewline (c :: s) = c :: s := by
  have hnone : newline (c :: s) = none := by
    unfold newline lineEnd
    grind
  unfold dropNewline
  rw [hnone]
  rfl

/-- A long string starts on a new line exactly if there is a line end in it, which the reader drops. -/
theorem dropNewline_start {body : List Char}
    (hbody : '\n' ∉ text → ∃ c more, body = c :: more ∧ c ≠ '\n' ∧ c ≠ '\r') :
    dropNewline ((if text.contains '\n' then ['\n'] else []) ++ body) = body := by
  by_cases hline : '\n' ∈ text
  · rw [if_pos (List.contains_iff_mem.2 hline)]
    rfl
  · rw [if_neg (fun h => hline (List.contains_iff_mem.1 h))]
    rcases hbody hline with ⟨c, more, rfl, hne, hreturn⟩
    exact dropNewline_cons hne hreturn

/-- Where only tabs and line ends are control characters, all others are plain. -/
theorem isPlain_or_eq
    (h : (text.any fun c => TomlWriter.isAsciiControl c && c != '\t' && c != '\n') = false) :
    ∀ c ∈ text, isPlain c = true ∨ c = '\n' := by
  intro c hc
  have hnone := List.any_eq_false.1 h c hc
  cases hcontrol : TomlWriter.isAsciiControl c with
  | false => exact Or.inl (isPlain_of_not_isAsciiControl hcontrol)
  | true =>
      rw [hcontrol] at hnone
      by_cases htab : c = '\t'
      · subst htab
        exact Or.inl rfl
      · simp [htab] at hnone
        exact Or.inr hnone

theorem not_mem_of_longestRun {best run : Nat} (h : TomlWriter.longestRun c best run text = 0) :
    c ∉ text := by
  induction text generalizing best run with
  | nil => exact List.not_mem_nil
  | cons d more ih =>
      unfold TomlWriter.longestRun at h
      split at h
      · have hrun := (le_longestRun c best (run + 1) more).2
        omega
      · rename_i hne
        rintro (_ | ⟨_, hmem⟩)
        · exact hne rfl
        · exact ih h hmem

/-- What is known of a text by the kind of string that it is written in. -/
theorem style_cases (text : List Char) :
    TomlWriter.StringStyle.of text = .basic ∨
      TomlWriter.StringStyle.of text = .longBasic ∨
      TomlWriter.StringStyle.of text = .literal ∧
        (∀ c ∈ text, isPlain c = true ∧ c ≠ '\'') ∨
      TomlWriter.StringStyle.of text = .longLiteral ∧
        (∀ c ∈ text, isPlain c = true ∨ c = '\n') ∧
        TomlWriter.longestRun '\'' 0 0 text ≤ 2 := by
  unfold TomlWriter.StringStyle.of
  dsimp only
  split
  · exact Or.inl rfl
  · split
    · rename_i hliteral
      simp only [Bool.and_eq_true, Bool.not_eq_true', beq_iff_eq] at hliteral
      rcases hliteral with ⟨⟨hcoded, hsingles⟩, hline⟩
      refine Or.inr (Or.inr (Or.inl ⟨rfl, ?_⟩))
      intro c hc
      -- The only character that is not plain would be a line end, and there is none.
      rcases isPlain_or_eq hcoded c hc with hplain | rfl
      · refine ⟨hplain, ?_⟩
        rintro rfl
        exact not_mem_of_longestRun hsingles hc
      · rw [List.contains_iff_mem.2 hc] at hline
        cases hline
    · split
      · exact Or.inr (Or.inl rfl)
      · split
        · rename_i hlong
          simp only [Bool.and_eq_true, Bool.not_eq_true', decide_eq_true_eq] at hlong
          exact Or.inr (Or.inr (Or.inr ⟨rfl, isPlain_or_eq hlong.1, hlong.2⟩))
        · split
          · exact Or.inr (Or.inl rfl)
          · exact Or.inl rfl

theorem string_short {quote : Char} (hquote : quote = '"' ∨ quote = '\'')
    (hnext : ∀ more, s ≠ quote :: quote :: more) : string (quote :: s) = shortString (quote :: s) := by
  unfold string
  grind

theorem head_basicBody (h : text ≠ []) :
    ∃ d more, TomlWriter.basicBody text = d :: more ∧ d ≠ '"' := by
  fun_cases TomlWriter.basicBody text with
  | case1 => exact absurd rfl h
  | case2 more => exact ⟨'\\', _, rfl, by decide⟩
  | case3 more => exact ⟨'\\', _, rfl, by decide⟩
  | case4 c more hquote hline =>
      rcases (coded_escaped c (fun h => hquote h) (fun h => hline h)).head_ne (fun h => hquote h) with
        ⟨d, code, hcode, hd⟩
      rw [hcode]
      exact ⟨d, _, rfl, hd⟩

theorem Coded.head_line {code : List Char} (h : Coded c code) (hline : c ≠ '\n') :
    ∃ d more, code = d :: more ∧ d ≠ '\n' ∧ d ≠ '\r' := by
  cases h with
  | plain hplain =>
      refine ⟨c, [], rfl, hline, ?_⟩
      rintro rfl
      cases hplain
  | escape letter more => exact ⟨'\\', letter :: more, rfl, by decide⟩

/-- A long basic string without line ends does not start with one. -/
theorem head_longBasicBody (hline : '\n' ∉ text) (rest : List Char) :
    ∃ d more, TomlWriter.longBasicBody 0 text ++ '"' :: rest = d :: more ∧ d ≠ '\n' ∧ d ≠ '\r' := by
  cases text with
  | nil => exact ⟨'"', rest, rfl, by decide⟩
  | cons c more =>
      by_cases hquote : c = '"'
      · subst hquote
        exact ⟨'"', _, rfl, by decide⟩
      · have hc : c ≠ '\n' := fun h => hline (h ▸ List.mem_cons_self)
        rcases (coded_escaped c hquote hc).head_line hc with ⟨d, code, hcode, hd⟩
        rw [TomlWriter.longBasicBody, hcode]
        · exact ⟨d, _, rfl, hd⟩
        · exact hquote
        · exact hc

/-! ## Whole strings -/

theorem string_basic (text rest : List Char) :
    string ('"' :: (TomlWriter.basicBody text ++ '"' :: '\n' :: rest)) =
      some (text, '\n' :: rest) := by
  rw [string_short (Or.inl rfl)]
  · exact basicBody_text text [] ('\n' :: rest)
  · -- An empty string has two quotes, and a line end after them.
    intro more hcons
    by_cases hnone : text = []
    · subst hnone
      cases hcons
    · rcases head_basicBody hnone with ⟨d, code, hcode, hd⟩
      rw [hcode] at hcons
      exact hd (List.cons.inj hcons).1

theorem string_literal (hplain : ∀ c ∈ text, isPlain c = true ∧ c ≠ '\'') (rest : List Char) :
    string ('\'' :: (text ++ '\'' :: '\n' :: rest)) = some (text, '\n' :: rest) := by
  rw [string_short (Or.inr rfl)]
  · exact literalBody_text hplain [] ('\n' :: rest)
  · intro more hcons
    cases text with
    | nil => cases hcons
    | cons c text => exact (hplain c List.mem_cons_self).2 (List.cons.inj hcons).1

theorem string_longBasic (text rest : List Char) :
    string ('"' :: '"' :: '"' :: ((if text.contains '\n' then ['\n'] else []) ++
        (TomlWriter.longBasicBody 0 text ++ '"' :: '"' :: '"' :: '\n' :: rest))) =
      some (text, '\n' :: rest) := by
  show longBasicBody [] (dropNewline _) = _
  rw [dropNewline_start (fun hline => head_longBasicBody hline _)]
  exact longBasicBody_text (Nat.zero_le 2) (by simp) text []

theorem string_longLiteral (hplain : ∀ c ∈ text, isPlain c = true ∨ c = '\n')
    (hruns : TomlWriter.longestRun '\'' 0 0 text ≤ 2) (rest : List Char) :
    string ('\'' :: '\'' :: '\'' :: ((if text.contains '\n' then ['\n'] else []) ++
        (text ++ '\'' :: '\'' :: '\'' :: '\n' :: rest))) = some (text, '\n' :: rest) := by
  show longLiteralBody [] (dropNewline _) = _
  rw [dropNewline_start]
  · exact longLiteralBody_text (by simp) hplain hruns []
  · -- Only a line end at the start is dropped, and it is written when the text has one.
    intro hline
    cases text with
    | nil => exact ⟨'\'', _, rfl, by decide⟩
    | cons c more =>
        refine ⟨c, _, rfl, fun h => hline (h ▸ List.mem_cons_self), ?_⟩
        rintro rfl
        rcases hplain '\r' List.mem_cons_self with hreturn | hreturn
        · cases hreturn
        · cases hreturn

/-- Every text is read as it was written, whatever kind of string was chosen for it. -/
theorem string_text (text rest : List Char) :
    string (TomlWriter.string text ++ '\n' :: rest) = some (text, '\n' :: rest) := by
  unfold TomlWriter.string
  dsimp only
  rcases style_cases text with hstyle | hstyle | ⟨hstyle, hplain⟩ | ⟨hstyle, hplain, hruns⟩
  · rw [← string_basic text rest, hstyle]
    simp
  · rw [← string_longBasic text rest, hstyle]
    simp
  · rw [← string_literal hplain rest, hstyle]
    simp
  · rw [← string_longLiteral hplain hruns rest, hstyle]
    simp

end TomlReader

end OverlayScrollbar
