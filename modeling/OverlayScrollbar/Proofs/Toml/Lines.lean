import OverlayScrollbar.Proofs.Toml.Numbers
import OverlayScrollbar.Proofs.Toml.Strings
import OverlayScrollbar.Toml.Standard

/-!
# Lines of TOML that read back

A section with plain keys is read as the table that it was written for.

- `key_bare`          : a key without quotes and dots
- `Written`           : a text that is read as a value at the end of a line
- `statements_pair`, `statements_header` : what a line adds to the tables that are there
- `statements_section` : the lines of a whole section
-/

namespace OverlayScrollbar

/-! ## Keys -/

namespace TomlKey

/-- The characters of a key are none of those that start something else on a line. -/
theorem ne_of_isBare {c d : Char} (hc : isBare c = true) (hd : isBare d = false) : c ≠ d := by
  rintro rfl
  cases hc.symm.trans hd

theorem Bare.exists_cons {name : String} (h : Bare name) :
    ∃ c more, name.toList = c :: more ∧ isBare c = true := by
  obtain ⟨c, more, hcons⟩ := List.exists_cons_of_ne_nil h.nonempty
  exact ⟨c, more, hcons, h.plain c (hcons ▸ List.mem_cons_self)⟩

end TomlKey

namespace TomlReader

open TomlKey

variable {s rest : List Char} {fuel : Nat}

theorem isBlank_of_isBare {c : Char} (hc : isBare c = true) : isBlank c = false := by
  unfold isBlank
  rw [Bool.or_eq_false_iff]
  exact ⟨beq_false_of_ne (ne_of_isBare hc rfl), beq_false_of_ne (ne_of_isBare hc rfl)⟩

theorem skipBlanks_of_head {c : Char} (hc : isBlank c = false) : skipBlanks (c :: s) = c :: s := by
  unfold skipBlanks
  rw [List.dropWhile_cons_of_neg (by simp [hc])]

theorem simpleKey_bare {name : String} (h : Bare name) (hend : ∀ d more, s = d :: more →
    isBare d = false) : simpleKey (name.toList ++ s) = some (name, s) := by
  have htake : (name.toList ++ s).takeWhile isBare = name.toList := by
    rw [List.takeWhile_append_of_pos h.plain]
    cases s with
    | nil => simp
    | cons d more => simp [hend d more rfl]
  have hdrop : (name.toList ++ s).dropWhile isBare = s := by
    rw [List.dropWhile_append_of_pos h.plain]
    cases s with
    | nil => rfl
    | cons d more => simp [hend d more rfl]
  rcases h.exists_cons with ⟨c, more, hcons, hc⟩
  rw [hcons] at htake hdrop ⊢
  unfold simpleKey
  -- The other two alternatives of a key begin with a quote.
  split
  · rename_i hquote
    exact absurd (List.cons.inj hquote).1 (ne_of_isBare hc rfl)
  · rename_i hquote
    exact absurd (List.cons.inj hquote).1 (ne_of_isBare hc rfl)
  · rw [htake, hdrop]
    dsimp only
    rw [← hcons, String.ofList_toList]

/-- A key without quotes, and without a dot after it. -/
theorem key_bare {name : String} (h : Bare name) (hend : ∀ d more, s = d :: more → isBare d = false)
    (hdot : ∀ more, skipBlanks s ≠ '.' :: more) :
    key (name.toList ++ s) = some ([], name, skipBlanks s) := by
  have hblanks : skipBlanks (name.toList ++ s) = name.toList ++ s := by
    rcases h.exists_cons with ⟨c, more, hcons, hc⟩
    rw [hcons]
    exact skipBlanks_of_head (isBlank_of_isBare hc)
  -- Without a dot the key has one part only.
  have hparts : keyParts depthLimit (name.toList ++ s) = some ([name], skipBlanks s) := by
    show keyParts (79 + 1) _ = _
    unfold keyParts
    rw [hblanks, simpleKey_bare h hend]
    dsimp only [bind, Option.bind]
    split
    · rename_i hcons
      exact absurd hcons (hdot _)
    · rfl
  unfold key
  rw [hparts]
  rfl

/-! ## Values -/

/-- A text that is read as a value at the end of a line. -/
structure Written (text : List Char) (found : Toml) : Prop where
  unblank : ∀ rest, skipBlanks (text ++ '\n' :: rest) = text ++ '\n' :: rest
  read : ∀ rest, topValue (text ++ '\n' :: rest) = some (found, '\n' :: rest)

/-- What starts none of the other values is read as a number. -/
theorem written_number {c : Char} {more : List Char} {found : Toml} (hblank : isBlank c = false)
    (hother : c ∉ ['"', '\'', '[', '{', 't', 'f'])
    (h : ∀ rest, number (c :: more ++ '\n' :: rest) = some (found, '\n' :: rest)) :
    Written (c :: more) found := by
  refine ⟨fun rest => skipBlanks_of_head hblank, ?_⟩
  intro rest
  rw [← h rest]
  have hne : ∀ d ∈ ['"', '\'', '[', '{', 't', 'f'], ∀ tail,
      c :: more ++ '\n' :: rest = d :: tail → False := by
    rintro d hd tail hcons
    cases (List.cons.inj hcons).1
    exact hother hd
  unfold topValue
  rw [value]
  -- Every alternative but the last begins with one of these characters.
  all_goals
    intro tail hcons
    exact hne _ (by simp) _ hcons

theorem isDigit_other {c : Char} (h : c.isDigit = true) :
    isBlank c = false ∧ c ∉ ['"', '\'', '[', '{', 't', 'f'] := by
  have hbare : isBare c = true := by
    unfold isBare Char.isAlphanum
    rw [h, Bool.or_true]
    rfl
  refine ⟨isBlank_of_isBare hbare, ?_⟩
  intro hmem
  simp only [List.mem_cons, List.not_mem_nil, or_false] at hmem
  rcases hmem with rfl | rfl | rfl | rfl | rfl | rfl
  all_goals cases h

/-- A whole number, if it fits a signed 64-bit word. -/
theorem written_word {n : Nat} (h : n < 2 ^ 63) : Written (decimalDigits n) (.integer n) := by
  obtain ⟨c, more, hcons⟩ := List.exists_cons_of_ne_nil (ne_nil_of_first (decimalDigits_first n))
  have hc := isDigit_other (allDigits_decimalDigits n c (hcons ▸ List.mem_cons_self))
  have hnumber := number_word h
  rw [hcons] at hnumber ⊢
  exact written_number hc.1 hc.2 hnumber

theorem head_float (x : Single) : ∃ c more, TomlWriter.float x = c :: more ∧
    isBlank c = false ∧ c ∉ ['"', '\'', '[', '{', 't', 'f'] := by
  rcases float_cases x with ⟨rfl, htext⟩ | ⟨negative, rfl, htext⟩ |
    ⟨negative, size, whole, places, rfl, hparts, htext⟩
  · exact ⟨'n', _, htext, rfl, by decide⟩
  · cases negative with
    | true => exact ⟨'-', _, htext, rfl, by decide⟩
    | false => exact ⟨'i', _, htext, rfl, by decide⟩
  · cases negative with
    | true => exact ⟨'-', _, htext, rfl, by decide⟩
    | false =>
        obtain ⟨c, more, rfl⟩ := List.exists_cons_of_ne_nil (ne_nil_of_first hparts.whole_first)
        exact ⟨c, _, htext, isDigit_other (hparts.whole_digits c List.mem_cons_self)⟩

theorem written_float (x : Single) : Written (TomlWriter.float x) (.float x.toDouble) := by
  rcases head_float x with ⟨c, more, hcons, hblank, hother⟩
  have hnumber := number_float x
  rw [hcons] at hnumber ⊢
  exact written_number hblank hother hnumber

theorem written_string (text : String) :
    Written (TomlWriter.string text.toList) (.string text) := by
  have hquote : ∃ c more, TomlWriter.string text.toList = c :: more ∧ (c = '"' ∨ c = '\'') := by
    unfold TomlWriter.string
    dsimp only
    split
    · exact ⟨'"', _, rfl, Or.inl rfl⟩
    · exact ⟨'\'', _, rfl, Or.inr rfl⟩
    · exact ⟨'"', _, rfl, Or.inl rfl⟩
    · exact ⟨'\'', _, rfl, Or.inr rfl⟩
  have hread := string_text text.toList
  rcases hquote with ⟨c, more, hcons, hc⟩
  rw [hcons] at hread ⊢
  constructor
  · intro rest
    apply skipBlanks_of_head
    rcases hc with rfl | rfl
    · rfl
    · rfl
  · intro rest
    have hvalue : topValue (c :: more ++ '\n' :: rest) =
        (string (c :: more ++ '\n' :: rest)).map
          fun found => (.string (String.ofList found.1), found.2) := by
      unfold topValue
      rcases hc with rfl | rfl
      · rfl
      · rfl
    rw [hvalue, hread, Option.map_some]
    dsimp only
    rw [String.ofList_toList]

/-! ## Statements -/

variable {fields : TomlFields} {header : List String} {text : List Char} {found : Toml}

theorem lineTail_newline (rest : List Char) : lineTail ('\n' :: rest) = some rest :=
  rfl

/-- A line that a key starts is none of the other lines. -/
theorem statements_key {name : String} (h : Bare name) (s : List Char) :
    statements (fuel + 1) fields header (name.toList ++ s) =
      (pairLine fields header (name.toList ++ s)).bind fun (fields, rest) =>
        statements fuel fields header rest := by
  rcases h.exists_cons with ⟨c, more, hcons, hc⟩
  -- None of the marks of the other lines may stand in a key.
  have hne : ∀ d, isBare d = false → ∀ tail, c :: (more ++ s) ≠ d :: tail := by
    rintro d hd tail heq
    exact ne_of_isBare hc hd (List.cons.inj heq).1
  rw [hcons, List.cons_append]
  rw [statements, skipBlanks_of_head (isBlank_of_isBare hc)]
  split
  · rename_i heq
    cases heq
  · rename_i heq
    exact absurd heq (hne _ rfl _)
  · rename_i heq
    exact absurd heq (hne _ rfl _)
  · rename_i heq
    exact absurd heq (hne _ rfl _)
  · rename_i heq
    exact absurd heq (hne _ rfl _)
  · rfl

/-- A line with a key and its value adds them to the table of the last header. -/
theorem statements_pair {name : String} (h : Bare name) (hwritten : Written text found)
    (rest : List Char) :
    statements (fuel + 1) fields header (TomlWriter.pair name text ++ rest) =
      (Toml.addPair fields header [] name found).bind fun fields =>
        statements fuel fields header rest := by
  have htext : TomlWriter.pair name text ++ rest =
      name.toList ++ ' ' :: '=' :: ' ' :: (text ++ '\n' :: rest) := by
    simp [TomlWriter.pair]
  have hkey : key (name.toList ++ ' ' :: '=' :: ' ' :: (text ++ '\n' :: rest)) =
      some ([], name, '=' :: ' ' :: (text ++ '\n' :: rest)) := by
    apply key_bare h
    · rintro d more hcons
      cases hcons
      rfl
    · rintro more hcons
      cases hcons
  have hblank : skipBlanks (' ' :: (text ++ '\n' :: rest)) = text ++ '\n' :: rest :=
    hwritten.unblank rest
  rw [htext, statements_key h]
  unfold pairLine
  rw [hkey]
  dsimp only [bind, Option.bind]
  rw [show mark '=' ('=' :: ' ' :: (text ++ '\n' :: rest)) = some (' ' :: (text ++ '\n' :: rest))
    from rfl]
  dsimp only
  rw [hblank, hwritten.read rest]
  dsimp only
  rw [lineTail_newline]
  dsimp only
  cases Toml.addPair fields header [] name found with
  | none => rfl
  | some fields => rfl

/-- A line with the name of a table opens it. -/
theorem statements_header {name : String} (h : Bare name) (rest : List Char) :
    statements (fuel + 1) fields header (TomlWriter.header name ++ rest) =
      (Toml.openTable fields [] name).bind fun fields => statements fuel fields [name] rest := by
  have htext : TomlWriter.header name ++ rest = '[' :: (name.toList ++ ']' :: '\n' :: rest) := by
    simp [TomlWriter.header]
  have hkey : key (name.toList ++ ']' :: '\n' :: rest) = some ([], name, ']' :: '\n' :: rest) := by
    apply key_bare h
    · rintro d more hcons
      cases hcons
      rfl
    · rintro more hcons
      cases hcons
  have hline : headerLine fields (name.toList ++ ']' :: '\n' :: rest) =
      (Toml.openTable fields [] name).map fun fields => (fields, [name], rest) := by
    unfold headerLine
    split
    · -- A second bracket would open an array of tables.
      rename_i hcons
      rcases h.exists_cons with ⟨c, more, hname, hc⟩
      rw [hname] at hcons
      exact absurd (List.cons.inj hcons).1 (ne_of_isBare hc rfl)
    · rw [hkey]
      dsimp only [bind, Option.bind]
      rw [show mark ']' (']' :: '\n' :: rest) = some ('\n' :: rest) from rfl]
      dsimp only
      rw [lineTail_newline]
      dsimp only
      cases Toml.openTable fields [] name with
      | none => rfl
      | some fields => rfl
  rw [htext]
  show (headerLine fields _).bind _ = _
  rw [hline]
  cases Toml.openTable fields [] name with
  | none => rfl
  | some fields => rfl

/-! ## Tables -/

/-- A value as it is spelled. -/
def spelled : TomlScalar → Toml
  | .integer n => .integer n
  | .float x => .float x.toDouble
  | .string text => .string text

/-- A key with its value as it is spelled. -/
def spelledField (field : String × TomlScalar) : String × Toml :=
  (field.1, spelled field.2)

/-- A section as a table of its own. -/
def spelledSection (s : TomlSection) : String × Toml :=
  (s.name, .table .explicit (s.fields.map spelledField))

theorem value_spelled (v : TomlScalar) : (spelled v).value = v.value := by
  cases v with
  | integer n => rfl
  | float x => rfl
  | string text => rfl

/-- What TOML has is read as it was written. -/
theorem written_scalar {v : TomlScalar} (h : v.Storable) :
    Written (TomlWriter.scalar v) (spelled v) := by
  cases v with
  | integer n => exact written_word h
  | float x => exact written_float x
  | string text => exact written_string text

variable {before inner : TomlFields} {name : String} {lines : List (String × TomlScalar)}

theorem lookup_append_last {key : String} (h : before.lookup key = none) (value : Toml) :
    (before ++ [(key, value)]).lookup key = some value := by
  rw [List.lookup_append, h, List.lookup_cons_self, Option.none_or]

theorem replaceField_last {key : String} (h : before.lookup key = none) (old new : Toml) :
    Toml.replaceField (before ++ [(key, old)]) key new = before ++ [(key, new)] := by
  unfold Toml.replaceField
  rw [List.map_append]
  congr 1
  · refine (List.map_congr_left fun field hfield => ?_).trans (List.map_id _)
    have hne := List.lookup_eq_none_iff.1 h field hfield
    rw [if_neg, id]
    rintro rfl
    simp at hne
  · simp

/-- A key that the last table does not have yet is added to it. -/
theorem addPair_last {key : String} (hname : before.lookup name = none)
    (hkey : inner.lookup key = none) (value : Toml) :
    Toml.addPair (before ++ [(name, .table .explicit inner)]) [name] [] key value =
      some (before ++ [(name, .table .explicit (inner ++ [(key, value)]))]) := by
  have hadd : Toml.addField .explicit inner [] key value = some (inner ++ [(key, value)]) := by
    unfold Toml.addField
    rw [hkey]
    rfl
  unfold Toml.addPair
  rw [Toml.descend, lookup_append_last hname]
  dsimp only [Toml.descend, bind, Option.bind]
  rw [if_neg (by simp), hadd]
  exact congrArg some (replaceField_last hname _ _)

theorem openTable_new (h : before.lookup name = none) :
    Toml.openTable before [] name = some (before ++ [(name, .table .explicit [])]) := by
  unfold Toml.openTable Toml.descend
  rw [h]

/-- The lines of a table add their keys and values to it. -/
theorem statements_lines (inner : TomlFields) (hname : before.lookup name = none)
    (hbare : ∀ line ∈ lines, Bare line.1) (hstorable : ∀ line ∈ lines, line.2.Storable)
    (hkeys : (inner.map Prod.fst ++ lines.map Prod.fst).Nodup) (rest : List Char) :
    statements (fuel + lines.length) (before ++ [(name, .table .explicit inner)]) [name]
        ((lines.flatMap fun line => TomlWriter.pair line.1 (TomlWriter.scalar line.2)) ++ rest) =
      statements fuel (before ++ [(name, .table .explicit (inner ++ lines.map spelledField))]) [name]
        rest := by
  induction lines generalizing inner with
  | nil => simp
  | cons line lines ih =>
      -- The key of the line is none of those before it, since all keys differ.
      have hnew : inner.lookup line.1 = none := by
        rw [List.lookup_eq_none_iff]
        intro field hfield
        have hdisjoint := (List.nodup_append.1 hkeys).2.2 field.1 (List.mem_map_of_mem hfield) line.1
          (by simp)
        simpa using fun h => hdisjoint h.symm
      have hkeys' : ((inner ++ [spelledField line]).map Prod.fst ++ lines.map Prod.fst).Nodup := by
        simpa [spelledField] using hkeys
      have hread := ih _ (fun l hl => hbare l (List.mem_cons_of_mem _ hl))
        (fun l hl => hstorable l (List.mem_cons_of_mem _ hl)) hkeys'
      rw [List.flatMap_cons, List.append_assoc, List.length_cons, ← Nat.add_assoc,
        statements_pair (hbare line List.mem_cons_self)
          (written_scalar (hstorable line List.mem_cons_self)),
        addPair_last hname hnew, Option.bind_some]
      refine hread.trans ?_
      simp

/-- A section is added as a table of its own. -/
theorem statements_section {s : TomlSection} (hplain : s.Plain) (hstorable : s.Storable)
    (hname : before.lookup s.name = none) (rest : List Char) :
    statements (fuel + s.fields.length + 1) before header (TomlWriter.sectionLines s ++ rest) =
      statements fuel (before ++ [spelledSection s]) [s.name] rest := by
  unfold TomlWriter.sectionLines
  rw [List.append_assoc, statements_header hplain.bare_name, openTable_new hname, Option.bind_some,
    statements_lines [] hname hplain.bare_key hstorable hplain.nodup_keys]
  rfl

theorem statements_newline (rest : List Char) :
    statements (fuel + 1) fields header ('\n' :: rest) = statements fuel fields header rest :=
  rfl

theorem statements_nil : statements (fuel + 1) fields header [] = some fields :=
  rfl

/-- A line has at least one character, and so has the header. -/
theorem length_lt_sectionLines (s : TomlSection) :
    s.fields.length < (TomlWriter.sectionLines s).length := by
  have hlines : ∀ lines : List (String × TomlScalar), lines.length ≤
      (lines.flatMap fun line => TomlWriter.pair line.1 (TomlWriter.scalar line.2)).length := by
    intro lines
    induction lines with
    | nil => exact Nat.zero_le _
    | cons line lines ih =>
        have hpair : 0 < (TomlWriter.pair line.1 (TomlWriter.scalar line.2)).length := by
          rw [TomlWriter.pair, List.length_append, List.length_cons]
          omega
        rw [List.flatMap_cons, List.length_append, List.length_cons]
        omega
  have hheader : 0 < (TomlWriter.header s.name).length := by
    rw [TomlWriter.header, List.length_cons]
    omega
  have hfields := hlines s.fields
  rw [TomlWriter.sectionLines, List.length_append]
  omega

end TomlReader

end OverlayScrollbar
