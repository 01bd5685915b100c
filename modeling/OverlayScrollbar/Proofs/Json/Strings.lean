import Mathlib.Tactic.SplitIfs
import OverlayScrollbar.Json.Reader
import OverlayScrollbar.Json.Writer

/-!
# Strings of JSON that read back

A text is written character by character, and the characters that cannot stand in a string are escaped.
The reader takes each of them as the piece that it was written for.

- `pieces_escaped`  : one character
- `stringBody_text` : a whole text, up to its closing quote

Main statement: `stringBody_text`.
-/

namespace OverlayScrollbar

namespace JsonReader

variable {c : Char} {rest after : List Char} {found : List Unit16}

/-! ## Escapes -/

/-- A backslash and a letter. -/
theorem pieces_letter {letter : Char} (hletter : letter ≠ 'u') (h : escaped? letter = some c)
    (hrest : pieces rest = some (found, after)) :
    pieces ('\\' :: letter :: rest) = some (.char c :: found, after) := by
  rw [pieces, h, hrest]
  · rfl
  · intro _ _ _ _ _ hcode _
    exact hletter hcode

/-- A character that stands for itself. -/
theorem pieces_plain (hquote : c ≠ '"') (hslash : c ≠ '\\') (hcontrol : ¬c < ' ')
    (hrest : pieces rest = some (found, after)) :
    pieces (c :: rest) = some (.char c :: found, after) := by
  have hplain : ¬(c < ' ' ∨ c = '\\') := fun h => h.elim hcontrol hslash
  rw [pieces, if_neg hplain, hrest]
  · rfl
  · exact fun h => hquote h
  · exact fun _ _ _ _ _ h _ => hslash h
  · exact fun _ _ h _ => hslash h

theorem fourDigits?_hexDigits {n : Nat} (h : n < 32) :
    fourDigits? (hexDigit false (n / 16 / 16 / 16 % 16)) (hexDigit false (n / 16 / 16 % 16))
      (hexDigit false (n / 16 % 16)) (hexDigit false (n % 16)) = some n := by
  revert n
  decide

/-- The characters below the blank are no surrogates. -/
theorem unit16_of_lt {n : Nat} (h : n < 32) : unit16 n = .char (Char.ofNat n) := by
  unfold unit16
  rw [if_neg (by omega), if_neg (by omega)]

theorem pieces_hexDigits (hcontrol : c < ' ') (hrest : pieces rest = some (found, after)) :
    pieces ('\\' :: 'u' :: (hexDigits false 4 c.toNat ++ rest)) =
      some (.char c :: found, after) := by
  have hless : c.toNat < 32 := hcontrol
  have hunit := unit16_of_lt hless
  rw [Char.ofNat_toNat] at hunit
  show pieces ('\\' :: 'u' :: hexDigit false _ :: hexDigit false _ :: hexDigit false _ ::
    hexDigit false _ :: rest) = _
  rw [pieces, fourDigits?_hexDigits hless, hrest]
  show some (unit16 c.toNat :: found, after) = _
  rw [hunit]

/-- A character is read as it was written, whether it is escaped or not. -/
theorem pieces_escaped (c : Char) (hrest : pieces rest = some (found, after)) :
    pieces (JsonWriter.escaped c ++ rest) = some (.char c :: found, after) := by
  unfold JsonWriter.escaped
  split_ifs with hquote hslash hback hfeed hline hreturn htab hcontrol
  · subst hquote
    exact pieces_letter (by decide) rfl hrest
  · subst hslash
    exact pieces_letter (by decide) rfl hrest
  · subst hback
    exact pieces_letter (by decide) rfl hrest
  · subst hfeed
    exact pieces_letter (by decide) rfl hrest
  · subst hline
    exact pieces_letter (by decide) rfl hrest
  · subst hreturn
    exact pieces_letter (by decide) rfl hrest
  · subst htab
    exact pieces_letter (by decide) rfl hrest
  · exact pieces_hexDigits hcontrol hrest
  · exact pieces_plain hquote hslash hcontrol hrest

/-! ## Texts -/

theorem pieces_text (text rest : List Char) :
    pieces (text.flatMap JsonWriter.escaped ++ '"' :: rest) = some (text.map .char, rest) := by
  induction text with
  | nil => rw [List.flatMap_nil, List.nil_append, pieces, List.map_nil]
  | cons c more ih =>
      rw [List.flatMap_cons, List.append_assoc, List.map_cons]
      exact pieces_escaped c ih

theorem joinUnits_chars (text : List Char) : joinUnits (text.map .char) = some text := by
  induction text with
  | nil => rfl
  | cons c more ih =>
      rw [List.map_cons, joinUnits, ih]
      rfl

/-- Every text is read as it was written. -/
theorem stringBody_text (text : String) (rest : List Char) :
    stringBody (text.toList.flatMap JsonWriter.escaped ++ '"' :: rest) =
      some (some text, rest) := by
  unfold stringBody
  rw [pieces_text, Option.map_some]
  dsimp only
  rw [joinUnits_chars, Option.map_some, String.ofList_toList]

end JsonReader

end OverlayScrollbar
