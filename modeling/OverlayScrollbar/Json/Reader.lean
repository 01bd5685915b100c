import OverlayScrollbar.Json.Basic
import OverlayScrollbar.Json.Numeral

/-!
# Reading JSON

The reader is strict: it takes one value with blanks around it, and nothing else.

- `JsonReader.numeral`    : a number
- `JsonReader.stringBody` : a string after its opening quote
- `JsonReader.value`      : any value
- `Json.read?`            : a whole text

A reader of a part gives the part and the characters after it, or nothing if the part is not
well-formed.
-/

namespace OverlayScrollbar

namespace JsonReader

/-! ## Blanks and digits -/

/-- The four characters that may stand between tokens. -/
def isBlank (c : Char) : Bool :=
  c == ' ' || c == '\t' || c == '\n' || c == '\r'

/-- The text after leading blanks. -/
def skipBlanks (s : List Char) : List Char :=
  s.dropWhile isBlank

/-- The leading decimal digits, of which there must be one, and the text after them. -/
def digits (s : List Char) : Option (List Char × List Char) :=
  let found := s.takeWhile (isDigitOf 10)
  if found.isEmpty then none else some (found, s.dropWhile (isDigitOf 10))

/-! ## Numbers -/

/-- The digits before the point: a zero stands alone. -/
def wholeDigits : List Char → Option (List Char × List Char)
  | '0' :: rest => some (['0'], rest)
  | s => digits s

/-- A point and the digits after it, if there is a point. -/
def fractionDigits : List Char → Option (List Char × List Char)
  | '.' :: rest => digits rest
  | s => some ([], s)

/-- The sign and the digits of an exponent. -/
def exponentDigits (s : List Char) : Option (Bool × List Char × List Char) :=
  match s with
  | '-' :: rest => (digits rest).map fun (found, rest) => (true, found, rest)
  | '+' :: rest => (digits rest).map fun (found, rest) => (false, found, rest)
  | _ => (digits s).map fun (found, rest) => (false, found, rest)

/-- An exponent, if there is a letter for one. -/
def exponent : List Char → Option (Option (Bool × List Char) × List Char)
  | 'e' :: rest => (exponentDigits rest).map fun (sign, found, rest) => (some (sign, found), rest)
  | 'E' :: rest => (exponentDigits rest).map fun (sign, found, rest) => (some (sign, found), rest)
  | s => some (none, s)

/-- A number without its sign. -/
def unsignedNumeral (negative : Bool) (s : List Char) : Option (Numeral × List Char) := do
  let (whole, s) ← wholeDigits s
  let (fraction, s) ← fractionDigits s
  let (exponent?, s) ← exponent s
  return (⟨negative, whole, fraction, exponent?⟩, s)

/-- A number. -/
def numeral : List Char → Option (Numeral × List Char)
  | '-' :: rest => unsignedNumeral true rest
  | s => unsignedNumeral false s

/-! ## Strings -/

/-- The value of four digits of base sixteen. -/
def fourDigits? (a b c d : Char) : Option Nat := do
  return (((← digitValue? a) * 16 + (← digitValue? b)) * 16 + (← digitValue? c)) * 16
    + (← digitValue? d)

/-- The character that a backslash and a letter stand for. -/
def escaped? : Char → Option Char
  | '"' => some '"'
  | '\\' => some '\\'
  | '/' => some '/'
  | 'b' => some '\x08'
  | 'f' => some '\x0c'
  | 'n' => some '\n'
  | 'r' => some '\r'
  | 't' => some '\t'
  | _ => none

/-- A piece of a string: a character, or a surrogate. -/
inductive Unit16
  | char (c : Char)
  | high (value : Nat)
  | low (value : Nat)
  deriving DecidableEq, Repr

/-- The piece that an escape of four digits stands for. -/
def unit16 (value : Nat) : Unit16 :=
  if 0xd800 ≤ value ∧ value < 0xdc00 then .high (value - 0xd800)
  else if 0xdc00 ≤ value ∧ value < 0xe000 then .low (value - 0xdc00)
  else .char (Char.ofNat value)

/-- The pieces of a string after its opening quote, and the text after its closing quote. Characters
below the blank must be escaped. -/
def pieces : List Char → Option (List Unit16 × List Char)
  | [] => none
  | '"' :: rest => some ([], rest)
  | '\\' :: 'u' :: a :: b :: c :: d :: rest => do
      let value ← fourDigits? a b c d
      let (found, rest) ← pieces rest
      return (unit16 value :: found, rest)
  | '\\' :: letter :: rest => do
      let c ← escaped? letter
      let (found, rest) ← pieces rest
      return (.char c :: found, rest)
  | c :: rest =>
      if c < ' ' ∨ c = '\\' then none
      else do
        let (found, rest) ← pieces rest
        return (.char c :: found, rest)

/-- The text of pieces in which every high surrogate is followed by a low one, and no other low one
is there. -/
def joinUnits : List Unit16 → Option (List Char)
  | [] => some []
  | .char c :: rest => (joinUnits rest).map (c :: ·)
  | .high h :: .low l :: rest =>
      (joinUnits rest).map (Char.ofNat (0x10000 + h * 1024 + l) :: ·)
  | .high _ :: _ => none
  | .low _ :: _ => none

/-- A string after its opening quote. -/
def stringBody (s : List Char) : Option (JsonString × List Char) :=
  (pieces s).map fun (found, rest) => ((joinUnits found).map String.ofList, rest)

/-! ## Values -/

mutual

/-- A value, with blanks before it. The fuel bounds the number of nested calls. -/
def value : Nat → List Char → Option (Json Numeral × List Char)
  | 0, _ => none
  | fuel + 1, s =>
      match skipBlanks s with
      | 'n' :: 'u' :: 'l' :: 'l' :: rest => some (.null, rest)
      | 't' :: 'r' :: 'u' :: 'e' :: rest => some (.bool true, rest)
      | 'f' :: 'a' :: 'l' :: 's' :: 'e' :: rest => some (.bool false, rest)
      | '"' :: rest => (stringBody rest).map fun (text, rest) => (.string text, rest)
      | '[' :: rest =>
          match skipBlanks rest with
          | ']' :: rest => some (.array [], rest)
          | rest => (items fuel rest).map fun (found, rest) => (.array found, rest)
      | '{' :: rest =>
          match skipBlanks rest with
          | '}' :: rest => some (.object [], rest)
          | rest => (fields fuel rest).map fun (found, rest) => (.object found, rest)
      | rest => (numeral rest).map fun (found, rest) => (.number found, rest)

/-- The items of an array up to its closing bracket, at least one. -/
def items : Nat → List Char → Option (List (Json Numeral) × List Char)
  | 0, _ => none
  | fuel + 1, s => do
      let (item, s) ← value fuel s
      match skipBlanks s with
      | ']' :: rest => return ([item], rest)
      | ',' :: rest =>
          let (found, rest) ← items fuel rest
          return (item :: found, rest)
      | _ => none

/-- The fields of an object up to its closing brace, at least one. -/
def fields : Nat → List Char → Option (List (JsonString × Json Numeral) × List Char)
  | 0, _ => none
  | fuel + 1, s =>
      match skipBlanks s with
      | '"' :: rest => do
          let (name, s) ← stringBody rest
          match skipBlanks s with
          | ':' :: rest =>
              let (content, s) ← value fuel rest
              match skipBlanks s with
              | '}' :: rest => return ([(name, content)], rest)
              | ',' :: rest =>
                  let (found, rest) ← fields fuel rest
                  return ((name, content) :: found, rest)
              | _ => none
          | _ => none
      | _ => none

end

end JsonReader

/-- The value that a text writes. Every nested call but one in two reads a character, so that twice
the length of the text is enough fuel. -/
def Json.read? (s : List Char) : Option (Json Numeral) :=
  match JsonReader.value (2 * s.length + 2) s with
  | some (found, rest) => if (JsonReader.skipBlanks rest).isEmpty then some found else none
  | none => none

end OverlayScrollbar
