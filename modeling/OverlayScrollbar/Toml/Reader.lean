import OverlayScrollbar.Decimal.Basic
import OverlayScrollbar.Toml.Basic
import OverlayScrollbar.Toml.Format

/-!
# Reading TOML

- `TomlReader.string`    : the four kinds of strings
- `TomlReader.number`    : dates, times and numbers
- `TomlReader.value`     : any value
- `TomlReader.statements`: keys with values and headers
- `Toml.read?`           : a whole text

A reader of a part gives the part and the characters after it, or nothing if the part is not
well-formed.
-/

namespace OverlayScrollbar

namespace TomlReader

/-! ## Blanks and line ends -/

/-- The characters that may stand between tokens on a line. -/
def isBlank (c : Char) : Bool :=
  c == ' ' || c == '\t'

/-- The text after leading blanks. -/
def skipBlanks (s : List Char) : List Char :=
  s.dropWhile isBlank

/-- The characters of comments and literal strings: all but the control characters of ASCII, with
the tab. -/
def isPlain (c : Char) : Bool :=
  c == '\t' || (' ' ≤ c && c != '\x7f')

/-- A line end, or the end of the text. -/
def lineEnd : List Char → Option (List Char)
  | [] => some []
  | '\n' :: rest => some rest
  | '\r' :: '\n' :: rest => some rest
  | _ => none

/-- A line end that is there. -/
def newline : List Char → Option (List Char)
  | [] => none
  | s => lineEnd s

/-- A comment, if there is one. -/
def skipComment : List Char → List Char
  | '#' :: rest => rest.dropWhile isPlain
  | s => s

/-- What may stand between a value and the end of its line. -/
def lineTail (s : List Char) : Option (List Char) :=
  lineEnd (skipComment (skipBlanks s))

/-- Blanks, comments and line ends, as they may stand in an array. A comment needs a line end. -/
def skipLines : Nat → List Char → Option (List Char)
  | 0, _ => none
  | fuel + 1, s =>
      match skipBlanks s with
      | '#' :: rest =>
          match newline (rest.dropWhile isPlain) with
          | some rest => skipLines fuel rest
          | none => none
      | '\n' :: rest => skipLines fuel rest
      | '\r' :: rest =>
          match rest with
          | '\n' :: rest => skipLines fuel rest
          | _ => none
      | rest => some rest

/-- Blanks and line ends. -/
def skipSpace : List Char → List Char
  | ' ' :: rest => skipSpace rest
  | '\t' :: rest => skipSpace rest
  | '\n' :: rest => skipSpace rest
  | '\r' :: '\n' :: rest => skipSpace rest
  | s => s

theorem length_skipSpace_le (s : List Char) : (skipSpace s).length ≤ s.length := by
  fun_induction skipSpace s <;> simp_all <;> omega

/-! ## Strings -/

/-- The character that a backslash and a letter stand for. -/
def escaped? : Char → Option Char
  | '"' => some '"'
  | '\\' => some '\\'
  | 'b' => some '\x08'
  | 'f' => some '\x0c'
  | 'n' => some '\n'
  | 'r' => some '\r'
  | 't' => some '\t'
  | _ => none

/-- The character whose number is written by digits of base sixteen. -/
def codePoint? (digits : List Char) : Option Char :=
  if digits.all (isDigitOf 16) then
    let n := digitsValue 16 digits
    if n < 0xd800 ∨ (0xdfff < n ∧ n < 0x110000) then some (Char.ofNat n) else none
  else none

/-- The character that an escape after a backslash stands for, and the text after the escape. -/
def escape : List Char → Option (Char × List Char)
  | 'u' :: a :: b :: c :: d :: rest =>
      (codePoint? [a, b, c, d]).map (·, rest)
  | 'U' :: a :: b :: c :: d :: e :: f :: g :: h :: rest =>
      (codePoint? [a, b, c, d, e, f, g, h]).map (·, rest)
  | letter :: rest => (escaped? letter).map (·, rest)
  | [] => none

theorem length_lt_of_escape {s rest : List Char} {c : Char} (h : escape s = some (c, rest)) :
    rest.length < s.length := by
  unfold escape at h
  split at h
  · simp only [Option.map_eq_some_iff, Prod.mk.injEq] at h
    obtain ⟨_, _, _, rfl⟩ := h
    simp only [List.length_cons]
    omega
  · simp only [Option.map_eq_some_iff, Prod.mk.injEq] at h
    obtain ⟨_, _, _, rfl⟩ := h
    simp only [List.length_cons]
    omega
  · simp only [Option.map_eq_some_iff, Prod.mk.injEq] at h
    obtain ⟨_, _, _, rfl⟩ := h
    simp only [List.length_cons]
    omega
  · simp at h

/-- A string in double quotes, after the opening one. -/
def basicBody (text : List Char) (s : List Char) : Option (List Char × List Char) :=
  match s with
  | [] => none
  | '"' :: rest => some (text.reverse, rest)
  | '\\' :: rest =>
      match h : escape rest with
      | some (c, rest') =>
          have := length_lt_of_escape h
          basicBody (c :: text) rest'
      | none => none
  | c :: rest => if isPlain c then basicBody (c :: text) rest else none
termination_by s.length

/-- A string in single quotes, after the opening one. -/
def literalBody (text : List Char) : List Char → Option (List Char × List Char)
  | [] => none
  | '\'' :: rest => some (text.reverse, rest)
  | c :: rest => if isPlain c then literalBody (c :: text) rest else none

/-- The end of a string in three quotes, after a run of as many or more: two more quotes may belong
to the string. -/
def closing (quote : Char) (text : List Char) (s : List Char) : List Char × List Char :=
  match s with
  | a :: b :: rest =>
      if a = quote then
        if b = quote then ((quote :: quote :: text).reverse, rest)
        else ((quote :: text).reverse, b :: rest)
      else (text.reverse, s)
  | [a] => if a = quote then ((quote :: text).reverse, []) else (text.reverse, s)
  | [] => (text.reverse, [])

/-- A backslash at the end of a line, with the blanks after it, and the text after all blanks and
line ends that follow. -/
def lineContinuation (s : List Char) : Option (List Char) :=
  match skipBlanks s with
  | '\n' :: rest => some (skipSpace rest)
  | '\r' :: '\n' :: rest => some (skipSpace rest)
  | _ => none

theorem length_skipBlanks_le (s : List Char) : (skipBlanks s).length ≤ s.length :=
  (List.dropWhile_sublist _).length_le

theorem length_lt_of_lineContinuation {s rest : List Char} (h : lineContinuation s = some rest) :
    rest.length < s.length := by
  have hle := length_skipBlanks_le s
  unfold lineContinuation at h
  split at h
  · rename_i tail heq
    have := length_skipSpace_le tail
    simp only [Option.some.injEq] at h
    subst h
    rw [heq, List.length_cons] at hle
    omega
  · rename_i tail heq
    have := length_skipSpace_le tail
    simp only [Option.some.injEq] at h
    subst h
    rw [heq, List.length_cons, List.length_cons] at hle
    omega
  · simp at h

/-- A string in three double quotes, after the opening ones and a line end. -/
def longBasicBody (text : List Char) (s : List Char) : Option (List Char × List Char) :=
  match s with
  | [] => none
  | '"' :: '"' :: '"' :: rest => some (closing '"' text rest)
  | '"' :: rest => longBasicBody ('"' :: text) rest
  | '\n' :: rest => longBasicBody ('\n' :: text) rest
  | '\r' :: '\n' :: rest => longBasicBody ('\n' :: text) rest
  | '\\' :: rest =>
      match hc : lineContinuation rest with
      | some rest' =>
          have := length_lt_of_lineContinuation hc
          longBasicBody text rest'
      | none =>
          match h : escape rest with
          | some (c, rest') =>
              have := length_lt_of_escape h
              longBasicBody (c :: text) rest'
          | none => none
  | c :: rest => if isPlain c then longBasicBody (c :: text) rest else none
termination_by s.length

/-- A string in three single quotes, after the opening ones and a line end. -/
def longLiteralBody (text : List Char) : List Char → Option (List Char × List Char)
  | [] => none
  | '\'' :: '\'' :: '\'' :: rest => some (closing '\'' text rest)
  | '\n' :: rest => longLiteralBody ('\n' :: text) rest
  | '\r' :: '\n' :: rest => longLiteralBody ('\n' :: text) rest
  | c :: rest => if isPlain c then longLiteralBody (c :: text) rest else none

/-- A line end right after opening quotes does not belong to the string. -/
def dropNewline (s : List Char) : List Char :=
  (newline s).getD s

/-- A string that fits on one line. -/
def shortString : List Char → Option (List Char × List Char)
  | '"' :: rest => basicBody [] rest
  | '\'' :: rest => literalBody [] rest
  | _ => none

/-- A string of any kind. -/
def string : List Char → Option (List Char × List Char)
  | '"' :: '"' :: '"' :: rest => longBasicBody [] (dropNewline rest)
  | '\'' :: '\'' :: '\'' :: rest => longLiteralBody [] (dropNewline rest)
  | s => shortString s

/-! ## Numbers -/

/-- Digits of a base with single underscores between them, as they are read without these. -/
def underscored (base : Nat) (s : List Char) : Option (List Char × List Char) :=
  match s with
  | [] => none
  | c :: rest =>
      if isDigitOf base c then
        match rest with
        | [] => some ([c], [])
        | d :: after =>
            if d = '_' then (underscored base after).map fun (found, rest) => (c :: found, rest)
            else if isDigitOf base d then
              (underscored base (d :: after)).map fun (found, rest) => (c :: found, rest)
            else some ([c], d :: after)
      else none
termination_by s.length

/-- A sign, and whether it is a minus. -/
def sign : List Char → Bool × List Char
  | '-' :: rest => (true, rest)
  | '+' :: rest => (false, rest)
  | s => (false, s)

/-- A decimal whole number: a zero stands alone. -/
def wholeDigits : List Char → Option (List Char × List Char)
  | '0' :: rest => some (['0'], rest)
  | s => underscored 10 s

/-- A whole number, if it fits a signed 64-bit word. -/
def boundedInteger (i : Int) : Option Toml :=
  if -2 ^ 63 ≤ i ∧ i < 2 ^ 63 then some (.integer i) else none

/-- The digits of a number after its sign and a point. -/
def fraction : List Char → Option (List Char × List Char)
  | '.' :: rest => underscored 10 rest
  | s => some ([], s)

/-- The exponent of a number. -/
def exponent : List Char → Option (Int × List Char)
  | 'e' :: rest => signedDigits rest
  | 'E' :: rest => signedDigits rest
  | s => some (0, s)
where
  /-- The sign and the digits of an exponent. -/
  signedDigits (s : List Char) : Option (Int × List Char) := do
    let (negative, s) := sign s
    let (digits, s) ← underscored 10 s
    let size : Int := digitsValue 10 digits
    return (if negative then -size else size, s)

/-- The number that a decimal stands for. One above the range of double precision is refused, and one
below it is the negative infinity. -/
def floatValue (d : Decimal) : Option Double :=
  match d.double? with
  | some size => some (.finite d.negative size)
  | none => if d.negative then some (.infinity true) else none

/-- A decimal number: a whole number, or with a fraction or an exponent a floating-point one. -/
def decimalNumber (s : List Char) : Option (Toml × List Char) := do
  let (negative, s) := sign s
  let (whole, s) ← wholeDigits s
  let (places, afterFraction) ← fraction s
  let (power, afterExponent) ← exponent afterFraction
  if afterExponent.length = s.length then
    let size : Int := digitsValue 10 whole
    return (← boundedInteger (if negative then -size else size), s)
  else
    let x ← floatValue ⟨negative, digitsValue 10 (whole ++ places), power - places.length⟩
    return (.float x, afterExponent)

/-- A whole number of another base, after its mark. -/
def basedNumber (base : Nat) (s : List Char) : Option (Toml × List Char) := do
  let (digits, s) ← underscored base s
  return (← boundedInteger (digitsValue base digits), s)

/-- An infinity, or not a number. -/
def specialFloat (s : List Char) : Option (Toml × List Char) :=
  let (negative, s) := sign s
  match s with
  | 'i' :: 'n' :: 'f' :: rest => some (.float (.infinity negative), rest)
  | 'n' :: 'a' :: 'n' :: rest => some (.float .nan, rest)
  | _ => none

/-! ## Dates and times -/

/-- As many decimal digits as are asked for, read as a number. -/
def fixedDigits (count : Nat) (s : List Char) : Option (Nat × List Char) :=
  let digits := s.take count
  if digits.length = count ∧ digits.all (isDigitOf 10) then
    some (digitsValue 10 digits, s.drop count)
  else none

/-- A given character. -/
def mark (c : Char) : List Char → Option (List Char)
  | d :: rest => if c = d then some rest else none
  | [] => none

/-- A number of two digits between two bounds. -/
def pair (lo hi : Nat) (s : List Char) : Option (Nat × List Char) := do
  let (n, s) ← fixedDigits 2 s
  if lo ≤ n ∧ n ≤ hi then return (n, s) else none

/-- The number of days of a month. -/
def daysOfMonth (year month : Nat) : Nat :=
  if month = 2 then
    if year % 4 = 0 ∧ (year % 100 ≠ 0 ∨ year % 400 = 0) then 29 else 28
  else if month = 4 ∨ month = 6 ∨ month = 9 ∨ month = 11 then 30
  else 31

/-- A date. -/
def date (s : List Char) : Option (List Char) := do
  let (year, s) ← fixedDigits 4 s
  let s ← mark '-' s
  let (month, s) ← pair 1 12 s
  let s ← mark '-' s
  let (_, s) ← pair 1 (daysOfMonth year month) s
  return s

/-- The part of a second after a point, if there is one. -/
def secondFraction (s : List Char) : List Char :=
  match s with
  | '.' :: rest =>
      match rest.takeWhile (isDigitOf 10) with
      | [] => s
      | _ => rest.dropWhile (isDigitOf 10)
  | _ => s

/-- A time of day. -/
def time (s : List Char) : Option (List Char) := do
  let (_, s) ← pair 0 23 s
  let s ← mark ':' s
  let (_, s) ← pair 0 59 s
  let s ← mark ':' s
  let (_, s) ← pair 0 60 s
  return secondFraction s

/-- The distance from Greenwich time, if there is one. -/
def offset (s : List Char) : Option (List Char) :=
  match s with
  | 'Z' :: rest => some rest
  | 'z' :: rest => some rest
  | '+' :: rest => hoursAndMinutes rest
  | '-' :: rest => hoursAndMinutes rest
  | _ => some s
where
  /-- Hours and minutes. -/
  hoursAndMinutes (s : List Char) : Option (List Char) := do
    let (_, s) ← pair 0 23 s
    let s ← mark ':' s
    let (_, s) ← pair 0 59 s
    return s

/-- The time after a date, if there is one. -/
def timeAfterDate (s : List Char) : Option (List Char) :=
  match s with
  | c :: rest =>
      if c = 'T' ∨ c = 't' ∨ c = ' ' then
        match time rest with
        | some rest => offset rest
        | none => some s
      else some s
  | [] => some s

/-- A date, a time, or both. -/
def dateTime (s : List Char) : Option (List Char) :=
  match date s with
  | some rest => timeAfterDate rest
  | none => time s

/-- A value that starts with a sign or a digit. -/
def number (s : List Char) : Option (Toml × List Char) :=
  match dateTime s with
  | some rest => some (.dateTime, rest)
  | none =>
      match s with
      | '0' :: 'x' :: rest => basedNumber 16 rest
      | '0' :: 'o' :: rest => basedNumber 8 rest
      | '0' :: 'b' :: rest => basedNumber 2 rest
      | _ =>
          match specialFloat s with
          | some found => some found
          | none => decimalNumber s

/-! ## Keys -/

/-- A key without dots. -/
def simpleKey (s : List Char) : Option (String × List Char) :=
  match s with
  | '"' :: _ => (shortString s).map fun (found, rest) => (String.ofList found, rest)
  | '\'' :: _ => (shortString s).map fun (found, rest) => (String.ofList found, rest)
  | _ =>
      match s.takeWhile TomlKey.isBare with
      | [] => none
      | found => some (String.ofList found, s.dropWhile TomlKey.isBare)

/-- Keys with dots between them, and blanks around each. -/
def keyParts : Nat → List Char → Option (List String × List Char)
  | 0, _ => none
  | fuel + 1, s => do
      let (key, s) ← simpleKey (skipBlanks s)
      match skipBlanks s with
      | '.' :: rest =>
          let (found, rest) ← keyParts fuel rest
          return (key :: found, rest)
      | rest => return ([key], rest)

/-- Keys and values are nested less deep than this. -/
def depthLimit : Nat :=
  80

/-- A key, as the path to it and its last part. -/
def key (s : List Char) : Option (List String × String × List Char) := do
  let (parts, s) ← keyParts depthLimit s
  if depthLimit ≤ parts.length then none
  else
    match parts.getLast? with
    | some last => return (parts.dropLast, last, s)
    | none => none

/-! ## Values -/

mutual

/-- A value. Arrays and tables in braces are nested up to a limit, of which `depth` is left; the fuel
bounds the number of nested calls. -/
def value : Nat → Nat → List Char → Option (Toml × List Char)
  | 0, _, _ => none
  | fuel + 1, depth, s =>
      match s with
      | '"' :: _ => (string s).map fun (found, rest) => (.string (String.ofList found), rest)
      | '\'' :: _ => (string s).map fun (found, rest) => (.string (String.ofList found), rest)
      | '[' :: rest =>
          if depth ≤ 1 then none
          else (items fuel (depth - 1) rest).map fun (found, rest) => (.array found, rest)
      | '{' :: rest =>
          if depth ≤ 1 then none
          else
            match skipBlanks rest with
            | '}' :: rest => some (.inlineTable .explicit [], rest)
            | rest =>
                (pairs fuel (depth - 1) [] rest).map fun (found, rest) =>
                  (.inlineTable .explicit found, rest)
      | 't' :: 'r' :: 'u' :: 'e' :: rest => some (.boolean true, rest)
      | 'f' :: 'a' :: 'l' :: 's' :: 'e' :: rest => some (.boolean false, rest)
      | s => number s

/-- The items of an array up to its closing bracket. A comma may follow the last one. -/
def items : Nat → Nat → List Char → Option (List Toml × List Char)
  | 0, _, _ => none
  | fuel + 1, depth, s => do
      match ← skipLines (s.length + 1) s with
      | ']' :: rest => return ([], rest)
      | s =>
          let (item, s) ← value fuel depth s
          match ← skipLines (s.length + 1) s with
          | ']' :: rest => return ([item], rest)
          | ',' :: rest =>
              let (found, rest) ← items fuel depth rest
              return (item :: found, rest)
          | _ => none

/-- The keys and values of a table in braces up to its closing brace, at least one. -/
def pairs : Nat → Nat → TomlFields → List Char → Option (TomlFields × List Char)
  | 0, _, _, _ => none
  | fuel + 1, depth, fields, s => do
      let (path, last, s) ← key s
      let s ← mark '=' s
      let (found, s) ← value fuel depth (skipBlanks s)
      let fields ← Toml.addInline fields path last found
      match skipBlanks s with
      | '}' :: rest => return (fields, rest)
      | ',' :: rest => pairs fuel depth fields rest
      | _ => none

end

/-- A value of a key. Every nested call but one in two reads a character, so that twice the length of
the text is enough fuel. -/
def topValue (s : List Char) : Option (Toml × List Char) :=
  value (2 * s.length + 2) depthLimit s

/-! ## Statements -/

/-- A key with its value, on a line of its own. -/
def pairLine (fields : TomlFields) (header : List String) (s : List Char) :
    Option (TomlFields × List Char) := do
  let (path, last, s) ← key s
  let s ← mark '=' s
  let (found, s) ← topValue (skipBlanks s)
  let s ← lineTail s
  return (← Toml.addPair fields header path last found, s)

/-- The header of a table after its first bracket, on a line of its own: gives the names in it. -/
def headerLine (fields : TomlFields) (s : List Char) :
    Option (TomlFields × List String × List Char) :=
  match s with
  | '[' :: rest => do
      let (path, last, s) ← key rest
      let s ← lineTail (← mark ']' (← mark ']' s))
      return (← Toml.openTables fields path last, path ++ [last], s)
  | _ => do
      let (path, last, s) ← key s
      let s ← lineTail (← mark ']' s)
      return (← Toml.openTable fields path last, path ++ [last], s)

/-- The lines of a text, added to what is there. Every line reads a character, so that the length of
the text is enough fuel. -/
def statements : Nat → TomlFields → List String → List Char → Option TomlFields
  | 0, _, _, _ => none
  | fuel + 1, fields, header, s =>
      match skipBlanks s with
      | [] => some fields
      | '#' :: rest => do statements fuel fields header (← lineEnd (rest.dropWhile isPlain))
      | '\n' :: rest => statements fuel fields header rest
      | '\r' :: '\n' :: rest => statements fuel fields header rest
      | '[' :: rest => do
          let (fields, header, rest) ← headerLine fields rest
          statements fuel fields header rest
      | rest => do
          let (fields, rest) ← pairLine fields header rest
          statements fuel fields header rest

end TomlReader

/-- The fields of the document that a text writes. A byte order mark may come first. -/
def Toml.read? (s : List Char) : Option TomlFields :=
  let s := match s with
    | '\ufeff' :: rest => rest
    | s => s
  TomlReader.statements (s.length + 1) [] [] s

end OverlayScrollbar
