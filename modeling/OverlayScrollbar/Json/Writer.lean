import OverlayScrollbar.Decimal.Text
import OverlayScrollbar.Json.Basic
import OverlayScrollbar.Json.Numeral

/-!
# Writing JSON

- `Single.numeral?`      : a number with the fewest digits that read back
- `JsonWriter.string`    : a string
- `JsonWriter.numeral`   : a number
- `Json.pretty`          : a value, with each item on a line of its own
-/

namespace OverlayScrollbar

/-! ## Numbers -/

/-- The numeral of a finite number. Its point stands after the first digit, with an exponent, if the
first digit's power of ten is below `-6` or above `12`. -/
def Single.numeral (negative : Bool) (size : Magnitude) : Numeral :=
  let (coefficient, exponent) := Single.shortest size
  let digits := decimalDigits coefficient
  let power := exponent + (digits.length - 1 : Nat)
  if -6 ≤ power ∧ power ≤ 12 then
    let (whole, places) := positionalParts coefficient exponent
    ⟨negative, whole, places, none⟩
  else
    ⟨negative, digits.take 1, digits.drop 1,
      some (decide (power < 0), decimalDigits power.natAbs)⟩

/-- The numeral of a number; JSON has neither infinities nor what is not a number. -/
def Single.numeral? : Single → Option Numeral
  | .nan => none
  | .infinity _ => none
  | .finite negative size => some (Single.numeral negative size)

namespace JsonWriter

/-- The text of a numeral. The exponent's sign is always written. -/
def numeral (n : Numeral) : List Char :=
  (if n.negative then ['-'] else []) ++ n.whole ++
    (if n.fraction.isEmpty then [] else '.' :: n.fraction) ++
    match n.exponent? with
    | none => []
    | some (negative, digits) => 'e' :: (if negative then '-' else '+') :: digits

/-! ## Strings -/

/-- A character of a string. -/
def escaped (c : Char) : List Char :=
  if c = '"' then ['\\', '"']
  else if c = '\\' then ['\\', '\\']
  else if c = '\x08' then ['\\', 'b']
  else if c = '\x0c' then ['\\', 'f']
  else if c = '\n' then ['\\', 'n']
  else if c = '\r' then ['\\', 'r']
  else if c = '\t' then ['\\', 't']
  else if c < ' ' then '\\' :: 'u' :: hexDigits false 4 c.toNat
  else [c]

/-- A string in quotes. -/
def string (text : String) : List Char :=
  '"' :: (text.toList.flatMap escaped ++ ['"'])

/-- A line end and the blanks of the given depth. -/
def newline (depth : Nat) : List Char :=
  '\n' :: List.replicate (2 * depth) ' '

end JsonWriter

/-! ## Values -/

mutual

/-- A value at the given depth. A string without a text is written as an empty one. -/
def Json.prettyAt (depth : Nat) : Json Numeral → List Char
  | .null => ['n', 'u', 'l', 'l']
  | .bool true => ['t', 'r', 'u', 'e']
  | .bool false => ['f', 'a', 'l', 's', 'e']
  | .number n => JsonWriter.numeral n
  | .string text => JsonWriter.string (text.getD "")
  | .array [] => ['[', ']']
  | .array (item :: items) =>
      '[' :: (JsonWriter.newline (depth + 1) ++ item.prettyAt (depth + 1) ++
        Json.prettyItems (depth + 1) items ++ JsonWriter.newline depth ++ [']'])
  | .object [] => ['{', '}']
  | .object ((name, content) :: fields) =>
      '{' :: (JsonWriter.newline (depth + 1) ++ JsonWriter.string (name.getD "") ++ [':', ' '] ++
        content.prettyAt (depth + 1) ++ Json.prettyFields (depth + 1) fields ++
        JsonWriter.newline depth ++ ['}'])

/-- The items of an array after the first, at the given depth. -/
def Json.prettyItems (depth : Nat) : List (Json Numeral) → List Char
  | [] => []
  | item :: items =>
      ',' :: (JsonWriter.newline depth ++ item.prettyAt depth ++ Json.prettyItems depth items)

/-- The fields of an object after the first, at the given depth. -/
def Json.prettyFields (depth : Nat) : List (JsonString × Json Numeral) → List Char
  | [] => []
  | (name, content) :: fields =>
      ',' :: (JsonWriter.newline depth ++ JsonWriter.string (name.getD "") ++ [':', ' '] ++
        content.prettyAt depth ++ Json.prettyFields depth fields)

end

/-- A value, with each item and field on a line of its own. -/
def Json.pretty (value : Json Numeral) : List Char :=
  value.prettyAt 0

end OverlayScrollbar
