import OverlayScrollbar.Json.Basic
import OverlayScrollbar.Single.Basic

/-!
# JSON documents

Themes are kept in JSON. How its text is read and written, and how numbers are held in between, is left
to a library, which is a parameter wherever a theme file is loaded or saved.

- `Json.Writable`      : values that a library is relied on to write
- `JsonFormat`         : a library
- `JsonFormat.Lawful`  : what is relied on when something is read that was written
-/

namespace OverlayScrollbar

/-! ## Values -/

mutual

/-- A value whose numbers are as `Known` says and whose strings and names have texts, with arrays and
objects nested at most so deep. -/
def Json.Writable {N : Type} (Known : N → Prop) : Nat → Json N → Prop
  | _, .null => True
  | _, .bool _ => True
  | _, .number n => Known n
  | _, .string text => text.isSome = true
  | 0, .array _ => False
  | depth + 1, .array items => Json.ItemsWritable Known depth items
  | 0, .object _ => False
  | depth + 1, .object fields => Json.FieldsWritable Known depth fields

/-- All items are such. -/
def Json.ItemsWritable {N : Type} (Known : N → Prop) (depth : Nat) : List (Json N) → Prop
  | [] => True
  | item :: items => item.Writable Known depth ∧ Json.ItemsWritable Known depth items

/-- All fields are such. -/
def Json.FieldsWritable {N : Type} (Known : N → Prop) (depth : Nat) :
    List (JsonString × Json N) → Prop
  | [] => True
  | (name, content) :: fields =>
      name.isSome = true ∧ content.Writable Known depth ∧ Json.FieldsWritable Known depth fields

end

/-! ## Libraries -/

/-- A library for JSON. -/
structure JsonFormat where
  /-- The numbers, as they are held between a text and single precision. -/
  Number : Type
  /-- The number that is written for one of single precision, if there is one. -/
  ofSingle? : Single → Option Number
  /-- The single-precision number that a number is rounded to, unless it is out of range. -/
  single? : Number → Option Single
  /-- The value that a text writes, unless the text is not well-formed. -/
  read? : String → Option (Json Number)
  /-- The text of a value. -/
  write : Json Number → String

namespace JsonFormat

/-- Arrays and objects are nested less deep than this when they are read. -/
def depthLimit : Nat :=
  128

/-- What is relied on. -/
structure Lawful (format : JsonFormat) : Prop where
  /-- A finite number has a numeral, and what is read from that is rounded to the same number. -/
  exists_ofSingle? : ∀ negative size, ∃ n, format.ofSingle? (.finite negative size) = some n ∧
    format.single? n = some (.finite negative size)
  /-- JSON has no infinities. -/
  ofSingle?_infinity : ∀ negative, format.ofSingle? (.infinity negative) = none
  /-- What is not a number has no numeral. -/
  ofSingle?_nan : format.ofSingle? .nan = none
  /-- A number that was read is a number. -/
  single?_ne_nan : ∀ n, format.single? n ≠ some .nan
  /-- A value with numbers of single precision is read as it was written. -/
  read?_write : ∀ value : Json format.Number,
    value.Writable (fun n => ∃ x, format.ofSingle? x = some n) (depthLimit - 1) →
      format.read? (format.write value) = some value

end JsonFormat

end OverlayScrollbar
