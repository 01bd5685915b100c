/-!
# JSON values

- `Json`       : a value, whatever its numbers are
- `JsonString` : the text of a string, which may be missing
- `Json.fields?`, `Json.items?` : the contents of objects and arrays
-/

namespace OverlayScrollbar

/-- The text of a string. A string in which a surrogate has no partner is well-formed JSON, but it has
no text. -/
abbrev JsonString : Type :=
  Option String

/-- A JSON value. Fields stand in the order of the text, and a name may come more than once. -/
inductive Json (N : Type)
  | null
  | bool (value : Bool)
  | number (value : N)
  | string (text : JsonString)
  | array (items : List (Json N))
  | object (fields : List (JsonString × Json N))

namespace Json

variable {N : Type}

/-- The items of an array. -/
def items? : Json N → Option (List (Json N))
  | .array items => some items
  | _ => none

/-- The fields of an object. -/
def fields? : Json N → Option (List (JsonString × Json N))
  | .object fields => some fields
  | _ => none

/-- The text of a string. -/
def text? : Json N → Option String
  | .string text => text
  | _ => none

/-- A truth value. -/
def bool? : Json N → Option Bool
  | .bool value => some value
  | _ => none

/-- A number. -/
def number? : Json N → Option N
  | .number value => some value
  | _ => none

end Json

end OverlayScrollbar
