import OverlayScrollbar.Binary.Double

/-!
# TOML as it is spelled

- `Toml`           : a value, a table, or an array of tables
- `Definition`     : how a table came to be, which decides what may still be added to it
- `Toml.addPair`   : adds a key with its value
- `Toml.openTable`, `Toml.openTables` : what the header of a table does

A table is a list of keys with values, without repeated keys. An operation on tables gives nothing if
the text that asks for it is not well-formed.
-/

namespace OverlayScrollbar

/-- How a table came to be. -/
inductive Definition
  /-- By a header or braces of its own. -/
  | explicit
  /-- As a part of the name in the header of another table. -/
  | implied
  /-- As a part of a key with dots. -/
  | dotted
  deriving DecidableEq, Repr

/-- What a key can stand for. -/
inductive Toml
  | string (text : String)
  | integer (value : Int)
  | float (value : Double)
  | boolean (value : Bool)
  | dateTime
  | array (items : List Toml)
  | inlineTable (definition : Definition) (fields : List (String × Toml))
  | table (definition : Definition) (fields : List (String × Toml))
  | tables (items : List (List (String × Toml)))

/-- The keys of a table with their values. -/
abbrev TomlFields : Type :=
  List (String × Toml)

namespace Toml

/-! ## Keys -/

/-- Puts a value in the place of the one that a key has. -/
def replaceField (fields : TomlFields) (key : String) (value : Toml) : TomlFields :=
  fields.map fun field => if field.1 = key then (key, value) else field

/-- Adds a key that is not there yet. -/
def addField (definition : Definition) (fields : TomlFields) (path : List String) (key : String)
    (value : Toml) : Option TomlFields :=
  if (definition == .dotted) == path.isEmpty then none
  else
    match fields.lookup key with
    | some _ => none
    | none => some (fields ++ [(key, value)])

/-! ## Braces -/

/-- Follows a dotted key inside braces, making the tables that are missing, and changes the last
one. -/
def descendInline (change : Definition → TomlFields → Option TomlFields) :
    List String → Definition → TomlFields → Option TomlFields
  | [], definition, fields => change definition fields
  | key :: path, _, fields =>
      match fields.lookup key with
      | none => do
          let inner ← descendInline change path .dotted []
          return fields ++ [(key, .inlineTable .dotted inner)]
      | some (.inlineTable definition inner) =>
          if definition = .explicit then none
          else do
            let inner ← descendInline change path definition inner
            return replaceField fields key (.inlineTable definition inner)
      | some _ => none

/-- Adds a key with its value to a table in braces. -/
def addInline (fields : TomlFields) (path : List String) (key : String) (value : Toml) :
    Option TomlFields :=
  descendInline (fun definition inner => addField definition inner path key value) path .explicit
    fields

/-! ## Headers -/

/-- Follows names, making the tables that are missing, and changes the last one. Names lead to the
last table of an array of tables. A dotted key does not lead into a table that has a header. -/
def descend (byKey : Bool) (change : Definition → TomlFields → Option TomlFields) :
    List String → Definition → TomlFields → Option TomlFields
  | [], definition, fields => change definition fields
  | key :: path, _, fields =>
      match fields.lookup key with
      | none => do
          let definition : Definition := if byKey then .dotted else .implied
          let inner ← descend byKey change path definition []
          return fields ++ [(key, .table definition inner)]
      | some (.table definition inner) =>
          if byKey ∧ definition = .explicit then none
          else do
            let inner ← descend byKey change path definition inner
            return replaceField fields key (.table definition inner)
      | some (.tables items) =>
          match items.getLast? with
          | none => none
          | some last => do
              let last ← descend byKey change path .explicit last
              return replaceField fields key (.tables (items.dropLast ++ [last]))
      | some _ => none

/-- Adds a key with its value to the table that a header has opened. -/
def addPair (fields : TomlFields) (header path : List String) (key : String) (value : Toml) :
    Option TomlFields :=
  descend false
    (descend true (fun definition inner => addField definition inner path key value) path) header
    .explicit fields

/-- Opens the table that a header names. It must not have been opened before. -/
def openTable (fields : TomlFields) (path : List String) (key : String) : Option TomlFields :=
  descend false
    (fun _ inner =>
      match inner.lookup key with
      | none => some (inner ++ [(key, .table .explicit [])])
      | some (.table .implied deeper) => some (replaceField inner key (.table .explicit deeper))
      | some _ => none)
    path .explicit fields

/-- Opens another table of the array of tables that a header names. -/
def openTables (fields : TomlFields) (path : List String) (key : String) : Option TomlFields :=
  descend false
    (fun _ inner =>
      match inner.lookup key with
      | none => some (inner ++ [(key, .tables [[]])])
      | some (.tables items) => some (replaceField inner key (.tables (items ++ [[]])))
      | some _ => none)
    path .explicit fields

end Toml

end OverlayScrollbar
