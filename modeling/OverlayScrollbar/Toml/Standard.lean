import OverlayScrollbar.Toml.Format
import OverlayScrollbar.Toml.Reader
import OverlayScrollbar.Toml.Writer

/-!
# The TOML library that the program runs with

- `Toml.value`          : what is read, without how it is spelled
- `TomlFormat.standard` : the library
-/

namespace OverlayScrollbar

mutual

/-- A value without how it is spelled. -/
def Toml.value : Toml → TomlValue
  | .string text => .string text
  | .integer i => .integer i
  | .float x => .float x
  | .boolean b => .boolean b
  | .dateTime => .dateTime
  | .array items => .array (Toml.itemValues items)
  | .inlineTable _ fields => .table (Toml.fieldValues fields)
  | .table _ fields => .table (Toml.fieldValues fields)
  | .tables items => .array (Toml.tableValues items)

/-- The items of an array. -/
def Toml.itemValues : List Toml → List TomlValue
  | [] => []
  | item :: items => item.value :: Toml.itemValues items

/-- The keys of a table with their values. -/
def Toml.fieldValues : List (String × Toml) → TomlTable
  | [] => []
  | (key, found) :: fields => (key, found.value) :: Toml.fieldValues fields

/-- The tables of an array of tables. -/
def Toml.tableValues : List (List (String × Toml)) → List TomlValue
  | [] => []
  | fields :: items => .table (Toml.fieldValues fields) :: Toml.tableValues items

end

/-- The reader and the writer of this library. -/
def TomlFormat.standard : TomlFormat where
  read? text := (Toml.read? text.toList).map Toml.fieldValues
  write sections :=
    if ∀ s ∈ sections, s.Storable then .ok (String.ofList (TomlWriter.document sections))
    else .error "out-of-range value for u64 type"

end OverlayScrollbar
