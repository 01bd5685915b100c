import OverlayScrollbar.Binary.Double

/-!
# TOML documents

Settings are kept in TOML. How its text is read and written is left to a library, which is a parameter
wherever a settings file is loaded or saved.

- `TomlValue`    : what a library makes of the value of a key
- `TomlSection`  : what it writes a table from
- `TomlFormat`   : a library
- `TomlFormat.Lawful` : what is relied on when something is read that was written
-/

namespace OverlayScrollbar

/-! ## Keys -/

namespace TomlKey

/-- The characters of a key without quotes. -/
def isBare (c : Char) : Bool :=
  c.isAlphanum || c == '-' || c == '_'

/-- A key that needs no quotes. -/
structure Bare (name : String) : Prop where
  nonempty : name.toList ≠ []
  plain : ∀ c ∈ name.toList, isBare c = true

theorem bare_iff {name : String} :
    (!name.toList.isEmpty && name.toList.all isBare) = true ↔ Bare name := by
  rw [Bool.and_eq_true, Bool.not_eq_true', List.isEmpty_eq_false_iff, List.all_eq_true]
  exact ⟨fun h => ⟨h.1, h.2⟩, fun h => ⟨h.nonempty, h.plain⟩⟩

instance (name : String) : Decidable (Bare name) :=
  decidable_of_iff _ bare_iff

end TomlKey

/-! ## What is read -/

/-- What a key stands for. How the text spells it makes no difference: a table may stand in braces, or
under a header of its own. -/
inductive TomlValue
  | string (text : String)
  | integer (value : Int)
  | float (value : Double)
  | boolean (value : Bool)
  | dateTime
  | array (items : List TomlValue)
  | table (fields : List (String × TomlValue))

/-- The keys of a table with their values. No key comes twice, and the order has no meaning. -/
abbrev TomlTable : Type :=
  List (String × TomlValue)

/-! ## What is written -/

/-- What the value of a key is written from. -/
inductive TomlScalar
  | integer (value : Nat)
  | float (value : Single)
  | string (text : String)

namespace TomlScalar

/-- The value that is to be read again. Numbers are held in double precision. -/
def value : TomlScalar → TomlValue
  | .integer n => .integer n
  | .float x => .float x.toDouble
  | .string text => .string text

/-- Whole numbers must fit a signed 64-bit word: TOML has no larger ones. -/
def Storable : TomlScalar → Prop
  | .integer n => n < 2 ^ 63
  | .float _ => True
  | .string _ => True

instance : DecidablePred Storable
  | .integer n => inferInstanceAs (Decidable (n < 2 ^ 63))
  | .float _ => isTrue trivial
  | .string _ => isTrue trivial

end TomlScalar

/-- A table under a header of its own, with what its keys are written from. -/
structure TomlSection where
  name : String
  fields : List (String × TomlScalar)

namespace TomlSection

/-- All values can be written. -/
def Storable (s : TomlSection) : Prop :=
  ∀ field ∈ s.fields, field.2.Storable

instance : DecidablePred Storable := fun s =>
  inferInstanceAs (Decidable (∀ field ∈ s.fields, field.2.Storable))

/-- The name and the keys need no quotes, and no key comes twice. -/
structure Plain (s : TomlSection) : Prop where
  bare_name : TomlKey.Bare s.name
  bare_key : ∀ field ∈ s.fields, TomlKey.Bare field.1
  nodup_keys : (s.fields.map Prod.fst).Nodup

/-- A table that has the values of a section, under the same keys. -/
def HeldBy (s : TomlSection) (document : TomlTable) : Prop :=
  ∃ fields, document.lookup s.name = some (.table fields) ∧
    ∀ key, fields.lookup key = (s.fields.lookup key).map TomlScalar.value

end TomlSection

/-! ## Libraries -/

/-- A library for TOML. -/
structure TomlFormat where
  /-- The document that a text writes, unless the text is not well-formed. -/
  read? : String → Option TomlTable
  /-- The text of some sections, or the reason why they have none. -/
  write : List TomlSection → Except String String

namespace TomlFormat

/-- What is relied on. All of it is said of sections whose names differ and need no quotes. -/
structure Lawful (format : TomlFormat) : Prop where
  /-- Only whole numbers that TOML does not have keep sections from being written. -/
  exists_write_iff : ∀ sections : List TomlSection,
    (∀ s ∈ sections, s.Plain) → (sections.map TomlSection.name).Nodup →
      ((∃ text, format.write sections = .ok text) ↔ ∀ s ∈ sections, s.Storable)
  /-- A document that was written is read, and has all sections with their values. -/
  exists_read?_of_write : ∀ (sections : List TomlSection) (text : String),
    (∀ s ∈ sections, s.Plain) → (sections.map TomlSection.name).Nodup →
      format.write sections = .ok text →
        ∃ document, format.read? text = some document ∧ ∀ s ∈ sections, s.HeldBy document

end TomlFormat

end OverlayScrollbar
