import OverlayScrollbar.Proofs.Decimal.ReadBack
import OverlayScrollbar.Proofs.Files
import OverlayScrollbar.Proofs.Settings.Valid
import OverlayScrollbar.Proofs.Toml.Standard
import OverlayScrollbar.Settings.File

/-!
# Settings that read back

Settings that can be worked with are read from their file as they were saved, with every library for
TOML that can be relied on. Only a delay that TOML cannot hold keeps them from being saved to a file that
can be written.

- `ScrollbarSettings.Storable`      : the delays are such as TOML can hold
- `Settings.storable_toSections_iff` : nothing else keeps settings from being written
- `Settings.ofDocument?_of_heldBy`  : what is read from a document that has the sections of settings
- `Settings.ofText_of_write`        : what is read from the text of settings
- `Settings.save_eq_unwritable_iff` : when settings cannot be saved

Main statement: `Settings.load_save`.
-/

namespace OverlayScrollbar

/-! ## Numbers -/

namespace TomlValue

theorem natural?_integer {limit n : Nat} (h : n ≤ limit) : natural? limit (.integer n) = some n :=
  if_pos ⟨Int.natCast_nonneg n, Int.ofNat_le.2 h⟩

theorem uint64?_integer (n : UInt64) : uint64? (.integer n.toNat) = some n := by
  unfold uint64?
  rw [natural?_integer (Nat.le_sub_one_of_lt n.toNat_lt), Option.map_some, UInt64.ofNat_toNat]

theorem uint32?_integer (n : UInt32) : uint32? (.integer n.toNat) = some n := by
  unfold uint32?
  rw [natural?_integer (Nat.le_sub_one_of_lt n.toNat_lt), Option.map_some, UInt32.ofNat_toNat]

theorem uint8?_integer (n : UInt8) : uint8? (.integer n.toNat) = some n := by
  unfold uint8?
  rw [natural?_integer (Nat.le_of_lt_succ n.toNat_lt), Option.map_some, UInt8.ofNat_toNat]

end TomlValue

/-! ## Sections -/

/-- TOML can hold the delays of these settings. -/
def ScrollbarSettings.Storable (s : ScrollbarSettings) : Prop :=
  s.autoHideDelay.toNat < 2 ^ 63 ∧ s.fadeTick.toNat < 2 ^ 63

instance (s : ScrollbarSettings) : Decidable s.Storable :=
  inferInstanceAs (Decidable (_ ∧ _))

/-- Bytes and lengths fit a signed 64-bit word, and so only the delays may not. -/
theorem ScrollbarSettings.storable_toSection_iff (s : ScrollbarSettings) :
    s.toSection.Storable ↔ s.Storable := by
  have hbyte : ∀ n : UInt8, n.toNat < 2 ^ 63 := fun n => Nat.lt_trans n.toNat_lt (by decide)
  have hlength : ∀ n : UInt32, n.toNat < 2 ^ 63 := fun n => Nat.lt_trans n.toNat_lt (by decide)
  simp only [TomlSection.Storable, toSection, TomlScalar.Storable, List.forall_mem_cons,
    List.not_mem_nil, false_implies, implies_true, hbyte, hlength, and_true, Storable]

theorem EditorSettings.storable_toSection (s : EditorSettings) : s.toSection.Storable := by
  simp only [TomlSection.Storable, toSection, TomlScalar.Storable, List.forall_mem_cons,
    List.not_mem_nil, false_implies, implies_true, and_true]

theorem ScrollbarSettings.plain_toSection (s : ScrollbarSettings) : s.toSection.Plain := by
  refine ⟨(by decide : TomlKey.Bare "scroller"), ?_, ?_⟩
  · simp only [toSection, List.forall_mem_cons, List.not_mem_nil, false_implies, implies_true, and_true]
    decide
  · simp [toSection]

theorem EditorSettings.plain_toSection (s : EditorSettings) : s.toSection.Plain := by
  refine ⟨(by decide : TomlKey.Bare "editor"), ?_, ?_⟩
  · simp only [toSection, List.forall_mem_cons, List.not_mem_nil, false_implies, implies_true, and_true]
    decide
  · simp [toSection]

variable {fields : TomlTable}

/-- A table with the values of the section is read as the settings that it was written from. -/
theorem ScrollbarSettings.ofSection?_of_lookup {s : ScrollbarSettings}
    (h : ∀ key, fields.lookup key = (s.toSection.fields.lookup key).map TomlScalar.value) :
    ofSection? (.named fields) = some s := by
  simp [ofSection?, Section.read, Section.get?, h, toSection, List.lookup_cons, TomlScalar.value,
    TomlValue.uint64?_integer, TomlValue.uint32?_integer, TomlValue.uint8?_integer, TomlValue.single?]

theorem EditorSettings.ofSection?_of_lookup {s : EditorSettings}
    (h : ∀ key, fields.lookup key = (s.toSection.fields.lookup key).map TomlScalar.value) :
    ofSection? (.named fields) = some s := by
  simp [ofSection?, Section.read, Section.get?, h, toSection, List.lookup_cons, TomlScalar.value,
    TomlValue.single?, TomlValue.text?]

/-! ## Documents -/

namespace Settings

variable {format : TomlFormat} {s : Settings}

theorem plain_toSections (s : Settings) : ∀ part ∈ s.toSections, part.Plain := by
  simp only [toSections, List.forall_mem_cons, List.not_mem_nil, false_implies, implies_true, and_true]
  exact ⟨s.scrollbar.plain_toSection, s.editor.plain_toSection⟩

theorem nodup_toSections (s : Settings) : (s.toSections.map TomlSection.name).Nodup := by
  simp [toSections, ScrollbarSettings.toSection, EditorSettings.toSection]

theorem storable_toSections_iff (s : Settings) :
    (∀ part ∈ s.toSections, part.Storable) ↔ s.scrollbar.Storable := by
  simp only [toSections, List.forall_mem_cons, List.not_mem_nil, false_implies, implies_true, and_true,
    ScrollbarSettings.storable_toSection_iff, EditorSettings.storable_toSection]

/-- A document with the sections of settings is read as these settings, whatever else is in it. -/
theorem ofDocument?_of_heldBy {document : TomlTable}
    (h : ∀ part ∈ s.toSections, part.HeldBy document) : ofDocument? document = some s := by
  simp only [toSections, List.forall_mem_cons, List.not_mem_nil, false_implies, implies_true,
    and_true] at h
  rcases h with ⟨⟨bar, hbar, hbarFields⟩, editor, heditor, heditorFields⟩
  have hscroller : document.lookup "scroller" = some (.table bar) := hbar
  have heditor' : document.lookup "editor" = some (.table editor) := heditor
  simp [ofDocument?, Section.read, Section.get?, hscroller, heditor', Section.ofValue?,
    ScrollbarSettings.ofSection?_of_lookup hbarFields,
    EditorSettings.ofSection?_of_lookup heditorFields]

/-- Settings have a text exactly if TOML can hold their delays. -/
theorem exists_write_iff (hformat : format.Lawful) (s : Settings) :
    (∃ text, format.write s.toSections = .ok text) ↔ s.scrollbar.Storable :=
  (hformat.exists_write_iff _ s.plain_toSections s.nodup_toSections).trans s.storable_toSections_iff

/-! ## Files -/

variable {tree saved made : FileTree} {path : Path}

/-- Settings without a length or ratio that is not a number have the same values as themselves. -/
theorem same_self (hratio : s.scrollbar.minContentRatio ≠ .nan) (hfont : s.editor.fontSize ≠ .nan)
    (hline : s.editor.lineHeight ≠ .nan) : s.same s = true := by
  have hself : ∀ {length : Single}, length ≠ .nan → length.sameSize length = true :=
    fun hnumber => Single.sameSize_self (Single.isNaN_eq_false_iff.2 hnumber)
  simp [same, hself hratio, hself hfont, hself hline]

theorem ratio_ne_nan (h : s.validate = .ok ()) : s.scrollbar.minContentRatio ≠ .nan := by
  intro hnan
  have hpos := ((validate_eq_ok_iff s).1 h).1.ratio_pos
  rw [hnan] at hpos
  exact absurd hpos (by decide)

/-- The text of settings that can be worked with is read as these settings. -/
theorem ofText_of_write (hformat : format.Lawful) (hvalid : s.validate = .ok ()) {text : String}
    (htext : format.write s.toSections = .ok text) : ofText format text = .ok s := by
  rcases hformat.exists_read?_of_write _ text s.plain_toSections s.nodup_toSections htext with
    ⟨document, hread, hheld⟩
  unfold ofText
  rw [hread, Option.bind_some, ofDocument?_of_heldBy hheld]
  dsimp only
  rw [hvalid]

/-- Saving writes the text of the settings, or says why it cannot. -/
theorem save_cases (h : s.save format tree path = .ok saved) : ∃ made text,
    tree.makeDirectories [] path.parent = .ok made ∧ format.write s.toSections = .ok text ∧
      made.writeText path text = .ok saved := by
  unfold save at h
  split at h
  · cases h
  · rename_i made hmade
    split at h
    · cases h
    · rename_i text htext
      split at h
      · cases h
      · rename_i written hwritten
        cases h
        exact ⟨made, text, hmade, htext, hwritten⟩

theorem load_of_writeText {text : String} (h : tree.writeText path text = .ok saved) :
    load format saved path = ofText format text := by
  unfold load
  rw [FileTree.readText_of_writeText h]

theorem load_of_save (hformat : format.Lawful) (hvalid : s.validate = .ok ())
    (h : s.save format tree path = .ok saved) : load format saved path = .ok s := by
  rcases save_cases h with ⟨made, text, _, htext, hwritten⟩
  rw [load_of_writeText hwritten]
  exact ofText_of_write hformat hvalid htext

/-- Where the directories can be made, the library alone keeps the text from being made. -/
theorem save_eq_unwritable_iff (hmade : tree.makeDirectories [] path.parent = .ok made)
    {reason : String} : s.save format tree path = .error (.unwritable reason) ↔
      format.write s.toSections = .error reason := by
  unfold save
  rw [hmade]
  dsimp only
  -- The text is made before the file is written, so that nothing else can refuse it first.
  cases format.write s.toSections with
  | error told => simp
  | ok text =>
      dsimp only
      cases made.writeText path text with
      | error error => simp
      | ok saved => simp

theorem exists_save (hmade : tree.makeDirectories [] path.parent = .ok made)
    (hwritable : ∀ text, ∃ saved, made.writeText path text = .ok saved)
    (h : ∃ text, format.write s.toSections = .ok text) :
    ∃ saved, s.save format tree path = .ok saved := by
  rcases h with ⟨text, htext⟩
  rcases hwritable text with ⟨saved, hsaved⟩
  refine ⟨saved, ?_⟩
  unfold save
  rw [hmade]
  dsimp only
  rw [htext]
  dsimp only
  rw [hsaved]

theorem not_storable_iff (s : ScrollbarSettings) : ¬s.Storable ↔
    2 ^ 63 - 1 < s.autoHideDelay.toNat ∨ 2 ^ 63 - 1 < s.fadeTick.toNat := by
  unfold ScrollbarSettings.Storable
  omega

/-- Settings that can be worked with, and whose lengths are numbers, are loaded from a file as they
were saved to it, whatever the name of the theme, by every library that can be relied on. A path that can
be written to refuses them exactly if a delay does not fit a signed 64-bit word. -/
theorem load_save (hformat : format.Lawful) (s : Settings) (hvalid : s.validate = .ok ())
    (hfont : s.editor.fontSize ≠ .nan) (hline : s.editor.lineHeight ≠ .nan) (tree : FileTree)
    (path : Path) :
    (∀ saved, s.save format tree path = .ok saved →
      load format saved path = .ok s ∧ s.same s = true) ∧
      ∀ made, tree.makeDirectories [] path.parent = .ok made →
        (∀ text, ∃ saved, made.writeText path text = .ok saved) →
        ((∃ reason, s.save format tree path = .error (.unwritable reason)) ↔
          2 ^ 63 - 1 < s.scrollbar.autoHideDelay.toNat ∨ 2 ^ 63 - 1 < s.scrollbar.fadeTick.toNat) ∧
        ((∃ saved, s.save format tree path = .ok saved) ↔
          s.scrollbar.autoHideDelay.toNat ≤ 2 ^ 63 - 1 ∧
            s.scrollbar.fadeTick.toNat ≤ 2 ^ 63 - 1) := by
  have hstorable := exists_write_iff hformat s
  constructor
  · intro saved hsaved
    exact ⟨load_of_save hformat hvalid hsaved, same_self (ratio_ne_nan hvalid) hfont hline⟩
  · intro made hmade hwritable
    constructor
    · rw [← not_storable_iff, ← hstorable]
      simp only [save_eq_unwritable_iff hmade]
      -- What is not written is refused with a reason.
      cases format.write s.toSections with
      | error reason => simp
      | ok text => simp
    · constructor
      · rintro ⟨saved, hsaved⟩
        rcases save_cases hsaved with ⟨_, text, _, htext, _⟩
        have hfits := hstorable.1 ⟨text, htext⟩
        unfold ScrollbarSettings.Storable at hfits
        omega
      · intro hfits
        apply exists_save hmade hwritable
        rw [hstorable]
        unfold ScrollbarSettings.Storable
        omega

/-- Settings with quotes, a line end and a backslash in the name of their theme, and an infinite
ratio. -/
def quoted : Settings :=
  { Settings.standard with
    scrollbar := { ScrollbarSettings.standard with minContentRatio := .infinity false }
    editor := { EditorSettings.standard with theme := "a\"\"\"\n'''\\\r" } }

/-- The theorem speaks of a name that takes a string with escapes and of a ratio without digits. -/
theorem load_save_quoted :
    ∃ saved, quoted.save .standard .empty (Path.ofString "config.toml") = .ok saved ∧
      load .standard saved (Path.ofString "config.toml") = .ok quoted := by
  have h := load_save TomlFormat.lawful_standard quoted rfl (by decide) (by decide) .empty
    (Path.ofString "config.toml")
  rcases (h.2 .empty rfl fun _ => ⟨_, rfl⟩).2.2 (by decide) with ⟨saved, hsaved⟩
  exact ⟨saved, hsaved, (h.1 saved hsaved).1⟩

end Settings

end OverlayScrollbar
