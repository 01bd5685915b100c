import OverlayScrollbar.Proofs.Toml.Lines

/-!
# The TOML library that the program runs with can be relied on

- `TomlReader.statements_document` : the tables that are read from sections
- `TomlReader.heldBy_document`     : they have the values of the sections

Main statement: `TomlFormat.lawful_standard`.
-/

namespace OverlayScrollbar

namespace TomlReader

variable {sections : List TomlSection}

/-! ## Reading sections -/

/-- A name that comes after others and is not among them is new. -/
theorem lookup_eq_none_of_nodup {before : TomlFields} {name : String} {names : List String}
    (h : (before.map Prod.fst ++ name :: names).Nodup) : before.lookup name = none := by
  rw [List.lookup_eq_none_iff]
  intro field hfield
  have hne := (List.nodup_append.1 h).2.2 field.1 (List.mem_map_of_mem hfield) name
    List.mem_cons_self
  simpa using Ne.symm hne

/-- Sections are added one after another. There is fuel for each of their lines, and for the empty line
between two of them. -/
theorem statements_document {fuel : Nat} {before : TomlFields} {header : List String}
    (hplain : ∀ s ∈ sections, s.Plain) (hstorable : ∀ s ∈ sections, s.Storable)
    (hnames : (before.map Prod.fst ++ sections.map TomlSection.name).Nodup)
    (hfuel : (TomlWriter.document sections).length < fuel) :
    statements fuel before header (TomlWriter.document sections) =
      some (before ++ sections.map spelledSection) := by
  induction sections generalizing fuel before header with
  | nil =>
      obtain ⟨fuel, rfl⟩ := Nat.exists_eq_add_of_lt hfuel
      rw [TomlWriter.document, statements_nil, List.map_nil, List.append_nil]
  | cons s more ih =>
      have hnew := lookup_eq_none_of_nodup hnames
      have hread : ∀ fuel rest, statements (fuel + s.fields.length + 1) before header
          (TomlWriter.sectionLines s ++ rest) =
            statements fuel (before ++ [spelledSection s]) [s.name] rest := fun _ rest =>
        statements_section (hplain s List.mem_cons_self) (hstorable s List.mem_cons_self) hnew rest
      have hlong := length_lt_sectionLines s
      cases more with
      | nil =>
          rw [TomlWriter.document] at hfuel ⊢
          obtain ⟨rest, rfl⟩ : ∃ rest, fuel = rest + 1 + s.fields.length + 1 :=
            ⟨fuel - s.fields.length - 2, by omega⟩
          rw [← List.append_nil (TomlWriter.sectionLines s), hread, statements_nil]
          rfl
      | cons next more =>
          have hnames' : ((before ++ [spelledSection s]).map Prod.fst ++
              (next :: more).map TomlSection.name).Nodup := by
            simpa [spelledSection] using hnames
          have htext : TomlWriter.document (s :: next :: more) =
              TomlWriter.sectionLines s ++ '\n' :: TomlWriter.document (next :: more) := rfl
          rw [htext, List.length_append, List.length_cons] at hfuel
          obtain ⟨rest, rfl⟩ : ∃ rest, fuel = rest + 1 + s.fields.length + 1 :=
            ⟨fuel - s.fields.length - 2, by omega⟩
          rw [htext, hread, statements_newline,
            ih (fun t ht => hplain t (List.mem_cons_of_mem _ ht))
              (fun t ht => hstorable t (List.mem_cons_of_mem _ ht)) hnames' (by omega)]
          simp

/-- A text of sections has no byte order mark. -/
theorem read?_document (sections : List TomlSection) : Toml.read? (TomlWriter.document sections) =
    statements ((TomlWriter.document sections).length + 1) [] [] (TomlWriter.document sections) := by
  cases sections with
  | nil => rfl
  | cons s more =>
      cases more with
      | nil => rfl
      | cons next more => rfl

/-! ## The values that are read -/

theorem lookup_fieldValues (lines : List (String × TomlScalar)) (key : String) :
    (Toml.fieldValues (lines.map spelledField)).lookup key =
      (lines.lookup key).map TomlScalar.value := by
  induction lines with
  | nil => rfl
  | cons line lines ih =>
      rcases line with ⟨name, v⟩
      rw [List.map_cons, spelledField, Toml.fieldValues, List.lookup_cons, List.lookup_cons, ih,
        value_spelled]
      cases key == name with
      | true => rfl
      | false => rfl

theorem heldBy_document (hnames : (sections.map TomlSection.name).Nodup) {s : TomlSection}
    (hs : s ∈ sections) : s.HeldBy (Toml.fieldValues (sections.map spelledSection)) := by
  refine ⟨_, ?_, lookup_fieldValues s.fields⟩
  induction sections with
  | nil => cases hs
  | cons first more ih =>
      rw [List.map_cons, List.nodup_cons] at hnames
      rw [List.map_cons, spelledSection, Toml.fieldValues, List.lookup_cons, Toml.value]
      rcases List.mem_cons.1 hs with rfl | hmore
      · rw [beq_self_eq_true]
      · have hne : s.name ≠ first.name := by
          intro heq
          exact hnames.1 (heq ▸ List.mem_map_of_mem hmore)
        rw [beq_false_of_ne hne]
        exact ih hnames.2 hmore

end TomlReader

/-! ## The library -/

theorem TomlFormat.write_standard_eq_ok {sections : List TomlSection} {text : String} :
    standard.write sections = .ok text ↔
      (∀ s ∈ sections, s.Storable) ∧ String.ofList (TomlWriter.document sections) = text := by
  unfold standard
  dsimp only
  split
  · rename_i hstorable
    rw [Except.ok.injEq]
    exact (and_iff_right hstorable).symm
  · rename_i hnot
    constructor
    · rintro ⟨⟩
    · rintro ⟨hstorable, _⟩
      exact absurd hstorable hnot

/-- What is relied on holds of the library that the program runs with. -/
theorem TomlFormat.lawful_standard : TomlFormat.standard.Lawful where
  exists_write_iff sections _ _ := by
    simp only [write_standard_eq_ok]
    exact ⟨fun ⟨_, h⟩ => h.1, fun h => ⟨_, h, rfl⟩⟩
  exists_read?_of_write sections text hplain hnames htext := by
    rcases write_standard_eq_ok.1 htext with ⟨hstorable, rfl⟩
    have hread : TomlReader.statements ((TomlWriter.document sections).length + 1) [] []
        (TomlWriter.document sections) = some (sections.map TomlReader.spelledSection) :=
      TomlReader.statements_document hplain hstorable hnames (Nat.lt_succ_self _)
    refine ⟨Toml.fieldValues (sections.map TomlReader.spelledSection), ?_,
      fun s hs => TomlReader.heldBy_document hnames hs⟩
    show (Toml.read? (String.ofList (TomlWriter.document sections)).toList).map Toml.fieldValues = _
    rw [String.toList_ofList, TomlReader.read?_document, hread]
    rfl

end OverlayScrollbar
