import OverlayScrollbar.Proofs.Files
import OverlayScrollbar.Proofs.Json.Standard
import OverlayScrollbar.Theme.File

/-!
# Themes that read back

A theme is written with all its names and numbers, and its text is read as the value that was written, by
every library that can be relied on. That is a theme exactly if every channel is finite: JSON has no word
for an infinity, and a number that is too large for single precision is read as one.

- `Color.IsFinite`, `Theme.IsFinite` : all channels are finite
- `Theme.ofText?_toText`      : what is read from the text of a theme
- `Theme.ofJson?_toJson`      : when that is the theme
- `Theme.same_self_of_load`   : no theme that is loaded has a channel that is not a number

Main statement: `Theme.load_save_of_loaded`.
-/

namespace OverlayScrollbar

variable {format : JsonFormat}

/-! ## Numbers -/

namespace JsonFormat

/-- Only finite channels can be read again: an infinity has no numeral. -/
theorem Lawful.channel?_channel (hformat : format.Lawful) {x : Single} :
    format.channel? (format.channel x) = if x.IsFinite then some x else none := by
  unfold channel? channel
  cases x with
  | nan =>
      rw [hformat.ofSingle?_nan]
      rfl
  | infinity negative =>
      rw [hformat.ofSingle?_infinity]
      rfl
  | finite negative size =>
      rcases hformat.exists_ofSingle? negative size with ⟨n, hn, hread⟩
      rw [hn]
      exact hread

/-- The value of a channel can be written at every depth. -/
theorem writable_channel (x : Single) (depth : Nat) :
    (format.channel x).Writable (fun n => ∃ x, format.ofSingle? x = some n) depth := by
  unfold channel
  split
  · rename_i n hn
    unfold Json.Writable
    exact ⟨x, hn⟩
  · unfold Json.Writable
    trivial

theorem Lawful.isNaN_of_channel? (hformat : format.Lawful) {value : Json format.Number} {x : Single}
    (h : format.channel? value = some x) : x.isNaN = false := by
  rcases Option.bind_eq_some_iff.1 h with ⟨n, _, hn⟩
  cases x with
  | nan => exact absurd hn (hformat.single?_ne_nan n)
  | _ => rfl

end JsonFormat

theorem JsonFormat.Lawful.sameSize_of_channel? (hformat : format.Lawful) {value : Json format.Number}
    {x : Single} (h : format.channel? value = some x) : x.sameSize x = true :=
  Single.sameSize_self (hformat.isNaN_of_channel? h)

/-! ## Colours -/

namespace Color

variable {color : Color}

/-- All channels are finite. -/
def IsFinite (color : Color) : Prop :=
  color.red.IsFinite ∧ color.green.IsFinite ∧ color.blue.IsFinite ∧ color.alpha.IsFinite

instance (color : Color) : Decidable color.IsFinite :=
  inferInstanceAs (Decidable (_ ∧ _))

theorem writable_toJson (color : Color) (depth : Nat) :
    (color.toJson format).Writable (fun n => ∃ x, format.ofSingle? x = some n) (depth + 1) :=
  ⟨rfl, format.writable_channel _ depth, rfl, format.writable_channel _ depth, rfl,
    format.writable_channel _ depth, rfl, format.writable_channel _ depth, trivial⟩

theorem record?_toJson (color : Color) : (color.toJson format).record? ["r", "g", "b", "a"] =
    some [format.channel color.red, format.channel color.green, format.channel color.blue,
      format.channel color.alpha] :=
  rfl

/-- A colour is read as it was written, unless a channel is not finite. -/
theorem ofJson?_toJson (hformat : format.Lawful) (color : Color) :
    ofJson? format (color.toJson format) = if color.IsFinite then some color else none := by
  have hread : ofJson? format (color.toJson format) =
      (format.channel? (format.channel color.red)).bind fun red =>
        (format.channel? (format.channel color.green)).bind fun green =>
          (format.channel? (format.channel color.blue)).bind fun blue =>
            (format.channel? (format.channel color.alpha)).bind fun alpha =>
              some ⟨red, green, blue, alpha⟩ := by
    unfold ofJson?
    rw [record?_toJson]
    rfl
  rw [hread]
  simp only [hformat.channel?_channel]
  by_cases hfinite : color.IsFinite
  · rw [if_pos hfinite]
    rcases hfinite with ⟨hred, hgreen, hblue, halpha⟩
    simp only [if_pos hred, if_pos hgreen, if_pos hblue, if_pos halpha, Option.bind_some]
  · rw [if_neg hfinite]
    refine Option.eq_none_iff_forall_ne_some.2 ?_
    intro other hother
    simp only [Option.bind_eq_some_iff, Option.ite_none_right_eq_some] at hother
    rcases hother with ⟨_, ⟨hred, _⟩, _, ⟨hgreen, _⟩, _, ⟨hblue, _⟩, _, ⟨halpha, _⟩, _⟩
    exact hfinite ⟨hred, hgreen, hblue, halpha⟩

theorem sameChannels_of_ofJson? (hformat : format.Lawful) {value : Json format.Number}
    (h : ofJson? format value = some color) : color.sameChannels color = true := by
  unfold ofJson? at h
  rcases Option.bind_eq_some_iff.1 h with ⟨channels, _, h⟩
  split at h
  · simp only [Option.bind_eq_bind, Option.bind_eq_some_iff] at h
    rcases h with ⟨red, hred, green, hgreen, blue, hblue, alpha, halpha, hcolor⟩
    cases hcolor
    unfold sameChannels
    simp only [hformat.sameSize_of_channel? hred, hformat.sameSize_of_channel? hgreen,
      hformat.sameSize_of_channel? hblue, hformat.sameSize_of_channel? halpha, Bool.and_self]
  · cases h

end Color

/-! ## Themes -/

namespace Theme

variable {theme : Theme}

/-- The colours of a theme. -/
def colors (theme : Theme) : List Color :=
  [theme.background, theme.foreground, theme.muted, theme.accent, theme.border, theme.statusBar]

/-- All channels of all colours are finite. -/
def IsFinite (theme : Theme) : Prop :=
  ∀ color ∈ theme.colors, color.IsFinite

instance (theme : Theme) : Decidable theme.IsFinite :=
  inferInstanceAs (Decidable (∀ color ∈ theme.colors, color.IsFinite))

theorem writable_toJson (theme : Theme) (depth : Nat) :
    (theme.toJson format).Writable (fun n => ∃ x, format.ofSingle? x = some n) (depth + 3) :=
  ⟨rfl, rfl, rfl, trivial, rfl, ⟨rfl, theme.background.writable_toJson depth, trivial⟩, rfl,
    ⟨rfl, theme.foreground.writable_toJson depth, rfl, theme.muted.writable_toJson depth, rfl,
      theme.accent.writable_toJson depth, trivial⟩, rfl,
    ⟨rfl, theme.border.writable_toJson depth, rfl, theme.statusBar.writable_toJson depth, trivial⟩,
    trivial⟩

/-- The text of every theme is read as the value that was written. -/
theorem ofText?_toText (hformat : format.Lawful) (theme : Theme) :
    ofText? format (theme.toText format) = ofJson? format (theme.toJson format) := by
  unfold ofText? toText
  rw [hformat.read?_write _ (theme.writable_toJson _), Option.bind_some]

/-- Only the colours of a written theme can keep it from being read. -/
theorem ofJson?_toJson_eq (theme : Theme) : ofJson? format (theme.toJson format) =
    (Color.ofJson? format (theme.background.toJson format)).bind fun background =>
      (Color.ofJson? format (theme.foreground.toJson format)).bind fun foreground =>
        (Color.ofJson? format (theme.muted.toJson format)).bind fun muted =>
          (Color.ofJson? format (theme.accent.toJson format)).bind fun accent =>
            (Color.ofJson? format (theme.border.toJson format)).bind fun border =>
              (Color.ofJson? format (theme.statusBar.toJson format)).bind fun statusBar =>
                some ⟨theme.name, theme.isDark, background, foreground, muted, accent, border,
                  statusBar⟩ :=
  rfl

theorem ofJson?_toJson (hformat : format.Lawful) (theme : Theme) :
    ofJson? format (theme.toJson format) = if theme.IsFinite then some theme else none := by
  rw [ofJson?_toJson_eq]
  simp only [Color.ofJson?_toJson hformat]
  by_cases hfinite : theme.IsFinite
  · rw [if_pos hfinite]
    simp only [IsFinite, colors, List.forall_mem_cons] at hfinite
    rcases hfinite with ⟨hbackground, hforeground, hmuted, haccent, hborder, hstatus, _⟩
    simp only [if_pos hbackground, if_pos hforeground, if_pos hmuted, if_pos haccent,
      if_pos hborder, if_pos hstatus, Option.bind_some]
  · rw [if_neg hfinite]
    refine Option.eq_none_iff_forall_ne_some.2 ?_
    intro other hother
    simp only [Option.bind_eq_some_iff, Option.ite_none_right_eq_some] at hother
    rcases hother with ⟨_, ⟨hbackground, _⟩, _, ⟨hforeground, _⟩, _, ⟨hmuted, _⟩, _, ⟨haccent, _⟩,
      _, ⟨hborder, _⟩, _, ⟨hstatus, _⟩, _⟩
    apply hfinite
    simp only [IsFinite, colors, List.forall_mem_cons, List.not_mem_nil, false_implies, implies_true]
    exact ⟨hbackground, hforeground, hmuted, haccent, hborder, hstatus, trivial⟩

/-- The colours of a theme that is read are read from values. -/
theorem exists_value_of_ofJson? {value : Json format.Number} (h : ofJson? format value = some theme) :
    ∀ color ∈ theme.colors, ∃ value, Color.ofJson? format value = some color := by
  unfold ofJson? at h
  rcases Option.bind_eq_some_iff.1 h with ⟨sections, _, h⟩
  split at h
  · simp only [Option.bind_eq_bind, Option.bind_eq_some_iff] at h
    rcases h with ⟨grounds, _, texts, _, parts, _, h⟩
    split at h
    · simp only [Option.bind_eq_some_iff] at h
      rcases h with ⟨name, _, isDark, _, background, hbackground, foreground, hforeground, muted,
        hmuted, accent, haccent, border, hborder, statusBar, hstatus, htheme⟩
      cases htheme
      simp only [colors, List.forall_mem_cons, List.not_mem_nil, false_implies, implies_true,
        and_true]
      exact ⟨⟨_, hbackground⟩, ⟨_, hforeground⟩, ⟨_, hmuted⟩, ⟨_, haccent⟩, ⟨_, hborder⟩,
        ⟨_, hstatus⟩⟩
    · cases h
  · cases h

theorem same_self_of_colors (h : ∀ color ∈ theme.colors, color.sameChannels color = true) :
    theme.same theme = true := by
  simp only [colors, List.forall_mem_cons, List.not_mem_nil, false_implies, implies_true,
    and_true] at h
  rcases h with ⟨hbackground, hforeground, hmuted, haccent, hborder, hstatus⟩
  simp [same, hbackground, hforeground, hmuted, haccent, hborder, hstatus]

theorem same_self_of_ofJson? (hformat : format.Lawful) {value : Json format.Number}
    (h : ofJson? format value = some theme) : theme.same theme = true := by
  apply same_self_of_colors
  intro color hcolor
  rcases exists_value_of_ofJson? h color hcolor with ⟨value, hvalue⟩
  exact Color.sameChannels_of_ofJson? hformat hvalue

/-! ## Files -/

variable {tree saved : FileTree} {path : Path}

theorem ofText?_of_load (h : load format tree path = .ok theme) :
    ∃ text, ofText? format text = some theme := by
  unfold load at h
  split at h
  · cases h
  · rename_i text _
    split at h
    · rename_i found htheme
      cases h
      exact ⟨text, htheme⟩
    · cases h

/-- A theme that is loaded has the same name and colours as itself. -/
theorem same_self_of_load (hformat : format.Lawful) (h : load format tree path = .ok theme) :
    theme.same theme = true := by
  rcases ofText?_of_load h with ⟨text, htext⟩
  rcases Option.bind_eq_some_iff.1 htext with ⟨value, _, hvalue⟩
  exact same_self_of_ofJson? hformat hvalue

theorem load_of_writeText {text : String} (hwritten : tree.writeText path text = .ok saved)
    (htheme : ofText? format text = some theme) : load format saved path = .ok theme := by
  unfold load
  rw [FileTree.readText_of_writeText hwritten]
  dsimp only
  rw [htheme]

/-- What is loaded from a file to which a theme was saved. -/
theorem load_of_save (hformat : format.Lawful) (h : theme.save format tree path = .ok saved) :
    load format saved path = if theme.IsFinite then .ok theme else .error .malformed := by
  unfold load
  rw [FileTree.readText_of_writeText h]
  dsimp only
  rw [ofText?_toText hformat, ofJson?_toJson hformat]
  by_cases hfinite : theme.IsFinite
  · rw [if_pos hfinite, if_pos hfinite]
  · rw [if_neg hfinite, if_neg hfinite]

theorem isFinite_of_builtin (h : theme = dark ∨ theme = light) : theme.IsFinite := by
  rcases h with rfl | rfl
  · decide +kernel
  · decide +kernel

theorem same_self_of_builtin (h : theme = dark ∨ theme = light) : theme.same theme = true := by
  rcases h with rfl | rfl
  · decide +kernel
  · decide +kernel

/-- A theme that was loaded, or is built in, is saved to every path that can be written to, by a library
that can be relied on. It is loaded from there as it was, if and only if all its channels are finite; else
its file is not that of a theme. No such theme has a channel that is not a number, and those that are
built in have only finite ones. -/
theorem load_save_of_loaded (hformat : format.Lawful) (theme : Theme)
    (h : (∃ tree path, load format tree path = .ok theme) ∨ theme = dark ∨ theme = light)
    (tree : FileTree) (path : Path) (hwritable : ∀ text, ∃ saved, tree.writeText path text = .ok saved) :
    theme.same theme = true ∧ (theme = dark ∨ theme = light → theme.IsFinite) ∧
      ∃ saved, theme.save format tree path = .ok saved ∧
        (load format saved path = .ok theme ↔ theme.IsFinite) ∧
          (¬theme.IsFinite → load format saved path = .error .malformed) := by
  -- A number that is read is never one that differs from itself.
  have hsame : theme.same theme = true := by
    rcases h with ⟨before, source, hload⟩ | hbuiltin
    · exact same_self_of_load hformat hload
    · exact same_self_of_builtin hbuiltin
  rcases hwritable (theme.toText format) with ⟨saved, hwritten⟩
  have hsaved : theme.save format tree path = .ok saved := hwritten
  have hload := load_of_save hformat hsaved
  refine ⟨hsame, isFinite_of_builtin, saved, hsaved, ?_, ?_⟩
  · constructor
    · intro hok
      by_contra hnot
      rw [if_neg hnot, hok] at hload
      cases hload
    · intro hfinite
      rw [hload, if_pos hfinite]
  · intro hnot
    rw [hload, if_neg hnot]

/-- A text with quotes and a control character, the smallest and the largest channel there are, a
negative zero, and a channel that is rounded. -/
def extremeText : String :=
  "[\"a\\\"\\u0001\", false, [[1e-45, -0.0, 3.4028235e38, 0.1]], " ++
    "[[1, 1, 1, 1], [16777217, 0, 0, 1], [0, 0, 1, 1]], [[1, 1, 1, 1], [0, 0, 0, 1]]]"

/-- The theorem speaks of a theme at the ends of what a channel can be. -/
theorem load_save_of_extreme : ∃ theme tree saved, theme.name.length = 3 ∧
    FileTree.empty.writeText (Path.ofString "a.json") extremeText = .ok tree ∧
      load .standard tree (Path.ofString "a.json") = .ok theme ∧
        theme.save .standard .empty (Path.ofString "b.json") = .ok saved ∧
          load .standard saved (Path.ofString "b.json") = .ok theme ∧ theme.same theme = true := by
  have hread : (ofText? .standard extremeText).any
      (fun theme => decide (theme.name.length = 3 ∧ theme.IsFinite)) = true := by
    decide +kernel
  rcases (Option.any_eq_true _ _).1 hread with ⟨theme, htheme, hknown⟩
  rcases of_decide_eq_true hknown with ⟨hname, hfinite⟩
  obtain ⟨tree, htree⟩ : ∃ tree, FileTree.empty.writeText (Path.ofString "a.json") extremeText =
    .ok tree := ⟨_, rfl⟩
  have hload := load_of_writeText htree htheme
  rcases load_save_of_loaded JsonFormat.lawful_standard theme (Or.inl ⟨tree, _, hload⟩) .empty
    (Path.ofString "b.json") (fun _ => ⟨_, rfl⟩) with ⟨hsame, _, saved, hsaved, hagain, _⟩
  exact ⟨theme, tree, saved, hname, htree, hload, hsaved, hagain.2 hfinite, hsame⟩

/-- A text of a theme with a channel that double precision holds and single precision does not. -/
def glaringText : String :=
  "[\"Glaring\", true, [[1e39, 0, 0, 1]], " ++
    "[[1, 1, 1, 1], [0.5, 0.5, 0.5, 1], [0, 0, 1, 1]], [[1, 1, 1, 1], [0, 0, 0, 1]]]"

/-- A theme that is loaded and saved, and cannot be loaded again. -/
theorem load_fails_of_glaring : ∃ theme tree saved,
    FileTree.empty.writeText (Path.ofString "a.json") glaringText = .ok tree ∧
      load .standard tree (Path.ofString "a.json") = .ok theme ∧
        theme.save .standard .empty (Path.ofString "b.json") = .ok saved ∧
          load .standard saved (Path.ofString "b.json") = .error .malformed := by
  have hread : (ofText? .standard glaringText).any (fun theme => decide ¬theme.IsFinite) = true := by
    decide +kernel
  rcases (Option.any_eq_true _ _).1 hread with ⟨theme, htheme, hknown⟩
  obtain ⟨tree, htree⟩ : ∃ tree, FileTree.empty.writeText (Path.ofString "a.json") glaringText =
    .ok tree := ⟨_, rfl⟩
  obtain ⟨saved, hsaved⟩ :
      ∃ saved, theme.save .standard .empty (Path.ofString "b.json") = .ok saved :=
    ⟨_, rfl⟩
  have hload := load_of_save JsonFormat.lawful_standard hsaved
  rw [if_neg (of_decide_eq_true hknown)] at hload
  exact ⟨theme, tree, saved, htree, load_of_writeText htree htheme, hsaved, hload⟩

end Theme

end OverlayScrollbar
