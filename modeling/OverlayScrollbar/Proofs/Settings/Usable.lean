import OverlayScrollbar.Editor.Action
import OverlayScrollbar.Proofs.Editor.Layout
import OverlayScrollbar.Proofs.Settings.File

/-!
# Settings that an editor can be used with

Whatever is in a file, and whichever library reads it, the settings that are loaded have steps, sizes and
a ratio above zero. The two lengths of the editor are checked one by one, and only for being zero or less.
So a line has a height if both are numbers and their product is not so small that it is rounded to nothing;
exactly then an editor tells a height of its lines that is above zero.

- `EditorSettings.HasHeight`              : a line has a height
- `EditorSettings.zero_lt_linePixels_iff` : the height of a line in pixels
- `Settings.validate_of_load`             : settings that are loaded are checked

Main statement: `usable_of_load`.
-/

namespace OverlayScrollbar

/-- Both lengths are numbers, and their product is infinite or more than half of the smallest length that
single precision holds. -/
structure EditorSettings.HasHeight (s : EditorSettings) : Prop where
  isNaN_fontSize : s.fontSize.isNaN = false
  isNaN_lineHeight : s.lineHeight.isNaN = false
  lt_product : s.fontSize.IsFinite → s.lineHeight.IsFinite →
    1 / 2 ^ 150 < s.fontSize.value * s.lineHeight.value

theorem EditorSettings.zero_lt_linePixels_iff {s : EditorSettings} (h : s.Accepted) :
    0 < s.linePixels ↔ s.HasHeight := by
  have hfontPos := Single.zero_lt_iff_of_not_le h.fontSize_not_le
  have hlinePos := Single.zero_lt_iff_of_not_le h.lineHeight_not_le
  unfold linePixels
  constructor
  · intro hpos
    rcases Single.isNaN_of_zero_lt_mul hpos with ⟨hfont, hline⟩
    exact ⟨hfont, hline, (Single.zero_lt_mul_iff (hfontPos.2 hfont) (hlinePos.2 hline)).1 hpos⟩
  · rintro ⟨hfont, hline, hproduct⟩
    exact (Single.zero_lt_mul_iff (hfontPos.2 hfont) (hlinePos.2 hline)).2 hproduct

namespace Settings

variable {format : TomlFormat} {settings : Settings} {tree : FileTree} {path : Path} {text : String}

theorem validate_of_ofText (h : ofText format text = .ok settings) : settings.validate = .ok () := by
  unfold ofText at h
  split at h
  · cases h
  · split at h
    · rename_i hvalid
      cases h
      exact hvalid
    · cases h

theorem validate_of_load (h : load format tree path = .ok settings) :
    settings.validate = .ok () := by
  unfold load at h
  split at h
  · cases h
  · exact validate_of_ofText h

/-- Settings that are loaded from a file have no step and no size of zero, and a ratio above zero. A length
of the editor is above zero unless it is not a number, and the height of a line in pixels is so exactly if
both are numbers and their product is not rounded to nothing; exactly then an editor with these settings,
whose view has a height, tells that all its lines have one, whatever was done to it. -/
theorem usable_of_load {D E : Type} [TextEditor D E] (h : load format tree path = .ok settings) :
    (settings.scrollbar.fadeStep ≠ 0 ∧ settings.scrollbar.fadeTick ≠ 0 ∧
      settings.scrollbar.thumbWidth ≠ 0 ∧ settings.scrollbar.thumbHeight ≠ 0 ∧
      0 < settings.scrollbar.minContentRatio) ∧
    (0 < settings.editor.fontSize ↔ settings.editor.fontSize.isNaN = false) ∧
    (0 < settings.editor.lineHeight ↔ settings.editor.lineHeight.isNaN = false) ∧
    (0 < settings.editor.linePixels ↔ settings.editor.HasHeight) ∧
    ∀ (text : String) (operations : List (EditorHost.Operation E)) (last : EditorHost D)
      (steps : List (Step (EditorHost D) (EditorHost.Operation E) EditorHost.Changes)),
      (∀ operation ∈ operations, operation.Fits) →
      (EditorHost.new text settings.editor.linePixels).run operations = .ok (last, steps) →
      0 < EditorHost.givenHeight operations →
        ∃ height, ScrollHost.layoutHeight? last = some height ∧
          (0 < height ↔ settings.editor.HasHeight) := by
  rcases (validate_eq_ok_iff settings).1 (validate_of_load h) with ⟨hscrollbar, heditor⟩
  have hpixels := EditorSettings.zero_lt_linePixels_iff heditor
  refine ⟨⟨hscrollbar.fadeStep_ne, hscrollbar.fadeTick_ne, hscrollbar.thumbWidth_ne,
    hscrollbar.thumbHeight_ne, hscrollbar.ratio_pos⟩,
    Single.zero_lt_iff_of_not_le heditor.fontSize_not_le,
    Single.zero_lt_iff_of_not_le heditor.lineHeight_not_le, hpixels, ?_⟩
  intro text operations last steps hfits hrun hview
  rcases EditorHost.zero_lt_layoutHeight? hfits hrun hview with ⟨height, htold, hpos⟩
  exact ⟨height, htold, hpos.trans hpixels⟩

/-- An infinite ratio, and a font so small that a line is seven of the smallest lengths high. -/
def tinyText : String :=
  "[scroller]\nmin_content_ratio = inf\n\n[editor]\nfont_size = 1e-30\nline_height = 1e-14\n"

/-- The settings that are read from this text. -/
def tiny : Settings :=
  { Settings.standard with
    scrollbar := { ScrollbarSettings.standard with minContentRatio := .infinity false }
    editor := { EditorSettings.standard with fontSize := 1e-30, lineHeight := 1e-14 } }

/-- The view is given a height, and another one between two edits. -/
def resizingOperations : List (EditorHost.Operation Edit) :=
  [.setViewport 600, .perform (.edit (.paste "a\nb\nc")), .setViewport 1e-41, .perform (.scroll 1),
    .tickFling, .perform (.edit .backspace)]

/-- The theorem speaks of settings for the smallest of lines, which still have a height. -/
theorem usable_of_load_tiny :
    ∃ (saved : FileTree) (last : EditorHost Document) (steps : _),
      FileTree.empty.writeText (Path.ofString "config.toml") tinyText = .ok saved ∧
      load .standard saved (Path.ofString "config.toml") = .ok tiny ∧ tiny.editor.HasHeight ∧
      (EditorHost.new "1\n2" tiny.editor.linePixels).run resizingOperations = .ok (last, steps) ∧
      ∃ height, ScrollHost.layoutHeight? last = some height ∧ 0 < height := by
  have hread : ofText .standard tinyText = .ok tiny := by decide +kernel
  have hpixels : 0 < tiny.editor.linePixels := by decide +kernel
  have hfits : ∀ operation ∈ resizingOperations, operation.Fits := by decide +kernel
  have hview : 0 < EditorHost.givenHeight resizingOperations := by decide +kernel
  have hlines : ((EditorHost.new "1\n2" tiny.editor.linePixels : EditorHost Document).run
      resizingOperations).map (fun reached => reached.1.document.lineCount) = .ok 4 := by
    decide +kernel
  obtain ⟨saved, hsaved⟩ :
      ∃ saved, FileTree.empty.writeText (Path.ofString "config.toml") tinyText = .ok saved :=
    ⟨_, rfl⟩
  have hload := (load_of_writeText hsaved).trans hread
  rcases Checked.map_eq_ok_iff.1 hlines with ⟨⟨last, steps⟩, hrun, _⟩
  rcases @usable_of_load _ _ _ _ Document Edit _ hload with ⟨_, _, _, hheight, htold⟩
  rcases htold "1\n2" resizingOperations last steps hfits hrun hview with ⟨height, hlayout, hpos⟩
  exact ⟨saved, last, steps, hsaved, hload, hheight.1 hpixels, hrun, height, hlayout,
    hpos.2 (hheight.1 hpixels)⟩

/-- Settings with a font size that is not a number. -/
def unnumbered : Settings :=
  { Settings.standard with editor := { EditorSettings.standard with fontSize := .nan } }

/-- A font size that is not a number passes the check, and no line has a height then. -/
theorem load_accepts_no_number :
    ∃ (saved : FileTree) (last : EditorHost Document) (steps : _),
      FileTree.empty.writeText (Path.ofString "config.toml") "[editor]\nfont_size = nan\n" =
        .ok saved ∧
      load .standard saved (Path.ofString "config.toml") = .ok unnumbered ∧
      unnumbered.editor.fontSize.isNaN = true ∧ ¬0 < unnumbered.editor.linePixels ∧
      (EditorHost.new "1\n2" unnumbered.editor.linePixels).run [.setViewport 600] =
        .ok (last, steps) ∧
      ScrollHost.layoutHeight? last = some .nan ∧ ¬0 < Single.nan := by
  have hread : ofText .standard "[editor]\nfont_size = nan\n" = .ok unnumbered := by decide +kernel
  have hpixels : ¬0 < unnumbered.editor.linePixels := by decide +kernel
  have hlayout : ((EditorHost.new "1\n2" unnumbered.editor.linePixels : EditorHost Document).run
      [.setViewport 600]).map (fun reached => ScrollHost.layoutHeight? reached.1) =
        .ok (some .nan) := by
    decide +kernel
  obtain ⟨saved, hsaved⟩ : ∃ saved, FileTree.empty.writeText (Path.ofString "config.toml")
      "[editor]\nfont_size = nan\n" = .ok saved :=
    ⟨_, rfl⟩
  rcases Checked.map_eq_ok_iff.1 hlayout with ⟨⟨last, steps⟩, hrun, htold⟩
  exact ⟨saved, last, steps, hsaved, (load_of_writeText hsaved).trans hread, rfl, hpixels, hrun, htold,
    by decide +kernel⟩

/-- Two lengths above zero pass the check although no line has a height. -/
example : (ofText .standard "[editor]\nfont_size = 1e-30\nline_height = 1e-30\n").map
    (fun settings => settings.editor.linePixels) = .ok 0 := by
  decide +kernel

end Settings

end OverlayScrollbar
