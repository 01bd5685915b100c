import OverlayScrollbar.Editor.Action
import OverlayScrollbar.Proofs.Editor.Offsets
import OverlayScrollbar.Proofs.Single.Multiples

/-!
# Lines and their offsets

The offset of a line is rounded to single precision, and is divided by the height of a line again to
find the line; this gives the line back, at every height and for up to `2 ^ 22` lines. A scroll to the
offset of a line puts that line at the top, and a scroll to the offset of the view does nothing.

- `ScrollTracker.nearest_line`     : the line that is nearest to the offset of a line
- `ScrollTracker.deltaTo_line`     : the way to the offset of a line
- `EditorHost.scrollLines_zero`    : a scroll by no line
- `EditorHost.exists_scrollTo_top` : a scroll to the offset of a line

Main statement: `EditorHost.scrollTo_line_offset`.
-/

namespace OverlayScrollbar

namespace ScrollTracker

variable {t : ScrollTracker} {line : Nat}

theorem toInt64_of_clamp_line {target : Single} (hcount : t.lastLine ≤ 2 ^ 24)
    (hline : line ≤ t.lastLine)
    (h : (Single.ofNat line).clamp 0 (Single.ofNat t.lastLine) = .ok target) :
    target.toInt64 = line := by
  have hsmall : line ≤ 2 ^ 24 := Nat.le_trans hline hcount
  have hself := Single.ofNat_le_ofNat (Nat.le_refl line)
  -- A line of the document lies between the limits, which bound what they give from both sides.
  have hmost : target.toInt64 ≤ line :=
    Single.toInt64_le hsmall (Single.clamp_le h hself (Single.zero_le_ofNat line))
  have hleast : (line : Int) ≤ target.toInt64 :=
    Single.le_toInt64 hsmall (Single.le_clamp h hself (Single.ofNat_le_ofNat hline))
  exact Int.le_antisymm hmost hleast

theorem nearest_line (hcount : t.lineCount ≤ 2 ^ 22) (hpos : 0 < t.lineHeight)
    (hheight : t.lineHeight.IsFinite) (hline : line < t.lineCount)
    (hpixels : (Single.ofNat line * t.lineHeight).IsFinite) :
    (Single.ofNat line * t.lineHeight / t.lineHeight).nearest = Single.ofNat line := by
  rcases Single.exists_finite_of_zero_lt hheight hpos with ⟨length, hlength⟩
  rw [hlength] at hpos hpixels ⊢
  exact Single.nearest_mul_div (by omega) (Single.units_pos_of_zero_lt hpos) hpixels

/-- The way to the offset of a line is the way to the line. -/
theorem deltaTo_line (hfirst : t.firstLine < t.lineCount) (hcount : t.lineCount ≤ 2 ^ 22)
    (hpos : 0 < t.lineHeight) (hheight : t.lineHeight.IsFinite) (hline : line < t.lineCount)
    (hpixels : (Single.ofNat line * t.lineHeight).IsFinite) :
    t.deltaTo (Single.ofNat line * t.lineHeight) = .ok ((line : Int) - t.firstLine) := by
  have hlast : t.lastLine = t.lineCount - 1 := rfl
  rcases exists_deltaTo_eq (by omega) (by omega) hpos hpixels with ⟨target, htarget, _, _, hdelta⟩
  rw [nearest_line hcount hpos hheight hline hpixels] at htarget
  rw [hdelta, toInt64_of_clamp_line (by omega) (by omega) htarget]

end ScrollTracker

namespace EditorHost

variable {D E : Type} [TextEditor D E] {host : EditorHost D} {line : Nat}

/-- A scroll by no line does nothing, and tells the listeners nothing. -/
theorem scrollLines_zero (h : host.tracker.Counted) : host.scrollLines 0 = .ok host := by
  have hstays : host.tracker.lineAfter 0 = host.tracker.firstLine := by
    have hfirst := h.firstLine_le
    unfold ScrollTracker.lineAfter
    omega
  unfold scrollLines
  rw [ScrollTracker.scrollBy_eq h isShort_zero, hstays, Int.sub_self]
  rfl

/-- A scroll to the offset of a line puts this line at the top. -/
theorem exists_scrollTo_top (hfirst : host.tracker.firstLine < host.tracker.lineCount)
    (hcount : host.tracker.lineCount ≤ 2 ^ 22) (hpos : 0 < host.tracker.lineHeight)
    (hheight : host.tracker.lineHeight.IsFinite) (hline : line < host.tracker.lineCount)
    (hpixels : (Single.ofNat line * host.tracker.lineHeight).IsFinite) (x : Single) :
    ∃ scrolled,
      ScrollHost.scrollTo host x (Single.ofNat line * host.tracker.lineHeight) = .ok scrolled ∧
        scrolled.document = host.documentAfter ((line : Int) - host.tracker.firstLine) ∧
        scrolled.tracker = { host.tracker with firstLine := line } := by
  have hlast : host.tracker.lastLine = host.tracker.lineCount - 1 := rfl
  rcases exists_scrollTo_line (by omega) (by omega) hpos hpixels x with
    ⟨target, scrolled, htarget, _, _, hscrolled, htracker, hdocument⟩
  rw [ScrollTracker.nearest_line hcount hpos hheight hline hpixels] at htarget
  have hwhole := ScrollTracker.toInt64_of_clamp_line (by omega) (by omega) htarget
  rw [hwhole, Int.toNat_natCast] at htracker
  rw [hwhole] at hdocument
  exact ⟨scrolled, hscrolled, hdocument, htracker⟩

/-- A scroll to the offset of a line puts exactly this line at the top, whatever the height of a line and
wherever the view was, as long as the offset is finite, and tells the editor by how many lines it was.
The offset of the view itself is no way to go, and a scroll to it changes nothing and tells the editor
and the listeners nothing. -/
theorem scrollTo_line_offset (hfirst : host.tracker.firstLine < host.tracker.lineCount)
    (hcount : host.tracker.lineCount ≤ 2 ^ 22) (hpos : 0 < host.tracker.lineHeight)
    (hheight : host.tracker.lineHeight.IsFinite) :
    (∀ line < host.tracker.lineCount, (Single.ofNat line * host.tracker.lineHeight).IsFinite →
      host.tracker.deltaTo (Single.ofNat line * host.tracker.lineHeight) =
          .ok ((line : Int) - host.tracker.firstLine) ∧
        ∀ x, ∃ scrolled,
          ScrollHost.scrollTo host x (Single.ofNat line * host.tracker.lineHeight) = .ok scrolled ∧
            scrolled.document = host.documentAfter ((line : Int) - host.tracker.firstLine) ∧
            scrolled.tracker = { host.tracker with firstLine := line }) ∧
      (host.tracker.scrollY.IsFinite →
        host.tracker.deltaTo host.tracker.scrollY = .ok 0 ∧
          ∀ x, ScrollHost.scrollTo host x host.tracker.scrollY = .ok host) := by
  refine ⟨?_, ?_⟩
  · intro line hline hpixels
    refine ⟨ScrollTracker.deltaTo_line hfirst hcount hpos hheight hline hpixels, ?_⟩
    intro x
    exact exists_scrollTo_top hfirst hcount hpos hheight hline hpixels x
  · intro hoffset
    -- The offset of the view is the offset of its first line.
    have hnone : host.tracker.deltaTo host.tracker.scrollY = .ok 0 := by
      rw [← Int.sub_self host.tracker.firstLine]
      exact ScrollTracker.deltaTo_line hfirst hcount hpos hheight hfirst hoffset
    have hcounted : host.tracker.Counted := by
      have hlast : host.tracker.lastLine = host.tracker.lineCount - 1 := rfl
      exact ⟨by omega, by omega⟩
    refine ⟨hnone, ?_⟩
    intro x
    exact Checked.bind_eq_ok_iff.2 ⟨0, hnone, scrollLines_zero hcounted⟩

/-- An editor with as many lines as are found by their offsets. Their height is not held exactly. -/
def longHost : EditorHost Document :=
  ⟨Document.ofText "", { ScrollTracker.new (2 ^ 22) 14.7 with firstLine := 77 }, Listeners.empty⟩

/-- The theorem finds the last of the lines, whose offset is rounded to a whole multiple of four. -/
theorem scrollTo_line_offset_last :
    longHost.tracker.firstLine < longHost.tracker.lineCount ∧ longHost.tracker.lineCount ≤ 2 ^ 22 ∧
      0 < longHost.tracker.lineHeight ∧ longHost.tracker.lineHeight.IsFinite ∧
      longHost.tracker.deltaTo (Single.ofNat 4194303 * longHost.tracker.lineHeight) =
        .ok 4194226 ∧
      (∃ scrolled,
        ScrollHost.scrollTo longHost 0 (Single.ofNat 4194303 * longHost.tracker.lineHeight) =
            .ok scrolled ∧
          scrolled.document = longHost.document ∧ scrolled.tracker.firstLine = 4194303) ∧
      ScrollHost.scrollTo longHost 0 longHost.tracker.scrollY = .ok longHost := by
  have hfirst : longHost.tracker.firstLine < longHost.tracker.lineCount := by decide +kernel
  have hcount : longHost.tracker.lineCount ≤ 2 ^ 22 := by decide +kernel
  have hpos : 0 < longHost.tracker.lineHeight := by decide +kernel
  have hheight : longHost.tracker.lineHeight.IsFinite := by decide +kernel
  rcases scrollTo_line_offset hfirst hcount hpos hheight with ⟨hlines, hstays⟩
  rcases hlines 4194303 (by decide +kernel) (by decide +kernel) with ⟨hdelta, hscrolls⟩
  rcases hscrolls 0 with ⟨scrolled, hscrolled, hdocument, htracker⟩
  have htop : scrolled.tracker.firstLine = 4194303 := by
    rw [htracker]
  have hview := (hstays (by decide +kernel)).2 0
  -- A document is told of the scroll, and has no view to move.
  have hsame : scrolled.document = longHost.document := hdocument
  exact ⟨hfirst, hcount, hpos, hheight, hdelta, ⟨scrolled, hscrolled, hsame, htop⟩, hview⟩

end EditorHost

end OverlayScrollbar
