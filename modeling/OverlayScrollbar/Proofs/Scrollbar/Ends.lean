import OverlayScrollbar.Editor.Action
import OverlayScrollbar.Proofs.Editor.Offsets
import OverlayScrollbar.Proofs.Scrollbar.Track
import OverlayScrollbar.Proofs.Single.Monotone

/-!
# A drag to an end of the track

A pointer that is dragged to the lower end of the strip, or beyond, brings the last line of an editor
into view, and one that is dragged to the upper end brings the first line to the top. Every step in
between is rounded or cut off, but none of them by more than a fraction of a line.

- `draggedTop_of_view_le`, `draggedTop_of_le_zero` : where the thumb lies at the ends
- `ScrollMetrics.exists_targetOffset_of_track`     : the offset that belongs to the lower end
- `EditorHost.Modest`                              : an editor whose lines are not too low
- `ScrollTracker.lineCount_le_of_target`           : the line that the offset leads to
- `Scrollbar.Dragged`                              : a dragged thumb, and what is read of its editor
- `Scrollbar.Dragged.reaches_last_line`, `Scrollbar.Dragged.reaches_first_line` : each of the ends

Main statement: `touch_moved_reaches_ends`.
-/

namespace OverlayScrollbar

/-! ## The thumb at the ends -/

section Thumb

variable {pointer : Single} {thumbHeight : UInt32} {view : Magnitude}

/-- The height of a thumb that is lower than the view is held exactly. -/
theorem thumb_lt (hview : view.units ≤ 2 ^ 16 * Single.unitsPerOne)
    (hlength : Single.ofNat thumbHeight.toNat < .finite false view) :
    thumbHeight.toNat < 2 ^ 16 ∧ thumbHeight.toNat * Single.unitsPerOne < view.units := by
  have hless : Single.roundedUnits (thumbHeight.toNat * Single.unitsPerOne) 1 < view.units := by
    rcases Single.lt_iff.1 hlength with ⟨x, y, hx, hy, hlt⟩
    cases (Single.rank?_round false _ _).symm.trans hx
    cases hy
    exact Int.ofNat_lt.1 hlt
  -- A height from `2 ^ 16` on would stay there when rounded, beyond the view.
  have hsmall : thumbHeight.toNat < 2 ^ 16 := by
    by_contra hlarge
    have hrounded : 2 ^ 16 * Single.unitsPerOne ≤
        Single.roundedUnits (thumbHeight.toNat * Single.unitsPerOne) 1 := by
      apply Single.le_roundedUnits Nat.one_pos (Single.fits_whole (by decide))
      rw [Nat.one_mul]
      exact Nat.mul_le_mul_right _ (Nat.le_of_not_lt hlarge)
    omega
  have hfits : Single.Fits (thumbHeight.toNat * Single.unitsPerOne) :=
    Single.fits_whole (by omega)
  have hexact := Single.roundedUnits_mul Nat.one_pos hfits
  rw [Nat.one_mul] at hexact
  rw [hexact] at hless
  exact ⟨hsmall, hless⟩

theorem zero_lt_track (hview : view.units ≤ 2 ^ 16 * Single.unitsPerOne)
    (hlength : Single.ofNat thumbHeight.toNat < .finite false view) :
    0 < Single.finite false view - Single.ofNat thumbHeight.toNat := by
  rcases thumb_lt hview hlength with ⟨hsmall, hless⟩
  rw [Single.ofNat_eq_finite (by omega)]
  exact Single.zero_lt_sub hless

/-- The track ends above half a thumb over the lower end of the view, even if that end lies between two
pixels. -/
theorem track_le (hview : view.units ≤ 2 ^ 16 * Single.unitsPerOne) (hthumb : 1 ≤ thumbHeight.toNat)
    (hlength : Single.ofNat thumbHeight.toNat < .finite false view)
    (hpointer : .finite false view ≤ pointer) :
    .finite false view - Single.ofNat thumbHeight.toNat ≤
      pointer.trunc - Single.ofNat (thumbHeight.toNat / 2) := by
  rcases thumb_lt hview hlength with ⟨hsmall, hless⟩
  obtain ⟨whole, hwhole⟩ : ∃ whole, whole = view.units / Single.unitsPerOne := ⟨_, rfl⟩
  have hlow : whole * Single.unitsPerOne ≤ view.units := hwhole ▸ Nat.div_mul_le_self _ _
  have hhigh : view.units < (whole + 1) * Single.unitsPerOne := by
    rw [hwhole, Nat.mul_comm]
    exact Nat.lt_mul_div_succ _ Single.unitsPerOne_pos
  have hpixels : whole ≤ 2 ^ 24 := by
    have hle : whole * Single.unitsPerOne ≤ 2 ^ 16 * Single.unitsPerOne := Nat.le_trans hlow hview
    exact Nat.le_trans (Nat.le_of_mul_le_mul_right hle Single.unitsPerOne_pos) (by decide)
  have hcover : thumbHeight.toNat ≤ whole := by
    have hlt := Nat.lt_of_mul_lt_mul_right (Nat.lt_trans hless hhigh)
    omega
  -- The pointer is at or below the last whole pixel, and stays so when its place is cut off.
  have hreached : Single.ofNat whole ≤ pointer := by
    refine Single.le_trans ?_ hpointer
    exact Single.le_iff.2 ⟨_, _, Single.rank?_ofNat hpixels, rfl, Int.ofNat_le.2 hlow⟩
  have hcut := Single.ofNat_le_trunc hpixels (by omega) hreached
  have hhalf := Single.sub_le_sub
    (Single.isFinite_ofNat (n := thumbHeight.toNat / 2) (by omega)) hcut
  refine Single.le_trans ?_ hhalf
  rw [Single.ofNat_eq_finite hpixels, Single.ofNat_eq_finite (j := thumbHeight.toNat) (by omega),
    Single.ofNat_eq_finite (j := thumbHeight.toNat / 2) (by omega)]
  refine Single.le_iff.2 ⟨_, _, Single.rank?_sub, Single.rank?_sub, Single.roundedSum_mono ?_⟩
  have hparts : (whole + 1) * Single.unitsPerOne +
      thumbHeight.toNat / 2 * Single.unitsPerOne ≤
        whole * Single.unitsPerOne + thumbHeight.toNat * Single.unitsPerOne := by
    rw [← Nat.add_mul, ← Nat.add_mul]
    exact Nat.mul_le_mul_right _ (by omega)
  show (view.units : Int) - (thumbHeight.toNat * Single.unitsPerOne : Nat) ≤
    (whole * Single.unitsPerOne : Nat) - (thumbHeight.toNat / 2 * Single.unitsPerOne : Nat)
  omega

/-- A pointer at the lower end of the view, or below it, holds the thumb at the end of the track. -/
theorem draggedTop_of_view_le (hview : view.units ≤ 2 ^ 16 * Single.unitsPerOne)
    (hthumb : 1 ≤ thumbHeight.toNat)
    (hlength : Single.ofNat thumbHeight.toNat < .finite false view)
    (hpointer : .finite false view ≤ pointer) :
    draggedTop pointer thumbHeight (.finite false view) =
      .finite false view - Single.ofNat thumbHeight.toNat := by
  have htrack := zero_lt_track hview hlength
  unfold draggedTop
  dsimp only
  rw [Single.min_eq_right_of_le (track_le hview hthumb hlength hpointer) htrack]
  exact Single.max_zero_eq_left htrack

/-- A pointer at the upper end of the view, or above it, holds the thumb at the upper end. -/
theorem draggedTop_of_le_zero (hview : view.units ≤ 2 ^ 16 * Single.unitsPerOne)
    (hlength : Single.ofNat thumbHeight.toNat < .finite false view) (hpointer : pointer ≤ 0) :
    (draggedTop pointer thumbHeight (.finite false view)).rank? = some 0 := by
  rcases thumb_lt hview hlength with ⟨hsmall, _⟩
  have hhalf : (Single.ofNat (thumbHeight.toNat / 2)).IsFinite := Single.isFinite_ofNat (by omega)
  have habove := Single.sub_le_zero_of_le (Single.trunc_le_zero hpointer) hhalf
    (Single.zero_le_ofNat _)
  have hnumber : (pointer.trunc - Single.ofNat (thumbHeight.toNat / 2)).isNaN = false := by
    rcases Single.le_iff.1 habove with ⟨r, _, hr, _⟩
    rw [Bool.eq_false_iff]
    intro hnan
    cases (Single.isNaN_iff.1 hnan).symm.trans hr
  apply Single.rank?_max_zero_of_le
  exact Single.le_trans (Single.min_le_left _ hnumber) habove

end Thumb

/-! ## The offset for the lower end -/

namespace ScrollMetrics

variable {m : ScrollMetrics} {length : Single} {count : Nat} {line view : Magnitude}

/-- At the end of the track the fraction is one, and the offset is what the content is higher than the
view, and a line, but for two pixels that may be cut off. -/
theorem exists_targetOffset_of_track
    (hcontent : m.contentHeight = Single.ofNat count * .finite false line)
    (hhost : m.hostHeight = .finite false view) (hline : m.lineHeight = .finite false line)
    (hcount : count ≤ 2 ^ 22) (hlines : count * line.units ≤ 2 ^ 22 * Single.unitsPerOne)
    (hlow : line.units ≤ 2 ^ 22 * Single.unitsPerOne)
    (hview : view.units ≤ 2 ^ 22 * Single.unitsPerOne)
    (htrack : 0 < m.track length) (hfinite : (m.track length).IsFinite) :
    ∃ (y : Single) (pixels : Int), m.targetOffset? length (m.track length) = some y ∧ y.IsFinite ∧
      y.rank? = some (pixels * Single.unitsPerOne) ∧
      (count * line.units : Nat) + (line.units : Int) - view.units - 2 * Single.unitsPerOne <
        pixels * Single.unitsPerOne := by
  rcases Single.exists_trunc_mul (show count ≤ 2 ^ 24 by omega) (by decide) hlines with
    ⟨hcontentFinite, i, content, hcontentTrunc, hcontentUnits, hi, hcontentLow⟩
  rcases Single.exists_trunc_sub (by decide) hview hlow with
    ⟨hrangeFinite, e, negative, range, hrangeTrunc, hrangeUnits, he, hrangeHigh⟩
  have htarget : m.targetOffset? length (m.track length) =
      some (.finite false content - .finite negative range) := by
    unfold targetOffset?
    dsimp only
    rw [if_neg (fun hle => Single.not_lt_of_le hle htrack), Single.div_self hfinite htrack, hcontent,
      hhost, hline, Single.mul_one hcontentFinite, Single.one_mul hrangeFinite, hcontentTrunc,
      hrangeTrunc]
  -- Both parts are whole numbers of pixels, and so is their difference, which is held exactly.
  have hdifference : Single.signedUnits false content - Single.signedUnits negative range =
      ((i : Int) - e) * Single.unitsPerOne := by
    have hcontentSigned : Single.signedUnits false content = (i : Int) * Single.unitsPerOne := by
      rw [← Int.natCast_mul, ← hcontentUnits]
      rfl
    rw [hcontentSigned, hrangeUnits, Int.sub_mul]
  have hfits : Single.Fits (((i : Int) - e) * Single.unitsPerOne).natAbs := by
    rw [Int.natAbs_mul, Int.natAbs_natCast]
    apply Single.fits_whole
    omega
  have hrank : (Single.finite false content - .finite negative range).rank? =
      some (((i : Int) - e) * Single.unitsPerOne) := by
    rw [Single.rank?_sub, hdifference, Single.roundedSum_of_fits hfits]
  refine ⟨_, _, htarget, Single.isFinite_of_rank? hrank hfits.1, hrank, ?_⟩
  rw [Nat.add_one_mul] at hcontentLow
  rw [Int.sub_mul]
  omega

/-- A thumb at the upper end of the track belongs to the offset zero. -/
theorem exists_targetOffset_of_zero {top : Single} (hcontent : m.contentHeight.IsFinite)
    (hrange : (m.hostHeight - m.lineHeight).IsFinite) (htop : top.rank? = some 0)
    (htrack : 0 < m.track length) (hfinite : (m.track length).IsFinite) :
    ∃ y, m.targetOffset? length top = some y ∧ y.rank? = some 0 := by
  have hfraction := Single.rank?_div_of_zero htop hfinite htrack
  unfold targetOffset?
  dsimp only
  rw [if_neg (fun hle => Single.not_lt_of_le hle htrack)]
  refine ⟨_, rfl, Single.rank?_sub_of_zero ?_ ?_⟩
  · exact Single.rank?_trunc_of_zero (Single.rank?_mul_of_zero hfraction hcontent).2
  · exact Single.rank?_trunc_of_zero (Single.rank?_mul_of_zero hfraction hrange).1

end ScrollMetrics

/-! ## The line for an offset -/

namespace ScrollTracker

variable {t : ScrollTracker} {line view : Magnitude}

/-- A view has as many lines as go into its height. -/
theorem div_le_visibleLines (hheight : t.lineHeight = .finite false line)
    (hport : t.viewport = .finite false view) (hline : 0 < line.units)
    (hfew : view.units / line.units ≤ 2 ^ 24) : view.units / line.units ≤ t.visibleLines := by
  rcases Nat.eq_zero_or_pos (view.units / line.units) with hnone | hsome
  · rw [hnone]
    exact Nat.zero_le _
  · have hpositive : ¬Single.finite false line ≤ 0 :=
      fun hle => Single.not_lt_of_le hle (Single.zero_lt_finite hline)
    have hquotient : Single.finite false view / .finite false line =
        Single.round false (view.units * Single.unitsPerOne) line.units :=
      Single.finite_div false view hline
    have hnum : line.units * (view.units / line.units * Single.unitsPerOne) ≤
        view.units * Single.unitsPerOne := by
      rw [← Nat.mul_assoc]
      exact Nat.mul_le_mul_right _ (Nat.mul_div_le _ _)
    have hfloor := Single.ofNat_le_floor_round hfew hline hnum
    unfold visibleLines
    rw [hheight, hport, if_neg hpositive, hquotient]
    exact Nat.le_trans (Single.le_wholeUpTo hfew hsome (by omega) hfloor) (Nat.le_max_left _ _)

/-- An offset that lacks no more than two pixels of what the content is higher than the view, and a
line, leads to a line from which the last one is seen. -/
theorem lineCount_le_of_target {y target : Single} {pixels : Int}
    (hheight : t.lineHeight = .finite false line) (hport : t.viewport = .finite false view)
    (hline : 4 * Single.unitsPerOne ≤ line.units)
    (hview : view.units ≤ 2 ^ 16 * Single.unitsPerOne) (hcount : t.lineCount ≤ 2 ^ 20)
    (hfinite : y.IsFinite) (hy : y.rank? = some (pixels * Single.unitsPerOne))
    (hpixels : (t.lineCount * line.units : Nat) + (line.units : Int) - view.units -
      2 * Single.unitsPerOne < pixels * Single.unitsPerOne)
    (htarget : (y / t.lineHeight).nearest.clamp 0 (Single.ofNat t.lastLine) = .ok target) :
    t.lineCount ≤ target.toInt64.toNat + t.visibleLines := by
  have hone := Single.unitsPerOne_pos
  have hseen := one_le_visibleLines t
  have hfew : view.units / line.units ≤ 2 ^ 24 := by
    apply Nat.div_le_of_le_mul
    omega
  have hfit := div_le_visibleLines hheight hport (by omega) hfew
  by_cases hshort : t.lineCount ≤ t.visibleLines
  · omega
  · -- The offset is more than half a line below the line before the one that is wanted.
    obtain ⟨j, hj⟩ : ∃ j, t.lineCount = j + 1 + max (view.units / line.units) 1 :=
      ⟨t.lineCount - max (view.units / line.units) 1 - 1, by omega⟩
    have hbeyond : ((2 * j + 1) * line.units : Nat) < 2 * (pixels * Single.unitsPerOne) := by
      have hbelow := Nat.lt_mul_div_succ view.units (show 0 < line.units by omega)
      have hleast : (j + 1 + view.units / line.units) * line.units ≤ t.lineCount * line.units :=
        Nat.mul_le_mul_right _ (by omega)
      rw [Nat.mul_add_one, Nat.mul_comm line.units] at hbelow
      rw [Nat.add_mul, Nat.add_one_mul] at hleast
      rw [Nat.add_one_mul, Nat.mul_assoc]
      omega
    have hpositive : 0 < y := Single.lt_iff.2 ⟨0, _, Single.rank?_zero, hy, by omega⟩
    rcases Single.exists_finite_of_zero_lt hfinite hpositive with ⟨size, rfl⟩
    have hsize : (size.units : Int) = pixels * Single.unitsPerOne := Option.some.inj hy
    have hquotient : Single.finite false size / t.lineHeight =
        Single.round false (size.units * Single.unitsPerOne) line.units := by
      rw [hheight]
      exact Single.finite_div false size (by omega)
    have hnearest : Single.ofNat (j + 1) ≤ (Single.finite false size / t.lineHeight).nearest := by
      rw [hquotient]
      apply Single.ofNat_le_nearest_round (by omega) (by omega)
      rw [Single.unitsPerOne_eq, ← Nat.mul_assoc, ← Nat.mul_assoc, Nat.mul_comm line.units]
      exact Nat.mul_le_mul_right _ (by omega)
    have hlast : Single.ofNat (j + 1) ≤ Single.ofNat t.lastLine := by
      unfold lastLine
      exact Single.ofNat_le_ofNat (by omega)
    have hwhole := Single.le_toInt64 (by omega) (Single.le_clamp htarget hnearest hlast)
    omega

/-- The offset zero leads to the first line. -/
theorem toInt64_target_of_zero {y target : Single} (hheight : t.lineHeight = .finite false line)
    (hline : 0 < line.units) (hy : y.rank? = some 0)
    (htarget : (y / t.lineHeight).nearest.clamp 0 (Single.ofNat t.lastLine) = .ok target) :
    target.toInt64 ≤ 0 := by
  have hpositive : 0 < t.lineHeight := by
    rw [hheight]
    exact Single.zero_lt_finite hline
  have hfinite : t.lineHeight.IsFinite := by
    rw [hheight]
    trivial
  have hnearest := Single.rank?_nearest_of_zero (Single.rank?_div_of_zero hy hfinite hpositive)
  have hnone : (y / t.lineHeight).nearest ≤ 0 :=
    Single.le_iff.2 ⟨0, 0, hnearest, Single.rank?_zero, Int.le_refl 0⟩
  have hzero : (0 : Single) ≤ 0 := Single.le_refl_iff.2 Single.isNaN_zero
  exact Single.toInt64_le (Nat.zero_le _) (Single.clamp_le htarget hnone hzero)

end ScrollTracker

/-! ## The drag -/

/-- An editor of a size that single precision measures well: its lines are at least four pixels high,
its view has at most 2 ^ 16 pixels, and all lines together have at most 2 ^ 22. -/
structure EditorHost.Modest {D : Type} (host : EditorHost D) (line view : Magnitude) : Prop where
  lineHeight_eq : host.tracker.lineHeight = .finite false line
  viewport_eq : host.tracker.viewport = .finite false view
  four_le : 4 * Single.unitsPerOne ≤ line.units
  view_le : view.units ≤ 2 ^ 16 * Single.unitsPerOne
  lines_le : host.tracker.lineCount * line.units ≤ 2 ^ 22 * Single.unitsPerOne
  firstLine_lt : host.tracker.firstLine < host.tracker.lineCount

namespace EditorHost

variable {D E : Type} [TextEditor D E] {host : EditorHost D} {line view : Magnitude}

theorem Modest.lineCount_le (h : host.Modest line view) : host.tracker.lineCount ≤ 2 ^ 20 := by
  have hlines : host.tracker.lineCount * (4 * Single.unitsPerOne) ≤ 2 ^ 22 * Single.unitsPerOne :=
    Nat.le_trans (Nat.mul_le_mul_left _ h.four_le) h.lines_le
  rw [← Nat.mul_assoc] at hlines
  have hfour := Nat.le_of_mul_le_mul_right hlines Single.unitsPerOne_pos
  omega

theorem Modest.line_le (h : host.Modest line view) : line.units ≤ 2 ^ 22 * Single.unitsPerOne := by
  calc
    line.units = 1 * line.units := (Nat.one_mul _).symm
    _ ≤ host.tracker.lineCount * line.units :=
      Nat.mul_le_mul_right _ (Nat.lt_of_le_of_lt (Nat.zero_le _) h.firstLine_lt)
    _ ≤ 2 ^ 22 * Single.unitsPerOne := h.lines_le

/-- To stop a fling changes none of the measures. -/
theorem Modest.abortFling (h : host.Modest line view) :
    (ScrollHost.abortFling host).Modest line view :=
  ⟨h.lineHeight_eq, h.viewport_eq, h.four_le, h.view_le, h.lines_le, h.firstLine_lt⟩

theorem Modest.exists_scrollTo (h : host.Modest line view) {y : Single} (hy : y.IsFinite)
    (x : Single) :
    ∃ target scrolled,
      (y / host.tracker.lineHeight).nearest.clamp 0 (Single.ofNat host.tracker.lastLine) =
        .ok target ∧
      0 ≤ target.toInt64 ∧ target.toInt64.toNat < host.tracker.lineCount ∧
      ScrollHost.scrollTo host x y = .ok scrolled ∧
      scrolled.tracker = { host.tracker with firstLine := target.toInt64.toNat } := by
  have hone := Single.unitsPerOne_pos
  have hfour := h.four_le
  have hcount := h.lineCount_le
  have hfirst := h.firstLine_lt
  have hpositive : 0 < host.tracker.lineHeight := by
    rw [h.lineHeight_eq]
    exact Single.zero_lt_finite (by omega)
  have hlast : host.tracker.lastLine + 1 = host.tracker.lineCount := by
    unfold ScrollTracker.lastLine
    omega
  rcases exists_scrollTo_line (by omega) (by omega) hpositive hy x with
    ⟨target, scrolled, hclamp, hwhole, hhigh, hscroll, htracker, _⟩
  exact ⟨target, scrolled, hclamp, hwhole, by omega, hscroll, htracker⟩

end EditorHost

namespace Scrollbar

/-- A move that drags the thumb scrolls the host to the offset for the place of the thumb. -/
theorem touch_moved_of_dragging {H : Type} [ScrollHost H] {bar : Scrollbar} {host scrolled : H}
    {metrics : ScrollMetrics} {top offset : Single} (hlinked : bar.linked = true)
    (hdragging : bar.visibility = .dragging) (hreading : bar.reading? host = some metrics)
    (htop : metrics.thumbTop bar.thumbLength = .ok top) (x y : Single)
    (htarget : metrics.targetOffset? bar.thumbLength
      (draggedTop y bar.thumbHeight metrics.viewHeight) = some offset)
    (hscroll : ScrollHost.scrollTo (ScrollHost.abortFling host)
      (ScrollHost.scrollX (ScrollHost.abortFling host)) offset = .ok scrolled) :
    ∃ after, bar.touch host (.moved x y) = .ok (after, scrolled, true) := by
  have hmeasure : bar.measure host = .ok { bar with metrics := metrics, top := top } := by
    rw [measure_of_reading_some hlinked hreading, htop]
    rfl
  unfold touch
  rw [if_neg (active_iff.2 ⟨hlinked, by simp [hdragging]⟩), hmeasure]
  dsimp only [bind, Except.bind]
  rw [if_pos hdragging]
  unfold scrollHost
  simp only [thumbLength, thumbHeight] at htarget ⊢
  rw [htarget]
  dsimp only
  rw [hscroll]
  exact ⟨_, rfl⟩

theorem one_le_thumbHeight {bar : Scrollbar} (h : 1 ≤ bar.thumbLength) :
    1 ≤ bar.thumbHeight.toNat := by
  by_contra hnone
  have hzero : bar.thumbHeight.toNat = 0 := by omega
  rw [thumbLength, hzero] at h
  exact absurd h (by decide +kernel)

section Drag

variable {D E : Type} [TextEditor D E] {bar : Scrollbar} {host : EditorHost D}
  {metrics : ScrollMetrics} {line view : Magnitude} {y offset : Single}

/-- The thumb is dragged in a strip as high as the view of an editor, and these are the measures that
are read of the editor. -/
structure Dragged (bar : Scrollbar) (host : EditorHost D) (line view : Magnitude)
    (metrics : ScrollMetrics) : Prop where
  modest : host.Modest line view
  linked : bar.linked = true
  dragging : bar.visibility = .dragging
  reading : bar.reading? host = some metrics
  viewHeight_eq : metrics.viewHeight = .finite false view
  contentHeight_eq : metrics.contentHeight =
    Single.ofNat host.tracker.lineCount * .finite false line
  hostHeight_eq : metrics.hostHeight = .finite false view
  lineHeight_eq : metrics.lineHeight = .finite false line

/-- The measures of an editor can be read as soon as its view has a height. -/
theorem exists_dragged (hhost : host.Modest line view) (hlinked : bar.linked = true)
    (hdragging : bar.visibility = .dragging) (hheight : bar.height = .finite false view)
    (hview : 0 < Single.finite false view) : ∃ metrics, Dragged bar host line view metrics := by
  have hlayout : ScrollHost.layoutHeight? host =
      some (Single.ofNat host.tracker.lineCount * host.tracker.lineHeight) := by
    show host.tracker.layoutHeight? = _
    unfold ScrollTracker.layoutHeight?
    rw [hhost.viewport_eq, if_pos hview]
  rw [hhost.lineHeight_eq] at hlayout
  have hreading : ∃ metrics, bar.reading? host = some metrics ∧ metrics.viewHeight = bar.height ∧
      metrics.contentHeight = Single.ofNat host.tracker.lineCount * .finite false line ∧
      metrics.hostHeight = host.tracker.viewport ∧
      metrics.lineHeight = host.tracker.lineHeight := by
    unfold reading?
    rw [hlayout]
    exact ⟨_, rfl, rfl, rfl, rfl, rfl⟩
  rcases hreading with ⟨metrics, hreading, hviewHeight, hcontent, hhostHeight, hlineHeight⟩
  exact ⟨metrics, hhost, hlinked, hdragging, hreading, hviewHeight.trans hheight, hcontent,
    hhostHeight.trans hhost.viewport_eq, hlineHeight.trans hhost.lineHeight_eq⟩

namespace Dragged

theorem isFinite_viewHeight (h : Dragged bar host line view metrics) :
    metrics.viewHeight.IsFinite := by
  rw [h.viewHeight_eq]
  trivial

/-- A thumb that is lower than the view has a way to go. -/
theorem zero_lt_track (h : Dragged bar host line view metrics)
    (hlength : bar.thumbLength < .finite false view) :
    0 < metrics.track bar.thumbLength := by
  unfold ScrollMetrics.track
  rw [h.viewHeight_eq]
  exact OverlayScrollbar.zero_lt_track h.modest.view_le hlength

theorem isFinite_track (h : Dragged bar host line view metrics)
    (hlength : bar.thumbLength < .finite false view) :
    (metrics.track bar.thumbLength).IsFinite :=
  Single.isFinite_sub h.isFinite_viewHeight (isFinite_thumbLength bar) (Single.zero_le_ofNat _)
    (h.zero_lt_track hlength)

/-- The drag leads to the line that is nearest to the offset for the place of the thumb. -/
theorem exists_touch_moved (h : Dragged bar host line view metrics)
    (htarget : metrics.targetOffset? bar.thumbLength
      (draggedTop y bar.thumbHeight metrics.viewHeight) = some offset)
    (hfinite : offset.IsFinite) (x : Single) :
    ∃ after scrolled target, bar.touch host (.moved x y) = .ok (after, scrolled, true) ∧
      (offset / host.tracker.lineHeight).nearest.clamp 0 (Single.ofNat host.tracker.lastLine) =
        .ok target ∧
      0 ≤ target.toInt64 ∧ target.toInt64.toNat < host.tracker.lineCount ∧
      scrolled.tracker.firstLine = target.toInt64.toNat ∧
      scrolled.tracker.visibleLines = host.tracker.visibleLines := by
  rcases metrics.exists_thumbTop h.isFinite_viewHeight.isNaN (isFinite_thumbLength bar) with
    ⟨top, htop⟩
  rcases h.modest.abortFling.exists_scrollTo hfinite
      (ScrollHost.scrollX (ScrollHost.abortFling host)) with
    ⟨target, scrolled, hclamp, hwhole, hhigh, hscroll, htracker⟩
  rcases touch_moved_of_dragging h.linked h.dragging h.reading htop x y htarget hscroll with
    ⟨after, htouch⟩
  refine ⟨after, scrolled, target, htouch, hclamp, hwhole, hhigh, ?_, ?_⟩
  · rw [htracker]
  · rw [htracker]
    exact ScrollTracker.visibleLines_congr rfl rfl

/-- At the lower end of the strip the thumb is at the end of its track, where the offset shows the last
line. -/
theorem reaches_last_line (h : Dragged bar host line view metrics) (hthumb : 1 ≤ bar.thumbLength)
    (hlength : bar.thumbLength < .finite false view) (hy : .finite false view ≤ y) (x : Single) :
    ∃ after scrolled, bar.touch host (.moved x y) = .ok (after, scrolled, true) ∧
      scrolled.tracker.firstLine < host.tracker.lineCount ∧
      host.tracker.lineCount ≤ scrolled.tracker.firstLine + scrolled.tracker.visibleLines := by
  have hone := Single.unitsPerOne_pos
  have hfour := h.modest.four_le
  have hcount := h.modest.lineCount_le
  have hport := h.modest.view_le
  have hplace : draggedTop y bar.thumbHeight metrics.viewHeight = metrics.track bar.thumbLength := by
    unfold ScrollMetrics.track
    rw [h.viewHeight_eq]
    exact draggedTop_of_view_le hport (one_le_thumbHeight hthumb) hlength hy
  rcases ScrollMetrics.exists_targetOffset_of_track h.contentHeight_eq h.hostHeight_eq
    h.lineHeight_eq (by omega) h.modest.lines_le h.modest.line_le (by omega)
    (h.zero_lt_track hlength) (h.isFinite_track hlength) with
      ⟨offset, pixels, htarget, hfinite, hrank, hleast⟩
  rcases h.exists_touch_moved (hplace ▸ htarget) hfinite x with
    ⟨after, scrolled, target, htouch, hclamp, _, hhigh, hfirst, hsame⟩
  have hreached := ScrollTracker.lineCount_le_of_target h.modest.lineHeight_eq h.modest.viewport_eq
    hfour hport hcount hfinite hrank hleast hclamp
  refine ⟨after, scrolled, htouch, ?_, ?_⟩
  · rw [hfirst]
    exact hhigh
  · rw [hfirst, hsame]
    exact hreached

/-- At the upper end of the strip the thumb is at the top, and nothing of the content is above the
view. -/
theorem reaches_first_line (h : Dragged bar host line view metrics)
    (hlength : bar.thumbLength < .finite false view) (hy : y ≤ 0) (x : Single) :
    ∃ after scrolled, bar.touch host (.moved x y) = .ok (after, scrolled, true) ∧
      scrolled.tracker.firstLine = 0 := by
  have hone := Single.unitsPerOne_pos
  have hfour := h.modest.four_le
  have hcount := h.modest.lineCount_le
  have hport := h.modest.view_le
  have hplace : (draggedTop y bar.thumbHeight metrics.viewHeight).rank? = some 0 := by
    rw [h.viewHeight_eq]
    exact draggedTop_of_le_zero hport hlength hy
  have hcontentFinite : metrics.contentHeight.IsFinite := by
    rw [h.contentHeight_eq]
    exact (Single.exists_trunc_mul (by omega) (by decide) h.modest.lines_le).1
  have hrangeFinite : (metrics.hostHeight - metrics.lineHeight).IsFinite := by
    rw [h.hostHeight_eq, h.lineHeight_eq]
    exact (Single.exists_trunc_sub (j := 2 ^ 22) (by decide) (by omega) h.modest.line_le).1
  rcases ScrollMetrics.exists_targetOffset_of_zero hcontentFinite hrangeFinite hplace
    (h.zero_lt_track hlength) (h.isFinite_track hlength) with ⟨offset, htarget, hrank⟩
  rcases h.exists_touch_moved htarget (Single.isFinite_of_zero hrank) x with
    ⟨after, scrolled, target, htouch, hclamp, _, _, hfirst, _⟩
  have hnone := ScrollTracker.toInt64_target_of_zero h.modest.lineHeight_eq (by omega) hrank hclamp
  refine ⟨after, scrolled, htouch, ?_⟩
  omega

end Dragged

/-- A dragged thumb reaches both ends of the document, wherever the view was before, in an editor whose
measures are not too large and whose view is as high as the strip. A pointer at the lower end of the
strip, or beyond, leaves the last line in view, and a pointer at the upper end the first line at the
top. -/
theorem touch_moved_reaches_ends (hhost : host.Modest line view) (hlinked : bar.linked = true)
    (hdragging : bar.visibility = .dragging) (hheight : bar.height = host.tracker.viewport)
    (hthumb : 1 ≤ bar.thumbLength) (hlength : bar.thumbLength < bar.height) (x y : Single) :
    (bar.height ≤ y →
      ∃ after scrolled, bar.touch host (.moved x y) = .ok (after, scrolled, true) ∧
        scrolled.tracker.firstLine < host.tracker.lineCount ∧
        host.tracker.lineCount ≤ scrolled.tracker.firstLine + scrolled.tracker.visibleLines) ∧
    (y ≤ 0 →
      ∃ after scrolled, bar.touch host (.moved x y) = .ok (after, scrolled, true) ∧
        scrolled.tracker.firstLine = 0) := by
  rw [hhost.viewport_eq] at hheight
  rw [hheight] at hlength ⊢
  have hview : 0 < Single.finite false view :=
    Single.lt_of_le_of_lt (Single.zero_le_ofNat _) hlength
  rcases exists_dragged hhost hlinked hdragging hheight hview with ⟨metrics, hdragged⟩
  exact ⟨fun hy => hdragged.reaches_last_line hthumb hlength hy x,
    fun hy => hdragged.reaches_first_line hlength hy x⟩

end Drag

/-- An editor at its third line. Neither a line nor the view has a whole number of pixels. -/
def unevenHost : EditorHost Document :=
  let host := (EditorHost.new "1\n2\n3\n4\n5\n6" 4.7).setViewport 13.3
  { host with tracker := { host.tracker with firstLine := 2 } }

/-- A thumb that is being dragged in a strip as high as that view. -/
def heldBar : Scrollbar :=
  { new 0 { ScrollbarSettings.standard with thumbHeight := 2 } (Color.solid 0 0 1) with
    linked := true
    visibility := .dragging
    height := 13.3 }

/-- The theorem speaks of measures that are not whole numbers of pixels. -/
theorem touch_moved_reaches_ends_uneven :
    heldBar.height = unevenHost.tracker.viewport ∧ 1 ≤ heldBar.thumbLength ∧
      heldBar.thumbLength < heldBar.height ∧
      (∃ after scrolled, heldBar.touch unevenHost (.moved 1 13.5) = .ok (after, scrolled, true) ∧
        scrolled.tracker.firstLine < 6 ∧
        6 ≤ scrolled.tracker.firstLine + scrolled.tracker.visibleLines) ∧
      ∃ after scrolled, heldBar.touch unevenHost (.moved 1 (-3)) = .ok (after, scrolled, true) ∧
        scrolled.tracker.firstLine = 0 := by
  have hsizes : ∃ line view, unevenHost.tracker.lineHeight = .finite false line ∧
      unevenHost.tracker.viewport = .finite false view ∧ 4 * Single.unitsPerOne ≤ line.units ∧
      view.units ≤ 2 ^ 16 * Single.unitsPerOne ∧
      6 * line.units ≤ 2 ^ 22 * Single.unitsPerOne := by
    refine ⟨⟨roundBits 24 (47 * Single.unitsPerOne) 10, by decide +kernel⟩,
      ⟨roundBits 24 (133 * Single.unitsPerOne) 10, by decide +kernel⟩, ?_⟩
    decide +kernel
  rcases hsizes with ⟨line, view, hline, hview, hfour, hport, hlines⟩
  have hcount : unevenHost.tracker.lineCount = 6 := by decide +kernel
  have hhost : unevenHost.Modest line view :=
    ⟨hline, hview, hfour, hport, by rw [hcount]; exact hlines, by decide +kernel⟩
  have hheight : heldBar.height = unevenHost.tracker.viewport := by decide +kernel
  have hthumb : 1 ≤ heldBar.thumbLength := by decide +kernel
  have hlength : heldBar.thumbLength < heldBar.height := by decide +kernel
  have hlower := (touch_moved_reaches_ends hhost rfl rfl hheight hthumb hlength 1 13.5).1
    (by decide +kernel)
  have hupper := (touch_moved_reaches_ends hhost rfl rfl hheight hthumb hlength 1 (-3)).2
    (by decide +kernel)
  rw [hcount] at hlower
  exact ⟨hheight, hthumb, hlength, hlower, hupper⟩

end Scrollbar

end OverlayScrollbar
