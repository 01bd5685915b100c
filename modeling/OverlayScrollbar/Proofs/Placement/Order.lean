import OverlayScrollbar.Proofs.Placement
import OverlayScrollbar.Proofs.Single.Monotone
import OverlayScrollbar.Proofs.Single.Parts
import OverlayScrollbar.Proofs.Single.Value

/-!
# The thumb follows the offset and the pointer

Both ways to place the thumb keep the order: further down in the content the thumb is not higher on the
track, and neither is it under a pointer that is further down. All the numbers on the way, up to infinite
ones, are rounded monotone functions of the one that is followed.

- `ScrollMetrics.atOffset`          : the same measurements at another offset
- `ScrollMetrics.thumbTop_cases`    : the thumb stays at the top, or lies at a limited part of the track
- `ScrollMetrics.thumbTop_le_thumbTop` : two offsets in order
- `ScrollMetrics.thumbTop_le_zero`  : the thumb at the top of the track
- `ScrollMetrics.track_le_thumbTop` : the thumb at the bottom of the track
- `draggedTop_le_draggedTop`, `draggedTop_eq` : the thumb under a pointer

Main statements: `ScrollMetrics.thumbTop_follows_offset`, `draggedTop_follows_pointer`.
-/

namespace OverlayScrollbar

namespace ScrollMetrics

variable {m : ScrollMetrics} {thumbHeight offset offset' top top' : Single}

/-- The same measurements at another scroll offset. -/
def atOffset (m : ScrollMetrics) (offset : Single) : ScrollMetrics :=
  { m with offset := offset }

theorem IsFinite.atOffset (h : m.IsFinite) (hoffset : offset.IsFinite) :
    (m.atOffset offset).IsFinite :=
  ⟨h.viewHeight, h.contentHeight, hoffset, h.hostHeight, h.lineHeight⟩

/-! ## Where the thumb lies -/

/-- Without a track or a range the thumb stays at the top, whatever the offset; else it lies where the
fraction of the track ends, kept on the track. -/
theorem thumbTop_cases (h : m.IsFinite) (hthumb : thumbHeight.IsFinite) :
    ((m.track thumbHeight ≤ 0 ∨ m.range ≤ 0) ∧
        ∀ offset, (m.atOffset offset).thumbTop thumbHeight = .ok 0) ∨
      0 < m.track thumbHeight ∧ 0 < m.range ∧ ∀ offset,
        (m.atOffset offset).thumbTop thumbHeight =
          (m.track thumbHeight * (offset / m.range)).nearest.clamp 0 (m.track thumbHeight) := by
  by_cases hnone : m.track thumbHeight ≤ 0 ∨ m.range ≤ 0
  · exact Or.inl ⟨hnone, fun _ => if_pos hnone⟩
  · refine Or.inr ⟨?_, ?_, fun _ => if_neg hnone⟩
    · apply Single.lt_of_not_le (isNaN_track h.viewHeight.isNaN hthumb) Single.isNaN_zero
      exact fun htrack => hnone (Or.inl htrack)
    · apply Single.lt_of_not_le h.isNaN_range Single.isNaN_zero
      exact fun hrange => hnone (Or.inr hrange)

section

variable (h : m.IsFinite) (hthumb : thumbHeight.IsFinite) (hlength : 0 ≤ thumbHeight)

include h hthumb hlength

theorem isFinite_thumbTop (hoffset : offset.IsFinite)
    (htop : (m.atOffset offset).thumbTop thumbHeight = .ok top) : top.IsFinite := by
  rcases thumbTop_cases h hthumb with ⟨_, hzero⟩ | ⟨htrack, hrange, _⟩
  · rw [hzero] at htop
    cases htop
    exact Single.isFinite_of_zero Single.rank?_zero
  · rcases thumbTop_mem (h.atOffset hoffset) hthumb hlength htop with ⟨hlow, hhigh⟩
    have hmost : top ≤ m.track thumbHeight :=
      Single.le_trans hhigh (Single.max_le (Single.le_of_lt htrack)
        (Single.le_refl_iff.2 (isNaN_track h.viewHeight.isNaN hthumb)))
    exact Single.isFinite_of_mem hlow hmost (Single.isFinite_sub h.viewHeight hthumb hlength htrack)

/-- At a larger offset the thumb is not higher. -/
theorem thumbTop_le_thumbTop (hoffset : offset.IsFinite) (hoffset' : offset'.IsFinite)
    (hle : offset ≤ offset') (htop : (m.atOffset offset).thumbTop thumbHeight = .ok top)
    (htop' : (m.atOffset offset').thumbTop thumbHeight = .ok top') : top ≤ top' := by
  rcases thumbTop_cases h hthumb with ⟨_, hzero⟩ | ⟨htrack, hrange, hplace⟩
  · rw [hzero] at htop htop'
    cases htop
    cases htop'
    exact Single.le_refl_iff.2 Single.isNaN_zero
  · rw [hplace] at htop htop'
    have hfinite := Single.isFinite_sub h.viewHeight hthumb hlength htrack
    -- Every operation on the way keeps the order, also where it goes out of range.
    have hfraction := Single.div_le_div_right hoffset hoffset' hrange hle
    have hpart := Single.mul_le_mul_left hfinite htrack hfraction
    exact Single.clamp_le_clamp (Single.nearest_le_nearest hpart) htop htop'

/-- At no positive offset, or without a range, the thumb is at the top. -/
theorem thumbTop_le_zero (hoffset : offset.IsFinite) (hnone : offset ≤ 0 ∨ m.range ≤ 0)
    (htop : (m.atOffset offset).thumbTop thumbHeight = .ok top) : top ≤ 0 := by
  have hzero : (0 : Single) ≤ 0 := Single.le_refl_iff.2 Single.isNaN_zero
  rcases thumbTop_cases h hthumb with ⟨_, hstill⟩ | ⟨htrack, hrange, hplace⟩
  · rw [hstill] at htop
    cases htop
    exact hzero
  · rw [hplace] at htop
    have hoffset' : offset ≤ 0 :=
      hnone.resolve_right (fun hless => Single.not_lt_of_le hless hrange)
    have hfinite := Single.isFinite_sub h.viewHeight hthumb hlength htrack
    have hfraction := Single.div_le_zero hoffset hrange hoffset'
    have hpart := Single.mul_le_zero hfinite htrack hfraction
    exact Single.clamp_le htop (Single.nearest_le_zero hpart) hzero

/-- At the end of the range the thumb is at the bottom, but for the half pixel that rounding may take. -/
theorem track_le_thumbTop (htrack : 0 < m.track thumbHeight) (hrange : 0 < m.range)
    (hoffset : offset.IsFinite) (hend : m.range ≤ offset)
    (htop : (m.atOffset offset).thumbTop thumbHeight = .ok top) :
    m.track thumbHeight ≤ top ∨ (m.track thumbHeight).nearest ≤ top := by
  rcases thumbTop_cases h hthumb with ⟨hnone | hnone, _⟩ | ⟨_, _, hplace⟩
  · exact absurd htrack (Single.not_lt_of_le hnone)
  · exact absurd hrange (Single.not_lt_of_le hnone)
  · rw [hplace] at htop
    have hfinite := Single.isFinite_sub h.viewHeight hthumb hlength htrack
    -- A range that a finite offset has passed is finite.
    have hrange' := Single.isFinite_of_mem (Single.le_of_lt hrange) hend hoffset
    -- The fraction is at least one, and so is the part of the track the whole of it.
    have hwhole : 1 ≤ offset / m.range := by
      rw [← Single.div_self hrange' hrange]
      exact Single.div_le_div_right hrange' hoffset hrange hend
    have hpart : m.track thumbHeight ≤ m.track thumbHeight * (offset / m.range) := by
      have hless := Single.mul_le_mul_left hfinite htrack hwhole
      rwa [Single.mul_one hfinite] at hless
    have hnearest := Single.nearest_le_nearest hpart
    have htrackNumber := hfinite.isNaN
    -- The place is limited to the track only if rounding went up.
    by_cases hshort : m.track thumbHeight ≤ (m.track thumbHeight).nearest
    · exact Or.inl (Single.le_clamp htop (Single.le_trans hshort hnearest)
        (Single.le_refl_iff.2 htrackNumber))
    · have hless := Single.lt_of_not_le htrackNumber (Single.isNaN_nearest htrackNumber) hshort
      exact Or.inr (Single.le_clamp htop hnearest (Single.le_of_lt hless))

/-- The same in pixels. -/
theorem value_track_le (htrack : 0 < m.track thumbHeight) (hrange : 0 < m.range)
    (hoffset : offset.IsFinite) (hend : m.range ≤ offset)
    (htop : (m.atOffset offset).thumbTop thumbHeight = .ok top) :
    (m.track thumbHeight).value - 1 / 2 ≤ top.value := by
  have hfinite : (m.track thumbHeight).IsFinite :=
    Single.isFinite_sub h.viewHeight hthumb hlength htrack
  have hplace := isFinite_thumbTop h hthumb hlength hoffset htop
  have hclose := track_le_thumbTop h hthumb hlength htrack hrange hoffset hend htop
  generalize m.track thumbHeight = track at *
  rcases Single.exists_finite_of_zero_lt hfinite htrack with ⟨size, rfl⟩
  rcases hclose with hmost | hmost
  · have hvalue := Single.value_le_value hfinite hplace hmost
    linarith
  · -- The whole number nearest to the track is at most half a pixel below it.
    have hhalf := Single.value_le_nearest size
    have hnearest : (Single.finite false size).nearest.IsFinite :=
      Single.nearest_finite false size ▸ trivial
    have hvalue := Single.value_le_value hnearest hplace hmost
    linarith

end

/-- For every offset there is a place, finite and on the track, and a larger offset never gives a higher
one. The place is the top of the track at offsets that are not positive and where the content has no range;
from the end of the range on it is the bottom, but for half a pixel. -/
theorem thumbTop_follows_offset (h : m.IsFinite) (hthumb : thumbHeight.IsFinite)
    (hlength : 0 ≤ thumbHeight) :
    ∃ place : Single → Single,
      (∀ offset, (m.atOffset offset).thumbTop thumbHeight = .ok (place offset)) ∧
      (∀ offset, offset.IsFinite →
        (place offset).IsFinite ∧ 0 ≤ place offset ∧
          place offset ≤ max 0 (m.track thumbHeight)) ∧
      (∀ offset offset', offset.IsFinite → offset'.IsFinite → offset ≤ offset' →
        place offset ≤ place offset') ∧
      (∀ offset, offset.IsFinite → offset ≤ 0 ∨ m.range ≤ 0 →
        (place offset).sameSize 0 = true) ∧
      ∀ offset, offset.IsFinite → 0 < m.track thumbHeight → 0 < m.range → m.range ≤ offset →
        (m.track thumbHeight).value - 1 / 2 ≤ (place offset).value := by
  have hplaced : ∀ offset, ∃ top, (m.atOffset offset).thumbTop thumbHeight = .ok top :=
    fun offset => exists_thumbTop _ h.viewHeight.isNaN hthumb
  -- Every offset has a place, so that the places are a function of the offsets.
  choose place hplace using hplaced
  refine ⟨place, hplace, ?_, ?_, ?_, ?_⟩
  · intro offset hoffset
    have hmem := thumbTop_mem (h.atOffset hoffset) hthumb hlength (hplace offset)
    exact ⟨isFinite_thumbTop h hthumb hlength hoffset (hplace offset), hmem⟩
  · intro offset offset' hoffset hoffset' hle
    exact thumbTop_le_thumbTop h hthumb hlength hoffset hoffset' hle (hplace offset) (hplace offset')
  · intro offset hoffset hnone
    have hmem := thumbTop_mem (h.atOffset hoffset) hthumb hlength (hplace offset)
    have hmost := thumbTop_le_zero h hthumb hlength hoffset hnone (hplace offset)
    exact Single.sameSize_iff.2 ⟨hmost, hmem.1⟩
  · intro offset hoffset htrack hrange hend
    exact value_track_le h hthumb hlength htrack hrange hoffset hend (hplace offset)

/-- The theorem speaks of a track that is no whole number of pixels; at the end of the range the thumb is
where the track ends. -/
theorem thumbTop_follows_offset_uneven :
    (ScrollMetrics.mk 200.5 1000 0 200 20).IsFinite ∧ (48 : Single).IsFinite ∧ (0 : Single) ≤ 48 ∧
      ∃ place : Single → Single,
        (∀ offset, ((ScrollMetrics.mk 200.5 1000 0 200 20).atOffset offset).thumbTop 48 =
          .ok (place offset)) ∧
        place 410 ≤ place 820 ∧ place 410 = 76 ∧ place 820 = 152.5 := by
  have hfinite : (ScrollMetrics.mk 200.5 1000 0 200 20).IsFinite :=
    ⟨by decide +kernel, by decide +kernel, by decide +kernel, by decide +kernel, by decide +kernel⟩
  have hthumb : (48 : Single).IsFinite := by decide +kernel
  have hlength : (0 : Single) ≤ 48 := by decide +kernel
  rcases thumbTop_follows_offset hfinite hthumb hlength with ⟨place, hplace, _, horder, _, _⟩
  have hmiddle : ((ScrollMetrics.mk 200.5 1000 0 200 20).atOffset 410).thumbTop 48 = .ok 76 := by
    decide +kernel
  have hend : ((ScrollMetrics.mk 200.5 1000 0 200 20).atOffset 820).thumbTop 48 = .ok 152.5 := by
    decide +kernel
  have hless : place 410 ≤ place 820 :=
    horder 410 820 (by decide +kernel) (by decide +kernel) (by decide +kernel)
  exact ⟨hfinite, hthumb, hlength, place, hplace, hless,
    Except.ok.inj ((hplace 410).symm.trans hmiddle), Except.ok.inj ((hplace 820).symm.trans hend)⟩

end ScrollMetrics

/-! ## Under a pointer -/

section

variable {pointer pointer' viewHeight : Single}

theorem isNaN_track_ofNat (thumbHeight : UInt32) (h : viewHeight.isNaN = false) :
    (viewHeight - Single.ofNat thumbHeight.toNat).isNaN = false := by
  have hbound := thumbHeight.toNat_lt
  exact Single.isNaN_sub h (Single.isFinite_ofNat (by omega))

/-- Under a pointer that is further down the thumb is not higher. -/
theorem draggedTop_le_draggedTop (thumbHeight : UInt32) (viewHeight : Single)
    (h : pointer ≤ pointer') :
    draggedTop pointer thumbHeight viewHeight ≤ draggedTop pointer' thumbHeight viewHeight := by
  have hbound := thumbHeight.toNat_lt
  have hhalf : (Single.ofNat (thumbHeight.toNat / 2)).IsFinite := Single.isFinite_ofNat (by omega)
  have htop := Single.sub_le_sub hhalf (Single.trunc_le_trunc h)
  exact Single.max_zero_le_max_zero (Single.min_le_min_right _ htop)

/-- A thumb that has room on the track around the pointer is not moved. -/
theorem draggedTop_eq {thumbHeight : UInt32}
    (hlow : 0 ≤ pointer.trunc - Single.ofNat (thumbHeight.toNat / 2))
    (hhigh : pointer.trunc - Single.ofNat (thumbHeight.toNat / 2) ≤
      viewHeight - Single.ofNat thumbHeight.toNat) :
    draggedTop pointer thumbHeight viewHeight =
      pointer.trunc - Single.ofNat (thumbHeight.toNat / 2) := by
  unfold draggedTop
  dsimp only
  generalize pointer.trunc - Single.ofNat (thumbHeight.toNat / 2) = top at *
  have hmin : min top (viewHeight - Single.ofNat thumbHeight.toNat) = top := by
    show Single.min top _ = top
    unfold Single.min
    rw [Single.isNaN_of_le_right hlow, if_neg Bool.false_ne_true]
    exact if_neg (Single.not_lt_of_le hhigh)
  rw [hmin]
  show Single.max top 0 = top
  unfold Single.max
  rw [Single.isNaN_of_le_right hlow, if_neg Bool.false_ne_true]
  exact if_neg (Single.not_lt_of_le hlow)

/-- Wherever the pointer is, and if it is nowhere, the thumb is on the track, or at its top if the thumb is
longer than the view. It follows the pointer down, and is held by its middle where the track has room. -/
theorem draggedTop_follows_pointer (thumbHeight : UInt32) (h : viewHeight.isNaN = false) :
    (∀ pointer, (draggedTop pointer thumbHeight viewHeight).isNaN = false ∧
      0 ≤ draggedTop pointer thumbHeight viewHeight ∧
        draggedTop pointer thumbHeight viewHeight ≤
          max 0 (viewHeight - Single.ofNat thumbHeight.toNat)) ∧
      (∀ pointer pointer', pointer ≤ pointer' →
        draggedTop pointer thumbHeight viewHeight ≤ draggedTop pointer' thumbHeight viewHeight) ∧
      ∀ pointer : Single, 0 ≤ pointer.trunc - Single.ofNat (thumbHeight.toNat / 2) →
        pointer.trunc - Single.ofNat (thumbHeight.toNat / 2) ≤
          viewHeight - Single.ofNat thumbHeight.toNat →
        draggedTop pointer thumbHeight viewHeight =
          pointer.trunc - Single.ofNat (thumbHeight.toNat / 2) := by
  refine ⟨?_, ?_, ?_⟩
  · intro pointer
    rcases draggedTop_mem pointer thumbHeight (isNaN_track_ofNat thumbHeight h) with ⟨hlow, hhigh⟩
    exact ⟨Single.isNaN_of_le_right hlow, hlow, hhigh⟩
  · intro pointer pointer' hle
    exact draggedTop_le_draggedTop thumbHeight viewHeight hle
  · intro pointer hlow hhigh
    exact draggedTop_eq hlow hhigh

/-- The theorem speaks of a pointer that is nowhere and of one that holds the thumb by its middle. -/
theorem draggedTop_follows_pointer_nowhere :
    (200 : Single).isNaN = false ∧ (draggedTop .nan 48 200).isNaN = false ∧
      draggedTop .nan 48 200 = 152 ∧
      (∀ pointer, pointer ≤ 100.7 → draggedTop pointer 48 200 ≤ draggedTop 100.7 48 200) ∧
      draggedTop 100.7 48 200 = 76 := by
  have hview : (200 : Single).isNaN = false := by decide +kernel
  rcases draggedTop_follows_pointer 48 hview with ⟨hplace, horder, hmiddle⟩
  have hheld := hmiddle 100.7 (by decide +kernel) (by decide +kernel)
  exact ⟨hview, (hplace .nan).1, by decide +kernel, fun pointer hle => horder pointer _ hle,
    hheld.trans (by decide +kernel)⟩

end

end OverlayScrollbar
