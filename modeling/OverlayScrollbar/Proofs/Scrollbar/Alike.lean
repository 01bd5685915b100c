import OverlayScrollbar.Proofs.Pairs
import OverlayScrollbar.Proofs.Scrollbar.Requests
import OverlayScrollbar.Proofs.Single.Rank

/-!
# Scrollbars that differ in what they paint

Width, colour and sprites of a scrollbar decide what is painted, and nothing else. Two scrollbars that
differ in these alone stay so, whatever operation both carry out.

The heights of two such strips can come to differ too, but only by the sign of a zero: of two sizes
that are equal the older one is kept, unless the widths differ.

- `ScrollMetrics.Alike`, `Scrollbar.Alike` : equal but for what is painted
- `ScrollMetrics.Alike.thumbTop_eq`, `ScrollMetrics.Alike.targetOffset?_eq` : two thumbs are placed
  alike, and scroll alike
- `Scrollbar.SameReadings`       : two hosts in which the same is read
- `Scrollbar.Alike.measure`, `Scrollbar.Alike.hostScrolled`, `Scrollbar.Alike.touch`,
  `Scrollbar.Alike.timerElapsed`, `Scrollbar.Alike.resize`, `Scrollbar.Alike.recolor`,
  `Scrollbar.Alike.draw` : one lemma for each operation
-/

namespace OverlayScrollbar

/-! ## Measurements -/

/-- The same was measured in two strips of one height, up to the sign of a zero. -/
structure ScrollMetrics.Alike (m other : ScrollMetrics) : Prop where
  viewHeight : other.viewHeight.rank? = m.viewHeight.rank?
  contentHeight : other.contentHeight = m.contentHeight
  offset : other.offset = m.offset
  hostHeight : other.hostHeight = m.hostHeight
  lineHeight : other.lineHeight = m.lineHeight

namespace ScrollMetrics.Alike

variable {m other : ScrollMetrics} {thumbHeight : Single}

/-- Two measurements that are alike are one, or there is no track in either strip. -/
theorem eq_or_zero (h : m.Alike other) : other = m ∨
    other.viewHeight.rank? = some 0 ∧ m.viewHeight.rank? = some 0 := by
  rcases Single.eq_or_zero_of_rank? h.viewHeight with hview | hzero
  · rcases m with ⟨view, content, offset, hostHeight, lineHeight⟩
    rcases other with ⟨view', content', offset', hostHeight', lineHeight'⟩
    rcases h with ⟨_, hcontent, hoffset, hhost, hline⟩
    cases hview
    cases hcontent
    cases hoffset
    cases hhost
    cases hline
    exact Or.inl rfl
  · exact Or.inr hzero

/-- A thumb is placed alike in both strips. -/
theorem thumbTop_eq (h : m.Alike other) (hthumb : thumbHeight.IsFinite) (hlength : 0 ≤ thumbHeight) :
    other.thumbTop thumbHeight = m.thumbTop thumbHeight := by
  rcases h.eq_or_zero with rfl | ⟨hother, hm⟩
  · rfl
  · have hnone : other.track thumbHeight ≤ 0 := Single.sub_le_zero hother hthumb hlength
    have hnone' : m.track thumbHeight ≤ 0 := Single.sub_le_zero hm hthumb hlength
    unfold thumbTop
    dsimp only
    rw [if_pos (Or.inl hnone), if_pos (Or.inl hnone')]

/-- A thumb that is dragged scrolls alike in both strips. -/
theorem targetOffset?_eq (h : m.Alike other) (hthumb : thumbHeight.IsFinite)
    (hlength : 0 ≤ thumbHeight) (pointer : Single) (height : UInt32) :
    other.targetOffset? thumbHeight (draggedTop pointer height other.viewHeight) =
      m.targetOffset? thumbHeight (draggedTop pointer height m.viewHeight) := by
  rcases h.eq_or_zero with rfl | ⟨hother, hm⟩
  · rfl
  · have hnone : other.track thumbHeight ≤ 0 := Single.sub_le_zero hother hthumb hlength
    have hnone' : m.track thumbHeight ≤ 0 := Single.sub_le_zero hm hthumb hlength
    unfold targetOffset?
    dsimp only
    rw [if_pos hnone, if_pos hnone']

theorem isLong_eq (h : m.Alike other) (minRatio : Single) :
    other.isLong minRatio = m.isLong minRatio := by
  unfold isLong
  rw [h.hostHeight, h.contentHeight]

end ScrollMetrics.Alike

/-- A pointer drags both thumbs to the same place. -/
theorem rank?_draggedTop_congr {viewHeight viewHeight' : Single}
    (h : viewHeight'.rank? = viewHeight.rank?) (pointer : Single) (thumbHeight : UInt32) :
    (draggedTop pointer thumbHeight viewHeight').rank? =
      (draggedTop pointer thumbHeight viewHeight).rank? := by
  unfold draggedTop
  apply Single.rank?_max_congr
  · apply Single.rank?_min_congr rfl
    exact Single.rank?_sub_congr h _
  · rfl

/-- The pointer was pressed. -/
def Touch.isPress : Touch → Bool
  | .pressed _ _ => true
  | _ => false

namespace Scrollbar

/-! ## The relation -/

/-- Two scrollbars are equal but for their listeners, their widths, colours and sprites, whether a
frame was asked for, and the sign of a zero. -/
structure Alike (bar other : Scrollbar) : Prop where
  settings : other.settings = bar.settings
  visibility : other.visibility = bar.visibility
  linked : other.linked = bar.linked
  pressed : other.pressed = bar.pressed
  alpha : other.alpha = bar.alpha
  timers : other.timers = bar.timers
  height : other.height.rank? = bar.height.rank?
  top : other.top.rank? = bar.top.rank?
  metrics : bar.metrics.Alike other.metrics

namespace Alike

variable {bar other : Scrollbar}

theorem refl_new (id id' : ListenerId) (settings : ScrollbarSettings) (tint tint' : Color) :
    (new id settings tint).Alike (new id' settings tint') :=
  ⟨rfl, rfl, rfl, rfl, rfl, rfl, rfl, rfl, ⟨rfl, rfl, rfl, rfl, rfl⟩⟩

theorem thumbHeight_eq (h : bar.Alike other) : other.thumbHeight = bar.thumbHeight :=
  congrArg ScrollbarSettings.thumbHeight h.settings

theorem thumbLength_eq (h : bar.Alike other) : other.thumbLength = bar.thumbLength := by
  unfold thumbLength
  rw [h.thumbHeight_eq]

theorem isJustified_eq (h : bar.Alike other) : other.isJustified = bar.isJustified := by
  unfold isJustified
  rw [h.settings]
  exact h.metrics.isLong_eq _

/-! ## Shared steps -/

theorem enter (h : bar.Alike other) (visibility : Visibility) :
    (bar.enter visibility).Alike (other.enter visibility) := by
  unfold Scrollbar.enter
  rw [h.isJustified_eq]
  split
  · exact h
  · exact ⟨h.settings, rfl, h.linked, h.pressed, h.alpha, congrArg Timers.cancelAll h.timers,
      h.height, h.top, h.metrics⟩

theorem schedule (h : bar.Alike other) (delay : UInt64) :
    Checked.Corresponds Alike (bar.schedule delay) (other.schedule delay) := by
  unfold Scrollbar.schedule
  rw [h.timers]
  refine (Checked.Corresponds.refl _).bind ?_
  rintro ⟨timers, token⟩ _ rfl
  exact .ok ⟨h.settings, h.visibility, h.linked, h.pressed, h.alpha, rfl, h.height, h.top,
    h.metrics⟩

theorem scheduleAutoHide (h : bar.Alike other) :
    Checked.Corresponds Alike bar.scheduleAutoHide other.scheduleAutoHide := by
  unfold Scrollbar.scheduleAutoHide
  rw [h.visibility, h.settings]
  split
  · exact .ok h
  · exact h.schedule _

/-- To take hold of a thumb, or to let it go, keeps scrollbars alike. -/
theorem withPressed (h : bar.Alike other) (pressed : Bool) :
    ({ bar with pressed := pressed } : Scrollbar).Alike { other with pressed := pressed } :=
  ⟨h.settings, h.visibility, h.linked, rfl, h.alpha, h.timers, h.height, h.top, h.metrics⟩

theorem withTop (h : bar.Alike other) {top top' : Single} (htop : top'.rank? = top.rank?) :
    ({ bar with top := top } : Scrollbar).Alike { other with top := top' } :=
  ⟨h.settings, h.visibility, h.linked, h.pressed, h.alpha, h.timers, h.height, htop, h.metrics⟩

/-- Whether a frame was asked for is not compared. -/
theorem invalidate (h : bar.Alike other) : bar.invalidate.Alike other.invalidate :=
  ⟨h.settings, h.visibility, h.linked, h.pressed, h.alpha, h.timers, h.height, h.top, h.metrics⟩

theorem release (h : bar.Alike other) :
    Checked.Corresponds Alike bar.release other.release :=
  ((h.enter .visible).withPressed false).scheduleAutoHide

end Alike

/-! ## Hosts -/

section Host

variable {H : Type} [ScrollHost H] {bar other : Scrollbar} {host host' : H}

/-- The same is read in two hosts, before and after their flings are stopped. -/
structure SameReadings (host host' : H) : Prop where
  layoutHeight? : ScrollHost.layoutHeight? host' = ScrollHost.layoutHeight? host
  scrollY : ScrollHost.scrollY host' = ScrollHost.scrollY host
  height : ScrollHost.height host' = ScrollHost.height host
  lineHeight : ScrollHost.lineHeight host' = ScrollHost.lineHeight host
  scrollX : ScrollHost.scrollX (ScrollHost.abortFling host') =
    ScrollHost.scrollX (ScrollHost.abortFling host)

/-- The thumbs scroll their hosts to the same place. -/
theorem corresponds_scrollHost {watched watched' : WatchedHost H}
    (hlength : other.thumbLength = bar.thumbLength)
    (hoffset : other.metrics.targetOffset? bar.thumbLength other.top =
      bar.metrics.targetOffset? bar.thumbLength bar.top)
    (hx : ScrollHost.scrollX watched' = ScrollHost.scrollX watched)
    (hrecord : watched'.record = watched.record) :
    Checked.Corresponds (fun after after' => after'.record = after.record)
      (bar.scrollHost watched) (other.scrollHost watched') := by
  unfold Scrollbar.scrollHost
  rw [hlength, hoffset, hx]
  cases bar.metrics.targetOffset? bar.thumbLength bar.top with
  | none => exact .ok hrecord
  | some y =>
      intro after after' hafter hafter'
      rw [WatchedHost.record_of_scrollTo hafter, WatchedHost.record_of_scrollTo hafter', hrecord]

namespace Alike

theorem measure (h : bar.Alike other) (hhost : SameReadings host host') :
    Checked.Corresponds Alike (bar.measure host) (other.measure host') := by
  unfold Scrollbar.measure
  rw [h.linked, hhost.layoutHeight?]
  split
  · cases ScrollHost.layoutHeight? host with
    | none => exact .ok h
    | some contentHeight =>
        -- The widths may differ, but nothing that is measured reads them.
        have hmetrics : ScrollMetrics.Alike
            ⟨bar.height, contentHeight, ScrollHost.scrollY host, ScrollHost.height host,
              ScrollHost.lineHeight host⟩
            ⟨other.height, contentHeight, ScrollHost.scrollY host', ScrollHost.height host',
              ScrollHost.lineHeight host'⟩ :=
          ⟨h.height, rfl, hhost.scrollY, hhost.height, hhost.lineHeight⟩
        dsimp only
        rw [h.thumbLength_eq,
          hmetrics.thumbTop_eq (isFinite_thumbLength bar) (Single.zero_le_ofNat _)]
        refine (Checked.Corresponds.refl _).bind ?_
        rintro top _ rfl
        exact .ok ⟨h.settings, h.visibility, rfl, h.pressed, h.alpha, h.timers, h.height, rfl,
          hmetrics⟩
  · exact .ok h

theorem hostScrolled (h : bar.Alike other) (hhost : SameReadings host host') :
    Checked.Corresponds Alike (bar.hostScrolled host) (other.hostScrolled host') := by
  unfold Scrollbar.hostScrolled
  rw [h.linked, h.visibility]
  split
  · exact .ok h
  · refine (h.measure hhost).bind ?_
    intro measured measured' hmeasured
    exact (hmeasured.enter .visible).scheduleAutoHide

/-- A touch that is not a press asks the same of both hosts. A press may hit one thumb and miss the
other, since the widths differ. -/
theorem touch {watched watched' : WatchedHost H} {event : Touch} (h : bar.Alike other)
    (hhost : SameReadings watched watched') (hrecord : watched'.record = watched.record)
    (hevent : event.isPress = false) :
    Checked.Corresponds (fun x y => x.1.Alike y.1 ∧ y.2.1.record = x.2.1.record)
      (bar.touch watched event) (other.touch watched' event) := by
  unfold Scrollbar.touch
  rw [h.linked, h.visibility]
  split
  · exact .ok ⟨h, hrecord⟩
  · refine (h.measure hhost).bind ?_
    intro measured measured' hmeasured
    -- The drag goes on for both or for neither.
    have hsame : measured'.visibility = .dragging ↔ measured.visibility = .dragging := by
      rw [hmeasured.visibility]
    cases event with
    | pressed x y => cases hevent
    | moved x y =>
        dsimp only
        by_cases hdragging : measured.visibility = .dragging
        · rw [if_pos hdragging, if_pos (hsame.2 hdragging), hmeasured.thumbHeight_eq]
          have htop := rank?_draggedTop_congr hmeasured.metrics.viewHeight y measured.thumbHeight
          have hdragged := (hmeasured.withPressed true).withTop htop
          have hoffset := hmeasured.metrics.targetOffset?_eq (isFinite_thumbLength measured)
            (Single.zero_le_ofNat _) y measured.thumbHeight
          refine (corresponds_scrollHost hdragged.thumbLength_eq hoffset hhost.scrollX ?_).bind ?_
          · rw [WatchedHost.record_abortFling, WatchedHost.record_abortFling, hrecord]
          · intro scrolled scrolled' hscrolled
            exact .ok ⟨hdragged.invalidate, hscrolled⟩
        · rw [if_neg hdragging, if_neg (mt hsame.1 hdragging)]
          exact .ok ⟨hmeasured, hrecord⟩
    | released x y =>
        refine hmeasured.release.bind ?_
        intro released released' hreleased
        exact .ok ⟨hreleased, hrecord⟩
    | cancelled =>
        dsimp only
        by_cases hdragging : measured.visibility = .dragging
        · rw [if_pos hdragging, if_pos (hsame.2 hdragging)]
          refine hmeasured.release.bind ?_
          intro released released' hreleased
          exact .ok ⟨hreleased, hrecord⟩
        · rw [if_neg hdragging, if_neg (mt hsame.1 hdragging)]
          exact .ok ⟨hmeasured, hrecord⟩

end Alike

end Host

/-! ## Operations without a host -/

/-- What of a scrollbar decides how it looks and whether it is drawn. -/
structure Look where
  width : Single
  needsRedraw : Bool
  sprites : SpriteCache
  tint : Color

/-- The scrollbar with another look. -/
def withLook (bar : Scrollbar) (look : Look) : Scrollbar :=
  { bar with
    width := look.width
    needsRedraw := look.needsRedraw
    sprites := look.sprites
    tint := look.tint }

/-- How far the thumb is shown or has faded, and the timers by which it goes on. -/
structure Phase where
  visibility : Visibility
  alpha : UInt8
  timers : Timers

/-- The phase to which a frame leads: a thumb that fades takes one step. -/
def nextPhase (bar : Scrollbar) : Phase :=
  if !bar.linked then ⟨bar.visibility, bar.alpha, bar.timers⟩
  else
    match bar.visibility with
    | .hidden => ⟨.hidden, bar.alpha, bar.timers⟩
    | .visible => ⟨.visible, bar.settings.maxAlpha, bar.timers⟩
    | .dragging => ⟨.dragging, bar.settings.maxAlpha, bar.timers⟩
    | .exiting =>
        if bar.settings.fadeFloor < bar.alpha then
          ⟨.exiting, UInt8.ofNat (bar.alpha.toNat - bar.settings.fadeStep.toNat),
            bar.timers.scheduled bar.settings.fadeTick⟩
        else ⟨.hidden, 0, bar.timers.cancelAll⟩

/-- The scrollbar in another phase. -/
def withPhase (bar : Scrollbar) (phase : Phase) : Scrollbar :=
  { bar with visibility := phase.visibility, alpha := phase.alpha, timers := phase.timers }

/-- A frame leads to the next phase, and whether the sprites can be drawn decides only how the
scrollbar looks. -/
theorem eq_nextPhase_of_draw {bar after : Scrollbar} {frame? : Option Frame}
    (h : bar.draw = .ok (after, frame?)) :
    ∃ look, after = (bar.withPhase bar.nextPhase).withLook look := by
  cases draw_eq_ok h with
  | blank inactive =>
      refine ⟨⟨bar.width, false, bar.sprites, bar.tint⟩, ?_⟩
      rcases inactive with hunlinked | hhidden
      · simp [nextPhase, withPhase, withLook, hunlinked]
      · simp [nextPhase, withPhase, withLook, hhidden]
  | @steady sprites _ _ linked seen not_exiting _ after_eq =>
      refine ⟨⟨bar.width, false, sprites, bar.tint⟩, after_eq.trans ?_⟩
      -- A thumb that is neither hidden nor fading stays in its phase.
      cases hvisibility : bar.visibility with
      | hidden => exact absurd hvisibility seen
      | visible => simp [nextPhase, withPhase, withLook, linked, hvisibility]
      | dragging => simp [nextPhase, withPhase, withLook, linked, hvisibility]
      | exiting => exact absurd hvisibility not_exiting
  | @faded sprites _ _ linked exiting above _ after_eq =>
      refine ⟨⟨bar.width, false, sprites, bar.tint⟩, after_eq.trans ?_⟩
      simp [nextPhase, withPhase, withLook, linked, exiting, above]
  | @vanished sprites _ _ linked exiting below _ after_eq =>
      refine ⟨⟨bar.width, true, sprites, bar.tint⟩, after_eq.trans ?_⟩
      simp [nextPhase, withPhase, withLook, linked, exiting, below]

/-- Another size leaves the height, if it is equal, or sets it. -/
theorem eq_withLook_of_resize (bar : Scrollbar) (width height : Single) :
    ∃ height' look, bar.resize width height = withLook { bar with height := height' } look ∧
      height'.rank? = height.rank? := by
  unfold resize
  split
  · rename_i hsame
    exact ⟨bar.height, ⟨bar.width, bar.needsRedraw, bar.sprites, bar.tint⟩, rfl,
      Single.rank?_of_sameSize (Bool.and_eq_true_iff.1 hsame).2⟩
  · exact ⟨height, ⟨width, true, bar.sprites.clear, bar.tint⟩, rfl, rfl⟩

theorem eq_withLook_of_recolor (bar : Scrollbar) (tint : Color) :
    ∃ look, bar.recolor tint = bar.withLook look := by
  unfold recolor
  split
  · exact ⟨⟨bar.width, bar.needsRedraw, bar.sprites, bar.tint⟩, rfl⟩
  · exact ⟨⟨bar.width, true, bar.sprites.clear, tint⟩, rfl⟩

namespace Alike

variable {bar other : Scrollbar}

theorem withLook (h : bar.Alike other) (look look' : Look) :
    (bar.withLook look).Alike (other.withLook look') :=
  ⟨h.settings, h.visibility, h.linked, h.pressed, h.alpha, h.timers, h.height, h.top, h.metrics⟩

theorem withTimers (h : bar.Alike other) (timers : Timers) :
    ({ bar with timers := timers } : Scrollbar).Alike { other with timers := timers } :=
  ⟨h.settings, h.visibility, h.linked, h.pressed, h.alpha, rfl, h.height, h.top, h.metrics⟩

theorem withHeight (h : bar.Alike other) {height height' : Single}
    (hheight : height'.rank? = height.rank?) :
    ({ bar with height := height } : Scrollbar).Alike { other with height := height' } :=
  ⟨h.settings, h.visibility, h.linked, h.pressed, h.alpha, h.timers, hheight, h.top, h.metrics⟩

theorem timerElapsed (h : bar.Alike other) (token : TimerToken) :
    (bar.timerElapsed token).Alike (other.timerElapsed token) := by
  unfold Scrollbar.timerElapsed
  dsimp only
  rw [h.timers]
  split
  · exact (h.withTimers _).enter .exiting
  · exact h

/-- Strips of any two widths are told one height. -/
theorem resize (h : bar.Alike other) (width width' height : Single) :
    (bar.resize width height).Alike (other.resize width' height) := by
  rcases eq_withLook_of_resize bar width height with ⟨own, look, hbar, hown⟩
  rcases eq_withLook_of_resize other width' height with ⟨own', look', hother, hown'⟩
  rw [hbar, hother]
  exact (h.withHeight (hown'.trans hown.symm)).withLook look look'

theorem recolor (h : bar.Alike other) (tint tint' : Color) :
    (bar.recolor tint).Alike (other.recolor tint') := by
  rcases eq_withLook_of_recolor bar tint with ⟨look, hbar⟩
  rcases eq_withLook_of_recolor other tint' with ⟨look', hother⟩
  rw [hbar, hother]
  exact h.withLook look look'

theorem nextPhase_eq (h : bar.Alike other) : other.nextPhase = bar.nextPhase := by
  unfold nextPhase
  rw [h.linked, h.visibility, h.settings, h.alpha, h.timers]

theorem withPhase (h : bar.Alike other) (phase : Phase) :
    (bar.withPhase phase).Alike (other.withPhase phase) :=
  ⟨h.settings, rfl, h.linked, h.pressed, rfl, rfl, h.height, h.top, h.metrics⟩

/-- A frame takes the same step of the fade, whether or not anything is painted. -/
theorem draw (h : bar.Alike other) :
    Checked.Corresponds (fun x y => x.1.Alike y.1) bar.draw other.draw := by
  rintro ⟨after, frame?⟩ ⟨after', frame'?⟩ hafter hafter'
  rcases eq_nextPhase_of_draw hafter with ⟨look, rfl⟩
  rcases eq_nextPhase_of_draw hafter' with ⟨look', rfl⟩
  rw [h.nextPhase_eq]
  exact (h.withPhase bar.nextPhase).withLook look look'

theorem takeRequests (h : bar.Alike other) :
    bar.takeRequests.1.Alike other.takeRequests.1 ∧
      other.takeRequests.2 = bar.takeRequests.2 := by
  unfold Scrollbar.takeRequests
  dsimp only
  rw [h.timers]
  exact ⟨h.withTimers _, rfl⟩

end Alike

end Scrollbar

end OverlayScrollbar
