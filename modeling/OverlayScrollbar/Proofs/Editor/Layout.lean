import OverlayScrollbar.Proofs.Editor.Notifications
import OverlayScrollbar.Proofs.Single.Products

/-!
# The height of the lines

An editor tells the height of its lines as soon as its view has a height. The view has the height that it
was given last, whatever else is done to the editor, and there is always a line; so the height that is told
is above zero if that of one line is.

- `EditorHost.givenHeight`           : the height that operations give to the view
- `EditorHost.viewport_of_operate`   : no other operation changes the view's height
- `EditorHost.viewport_of_run`       : the view's height after a run
- `EditorHost.layoutHeight?_of_run`  : the height that is told after a run
- `EditorHost.zero_lt_layoutHeight?` : the sign of this height
-/

namespace OverlayScrollbar

namespace EditorHost

variable {D E : Type} [TextEditor D E] {host after last : EditorHost D} {text : String}
  {lineHeight : Single} {operations : List (Operation E)}
  {steps : List (Step (EditorHost D) (Operation E) Changes)}

/-! ## The height of the view -/

/-- The height that is given to the view, if it was the given one before. -/
def Operation.given (before : Single) : Operation E → Single
  | .setViewport height => height
  | _ => before

/-- The height that is given to the view last, which has none at first. -/
def givenHeight (operations : List (Operation E)) : Single :=
  operations.foldl Operation.given 0

theorem givenHeight_concat (operations : List (Operation E)) (operation : Operation E) :
    givenHeight (operations ++ [operation]) = operation.given (givenHeight operations) :=
  List.foldl_concat _ _ _ _

theorem viewport_of_scrollLines {lines : Int} (h : host.scrollLines lines = .ok after) :
    after.tracker.viewport = host.tracker.viewport := by
  rcases Checked.bind_eq_ok_iff.1 h with ⟨⟨tracker, applied⟩, hscrolled, h⟩
  rcases ScrollTracker.scrollBy_eq_ok hscrolled with ⟨line, rfl, _⟩
  dsimp only at h
  split at h
  · cases Except.ok.inj h
    rfl
  · cases Except.ok.inj h
    rw [tracker_notifyIfMoved]

theorem viewport_of_edit {edit : E} (h : host.edit edit = .ok after) :
    after.tracker.viewport = host.tracker.viewport := by
  unfold EditorHost.edit at h
  dsimp only at h
  split at h
  · cases Except.ok.inj h
    rw [tracker_notifyIfMoved]
    rfl
  · rcases Checked.bind_eq_ok_iff.1 h with ⟨⟨followed, applied⟩, hfollowed, h⟩
    cases Except.ok.inj h
    rcases ScrollTracker.followLine_eq_ok hfollowed with ⟨first, rfl, _⟩
    rw [tracker_notifyIfMoved]
    rfl

theorem viewport_startFling (t : ScrollTracker) (lines : Int) :
    (t.startFling lines).viewport = t.viewport := by
  unfold ScrollTracker.startFling
  rfl

theorem viewport_of_perform {action : EditorAction E} (h : host.perform action = .ok after) :
    after.tracker.viewport = host.tracker.viewport := by
  cases action with
  | scroll lines =>
      rcases Checked.bind_eq_ok_iff.1 h with ⟨scrolled, hscrolled, hafter⟩
      cases Except.ok.inj hafter
      exact (viewport_startFling _ _).trans (viewport_of_scrollLines hscrolled)
  | edit edit => exact viewport_of_edit h

theorem viewport_of_tickFling (h : host.tickFling = .ok after) :
    after.tracker.viewport = host.tracker.viewport := by
  rcases host.tracker.flingStep_eq with ⟨velocity, remainder, hstep⟩
  unfold EditorHost.tickFling at h
  dsimp only at h
  split at h
  · cases Except.ok.inj h
    rw [hstep]
  · rw [viewport_of_scrollLines h, hstep]

/-- The view's height is what it was, or what it is given, unless that is below zero. -/
theorem viewport_of_operate {operation : Operation E} {handed : Changes} {before : Single}
    (hbefore : host.tracker.viewport = max before 0)
    (h : host.operate operation = .ok (after, handed)) :
    after.tracker.viewport = max (operation.given before) 0 := by
  -- Only the operation that sets the height reaches it.
  cases operation with
  | perform action =>
      rcases Checked.bind_eq_ok_iff.1 h with ⟨performed, hperformed, hafter⟩
      cases Except.ok.inj hafter
      exact (viewport_of_perform hperformed).trans hbefore
  | tickFling =>
      rcases Checked.bind_eq_ok_iff.1 h with ⟨ticked, hticked, hafter⟩
      cases Except.ok.inj hafter
      exact (viewport_of_tickFling hticked).trans hbefore
  | scrollTo x y =>
      rcases Checked.bind_eq_ok_iff.1 h with ⟨scrolled, hscrolled, hafter⟩
      cases Except.ok.inj hafter
      rcases Checked.bind_eq_ok_iff.1 hscrolled with ⟨delta, _, hlines⟩
      exact (viewport_of_scrollLines hlines).trans hbefore
  | abortFling =>
      cases Except.ok.inj h
      exact hbefore
  | setViewport height =>
      cases Except.ok.inj h
      rfl
  | drainChanges =>
      cases Except.ok.inj h
      exact hbefore
  | addListener id =>
      cases Except.ok.inj h
      exact hbefore

/-- After a run the view has the height that it was given last, unless that is below zero. -/
theorem viewport_of_run (h : (new text lineHeight).run operations = .ok (last, steps)) :
    last.tracker.viewport = max (givenHeight operations) 0 := by
  refine Machine.run_induct (motive := fun operations last _ =>
    last.tracker.viewport = max (givenHeight operations) 0) ?_ ?_ h
  · show (0 : Single) = max 0 0
    decide +kernel
  · intro operations operation before steps handed after _ hbefore hoperate
    rw [givenHeight_concat]
    exact viewport_of_operate hbefore hoperate

/-! ## The height of the lines -/

/-- There is always a line, and nothing changes the height of a line. -/
theorem measures_of_run (hfits : ∀ operation ∈ operations, operation.Fits)
    (h : (new text lineHeight).run operations = .ok (last, steps)) :
    0 < last.tracker.lineCount ∧ last.tracker.lineHeight = lineHeight := by
  have hkept := Machine.run_invariant
    (fun (host : EditorHost D) _ => host.tracker.firstLine < host.tracker.lineCount ∧
      host.tracker.lineHeight = lineHeight)
    ⟨firstLine_lt_new text lineHeight, rfl⟩
    (fun hbefore hoperation hoperate =>
      have hdoing := operate_eq_ok hoperation hoperate
      ⟨hdoing.firstLine_lt hbefore.1, hdoing.lineHeight_eq.trans hbefore.2⟩)
    hfits h
  exact ⟨Nat.zero_lt_of_lt hkept.1, hkept.2⟩

/-- After a run the height of all lines is told if the view was given a height. -/
theorem layoutHeight?_of_run (hfits : ∀ operation ∈ operations, operation.Fits)
    (h : (new text lineHeight).run operations = .ok (last, steps)) :
    ScrollHost.layoutHeight? last =
      if 0 < givenHeight operations then
        some (Single.ofNat last.tracker.lineCount * lineHeight)
      else none := by
  rcases measures_of_run hfits h with ⟨_, hheight⟩
  show last.tracker.layoutHeight? = _
  unfold ScrollTracker.layoutHeight?
  rw [viewport_of_run h, hheight]
  simp only [Single.zero_lt_max_zero_iff]

/-- The height that is told is above zero if that of a line is. -/
theorem zero_lt_layoutHeight? (hfits : ∀ operation ∈ operations, operation.Fits)
    (h : (new text lineHeight).run operations = .ok (last, steps))
    (hview : 0 < givenHeight operations) :
    ∃ height, ScrollHost.layoutHeight? last = some height ∧ (0 < height ↔ 0 < lineHeight) := by
  have hlines : 1 ≤ Single.ofNat last.tracker.lineCount :=
    Single.ofNat_le_ofNat (measures_of_run hfits h).1
  have htold := layoutHeight?_of_run hfits h
  rw [if_pos hview] at htold
  exact ⟨_, htold, Single.zero_lt_mul_of_one_le_iff hlines⟩

end EditorHost

end OverlayScrollbar
