import OverlayScrollbar.Overlay
import OverlayScrollbar.Proofs.Run

/-!
# Gestures

The strip tells the application gestures that are whole: a touch that goes on or ends was begun by a
press on the thumb, and has not ended before. Between gestures it tells its size whenever that is
another than the one that it told last.

- `Overlay.Input`, `Overlay.run` : what the strip is handed, and one input after another
- `Overlay.Updating`             : the ways in which the strip handles an input
- `Overlay.Begun`                : a gesture was begun and has not ended
- `Overlay.Whole`                : every touch that goes on or ends belongs to a gesture
- `Overlay.Follows`              : what the strip remembers is what it has told
- `Overlay.Follows.of_updating`  : every input keeps this

Main statement: `run_gestures_whole`.
-/

namespace OverlayScrollbar

/-! ## Touches -/

/-- The touch belongs to a gesture that was begun before. -/
def Touch.Continues : Touch → Prop
  | .pressed _ _ => False
  | _ => True

/-- The touch ends its gesture. -/
def Touch.Ends : Touch → Prop
  | .released _ _ => True
  | .cancelled => True
  | _ => False

/-- The touch begins or moves a gesture, and its event goes no further. -/
def Touch.IsTaken : Touch → Prop
  | .pressed _ _ => True
  | .moved _ _ => True
  | _ => False

/-- The place of the pointer whose press an event is. -/
def PointerEvent.pressPlace? (event : PointerEvent) (cursor : Option Point) : Option Point :=
  match event with
  | .mouseDown .left => cursor
  | .fingerDown place => some place
  | _ => none

/-- A press is made over the strip, and is seen from the strip's corner. -/
theorem PointerEvent.exists_place_of_pressed {event : PointerEvent} {bounds : Rect}
    {cursor : Option Point} {pressed : Bool} {x y : Single}
    (h : event.touch? bounds cursor pressed = some (.pressed x y)) :
    ∃ place, event.pressPlace? cursor = some place ∧ bounds.contains place = true ∧
      bounds.relative place = ⟨x, y⟩ := by
  cases event with
  | mouseDown button =>
      cases button with
      | left =>
          cases cursor with
          | none => cases h
          | some place =>
              rcases Option.map_eq_some_iff.1 h with ⟨seen, hover, hseen⟩
              unfold overStrip? at hover
              dsimp only at hover
              split at hover
              · rename_i hinside
                cases hover
                cases hseen
                exact ⟨place, rfl, hinside, rfl⟩
              · cases hover
      | _ => cases h
  | fingerDown place =>
      simp only [touch?] at h
      split at h
      · rename_i hinside
        cases h
        exact ⟨place, rfl, hinside, rfl⟩
      · cases h
  | mouseUp button =>
      cases button with
      | left => cases pressed <;> cases h
      | _ => cases h
  -- The other events move a gesture, end it, or are no touch at all.
  | mouseMove place => cases pressed <;> cases h
  | mouseLeft => cases pressed <;> cases h
  | fingerMove place => cases pressed <;> cases h
  | fingerUp place => cases pressed <;> cases h
  | fingerLost => cases pressed <;> cases h
  | mouseEntered => cases h
  | wheel => cases h
  | key => cases h

/-- Only while a press is held does a gesture go on or end. -/
theorem PointerEvent.pressed_of_continues {event : PointerEvent} {bounds : Rect}
    {cursor : Option Point} {pressed : Bool} {touch : Touch}
    (h : event.touch? bounds cursor pressed = some touch) (hcontinues : touch.Continues) :
    pressed = true := by
  cases pressed with
  | true => rfl
  | false =>
      -- Without a held press the only touch is a new press, which does not go on with one.
      have hpress : ∃ x y, touch = .pressed x y := by
        cases event with
        | mouseDown button =>
            cases button with
            | left =>
                rcases Option.map_eq_some_iff.1 h with ⟨place, _, hplace⟩
                exact ⟨_, _, hplace.symm⟩
            | _ => cases h
        | mouseUp button => cases button <;> cases h
        | fingerDown place =>
            simp only [touch?] at h
            split at h
            · exact ⟨_, _, (Option.some.inj h).symm⟩
            · cases h
        | _ => cases h
      rcases hpress with ⟨x, y, rfl⟩
      exact hcontinues.elim

namespace Overlay

/-! ## Inputs and runs -/

/-- What the strip is handed: the thumb as it is painted, an event, its bounds, and the mouse. -/
structure Input where
  thumb? : Option Rect
  event : PointerEvent
  bounds : Rect
  cursor : Option Point
  deriving DecidableEq, Repr

/-- The touch that an input stands for. -/
def Input.touch? (input : Input) (pressed : Bool) : Option Touch :=
  input.event.touch? input.bounds input.cursor pressed

/-- The strip has a size. -/
def Input.HasSize (input : Input) : Prop :=
  input.bounds.width.isNaN = false ∧ input.bounds.height.isNaN = false

instance (input : Input) : Decidable input.HasSize :=
  inferInstanceAs (Decidable (_ ∧ _))

/-- Handles an input, which never faults. -/
def handle (state : OverlayState) (input : Input) : Checked (OverlayState × OverlayOutcome) :=
  .ok (update ⟨input.thumb?⟩ state input.event input.bounds input.cursor)

/-- The steps of a run. -/
abbrev Steps : Type :=
  List (Step OverlayState Input OverlayOutcome)

/-- Handles inputs one after another. -/
abbrev run (state : OverlayState) (inputs : List Input) : Checked (OverlayState × Steps) :=
  Machine.run handle state inputs

/-! ## One input -/

/-- How the strip handles an input. -/
inductive Updating (state : OverlayState) (input : Input) : OverlayState → OverlayOutcome → Prop
  /-- The thumb is pressed. -/
  | grabbed {x y : Single} (touch_eq : input.touch? state.pressed = some (.pressed x y))
      (hit : isOverThumb ⟨input.thumb?⟩ ⟨x, y⟩ = true) :
      Updating state input { state with pressed := true } ⟨true, some (.touch (.pressed x y))⟩
  /-- A press beside the thumb is left to others. -/
  | missed {touch : Touch} (touch_eq : input.touch? state.pressed = some touch) :
      Updating state input state ⟨false, none⟩
  /-- The gesture goes on. -/
  | moved {x y : Single} (touch_eq : input.touch? state.pressed = some (.moved x y)) :
      Updating state input state ⟨true, some (.touch (.moved x y))⟩
  /-- The gesture ends. -/
  | ended {touch : Touch} (touch_eq : input.touch? state.pressed = some touch) (ends : touch.Ends) :
      Updating state input { state with pressed := false } ⟨false, some (.touch touch)⟩
  /-- The size is the one that was told last. -/
  | known {size : Size} (touch_eq : input.touch? state.pressed = none)
      (size_eq : state.size? = some size) (same : input.bounds.size.same size = true) :
      Updating state input state ⟨false, none⟩
  /-- The size is told. -/
  | resized (touch_eq : input.touch? state.pressed = none)
      (new : ∀ size, state.size? = some size → input.bounds.size.same size = false) :
      Updating state input { state with size? := some input.bounds.size }
        ⟨false, some (.resized input.bounds.size)⟩

theorem updating_of_handle {state after : OverlayState} {input : Input} {outcome : OverlayOutcome}
    (h : handle state input = .ok (after, outcome)) : Updating state input after outcome := by
  have hupdate : update ⟨input.thumb?⟩ state input.event input.bounds input.cursor =
      (after, outcome) := Except.ok.inj h
  unfold update at hupdate
  -- A touch comes first: the size of the strip is looked at only when the input is none.
  cases htouch : input.event.touch? input.bounds input.cursor state.pressed with
  | some touch =>
      rw [htouch] at hupdate
      cases touch with
      | pressed x y =>
          dsimp only at hupdate
          split at hupdate
          · rename_i hover
            cases hupdate
            exact .grabbed htouch hover
          · cases hupdate
            exact .missed htouch
      | moved x y =>
          cases hupdate
          exact .moved htouch
      | released x y =>
          cases hupdate
          exact .ended htouch trivial
      | cancelled =>
          cases hupdate
          exact .ended htouch trivial
  | none =>
      rw [htouch] at hupdate
      dsimp only at hupdate
      split at hupdate
      · rename_i hknown
        cases hupdate
        rcases (Option.any_eq_true _ _).1 hknown with ⟨size, hsize, hsame⟩
        exact .known htouch hsize hsame
      · rename_i hunknown
        cases hupdate
        refine .resized htouch ?_
        intro size hsize
        rw [hsize] at hunknown
        exact Bool.eq_false_iff.2 hunknown

/-! ## What was told -/

/-- The touches that were told, oldest first. -/
def touches (steps : Steps) : List Touch :=
  steps.filterMap fun step =>
    match step.output.message? with
    | some (.touch touch) => some touch
    | _ => none

/-- The sizes that were told, oldest first. -/
def sizes (steps : Steps) : List Size :=
  steps.filterMap fun step =>
    match step.output.message? with
    | some (.resized size) => some size
    | _ => none

/-- The size that was told last. -/
def toldSize? (steps : Steps) : Option Size :=
  (sizes steps).getLast?

theorem touches_append (earlier later : Steps) :
    touches (earlier ++ later) = touches earlier ++ touches later :=
  List.filterMap_append

theorem sizes_append (earlier later : Steps) :
    sizes (earlier ++ later) = sizes earlier ++ sizes later :=
  List.filterMap_append

/-- A gesture was begun, and has not ended since. -/
def Begun (told : List Touch) : Prop :=
  ∃ earlier x y later, told = earlier ++ .pressed x y :: later ∧ ∀ touch ∈ later, ¬touch.Ends

/-- Every touch that goes on or ends belongs to a gesture that was begun and has not ended. -/
def Whole (told : List Touch) : Prop :=
  ∀ earlier touch later, told = earlier ++ touch :: later → touch.Continues → Begun earlier

variable {told : List Touch} {touch : Touch} {state after : OverlayState} {input : Input}
  {outcome : OverlayOutcome} {steps : Steps}

theorem begun_pressed (told : List Touch) (x y : Single) : Begun (told ++ [.pressed x y]) :=
  ⟨told, x, y, [], rfl, by simp⟩

theorem Begun.moved (h : Begun told) (x y : Single) : Begun (told ++ [.moved x y]) := by
  rcases h with ⟨earlier, x', y', later, rfl, hlater⟩
  refine ⟨earlier, x', y', later ++ [.moved x y], by simp, ?_⟩
  intro touch hmem
  rcases List.mem_append.1 hmem with hmem | hmem
  · exact hlater touch hmem
  · rw [List.mem_singleton.1 hmem]
    exact fun hends => hends

/-- One more touch leaves gestures whole if it begins one, or belongs to one. -/
theorem Whole.snoc (h : Whole told) (htouch : touch.Continues → Begun told) :
    Whole (told ++ [touch]) := by
  intro earlier other later hsplit hcontinues
  rcases List.eq_nil_or_concat later with rfl | ⟨between, newest, rfl⟩
  · -- The touch that is spoken of is the newest one.
    rcases List.append_inj' hsplit rfl with ⟨rfl, hother⟩
    cases hother
    exact htouch hcontinues
  · have hcons : told ++ [touch] = (earlier ++ other :: between) ++ [newest] := by
      rw [hsplit]
      simp
    exact h earlier other between (List.append_inj' hcons rfl).1 hcontinues

/-! ## What the strip remembers -/

/-- The strip remembers whether a gesture is going on, and the size that it told last. -/
structure Follows (state : OverlayState) (steps : Steps) : Prop where
  begun : state.pressed = true → Begun (touches steps)
  whole : Whole (touches steps)
  size_eq : state.size? = toldSize? steps

theorem follows_start : Follows .start [] := by
  refine ⟨by simp [OverlayState.start], ?_, rfl⟩
  intro earlier touch later hsplit _
  exact absurd hsplit (by simp [touches])

section

variable (h : Follows state steps)

include h

/-- An input of which nothing is told changes nothing. -/
theorem Follows.silent (input : Input) (captured : Bool) :
    Follows state (steps ++ [⟨state, input, ⟨captured, none⟩, state⟩]) := by
  have htouches : touches (steps ++ [⟨state, input, ⟨captured, none⟩, state⟩]) = touches steps :=
    (touches_append _ _).trans (List.append_nil _)
  have hsizes : sizes (steps ++ [⟨state, input, ⟨captured, none⟩, state⟩]) = sizes steps :=
    (sizes_append _ _).trans (List.append_nil _)
  constructor
  · rw [htouches]
    exact h.begun
  · rw [htouches]
    exact h.whole
  · rw [toldSize?, hsizes]
    exact h.size_eq

/-- A touch is told that begins a gesture or belongs to one, and the strip remembers whether the
gesture goes on. -/
theorem Follows.touched (input : Input) (captured : Bool) {pressed : Bool}
    (hcontinues : touch.Continues → Begun (touches steps))
    (hpressed : pressed = true → Begun (touches steps ++ [touch])) :
    Follows { state with pressed := pressed }
      (steps ++ [⟨state, input, ⟨captured, some (.touch touch)⟩, { state with pressed := pressed }⟩]) := by
  constructor
  · rw [touches_append]
    exact hpressed
  · rw [touches_append]
    exact h.whole.snoc hcontinues
  · rw [toldSize?, sizes_append]
    exact h.size_eq.trans (congrArg List.getLast? (List.append_nil (sizes steps)).symm)

/-- A size is told and remembered. -/
theorem Follows.resized (input : Input) (captured : Bool) (size : Size) :
    Follows { state with size? := some size }
      (steps ++ [⟨state, input, ⟨captured, some (.resized size)⟩, { state with size? := some size }⟩]) := by
  have htouches : touches (steps ++ [⟨state, input, ⟨captured, some (.resized size)⟩,
      { state with size? := some size }⟩]) = touches steps :=
    (touches_append _ _).trans (List.append_nil _)
  constructor
  · rw [htouches]
    exact h.begun
  · rw [htouches]
    exact h.whole
  · rw [toldSize?, sizes_append]
    exact List.getLast?_concat.symm

/-- Whatever an input is, what the strip remembers of it is what it tells. -/
theorem Follows.of_updating (hupdating : Updating state input after outcome) :
    Follows after (steps ++ [⟨state, input, outcome, after⟩]) := by
  -- A touch that goes on is read only while a press is held, and then one was told.
  have hheld : ∀ touch, input.touch? state.pressed = some touch → touch.Continues →
      Begun (touches steps) := by
    intro touch htouch hcontinues
    exact h.begun (PointerEvent.pressed_of_continues htouch hcontinues)
  cases hupdating with
  | grabbed touch_eq hit =>
      exact h.touched input true (hheld _ touch_eq) fun _ => begun_pressed _ _ _
  | missed touch_eq => exact h.silent input false
  | moved touch_eq =>
      have hbegun := hheld _ touch_eq trivial
      exact h.touched input true (fun _ => hbegun) fun _ => hbegun.moved _ _
  | ended touch_eq ends => exact h.touched input false (hheld _ touch_eq) (by simp)
  | known touch_eq size_eq same => exact h.silent input false
  | resized touch_eq new => exact h.resized input false input.bounds.size

end

/-! ## Runs -/

variable {inputs : List Input} {last : OverlayState}

theorem exists_run (state : OverlayState) (inputs : List Input) :
    ∃ last steps, run state inputs = .ok (last, steps) := by
  induction inputs generalizing state with
  | nil => exact ⟨state, [], rfl⟩
  | cons input rest ih =>
      rcases ih (update ⟨input.thumb?⟩ state input.event input.bounds input.cursor).1 with
          ⟨last, steps, hrun⟩
      exact ⟨last, _, Machine.run_cons_eq_ok_iff.2 ⟨_, _, steps, rfl, hrun, rfl⟩⟩

theorem Follows.of_run (h : run .start inputs = .ok (last, steps)) : Follows last steps := by
  refine Machine.run_induct (motive := fun _ last steps => Follows last steps) follows_start ?_ h
  intro inputs input before steps outcome after _ ih hstep
  exact ih.of_updating (updating_of_handle hstep)

/-- A size that is a number is the same as itself. -/
theorem same_size_self (hsize : input.HasSize) :
    input.bounds.size.same input.bounds.size = true := by
  rcases hsize with ⟨hwidth, hheight⟩
  unfold Size.same
  rw [Bool.and_eq_true]
  exact ⟨Single.sameSize_self hwidth, Single.sameSize_self hheight⟩

/-- A press that is told was made on the thumb and over the strip. -/
theorem Updating.exists_place_of_pressed {x y : Single} (h : Updating state input after outcome)
    (hpressed : outcome.message? = some (.touch (.pressed x y))) :
    ∃ thumb place, input.thumb? = some thumb ∧ thumb.contains ⟨x, y⟩ = true ∧
      input.event.pressPlace? input.cursor = some place ∧ input.bounds.contains place = true ∧
        input.bounds.relative place = ⟨x, y⟩ := by
  cases h with
  | grabbed touch_eq hit =>
      cases hpressed
      rcases PointerEvent.exists_place_of_pressed touch_eq with ⟨place, hplace, hinside, hrelative⟩
      unfold isOverThumb at hit
      split at hit
      · rename_i thumb hthumb
        exact ⟨thumb, place, hthumb, hit, hplace, hinside, hrelative⟩
      · cases hit
  | ended touch_eq ends =>
      cases hpressed
      exact ends.elim
  | _ => cases hpressed

/-- An event goes no further exactly if a touch is told that begins a gesture or moves it. -/
theorem Updating.captured_iff (h : Updating state input after outcome) :
    outcome.captured = true ↔
      ∃ touch, outcome.message? = some (.touch touch) ∧ touch.IsTaken := by
  cases h with
  | grabbed touch_eq hit => exact ⟨fun _ => ⟨_, rfl, trivial⟩, fun _ => rfl⟩
  | moved touch_eq => exact ⟨fun _ => ⟨_, rfl, trivial⟩, fun _ => rfl⟩
  | ended touch_eq ends =>
      rename_i touch
      refine ⟨by simp, ?_⟩
      rintro ⟨other, htold, htaken⟩
      cases htold
      -- A touch that ends a gesture does not take its event.
      cases touch with
      | pressed x y => exact ends.elim
      | moved x y => exact ends.elim
      | released x y => exact htaken.elim
      | cancelled => exact htaken.elim
  | _ => simp

/-- The touches that are told are whole gestures; a press is told if it is made on the thumb, and it
and the moves after it keep their events from others. A size is told if it is another than the one
told last, and after an event that is no touch the size told last is the one that the strip has. -/
theorem run_gestures_whole (inputs : List Input) (hsizes : ∀ input ∈ inputs, input.HasSize) :
    ∃ last steps, run .start inputs = .ok (last, steps) ∧ steps.map Step.input = inputs ∧
      Whole (touches steps) ∧
      (∀ step ∈ steps,
        (∀ x y, step.output.message? = some (.touch (.pressed x y)) →
          ∃ thumb place, step.input.thumb? = some thumb ∧ thumb.contains ⟨x, y⟩ = true ∧
            step.input.event.pressPlace? step.input.cursor = some place ∧
              step.input.bounds.contains place = true ∧
                step.input.bounds.relative place = ⟨x, y⟩) ∧
        (step.output.captured = true ↔
          ∃ touch, step.output.message? = some (.touch touch) ∧ touch.IsTaken)) ∧
      ∀ earlier step later, steps = earlier ++ step :: later →
        (∀ size, step.output.message? = some (.resized size) →
          size = step.input.bounds.size ∧
            ∀ told, toldSize? earlier = some told → size.same told = false) ∧
        (step.input.touch? step.before.pressed = none →
          ∃ size, toldSize? (earlier ++ [step]) = some size ∧
            step.input.bounds.size.same size = true) := by
  rcases exists_run .start inputs with ⟨last, steps, hrun⟩
  refine ⟨last, steps, hrun, Machine.map_input_of_run hrun, (Follows.of_run hrun).whole, ?_, ?_⟩
  · intro step hmem
    rcases List.append_of_mem hmem with ⟨earlier, later, hsplit⟩
    rcases Machine.exists_run_of_append_eq hsplit hrun with ⟨_, _, _, _, hstep, _⟩
    have hupdating := updating_of_handle hstep
    exact ⟨fun x y => hupdating.exists_place_of_pressed, hupdating.captured_iff⟩
  · intro earlier step later hsplit
    rcases Machine.exists_run_of_append_eq hsplit hrun with ⟨sofar, more, hinputs, hsofar, hstep, _⟩
    have hupdating := updating_of_handle hstep
    -- What was remembered before the step is what had been told by then.
    have hbefore := Follows.of_run hsofar
    have hafter := hbefore.of_updating hupdating
    have hsize := same_size_self (hsizes step.input (by simp [hinputs]))
    rcases step with ⟨before, input, outcome, after⟩
    dsimp only at *
    constructor
    · intro size htold
      cases hupdating with
      | resized touch_eq new =>
          cases htold
          refine ⟨rfl, ?_⟩
          intro told hlast
          exact new told (hbefore.size_eq.trans hlast)
      | _ => cases htold
    · intro hnone
      rw [← hafter.size_eq]
      cases hupdating with
      | known touch_eq size_eq same => exact ⟨_, size_eq, same⟩
      | resized touch_eq new => exact ⟨_, rfl, hsize⟩
      | grabbed touch_eq hit => cases hnone.symm.trans touch_eq
      | missed touch_eq => cases hnone.symm.trans touch_eq
      | moved touch_eq => cases hnone.symm.trans touch_eq
      | ended touch_eq ends => cases hnone.symm.trans touch_eq

/-- A press beside the thumb, a drag that leaves the strip and its window, and a change of the size
while the thumb is held. -/
def movingInputs : List Input :=
  let thumb : Rect := ⟨0, 100, 24, 48⟩
  let strip : Rect := ⟨1000, 0, 24, 600⟩
  let wide : Rect := ⟨994, 0, 30, 600⟩
  [⟨none, .mouseEntered, strip, some ⟨1010, 50⟩⟩,
    ⟨some thumb, .mouseDown .left, strip, some ⟨1010, 50⟩⟩,
    ⟨some thumb, .mouseMove ⟨1010, 120⟩, strip, some ⟨1010, 120⟩⟩,
    ⟨some thumb, .mouseDown .left, strip, some ⟨1010, 120⟩⟩,
    ⟨some thumb, .mouseMove ⟨900, 700⟩, strip, some ⟨900, 700⟩⟩,
    ⟨some thumb, .wheel, wide, some ⟨900, 700⟩⟩,
    ⟨some thumb, .mouseLeft, wide, none⟩,
    ⟨some thumb, .mouseUp .left, wide, none⟩]

/-- The theorem speaks of a run with a whole gesture and two sizes. -/
theorem run_gestures_whole_moving :
    (∀ input ∈ movingInputs, input.HasSize) ∧
      ∃ last steps, run .start movingInputs = .ok (last, steps) ∧
        touches steps = [.pressed 10 120, .moved (-100) 700, .cancelled] ∧
          sizes steps = [⟨24, 600⟩, ⟨30, 600⟩] ∧ Whole (touches steps) := by
  have hsizes : ∀ input ∈ movingInputs, input.HasSize := by
    decide +kernel
  have htold : (run .start movingInputs).map (fun reached => (touches reached.2, sizes reached.2)) =
      .ok ([.pressed 10 120, .moved (-100) 700, .cancelled], [⟨24, 600⟩, ⟨30, 600⟩]) := by
    decide +kernel
  rcases run_gestures_whole movingInputs hsizes with ⟨last, steps, hrun, _, hwhole, _⟩
  rw [hrun] at htold
  have htold := Except.ok.inj htold
  exact ⟨hsizes, last, steps, hrun, congrArg Prod.fst htold, congrArg Prod.snd htold, hwhole⟩

end Overlay

end OverlayScrollbar
