import OverlayScrollbar.Proofs.History
import OverlayScrollbar.Proofs.Run
import OverlayScrollbar.Proofs.Sprite.Images

/-!
# Images that follow the bitmaps

Bitmaps are drawn, dropped and taken over as images in any order. The two bitmaps come and go together;
the generation counts how often they were drawn; and images that were taken over while there are
bitmaps are those bitmaps, though only the generation tells whether they have to be set again.

- `SpriteCache.Paired`   : both bitmaps are there, of one size, or none is
- `Thumbs`               : bitmaps and the images that are held of them
- `Thumbs.Operation`, `Thumbs.operate` : what is done to them
- `Thumbs.Operating`     : what an operation does, one case for each
- `Thumbs.builds`        : a step at which the bitmaps were drawn
- `Thumbs.takenOver`     : the generation at which the images were last set
- `Thumbs.Kept`          : the bitmaps and images after a history
- `Thumbs.Kept.of_operate` : every operation keeps them so

Main statement: `run_images_follow_bitmaps`.
-/

namespace OverlayScrollbar

namespace SpriteCache

variable {cache after : SpriteCache} {width height : UInt32} {tint : Color}

/-- Both bitmaps are there, of one size, or none is. -/
def Paired (cache : SpriteCache) : Prop :=
  cache.normal? = none ∧ cache.dragging? = none ∨
    ∃ normal dragging, cache.normal? = some normal ∧ cache.dragging? = some dragging ∧
      normal.width = dragging.width ∧ normal.height = dragging.height

theorem paired_of_missing (hnormal : cache.normal? = none) (hdragging : cache.dragging? = none) :
    cache.Paired :=
  Or.inl ⟨hnormal, hdragging⟩

theorem Paired.isWhole (h : cache.Paired) : cache.IsWhole := by
  unfold IsWhole
  rcases h with ⟨hnormal, hdragging⟩ | ⟨normal, dragging, hnormal, hdragging, _⟩
  · rw [hnormal, hdragging]
  · rw [hnormal, hdragging]
    rfl

theorem Ensuring.paired (h : Ensuring cache width height tint after) (hpaired : cache.Paired) :
    after.Paired := by
  cases h with
  | kept => exact hpaired
  | invalid => exact hpaired
  | built _ at_rest held after_eq =>
      subst after_eq
      have hnormal := Sprite.size_of_rasterize at_rest
      have hdragging := Sprite.size_of_rasterize held
      exact Or.inr ⟨_, _, rfl, rfl, hnormal.1.trans hdragging.1.symm, hnormal.2.trans hdragging.2.symm⟩

/-- An attempt that fails changes nothing. -/
theorem eq_of_refused {size : InvalidSize} (hwhole : cache.IsWhole)
    (h : cache.ensure width height tint = .ok (after, .error size)) : after = cache := by
  have hmissing : after.isReady = false := (isOk_of_ensure h).symm
  cases ensure_eq_ok hwhole h with
  | kept => rfl
  | invalid => rfl
  | built _ _ _ after_eq =>
      subst after_eq
      cases hmissing

end SpriteCache

/-- Bitmaps and the images that the user interface holds of them. -/
structure Thumbs where
  cache : SpriteCache
  images : ThumbImages

namespace Thumbs

/-- Nothing is drawn, and no image is held. -/
def new (normalShape draggingShape : Drawable) : Thumbs :=
  ⟨.new normalShape draggingShape, .empty⟩

/-- What is done to bitmaps and images. -/
inductive Operation
  | ensure (width height : UInt32) (tint : Color)
  | clear
  | sync

/-- What an operation answers. -/
inductive Answer
  | done
  | ensured (drawn? : Except InvalidSize Unit)
  /-- Whether the images were set. -/
  | synced (isSet : Bool)
  deriving DecidableEq

/-- Does one operation. -/
def operate : Machine Thumbs Operation Answer
  | thumbs, .ensure width height tint => do
      let (cache, drawn?) ← thumbs.cache.ensure width height tint
      return ({ thumbs with cache := cache }, .ensured drawn?)
  | thumbs, .clear => .ok ({ thumbs with cache := thumbs.cache.clear }, .done)
  | thumbs, .sync =>
      .ok ({ thumbs with images := thumbs.images.sync thumbs.cache },
        .synced (!thumbs.images.isCurrent thumbs.cache))

/-- What an operation that does not fault does. Only drawing can fault. -/
inductive Operating (thumbs : Thumbs) : Operation → Thumbs → Answer → Prop
  | ensured {width height : UInt32} {tint : Color} {cache : SpriteCache}
      {drawn? : Except InvalidSize Unit}
      (ensuring : thumbs.cache.ensure width height tint = .ok (cache, drawn?)) :
      Operating thumbs (.ensure width height tint) { thumbs with cache := cache } (.ensured drawn?)
  | cleared : Operating thumbs .clear { thumbs with cache := thumbs.cache.clear } .done
  | synced :
      Operating thumbs .sync { thumbs with images := thumbs.images.sync thumbs.cache }
        (.synced (!thumbs.images.isCurrent thumbs.cache))

/-- The bitmaps were missing before the step, and are there after it. -/
def builds (step : Step Thumbs Operation Answer) : Bool :=
  !step.before.cache.isReady && step.after.cache.isReady

/-- The images are set at the step. -/
def sets (step : Step Thumbs Operation Answer) : Bool :=
  step.output = .synced true

/-- The generation of the bitmaps when the images were last set, if they were. -/
def takenOver (steps : List (Step Thumbs Operation Answer)) : List Nat :=
  lasting (fun _ step => if sets step then [step.before.cache.generation] else [])
    (fun step _ => sets step) steps

variable {thumbs after : Thumbs} {operation : Operation} {answer : Answer}
  {steps : List (Step Thumbs Operation Answer)}

theorem operate_eq_ok (h : operate thumbs operation = .ok (after, answer)) :
    Operating thumbs operation after answer := by
  cases operation with
  | ensure width height tint =>
      rcases Checked.bind_eq_ok_iff.1 h with ⟨_, hensure, hanswer⟩
      cases hanswer
      exact .ensured hensure
  | clear =>
      cases h
      exact .cleared
  | sync =>
      cases h
      exact .synced

/-- The bitmaps and images after some steps. -/
structure Kept (thumbs : Thumbs) (steps : List (Step Thumbs Operation Answer)) : Prop where
  paired : thumbs.cache.Paired
  mirrors : thumbs.images.Mirrors thumbs.cache
  generation_eq : thumbs.cache.generation = steps.countP builds
  takenOver_eq : takenOver steps = [thumbs.images.generation] ∨
    takenOver steps = [] ∧ thumbs.images.normal? = none

/-- A step at which the images are set takes the place of all before it. -/
theorem takenOver_concat (steps : List (Step Thumbs Operation Answer))
    (step : Step Thumbs Operation Answer) :
    takenOver (steps ++ [step]) = (takenOver steps).filter (fun _ => !sets step) ++
      if sets step then [step.before.cache.generation] else [] :=
  lasting_concat steps step

theorem takenOver_of_not_sets {step : Step Thumbs Operation Answer} (h : sets step = false) :
    takenOver (steps ++ [step]) = takenOver steps := by
  simp [takenOver_concat, h]

theorem kept_new (normalShape draggingShape : Drawable) :
    (new normalShape draggingShape).Kept [] := by
  constructor
  · exact SpriteCache.paired_of_missing rfl rfl
  · exact ThumbImages.mirrors_empty normalShape draggingShape
  · rfl
  · exact Or.inr ⟨rfl, rfl⟩

namespace Kept

theorem ensure {cache : SpriteCache} {width height : UInt32} {tint : Color}
    {drawn? : Except InvalidSize Unit} (h : thumbs.Kept steps)
    (hensure : thumbs.cache.ensure width height tint = .ok (cache, drawn?)) :
    Kept { thumbs with cache := cache } (steps ++
      [⟨thumbs, .ensure width height tint, .ensured drawn?, { thumbs with cache := cache }⟩]) := by
  have hensuring := SpriteCache.ensure_eq_ok h.paired.isWhole hensure
  constructor
  · exact hensuring.paired h.paired
  · exact h.mirrors.of_ensuring hensuring
  · rw [hensuring.generation_eq, h.generation_eq, List.countP_append, List.countP_singleton]
    simp [builds]
  · rw [takenOver_of_not_sets rfl]
    exact h.takenOver_eq

theorem clear (h : thumbs.Kept steps) :
    Kept { thumbs with cache := thumbs.cache.clear } (steps ++
      [⟨thumbs, .clear, .done, { thumbs with cache := thumbs.cache.clear }⟩]) := by
  constructor
  · exact SpriteCache.paired_of_missing rfl rfl
  · exact h.mirrors.clear
  · rw [SpriteCache.generation_clear, h.generation_eq, List.countP_append, List.countP_singleton]
    simp [builds]
  · rw [takenOver_of_not_sets rfl]
    exact h.takenOver_eq

theorem sync (h : thumbs.Kept steps) :
    Kept { thumbs with images := thumbs.images.sync thumbs.cache } (steps ++
      [⟨thumbs, .sync, .synced (!thumbs.images.isCurrent thumbs.cache),
        { thumbs with images := thumbs.images.sync thumbs.cache }⟩]) := by
  constructor
  · exact h.paired
  · exact h.mirrors.sync
  · rw [h.generation_eq, List.countP_append, List.countP_singleton]
    simp [builds]
  · -- Images that are current are not set again: they hold the generation of the last time.
    cases hcurrent : thumbs.images.isCurrent thumbs.cache with
    | true =>
        rw [takenOver_of_not_sets rfl, ThumbImages.sync_of_isCurrent hcurrent]
        exact h.takenOver_eq
    | false =>
        refine Or.inl ?_
        simp [takenOver_concat, sets, ThumbImages.sync, hcurrent]

theorem of_operate (h : thumbs.Kept steps)
    (hoperate : operate thumbs operation = .ok (after, answer)) :
    after.Kept (steps ++ [⟨thumbs, operation, answer, after⟩]) := by
  cases operate_eq_ok hoperate with
  | ensured ensuring => exact h.ensure ensuring
  | cleared => exact h.clear
  | synced => exact h.sync

theorem of_run {normalShape draggingShape : Drawable} {operations : List Operation} {last : Thumbs}
    (h : operate.run (new normalShape draggingShape) operations = .ok (last, steps)) :
    last.Kept steps := by
  refine Machine.run_induct (motive := fun _ last steps => last.Kept steps) ?_ ?_ h
  · exact kept_new normalShape draggingShape
  · intro _ input before steps output after _ ih hstep
    exact ih.of_operate hstep

/-- The images are not current if none is held, or the bitmaps are of another generation than when the
images were last set. -/
theorem isCurrent_eq_false_iff (h : thumbs.Kept steps) :
    thumbs.images.isCurrent thumbs.cache = false ↔
      thumbs.images.normal? = none ∨ ∃ old ∈ takenOver steps, old ≠ thumbs.cache.generation := by
  unfold ThumbImages.isCurrent
  rcases h.takenOver_eq with hset | ⟨hunset, hnone⟩
  · rw [hset]
    cases thumbs.images.normal? with
    | none => simp
    | some image => simp
  · simp [hnone]

/-- Only drawing what is missing builds bitmaps. -/
theorem exists_ensure_of_builds
    (hoperate : operate thumbs operation = .ok (after, answer))
    (hbuilds : builds ⟨thumbs, operation, answer, after⟩ = true) :
    ∃ width height tint, operation = .ensure width height tint := by
  rcases Bool.and_eq_true_iff.1 hbuilds with ⟨hmissing, hready⟩
  cases operate_eq_ok hoperate with
  | ensured => exact ⟨_, _, _, rfl⟩
  | cleared => cases hready
  | synced => simp [hready] at hmissing

theorem eq_of_ensure (h : thumbs.Kept steps) {width height : UInt32} {tint : Color}
    (hoperate : operate thumbs (.ensure width height tint) = .ok (after, answer))
    (hidle : thumbs.cache.isReady = true ∨ ∃ size, answer = .ensured (.error size)) :
    after = thumbs := by
  cases operate_eq_ok hoperate with
  | @ensured _ _ _ cache drawn? ensuring =>
      have hcache : cache = thumbs.cache := by
        rcases hidle with hready | ⟨size, hrefused⟩
        · cases (SpriteCache.ensure_of_isReady hready width height tint).symm.trans ensuring
          rfl
        · cases hrefused
          exact SpriteCache.eq_of_refused h.paired.isWhole ensuring
      rw [hcache]

theorem shows_of_sync (h : thumbs.Kept steps) (hready : thumbs.cache.isReady = true)
    (kind : SpriteKind) :
    ∃ sprite, thumbs.cache.get? kind = some sprite ∧
      (thumbs.images.sync thumbs.cache).get? kind = some sprite := by
  rcases SpriteCache.exists_get?_of_isReady hready kind with ⟨sprite, hsprite⟩
  exact ⟨sprite, hsprite, (h.mirrors.get?_sync hready kind).trans hsprite⟩

end Kept

/-- An operation that sets the images takes the bitmaps over. -/
theorem get?_of_sets (hoperate : operate thumbs operation = .ok (after, answer))
    (hset : answer = .synced true) (kind : SpriteKind) :
    after.images.get? kind = thumbs.cache.get? kind := by
  cases operate_eq_ok hoperate with
  | ensured => cases hset
  | cleared => cases hset
  | synced =>
      have hcurrent : thumbs.images.isCurrent thumbs.cache = false := by
        simpa using hset
      exact ThumbImages.get?_sync_of_not_isCurrent hcurrent kind

/-- Every other operation leaves the images, also one that finds them current. -/
theorem images_of_not_sets (hoperate : operate thumbs operation = .ok (after, answer))
    (hunset : answer ≠ .synced true) : after.images = thumbs.images := by
  cases operate_eq_ok hoperate with
  | ensured => rfl
  | cleared => rfl
  | synced =>
      have hcurrent : thumbs.images.isCurrent thumbs.cache = true := by
        simpa using hunset
      exact ThumbImages.sync_of_isCurrent hcurrent

/-- What a step does, after the steps before it. -/
structure Follows (earlier : List (Step Thumbs Operation Answer))
    (step : Step Thumbs Operation Answer) : Prop where
  paired : step.before.cache.Paired ∧ step.after.cache.Paired
  /-- Drawing what is missing changes nothing if it fails, or if nothing is missing. -/
  idle : ∀ width height tint, step.input = .ensure width height tint →
    step.before.cache.isReady = true ∨ (∃ size, step.output = .ensured (.error size)) →
      step.after = step.before
  generation_eq : step.after.cache.generation = (earlier ++ [step]).countP builds
  built : builds step = true → ∃ width height tint, step.input = .ensure width height tint
  /-- Images that are taken over from bitmaps are those. -/
  shown : step.input = .sync → step.before.cache.isReady = true →
    step.after.cache = step.before.cache ∧
      ∀ kind, ∃ sprite, step.after.cache.get? kind = some sprite ∧
        step.after.images.get? kind = some sprite
  /-- Images are set if there was none, or the bitmaps are others than when they were last set. -/
  set_iff : step.input = .sync →
    (step.output = .synced true ↔
      step.before.images.normal? = none ∨
        ∃ old ∈ takenOver earlier, old ≠ step.before.cache.generation)
  set : step.output = .synced true →
    ∀ kind, step.after.images.get? kind = step.before.cache.get? kind
  kept : step.output ≠ .synced true → step.after.images = step.before.images

theorem Kept.follows (h : thumbs.Kept steps)
    (hoperate : operate thumbs operation = .ok (after, answer)) :
    Follows steps ⟨thumbs, operation, answer, after⟩ := by
  have hafter := h.of_operate hoperate
  constructor
  · exact ⟨h.paired, hafter.paired⟩
  · rintro width height tint rfl hidle
    exact h.eq_of_ensure hoperate hidle
  · exact hafter.generation_eq
  · exact exists_ensure_of_builds hoperate
  · rintro rfl hready
    cases hoperate
    exact ⟨rfl, h.shows_of_sync hready⟩
  · rintro rfl
    cases hoperate
    simpa using h.isCurrent_eq_false_iff
  · exact get?_of_sets hoperate
  · exact images_of_not_sets hoperate

/-- In every run that does not fault, from a cache of any two shapes in which nothing is drawn and
without images, every step does what it should after the steps before it. -/
theorem run_images_follow_bitmaps {normalShape draggingShape : Drawable}
    {operations : List Operation} {last : Thumbs}
    (h : operate.run (new normalShape draggingShape) operations = .ok (last, steps)) :
    ∀ moment ∈ moments steps, Follows moment.earlier moment.event := by
  rintro ⟨earlier, step, later⟩ hmoment
  rcases Machine.exists_run_of_append_eq (mem_moments_iff.1 hmoment) h with
    ⟨_, _, _, hearlier, hstep, _⟩
  exact (Kept.of_run hearlier).follows hstep

/-- Images are taken over before anything is drawn, after an attempt that fails, and twice from bitmaps
of one size; then bitmaps of another size are drawn, and dropped before they are taken over. -/
def mixedOperations : List Operation :=
  [.sync, .ensure 0 2 (.solid 0 0 1), .sync, .ensure 1 2 (.solid 0 0 1), .sync,
    .ensure 2 1 (.solid 1 0 0), .sync, .clear, .sync, .ensure 2 1 (.solid 1 0 0), .clear, .sync,
    .ensure 1 1 (.solid 1 0 0), .sync]

/-- The theorem speaks of a run that draws bitmaps four times, of which one is dropped unseen. -/
theorem run_images_follow_bitmaps_mixed :
    ∃ last steps, operate.run (new (Drawable.atRest.withHeight 2) .held) mixedOperations =
        .ok (last, steps) ∧
      steps.map builds = [false, false, false, true, false, false, false, false, false, true, false,
        false, true, false] ∧
      steps.map sets = [true, false, true, false, true, false, false, false, false, false, false,
        true, false, true] ∧
      ∀ moment ∈ moments steps, Follows moment.earlier moment.event := by
  have hmap : (operate.run (new (Drawable.atRest.withHeight 2) .held) mixedOperations).map
      (fun reached => (reached.2.map builds, reached.2.map sets)) =
      .ok ([false, false, false, true, false, false, false, false, false, true, false, false, true,
        false], [true, false, true, false, true, false, false, false, false, false, false, true,
        false, true]) := by
    decide +kernel
  rcases Checked.map_eq_ok_iff.1 hmap with ⟨⟨last, steps⟩, hrun, hreached⟩
  rcases Prod.mk.inj hreached with ⟨hbuilds, hsets⟩
  exact ⟨last, steps, hrun, hbuilds, hsets, run_images_follow_bitmaps hrun⟩

end Thumbs

end OverlayScrollbar
