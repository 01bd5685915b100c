import Mathlib.Data.List.Nodup
import OverlayScrollbar.Editor.Action
import OverlayScrollbar.Proofs.Editor.Operations
import OverlayScrollbar.Proofs.Single.Rank

/-!
# What listeners are told

What a listener of an editor is told, from its registration on, is a chain: each change starts at the
offset at which the one before it has ended, and the last one ends at the offset of the editor. No
operation moves the view without telling, or tells of an offset that was not.

- `EditorHost.Chained`      : changes from one offset to another, without a gap
- `EditorHost.changesFor`   : what one of the listeners is told
- `EditorHost.Announced`    : a change is told of exactly if there is one
- `EditorHost.Listening`    : a listener that was told a chain of changes
- `EditorHost.Listening.of_doing` : every operation continues the chain
- `EditorHost.Unheard`      : a listener that is not registered, and is told nothing

Main statement: `run_changes_chained`.
-/

namespace OverlayScrollbar

namespace EditorHost

variable {D E : Type} [TextEditor D E] {host after : EditorHost D} {operation : Operation E}
  {handed told : Changes}
  {id : ListenerId} {lineHeight start : Single}

/-! ## Chains -/

/-- Changes lead from one offset to another: each starts where the one before it has ended, and moves
the view up or down. -/
inductive Chained : Single → List ScrollChange → Single → Prop
  | nil (y : Single) : Chained y [] y
  | cons {y z : Single} {change : ScrollChange} {rest : List ScrollChange}
      (starts : change.oldY = y) (moves : change.y < change.oldY ∨ change.oldY < change.y)
      (x_eq : change.x = 0 ∧ change.oldX = 0) (continues : Chained change.y rest z) :
      Chained y (change :: rest) z

/-- A chain goes on with a change that starts at its end. -/
theorem Chained.snoc {y z : Single} {changes : List ScrollChange} {change : ScrollChange}
    (h : Chained y changes z) (hstarts : change.oldY = z)
    (hmoves : change.y < change.oldY ∨ change.oldY < change.y)
    (hx : change.x = 0 ∧ change.oldX = 0) : Chained y (changes ++ [change]) change.y := by
  -- By induction on the chain, whose end stays the same.
  induction h with
  | nil y => exact .cons hstarts hmoves hx (.nil change.y)
  | cons starts moves x_eq _ ih => exact .cons starts moves x_eq (ih hstarts)

/-! ## Changes for one listener -/

/-- What one of the listeners is told. -/
def changesFor (id : ListenerId) (changes : Changes) : List ScrollChange :=
  (changes.filter fun entry => entry.1 == id).map Prod.snd

theorem changesFor_append (id : ListenerId) (earlier later : Changes) :
    changesFor id (earlier ++ later) = changesFor id earlier ++ changesFor id later := by
  unfold changesFor
  rw [List.filter_append, List.map_append]

/-- Each listener is told a change once. -/
theorem changesFor_map {ids : List ListenerId} (hnodup : ids.Nodup) (hmem : id ∈ ids)
    (change : ScrollChange) : changesFor id (ids.map (·, change)) = [change] := by
  have hone : ids.filter (· == id) = [id] := by
    rw [List.filter_beq, List.count_eq_one_of_mem hnodup hmem]
    rfl
  calc
    changesFor id (ids.map (·, change)) =
        ((ids.filter (· == id)).map (·, change)).map Prod.snd := by
      unfold changesFor
      rw [List.filter_map]
      rfl
    _ = [change] := by
      rw [hone]
      rfl

theorem changesFor_of_not_mem {changes : Changes} (h : ∀ entry ∈ changes, entry.1 ≠ id) :
    changesFor id changes = [] := by
  have hnone : (changes.filter fun entry => entry.1 == id) = [] := by
    rw [List.filter_eq_nil_iff]
    intro entry hentry
    simp [h entry hentry]
  unfold changesFor
  rw [hnone]
  rfl

/-! ## Telling exactly what has changed -/

/-- The listeners are told of a change of the offset exactly if there is one. -/
inductive Announced (host after : EditorHost D) : Prop
  | silent (same : after.tracker.scrollY = host.tracker.scrollY)
      (listeners_eq : after.listeners = host.listeners)
  | told (moved : after.tracker.scrollY < host.tracker.scrollY ∨
        host.tracker.scrollY < after.tracker.scrollY)
      (listeners_eq : after.listeners =
        host.listeners.notify ⟨0, after.tracker.scrollY, 0, host.tracker.scrollY⟩)

/-- The first line that is seen is one of the lines, and these have a height. -/
structure Lined (host : EditorHost D) : Prop where
  firstLine_lt : host.tracker.firstLine < host.tracker.lineCount
  isFinite : host.tracker.lineHeight.IsFinite
  positive : 0 < host.tracker.lineHeight

theorem lined_new (text : String) (hfinite : lineHeight.IsFinite) (hpos : 0 < lineHeight) :
    (new text lineHeight : EditorHost D).Lined :=
  ⟨firstLine_lt_new text lineHeight, hfinite, hpos⟩

theorem Lined.of_doing (h : host.Lined) (hdoing : Doing host operation after handed) :
    after.Lined := by
  refine ⟨hdoing.firstLine_lt h.firstLine_lt, ?_, ?_⟩
  · rw [hdoing.lineHeight_eq]
    exact h.isFinite
  · rw [hdoing.lineHeight_eq]
    exact h.positive

/-- A word counts the lines as well. -/
structure Measured (host : EditorHost D) : Prop extends Lined host where
  lineCount_lt : host.tracker.lineCount < 2 ^ 64

theorem Measured.firstLine_le (h : host.Measured) : host.tracker.firstLine ≤ 2 ^ 64 :=
  Nat.le_of_lt (Nat.lt_trans h.firstLine_lt h.lineCount_lt)

/-- The offset is a number, and has no sign. -/
theorem Measured.exists_scrollY_eq (h : host.Measured) :
    ∃ num den, host.tracker.scrollY = Single.round false num den :=
  Single.exists_mul_eq_round h.firstLine_le h.isFinite h.positive

theorem Tells.announced (h : Tells host after) (hhost : host.Measured) (hafter : after.Measured) :
    Announced host after := by
  rcases hhost.exists_scrollY_eq with ⟨num, den, hold⟩
  rcases hafter.exists_scrollY_eq with ⟨num', den', hnew⟩
  -- Neither offset has a sign, so that two of one size are one.
  cases h with
  | silent same listeners_eq =>
      refine .silent ?_ listeners_eq
      rw [hold, hnew] at same ⊢
      exact Single.round_eq_of_sameSize same
  | told moved listeners_eq =>
      refine .told ?_ listeners_eq
      rw [hold, hnew] at moved ⊢
      exact Single.lt_or_lt_of_not_sameSize (Single.isNaN_round _ _ _) (Single.isNaN_round _ _ _) moved

theorem Scrolling.announced (h : Scrolling host after) (hhost : host.Measured)
    (hafter : after.Measured) : Announced host after := by
  have hlast : host.tracker.lastLine < 2 ^ 64 :=
    Nat.lt_of_le_of_lt (Nat.sub_le _ _) hhost.lineCount_lt
  have hfirst : host.tracker.firstLine ≤ host.tracker.lastLine :=
    Nat.le_sub_one_of_lt hhost.firstLine_lt
  rcases h.told hfirst hlast with htells | ⟨hstays, hsilent⟩
  · exact htells.announced hhost hafter
  · -- No line was scrolled by, and the offset is the same product again.
    refine .silent ?_ hsilent
    unfold ScrollTracker.scrollY
    rw [hstays, h.lineHeight_eq]

/-! ## A listener -/

/-- The listener was told a chain of changes, up to the offset of the editor; a part of them is still
queued. -/
structure Listening (id : ListenerId) (start : Single) (told : Changes) (host : EditorHost D) :
    Prop where
  nodup : host.listeners.ids.Nodup
  listens : id ∈ host.listeners.ids
  chained : Chained start (changesFor id (told ++ host.listeners.queue)) host.tracker.scrollY

theorem Listening.of_announced (h : Listening id start told host) (hannounced : Announced host after) :
    Listening id start told after := by
  cases hannounced with
  | silent same listeners_eq =>
      refine ⟨?_, ?_, ?_⟩
      · rw [listeners_eq]
        exact h.nodup
      · rw [listeners_eq]
        exact h.listens
      · rw [listeners_eq, same]
        exact h.chained
  | told moved listeners_eq =>
      refine ⟨?_, ?_, ?_⟩
      · rw [listeners_eq]
        exact h.nodup
      · rw [listeners_eq]
        exact h.listens
      · -- The change is queued after all others, and for this listener once.
        rw [listeners_eq]
        show Chained start (changesFor id (told ++ (host.listeners.queue ++
          host.listeners.ids.map (·, _)))) _
        rw [← List.append_assoc, changesFor_append, changesFor_map h.nodup h.listens]
        exact h.chained.snoc rfl moved ⟨rfl, rfl⟩

/-- Every operation continues the chain. -/
theorem Listening.of_doing (h : Listening id start told host) (hhost : host.Measured)
    (hafter : after.Measured) (hdoing : Doing host operation after handed) :
    Listening id start (told ++ handed) after := by
  cases hdoing with
  | scrolled scrolling _ =>
      rw [List.append_nil]
      exact h.of_announced (scrolling.announced hhost hafter)
  | edited editing =>
      rw [List.append_nil]
      exact h.of_announced (editing.tells.announced hhost hafter)
  | drained =>
      -- What was queued is handed out, and stays where it was in the chain.
      refine ⟨h.nodup, h.listens, ?_⟩
      show Chained start (changesFor id (told ++ host.listeners.queue ++ [])) host.tracker.scrollY
      rw [List.append_nil]
      exact h.chained
  | registered other =>
      rw [List.append_nil]
      refine ⟨Listeners.nodup_ids_add h.nodup, Listeners.mem_ids_add.2 (Or.inl h.listens), ?_⟩
      show Chained start (changesFor id (told ++ (host.listeners.add other).1.queue)) _
      rw [Listeners.queue_add]
      exact h.chained

/-! ## Before the registration -/

/-- The listener is not registered, and nothing is queued for it. -/
structure Unheard (id : ListenerId) (host : EditorHost D) : Prop where
  nodup : host.listeners.ids.Nodup
  absent : id ∉ host.listeners.ids
  unqueued : ∀ entry ∈ host.listeners.queue, entry.1 ≠ id

theorem unheard_new (id : ListenerId) (text : String) (lineHeight : Single) :
    (new text lineHeight : EditorHost D).Unheard id :=
  ⟨List.nodup_nil, List.not_mem_nil, fun _ hmem => absurd hmem List.not_mem_nil⟩

theorem Unheard.of_listeners (h : host.Unheard id)
    (hlisteners : after.listeners = host.listeners ∨
      ∃ change, after.listeners = host.listeners.notify change) : after.Unheard id := by
  rcases hlisteners with hsame | ⟨change, htold⟩
  · refine ⟨?_, ?_, ?_⟩
    all_goals rw [hsame]
    · exact h.nodup
    · exact h.absent
    · exact h.unqueued
  · refine ⟨?_, ?_, ?_⟩
    all_goals rw [htold]
    · exact h.nodup
    · exact h.absent
    · -- Only those that are registered are told.
      intro entry hentry
      rcases List.mem_append.1 hentry with hqueued | hnew
      · exact h.unqueued entry hqueued
      · rcases List.mem_map.1 hnew with ⟨other, hother, rfl⟩
        intro heq
        exact h.absent (heq ▸ hother)

theorem Unheard.of_doing (h : host.Unheard id) (hother : operation ≠ .addListener id)
    (hdoing : Doing host operation after handed) : after.Unheard id := by
  cases hdoing with
  | scrolled scrolling _ => exact h.of_listeners scrolling.listeners_cases
  | edited editing => exact h.of_listeners editing.tells.listeners_cases
  | drained => exact ⟨h.nodup, h.absent, fun _ hmem => absurd hmem List.not_mem_nil⟩
  | registered other =>
      refine ⟨Listeners.nodup_ids_add h.nodup, ?_, ?_⟩
      · intro hmem
        rcases Listeners.mem_ids_add.1 hmem with hmem | rfl
        · exact h.absent hmem
        · exact hother rfl
      · show ∀ entry ∈ (host.listeners.add other).1.queue, entry.1 ≠ id
        rw [Listeners.queue_add]
        exact h.unqueued

/-- The chain begins with the registration. -/
theorem Unheard.listening (h : host.Unheard id) :
    Listening id host.tracker.scrollY [] (ScrollHost.addListener host id).1 := by
  refine ⟨Listeners.nodup_ids_add h.nodup, Listeners.mem_ids_add.2 (Or.inr rfl), ?_⟩
  show Chained _ (changesFor id (host.listeners.add id).1.queue) host.tracker.scrollY
  rw [Listeners.queue_add, changesFor_of_not_mem h.unqueued]
  exact .nil host.tracker.scrollY

/-! ## Runs -/

variable {text : String} {operations : List (Operation E)} {last : EditorHost D}
  {steps : List (Step (EditorHost D) (Operation E) Changes)}

/-- What the steps of a run have handed out, in their order. -/
def handedOut {S I : Type} (steps : List (Step S I Changes)) : Changes :=
  steps.flatMap Step.output

theorem handedOut_concat {S I : Type} (steps : List (Step S I Changes)) (step : Step S I Changes) :
    handedOut (steps ++ [step]) = handedOut steps ++ step.output := by
  unfold handedOut
  rw [List.flatMap_append, List.flatMap_singleton]

/-- Up to its registration a listener is told nothing. -/
theorem unheard_of_run (hfinite : lineHeight.IsFinite) (hpos : 0 < lineHeight)
    (hallowed : ∀ operation ∈ operations, operation.Fits ∧ operation ≠ .addListener id)
    (h : (new text lineHeight).run operations = .ok (last, steps)) :
    last.Lined ∧ last.Unheard id := by
  refine Machine.run_invariant (fun host _ => host.Lined ∧ host.Unheard id) ?_ ?_ hallowed h
  · exact ⟨lined_new text hfinite hpos, unheard_new id text lineHeight⟩
  · rintro before steps operation handed after ⟨hlined, hunheard⟩ ⟨hfits, hother⟩ hoperate
    have hdoing := operate_eq_ok hfits hoperate
    exact ⟨hlined.of_doing hdoing, hunheard.of_doing hother hdoing⟩

/-- A run continues the chain, as long as words count the lines. -/
theorem Listening.of_run (hlistening : Listening id start [] host) (hlined : host.Lined)
    (hfits : ∀ operation ∈ operations, operation.Fits)
    (hwords : ∀ step ∈ steps,
      step.before.tracker.lineCount < 2 ^ 64 ∧ step.after.tracker.lineCount < 2 ^ 64)
    (h : host.run operations = .ok (last, steps)) : Listening id start (handedOut steps) last := by
  have hrun := Machine.run_invariant (fun reached sofar =>
    (∀ step ∈ sofar,
      step.before.tracker.lineCount < 2 ^ 64 ∧ step.after.tracker.lineCount < 2 ^ 64) →
        reached.Lined ∧ Listening id start (handedOut sofar) reached) ?_ ?_ hfits h hwords
  · exact hrun.2
  · intro _
    exact ⟨hlined, hlistening⟩
  · intro before sofar operation handed after ih hfits hoperate hwords
    -- The last step is taken off, and the chain goes on from what the others have told.
    have hearlier := ih fun step hmem => hwords step (List.mem_append_left _ hmem)
    have hcounts := hwords _ (List.mem_append_right _ List.mem_cons_self)
    have hdoing := operate_eq_ok hfits hoperate
    have hafter := hearlier.1.of_doing hdoing
    refine ⟨hafter, ?_⟩
    rw [handedOut_concat]
    exact hearlier.2.of_doing ⟨hearlier.1, hcounts.1⟩ ⟨hafter, hcounts.2⟩ hdoing

/-- From its registration on a listener is told a chain of changes: what it was handed out, and what
is still queued for it, leads from the offset at the registration to the one that is reached, each
change from where the one before has ended to somewhere else. A word counts the lines all
the way. -/
theorem run_changes_chained {earlier later : List (Operation E)}
    {before : List (Step (EditorHost D) (Operation E) Changes)}
    (hfinite : lineHeight.IsFinite) (hpos : 0 < lineHeight)
    (hearlier : ∀ operation ∈ earlier, operation.Fits ∧ operation ≠ .addListener id)
    (hlater : ∀ operation ∈ later, operation.Fits)
    (hbefore : (new text lineHeight).run earlier = .ok (host, before))
    (h : (ScrollHost.addListener host id).1.run later = .ok (last, steps))
    (hwords : ∀ step ∈ steps,
      step.before.tracker.lineCount < 2 ^ 64 ∧ step.after.tracker.lineCount < 2 ^ 64) :
    Chained (ScrollHost.scrollY host)
      (changesFor id (handedOut steps ++ last.listeners.queue)) (ScrollHost.scrollY last) := by
  rcases unheard_of_run hfinite hpos hearlier hbefore with ⟨hlined, hunheard⟩
  have hregistered : (ScrollHost.addListener host id).1.Lined :=
    hlined.of_doing (.registered id)
  exact (hunheard.listening.of_run hregistered hlater hwords h).chained

/-- A view of three lines, scrolled by one. -/
def earlierOperations : List (Operation Edit) :=
  [.addListener 2, .setViewport 60, .perform (.scroll 1)]

/-- A wheel, a fling, edits that move the cursor above the view and below it, a scrollbar, and an edit
that leaves a single line. -/
def laterOperations : List (Operation Edit) :=
  [.perform (.scroll 2), .tickFling, .drainChanges, .perform (.edit (.paste "7\n8")), .addListener 3,
    .scrollTo 0 120, .scrollTo 0 120, .drainChanges, .perform (.edit .selectAll),
    .perform (.edit .backspace)]

/-- The theorem speaks of a listener among others, which is told five changes. -/
theorem run_changes_chained_drained :
    ∃ (host : EditorHost Document) (before : _) (last : EditorHost Document) (steps : _),
      (new "1\n2\n3\n4\n5\n6" 20).run earlierOperations = .ok (host, before) ∧
      (ScrollHost.addListener host 7).1.run laterOperations = .ok (last, steps) ∧
      (changesFor 7 (handedOut steps ++ last.listeners.queue)).map
        (fun change => (change.oldY, change.y)) =
          [(20, 60), (60, 80), (80, 20), (20, 120), (120, 0)] ∧
      Chained (ScrollHost.scrollY host) (changesFor 7 (handedOut steps ++ last.listeners.queue))
        (ScrollHost.scrollY last) := by
  have hruns : (do
      let (host, _) ← (new "1\n2\n3\n4\n5\n6" 20 : EditorHost Document).run earlierOperations
      let (last, steps) ← (ScrollHost.addListener host 7).1.run laterOperations
      return ((changesFor 7 (handedOut steps ++ last.listeners.queue)).map fun change =>
          (change.oldY, change.y),
        steps.map fun step => (step.before.tracker.lineCount, step.after.tracker.lineCount))) =
      (.ok ([(20, 60), (60, 80), (80, 20), (20, 120), (120, 0)],
        [(6, 6), (6, 6), (6, 6), (6, 7), (7, 7), (7, 7), (7, 7), (7, 7), (7, 7), (7, 1)]) :
          Checked (List (Single × Single) × List (Nat × Nat))) := by
    decide +kernel
  rcases Checked.bind_eq_ok_iff.1 hruns with ⟨⟨host, before⟩, hbefore, hrest⟩
  rcases Checked.bind_eq_ok_iff.1 hrest with ⟨⟨last, steps⟩, hrun, hresult⟩
  rcases Prod.mk.inj (Except.ok.inj hresult) with ⟨hchanges, hcounts⟩
  refine ⟨host, before, last, steps, hbefore, hrun, hchanges, ?_⟩
  apply run_changes_chained (by decide +kernel) (by decide +kernel) (by decide +kernel)
    (by decide +kernel) hbefore hrun
  intro step hmem
  have hall : ∀ counts ∈ [(6, 6), (6, 6), (6, 6), (6, 7), (7, 7), (7, 7), (7, 7), (7, 7), (7, 7),
      (7, 1)], counts.1 < 2 ^ 64 ∧ counts.2 < 2 ^ 64 := by
    decide
  exact hall _ (hcounts ▸ List.mem_map_of_mem hmem)

end EditorHost

end OverlayScrollbar
