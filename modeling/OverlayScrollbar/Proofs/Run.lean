import Mathlib.Data.List.Induction
import OverlayScrollbar.Fault

/-!
# Runs

A machine takes inputs one by one; each input leads to a new state and an output, or to a fault. A
run hands it a list of inputs and keeps a record of every step.

- `Machine`               : a state transition that may fault
- `Step`                  : an input, with the states before and after it, and the output
- `Machine.run`           : the inputs one after another, up to the first fault
- `Machine.run_induct`    : induction on a run, from its last step
- `Machine.run_invariant` : what every step keeps holds after every run
- `Machine.exists_run_of_progress` : a run does not fault if every input can be taken
- `Machine.exists_run_of_steps`    : nor if every allowed input can be taken by a good step
- `Machine.invariant_of_mem_steps` : and before and after each of its steps
- `Machine.invariant_of_steps`     : what every allowed step keeps holds at the end, if all are allowed
-/

namespace OverlayScrollbar

/-- A transition from a state and an input to a state and an output. -/
abbrev Machine (σ ι ο : Type) : Type :=
  σ → ι → Checked (σ × ο)

/-- One step of a run. -/
structure Step (σ ι ο : Type) where
  before : σ
  input : ι
  output : ο
  after : σ

namespace Machine

variable {σ ι ο : Type}

/-- Takes the inputs in their order, and gives the last state and the steps. -/
def run (machine : Machine σ ι ο) (start : σ) : List ι → Checked (σ × List (Step σ ι ο))
  | [] => .ok (start, [])
  | input :: rest => do
      let (after, output) ← machine start input
      let (last, steps) ← run machine after rest
      return (last, ⟨start, input, output, after⟩ :: steps)

variable {machine : Machine σ ι ο} {start last : σ} {inputs : List ι} {steps : List (Step σ ι ο)}

/-! ## Runs in parts -/

theorem run_cons_eq_ok_iff {input : ι} :
    machine.run start (input :: inputs) = .ok (last, steps) ↔
      ∃ after output rest, machine start input = .ok (after, output) ∧
        machine.run after inputs = .ok (last, rest) ∧
          steps = ⟨start, input, output, after⟩ :: rest := by
  rw [run, Checked.bind_eq_ok_iff]
  constructor
  · rintro ⟨⟨after, output⟩, hstep, h⟩
    rcases Checked.bind_eq_ok_iff.1 h with ⟨⟨last', rest⟩, hrun, hlast⟩
    cases hlast
    exact ⟨after, output, rest, hstep, hrun, rfl⟩
  · rintro ⟨after, output, rest, hstep, hrun, rfl⟩
    exact ⟨(after, output), hstep, Checked.bind_eq_ok_iff.2 ⟨(last, rest), hrun, rfl⟩⟩

theorem run_append_eq_ok_iff {more : List ι} :
    machine.run start (inputs ++ more) = .ok (last, steps) ↔
      ∃ mid earlier later, machine.run start inputs = .ok (mid, earlier) ∧
        machine.run mid more = .ok (last, later) ∧ steps = earlier ++ later := by
  -- By induction on the first part, with the state from which it starts left open.
  induction inputs generalizing start steps with
  | nil =>
      constructor
      · intro h
        exact ⟨start, [], steps, rfl, h, rfl⟩
      · rintro ⟨mid, earlier, later, hrun, hmore, rfl⟩
        cases hrun
        exact hmore
  | cons input inputs ih =>
      rw [List.cons_append, run_cons_eq_ok_iff]
      constructor
      · rintro ⟨after, output, rest, hstep, hrest, rfl⟩
        rcases ih.1 hrest with ⟨mid, earlier, later, hrun, hmore, rfl⟩
        exact ⟨mid, _, later, run_cons_eq_ok_iff.2 ⟨after, output, earlier, hstep, hrun, rfl⟩,
          hmore, rfl⟩
      · rintro ⟨mid, earlier, later, hrun, hmore, rfl⟩
        rcases run_cons_eq_ok_iff.1 hrun with ⟨after, output, rest, hstep, hrest, rfl⟩
        exact ⟨after, output, rest ++ later, hstep, ih.2 ⟨mid, rest, later, hrest, hmore, rfl⟩, rfl⟩

theorem run_singleton_eq_ok_iff {input : ι} :
    machine.run start [input] = .ok (last, steps) ↔
      ∃ output, machine start input = .ok (last, output) ∧
        steps = [⟨start, input, output, last⟩] := by
  rw [run_cons_eq_ok_iff]
  constructor
  · rintro ⟨after, output, rest, hstep, hrun, rfl⟩
    cases hrun
    exact ⟨output, hstep, rfl⟩
  · rintro ⟨output, hstep, rfl⟩
    exact ⟨last, output, [], hstep, rfl, rfl⟩

theorem run_append_eq_ok {mid : σ} {more : List ι} {later : List (Step σ ι ο)}
    (h : machine.run start inputs = .ok (mid, steps))
    (hmore : machine.run mid more = .ok (last, later)) :
    machine.run start (inputs ++ more) = .ok (last, steps ++ later) :=
  run_append_eq_ok_iff.2 ⟨mid, steps, later, h, hmore, rfl⟩

/-! ## Induction -/

/-- Induction on a run: what holds at its start, and after a run and one more step, holds after the
whole run. -/
theorem run_induct {motive : List ι → σ → List (Step σ ι ο) → Prop}
    (nil : motive [] start [])
    (snoc : ∀ {inputs input before steps output after},
      machine.run start inputs = .ok (before, steps) → motive inputs before steps →
        machine before input = .ok (after, output) →
          motive (inputs ++ [input]) after (steps ++ [⟨before, input, output, after⟩]))
    (h : machine.run start inputs = .ok (last, steps)) : motive inputs last steps := by
  -- The last input is taken off, since the motive speaks of what was reached so far.
  induction inputs using List.reverseRecOn generalizing last steps with
  | nil =>
      cases h
      exact nil
  | append_singleton inputs input ih =>
      rcases run_append_eq_ok_iff.1 h with ⟨before, earlier, later, hrun, hlast, rfl⟩
      rcases run_singleton_eq_ok_iff.1 hlast with ⟨output, hstep, rfl⟩
      exact snoc hrun (ih hrun) hstep

/-- What holds at the start of a run, and is kept by each step with an allowed input, holds after
the run. -/
theorem run_invariant {allowed : ι → Prop} (inv : σ → List (Step σ ι ο) → Prop)
    (start_inv : inv start [])
    (step_inv : ∀ {before steps input output after}, inv before steps → allowed input →
      machine before input = .ok (after, output) →
        inv after (steps ++ [⟨before, input, output, after⟩]))
    (hallowed : ∀ input ∈ inputs, allowed input)
    (h : machine.run start inputs = .ok (last, steps)) : inv last steps := by
  refine run_induct (motive := fun inputs last steps =>
    (∀ input ∈ inputs, allowed input) → inv last steps) ?_ ?_ h hallowed
  · intro _
    exact start_inv
  · intro inputs input before steps output after _ ih hstep hall
    refine step_inv (ih ?_) (hall input (by simp)) hstep
    intro other hother
    exact hall other (by simp [hother])

/-- A run does not fault if what holds before the inputs that are left lets the next one be taken, and
holds before the others then. -/
theorem exists_run_of_progress {inv : List ι → σ → Prop}
    (progress : ∀ {input rest before}, inv (input :: rest) before →
      ∃ after output, machine before input = .ok (after, output) ∧ inv rest after)
    (h : inv inputs start) :
    ∃ last steps, machine.run start inputs = .ok (last, steps) ∧ inv [] last := by
  induction inputs generalizing start with
  | nil => exact ⟨start, [], rfl, h⟩
  | cons input rest ih =>
      rcases progress h with ⟨after, output, hstep, hafter⟩
      rcases ih hafter with ⟨last, steps, hrun, hlast⟩
      exact ⟨last, _, run_cons_eq_ok_iff.2 ⟨after, output, steps, hstep, hrun, rfl⟩, hlast⟩

/-- A run does not fault, and goes through good steps only, if wherever the invariant holds an allowed
input can be taken by a good step that keeps it. -/
theorem exists_run_of_steps {allowed : ι → Prop} {good : Step σ ι ο → Prop} (inv : σ → Prop)
    (progress : ∀ {before input}, inv before → allowed input → ∃ after output,
      machine before input = .ok (after, output) ∧ inv after ∧ good ⟨before, input, output, after⟩)
    (hallowed : ∀ input ∈ inputs, allowed input) (h : inv start) :
    ∃ last steps, machine.run start inputs = .ok (last, steps) ∧ inv last ∧
      ∀ step ∈ steps, good step := by
  induction inputs generalizing start with
  | nil => exact ⟨start, [], rfl, h, fun step hmem => absurd hmem List.not_mem_nil⟩
  | cons input rest ih =>
      rcases progress h (hallowed input List.mem_cons_self) with
          ⟨after, output, hstep, hafter, hgood⟩
      have hrest : ∀ other ∈ rest, allowed other := by
        intro other hother
        exact hallowed other (List.mem_cons_of_mem input hother)
      rcases ih hrest hafter with ⟨last, steps, hrun, hlast, hsteps⟩
      refine ⟨last, _, run_cons_eq_ok_iff.2 ⟨after, output, steps, hstep, hrun, rfl⟩, hlast, ?_⟩
      intro step hmem
      rcases List.mem_cons.1 hmem with rfl | hlater
      · exact hgood
      · exact hsteps step hlater

/-! ## Steps of a run -/

/-- There is one step for each input, in their order. -/
theorem map_input_of_run (h : machine.run start inputs = .ok (last, steps)) :
    steps.map Step.input = inputs := by
  induction inputs generalizing start steps with
  | nil =>
      cases h
      rfl
  | cons input inputs ih =>
      rcases run_cons_eq_ok_iff.1 h with ⟨after, output, rest, _, hrun, rfl⟩
      rw [List.map_cons, ih hrun]

/-- The input of a step is one of those that were taken. -/
theorem input_mem_of_mem_steps {step : Step σ ι ο} (hmem : step ∈ steps)
    (h : machine.run start inputs = .ok (last, steps)) : step.input ∈ inputs := by
  rw [← map_input_of_run h]
  exact List.mem_map_of_mem hmem

theorem allowed_of_mem_steps {allowed : ι → Prop} (hallowed : ∀ input ∈ inputs, allowed input)
    (h : machine.run start inputs = .ok (last, steps)) : ∀ step ∈ steps, allowed step.input := by
  intro step hmem
  exact hallowed step.input (input_mem_of_mem_steps hmem h)

/-- A run up to one of its steps, the step, and the run that goes on from there. -/
theorem exists_run_of_append_eq {earlier later : List (Step σ ι ο)} {step : Step σ ι ο}
    (heq : steps = earlier ++ step :: later) (h : machine.run start inputs = .ok (last, steps)) :
    ∃ sofar more, inputs = sofar ++ step.input :: more ∧
      machine.run start sofar = .ok (step.before, earlier) ∧
        machine step.before step.input = .ok (step.after, step.output) ∧
          machine.run step.after more = .ok (last, later) := by
  induction inputs generalizing start steps earlier with
  | nil =>
      -- Without an input there is no step.
      cases h
      exact absurd heq.symm (by simp)
  | cons input inputs ih =>
      rcases run_cons_eq_ok_iff.1 h with ⟨after, output, rest, hstep, hrun, rfl⟩
      -- The step is the first one, or one of the rest.
      cases earlier with
      | nil =>
          rcases List.cons.inj heq with ⟨rfl, rfl⟩
          exact ⟨[], inputs, rfl, rfl, hstep, hrun⟩
      | cons first earlier =>
          rcases List.cons.inj heq with ⟨rfl, hrest⟩
          rcases ih hrest hrun with ⟨sofar, more, rfl, hsofar, hnext, hmore⟩
          exact ⟨input :: sofar, more, rfl,
            run_cons_eq_ok_iff.2 ⟨after, output, earlier, hstep, hsofar, rfl⟩, hnext, hmore⟩

/-- What holds at the start of a run, and is kept by each allowed step, holds before and after every
step if all are allowed. -/
theorem invariant_of_mem_steps {allowed : Step σ ι ο → Prop} (inv : σ → Prop) (start_inv : inv start)
    (step_inv : ∀ step, inv step.before → allowed step →
      machine step.before step.input = .ok (step.after, step.output) → inv step.after)
    (hallowed : ∀ step ∈ steps, allowed step) (h : machine.run start inputs = .ok (last, steps)) :
    ∀ step ∈ steps, inv step.before ∧ inv step.after ∧
      machine step.before step.input = .ok (step.after, step.output) := by
  -- By induction from the front: what the first step keeps is what the rest starts with.
  induction inputs generalizing start steps with
  | nil =>
      cases h
      intro step hmem
      cases hmem
  | cons input inputs ih =>
      rcases run_cons_eq_ok_iff.1 h with ⟨after, output, rest, hstep, hrun, rfl⟩
      have hfirst : allowed ⟨start, input, output, after⟩ := hallowed _ List.mem_cons_self
      have hafter : inv after := step_inv ⟨start, input, output, after⟩ start_inv hfirst hstep
      intro step hmem
      rcases List.mem_cons.1 hmem with rfl | hrest
      · exact ⟨start_inv, hafter, hstep⟩
      · refine ih hafter ?_ hrun step hrest
        intro other hother
        exact hallowed other (List.mem_cons_of_mem _ hother)

/-- What holds at the start of a run, and is kept by each allowed step, holds at its end if all are
allowed. -/
theorem invariant_of_steps {allowed : Step σ ι ο → Prop} (inv : σ → Prop) (start_inv : inv start)
    (step_inv : ∀ step, inv step.before → allowed step →
      machine step.before step.input = .ok (step.after, step.output) → inv step.after)
    (hallowed : ∀ step ∈ steps, allowed step) (h : machine.run start inputs = .ok (last, steps)) :
    inv last := by
  refine run_induct (motive := fun _ last steps => (∀ step ∈ steps, allowed step) → inv last)
    ?_ ?_ h hallowed
  · intro _
    exact start_inv
  · intro inputs input before steps output after _ ih hstep hall
    apply step_inv ⟨before, input, output, after⟩ _ _ hstep
    · apply ih
      intro other hother
      exact hall other (List.mem_append_left _ hother)
    · exact hall _ (List.mem_append_right _ List.mem_cons_self)

end Machine

end OverlayScrollbar
