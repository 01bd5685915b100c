import Mathlib.Data.List.Forall2
import OverlayScrollbar.Proofs.Run

/-!
# Two computations side by side

To compare two runs, a relation is followed through both of them: what corresponds before two steps
corresponds after them. Nothing is said if one of the two faults.

- `Checked.Corresponds`          : what two computations give is related
- `Checked.Corresponds.bind`     : two computations in two parts
- `Machine.corresponds_of_steps` : two runs, step by step
-/

namespace OverlayScrollbar

/-! ## Computations -/

/-- Whatever two computations give, if both give a value, is related. -/
def Checked.Corresponds {α β : Type} (related : α → β → Prop) (x : Checked α) (y : Checked β) :
    Prop :=
  ∀ a b, x = .ok a → y = .ok b → related a b

namespace Checked.Corresponds

variable {α β γ δ : Type} {related : α → β → Prop} {x : Checked α} {y : Checked β}

/-- Two values correspond if they are related. -/
theorem ok {a : α} {b : β} (h : related a b) :
    Corresponds related (.ok a : Checked α) (.ok b : Checked β) := by
  intro a' b' ha hb
  cases ha
  cases hb
  exact h

/-- Two computations in two parts correspond if the first parts do, and the second parts do
wherever the first ones have led. -/
theorem bind {related' : γ → δ → Prop} {f : α → Checked γ} {g : β → Checked δ}
    (h : Corresponds related x y)
    (hnext : ∀ a b, related a b → Corresponds related' (f a) (g b)) :
    Corresponds related' (x >>= f) (y >>= g) := by
  intro c d hc hd
  rcases bind_eq_ok_iff.1 hc with ⟨a, ha, hc⟩
  rcases bind_eq_ok_iff.1 hd with ⟨b, hb, hd⟩
  exact hnext a b (h a b ha hb) c d hc hd

theorem mono {weaker : α → β → Prop} (h : Corresponds related x y)
    (hweaker : ∀ a b, x = .ok a → y = .ok b → related a b → weaker a b) :
    Corresponds weaker x y := by
  intro a b ha hb
  exact hweaker a b ha hb (h a b ha hb)

/-- A computation corresponds to itself in that it gives one value. -/
theorem refl (x : Checked α) : Corresponds (fun a b => a = b) x x := by
  intro a b ha hb
  cases ha.symm.trans hb
  rfl

end Checked.Corresponds

/-! ## Runs -/

/-- Two runs with inputs that match one by one lead through steps that match one by one, and to states
that are related, if each step leads from related states to such. -/
theorem Machine.corresponds_of_steps {σ ι ο : Type} {machine : Machine σ ι ο}
    {matched : ι → ι → Prop} (related : σ → σ → Prop) (paired : Step σ ι ο → Step σ ι ο → Prop)
    (hstep : ∀ {before other input input'}, related before other → matched input input' →
      Checked.Corresponds
        (fun x y => related x.1 y.1 ∧
          paired ⟨before, input, x.2, x.1⟩ ⟨other, input', y.2, y.1⟩)
        (machine before input) (machine other input'))
    {inputs others : List ι} (hinputs : List.Forall₂ matched inputs others) {start start' : σ}
    (hstart : related start start') :
    Checked.Corresponds (fun x y => related x.1 y.1 ∧ List.Forall₂ paired x.2 y.2)
      (machine.run start inputs) (machine.run start' others) := by
  -- By induction on the two lists of inputs, with the states from which they start left open.
  induction hinputs generalizing start start' with
  | nil => exact .ok ⟨hstart, .nil⟩
  | cons hinput _ ih =>
      refine (hstep hstart hinput).bind ?_
      rintro ⟨after, output⟩ ⟨after', output'⟩ ⟨hafter, hpaired⟩
      refine (ih hafter).bind ?_
      rintro ⟨last, steps⟩ ⟨last', steps'⟩ ⟨hlast, hsteps⟩
      exact .ok ⟨hlast, .cons hpaired hsteps⟩

end OverlayScrollbar
