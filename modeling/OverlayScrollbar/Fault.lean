import OverlayScrollbar.Binary.Power

/-!
# Faults

Arithmetic in this library is checked: a computation that has no answer stops with a fault
instead of going on with a wrong value.

- `Fault`   : why a computation stopped
- `Checked` : a computation that may stop
- `Checked.word`, `Checked.signedWord` : whole numbers held to 64 bits
- `Checked.halfWord` : whole numbers held to 32 bits
-/

namespace OverlayScrollbar

/-- The ways in which a checked computation can stop. -/
inductive Fault
  /-- A whole number left the word that holds it. -/
  | overflow
  /-- A value was to be limited to an interval whose ends are not in order. -/
  | limitsOutOfOrder
  /-- A pixel buffer was too large to be addressed. -/
  | bufferTooLarge
  /-- A place outside a pixel buffer was read. -/
  | outOfBounds
  deriving DecidableEq, Repr

/-- A computation that either stops with a fault or gives a value. -/
abbrev Checked (α : Type) : Type :=
  Except Fault α

namespace Checked

/-- A count, if it fits an unsigned 64-bit word. -/
def word (n : Nat) : Checked Nat :=
  if n < 2 ^ 64 then .ok n else .error .overflow

/-- A count, if it fits an unsigned 32-bit word. -/
def halfWord (n : Nat) : Checked Nat :=
  if n < 2 ^ 32 then .ok n else .error .overflow

/-- A difference, if it fits a signed 64-bit word. -/
def signedWord (i : Int) : Checked Int :=
  if -2 ^ 63 ≤ i ∧ i < 2 ^ 63 then .ok i else .error .overflow

theorem bind_eq_ok_iff {α β : Type} {x : Checked α} {f : α → Checked β} {b : β} :
    (x >>= f) = .ok b ↔ ∃ a, x = .ok a ∧ f a = .ok b := by
  cases x with
  | error fault =>
      constructor
      · intro h
        cases h
      · rintro ⟨_, h, _⟩
        cases h
  | ok a =>
      constructor
      · intro h
        exact ⟨a, rfl, h⟩
      · rintro ⟨_, h, hb⟩
        cases h
        exact hb

theorem bind_of_ok {α β : Type} {x : Checked α} {a : α} (hx : x = .ok a) (f : α → Checked β) :
    (x >>= f) = f a := by
  rw [hx]
  rfl

theorem bind_of_error {α β : Type} {x : Checked α} {fault : Fault} (hx : x = .error fault)
    (f : α → Checked β) : (x >>= f) = .error fault := by
  rw [hx]
  rfl

/-- A computation gives a value if its first part does, and its second part then does too. -/
theorem exists_bind_eq_ok {α β : Type} {x : Checked α} {f : α → Checked β} {a : α}
    (hx : x = .ok a) (h : ∃ b, f a = .ok b) : ∃ b, (x >>= f) = .ok b := by
  obtain ⟨b, hb⟩ := h
  exact ⟨b, bind_eq_ok_iff.2 ⟨a, hx, hb⟩⟩

theorem map_eq_ok_iff {α β : Type} {x : Checked α} {f : α → β} {b : β} :
    x.map f = .ok b ↔ ∃ a, x = .ok a ∧ f a = b := by
  cases x with
  | error fault => simp [Except.map]
  | ok a => simp [Except.map]

/-- What is done to the value is done after the second part. -/
theorem map_bind {α β γ : Type} (x : Checked α) (f : α → Checked β) (g : β → γ) :
    (x >>= f).map g = x >>= fun a => (f a).map g := by
  cases x with
  | error fault => rfl
  | ok a => rfl

/-- A value that is given under a condition only, else a fault. -/
theorem ite_eq_ok_iff {α : Type} {p : Prop} [Decidable p] {fault : Fault} {a b : α} :
    (if p then .ok a else .error fault : Checked α) = .ok b ↔ p ∧ b = a := by
  by_cases hp : p
  · rw [if_pos hp]
    constructor
    · intro h
      cases h
      exact ⟨hp, rfl⟩
    · rintro ⟨_, rfl⟩
      rfl
  · rw [if_neg hp]
    constructor
    · intro h
      cases h
    · intro h
      exact absurd h.1 hp

theorem word_eq_ok_iff {n m : Nat} : word n = .ok m ↔ n < 2 ^ 64 ∧ m = n :=
  ite_eq_ok_iff

theorem halfWord_of_lt {n : Nat} (h : n < 2 ^ 32) : halfWord n = .ok n :=
  if_pos h

theorem halfWord_of_le {n : Nat} (h : 2 ^ 32 ≤ n) : halfWord n = .error .overflow :=
  if_neg (Nat.not_lt.2 h)

theorem signedWord_eq_ok_iff {i j : Int} :
    signedWord i = .ok j ↔ (-2 ^ 63 ≤ i ∧ i < 2 ^ 63) ∧ j = i :=
  ite_eq_ok_iff

end Checked

end OverlayScrollbar
