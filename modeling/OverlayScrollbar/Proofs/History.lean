import Mathlib.Data.List.Basic
import Mathlib.Data.List.Induction

/-!
# Histories

A history lists what has happened, oldest event first. What a state holds is told by looking back: an
event may begin something, and a later event may end it.

- `Moment`  : an event of a history, with all that was before and after it
- `moments` : the moments of a history, oldest first
- `lasting` : what was begun in a history and not ended since, oldest first

Main statements: `mem_lasting_iff`, what it is to last, and `lasting_concat`, one more event takes away
what it ends and adds what it begins.
-/

namespace OverlayScrollbar

/-- An event of a history. -/
structure Moment (α : Type) where
  earlier : List α
  event : α
  later : List α

namespace Moment

variable {α : Type}

/-- The moment in a history with one more event at its start. -/
def precededBy (moment : Moment α) (event : α) : Moment α :=
  { moment with earlier := event :: moment.earlier }

/-- The moment in a history with one more event at its end. -/
def followedBy (moment : Moment α) (event : α) : Moment α :=
  { moment with later := moment.later ++ [event] }

end Moment

variable {α β : Type}

/-- The moments of a history, oldest first. -/
def moments : List α → List (Moment α)
  | [] => []
  | event :: rest => ⟨[], event, rest⟩ :: (moments rest).map (·.precededBy event)

/-- The moments of a history are the ways to split it at an event. -/
theorem mem_moments_iff {history : List α} {moment : Moment α} :
    moment ∈ moments history ↔ history = moment.earlier ++ moment.event :: moment.later := by
  induction history generalizing moment with
  | nil => simp [moments]
  | cons first rest ih =>
      rw [moments, List.mem_cons, List.mem_map]
      constructor
      · rintro (rfl | ⟨inner, hinner, rfl⟩)
        · rfl
        · exact congrArg (first :: ·) (ih.1 hinner)
      · intro h
        -- The event is the first one, or one of the rest.
        rcases moment with ⟨earlier, event, later⟩
        cases earlier with
        | nil =>
            cases h
            exact Or.inl rfl
        | cons other earlier =>
            rcases List.cons.inj h with ⟨rfl, hrest⟩
            exact Or.inr ⟨⟨earlier, event, later⟩, ih.2 hrest, rfl⟩

/-- One more event comes after all moments so far, and is the last one. -/
theorem moments_concat (history : List α) (event : α) :
    moments (history ++ [event]) =
      (moments history).map (·.followedBy event) ++ [⟨history, event, []⟩] := by
  induction history with
  | nil => rfl
  | cons first rest ih =>
      simp only [List.cons_append, moments, ih, List.map_append, List.map_cons, List.map_map]
      rfl

/-- A moment of the history with one more event is an earlier one, or the last. -/
theorem exists_moments_concat_iff {p : Moment α → Prop} {history : List α} {event : α} :
    (∃ moment ∈ moments (history ++ [event]), p moment) ↔
      (∃ moment ∈ moments history, p (moment.followedBy event)) ∨ p ⟨history, event, []⟩ := by
  simp [moments_concat, or_and_right, exists_or]

/-! ## What lasts -/

/-- What was begun in a history and not ended since, oldest first. An event begins some values, given
what was before it, and ends those that were begun earlier and that it is said to end. -/
def lasting (begins : List α → α → List β) (ends : α → β → Bool) (history : List α) : List β :=
  (moments history).flatMap fun moment =>
    (begins moment.earlier moment.event).filter fun value => moment.later.all (!ends · value)

variable {begins : List α → α → List β} {ends : α → β → Bool} {history : List α} {value : β}

/-- A value lasts if an event has begun it and none since has ended it. -/
theorem mem_lasting_iff :
    value ∈ lasting begins ends history ↔ ∃ earlier event later,
      history = earlier ++ event :: later ∧ value ∈ begins earlier event ∧
        ∀ other ∈ later, ends other value = false := by
  simp only [lasting, List.mem_flatMap, List.mem_filter, List.all_eq_true, Bool.not_eq_true']
  constructor
  · rintro ⟨moment, hmoment, hbegins, hlasts⟩
    exact ⟨moment.earlier, moment.event, moment.later, mem_moments_iff.1 hmoment, hbegins, hlasts⟩
  · rintro ⟨earlier, event, later, hhistory, hbegins, hlasts⟩
    exact ⟨⟨earlier, event, later⟩, mem_moments_iff.2 hhistory, hbegins, hlasts⟩

/-- One more event takes away what it ends, and adds what it begins. -/
theorem lasting_concat (history : List α) (event : α) :
    lasting begins ends (history ++ [event]) =
      (lasting begins ends history).filter (!ends event ·) ++ begins history event := by
  have hkept (moment : Moment α) :
      ((begins moment.earlier moment.event).filter fun value =>
        (moment.later ++ [event]).all (!ends · value)) =
      ((begins moment.earlier moment.event).filter fun value =>
        moment.later.all (!ends · value)).filter (!ends event ·) := by
    rw [List.filter_filter]
    refine List.filter_congr fun value _ => ?_
    simp [Bool.and_comm]
  unfold lasting
  rw [moments_concat, List.flatMap_append, List.flatMap_map, List.filter_flatMap,
    List.flatMap_singleton]
  simp only [Moment.followedBy, hkept]
  simp

/-- What lasts was begun, in the same order. -/
theorem lasting_sublist {gives : α → List β} (history : List α) :
    (lasting (fun _ => gives) ends history).Sublist (history.flatMap gives) := by
  induction history using List.reverseRecOn with
  | nil => exact List.Sublist.refl []
  | append_singleton history event ih =>
      rw [lasting_concat, List.flatMap_append, List.flatMap_singleton]
      exact (List.filter_sublist.trans ih).append (List.Sublist.refl _)

end OverlayScrollbar
