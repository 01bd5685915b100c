import OverlayScrollbar.Fault

/-!
# Timers

A timer is a token for one delayed call. Scheduling a timer queues a request to arm it; when the
delay is over, the token comes back and is taken out. Cancelling makes every token stale, so that a
late return has no effect.

- `TimerRequest` : a token and its delay
- `Timers`       : the live tokens and the requests that are not handed out
-/

namespace OverlayScrollbar

/-- Tokens are numbered from one. -/
abbrev TimerToken : Type :=
  Nat

/-- A timer that is still to be armed. -/
structure TimerRequest where
  token : TimerToken
  /-- The delay in milliseconds. -/
  delay : UInt64
  deriving DecidableEq, Repr

/-- The timers of one owner. -/
structure Timers where
  /-- How many tokens were given out. -/
  issued : Nat
  /-- The tokens that are scheduled and neither fired nor cancelled, in no order. -/
  live : List TimerToken
  /-- The timers to arm, in the order of their scheduling. -/
  requests : List TimerRequest
  deriving DecidableEq, Repr

namespace Timers

/-- No timer was scheduled. -/
def empty : Timers :=
  ⟨0, [], []⟩

instance : Inhabited Timers where
  default := empty

/-- Schedules a timer and gives its token. -/
def schedule (timers : Timers) (delay : UInt64) : Checked (Timers × TimerToken) := do
  let token ← Checked.word (timers.issued + 1)
  return (⟨token, timers.live ++ [token], timers.requests ++ [⟨token, delay⟩]⟩, token)

/-- Cancels every timer. -/
def cancelAll (timers : Timers) : Timers :=
  { timers with live := [], requests := [] }

/-- The token is scheduled and neither fired nor cancelled. -/
def isPending (timers : Timers) (token : TimerToken) : Bool :=
  timers.live.contains token

/-- How many tokens are live. -/
def pendingCount (timers : Timers) : Nat :=
  timers.live.length

theorem isPending_iff {timers : Timers} {token : TimerToken} :
    timers.isPending token = true ↔ token ∈ timers.live := by
  simp [isPending]

/-- The tokens without one of them, whose place is taken by the last. -/
def swapOut (token : TimerToken) : List TimerToken → List TimerToken
  | [] => []
  | first :: rest =>
      if first = token then rest.getLast?.toList ++ rest.dropLast else first :: swapOut token rest

/-- Takes a token out, and tells whether it was live. -/
def fire (timers : Timers) (token : TimerToken) : Timers × Bool :=
  ({ timers with live := swapOut token timers.live }, timers.isPending token)

/-- Hands out the timers to arm. -/
def drain (timers : Timers) : Timers × List TimerRequest :=
  ({ timers with requests := [] }, timers.requests)

/-! ## What the operations do -/

theorem schedule_eq_ok_iff {timers after : Timers} {delay : UInt64} {token : TimerToken} :
    timers.schedule delay = .ok (after, token) ↔
      timers.issued + 1 < 2 ^ 64 ∧ token = timers.issued + 1 ∧
        after = ⟨token, timers.live ++ [token], timers.requests ++ [⟨token, delay⟩]⟩ := by
  unfold schedule
  rw [Checked.bind_eq_ok_iff]
  constructor
  · rintro ⟨_, hn, h⟩
    obtain ⟨hlt, rfl⟩ := Checked.word_eq_ok_iff.1 hn
    cases h
    exact ⟨hlt, rfl, rfl⟩
  · rintro ⟨hlt, rfl, rfl⟩
    exact ⟨_, Checked.word_eq_ok_iff.2 ⟨hlt, rfl⟩, rfl⟩

@[simp]
theorem live_cancelAll (timers : Timers) : timers.cancelAll.live = [] :=
  rfl

@[simp]
theorem requests_cancelAll (timers : Timers) : timers.cancelAll.requests = [] :=
  rfl

@[simp]
theorem issued_cancelAll (timers : Timers) : timers.cancelAll.issued = timers.issued :=
  rfl

@[simp]
theorem live_drain (timers : Timers) : timers.drain.1.live = timers.live :=
  rfl

theorem swapOut_of_not_mem {token : TimerToken} {live : List TimerToken} (h : token ∉ live) :
    swapOut token live = live := by
  induction live with
  | nil => rfl
  | cons first rest ih =>
      rcases not_or.1 (mt List.mem_cons.2 h) with ⟨hfirst, hrest⟩
      rw [swapOut, if_neg (Ne.symm hfirst), ih hrest]

/-- A token that is not live changes nothing when it comes back. -/
theorem fire_of_not_mem {timers : Timers} {token : TimerToken} (h : token ∉ timers.live) :
    timers.fire token = (timers, false) := by
  simp [fire, isPending, swapOut_of_not_mem h, h]

end Timers

end OverlayScrollbar
