import Mathlib.Data.List.Pairwise
import OverlayScrollbar.Timers

/-!
# Order of timer tokens

Tokens are given out in increasing order, and a request leaves the queue at most once. What was
handed out and what is still queued is therefore one increasing list, to which every live token
belongs.

- `Timers.scheduled`  : the timers after one more was scheduled
- `Timers.queued`     : the tokens of the requests that are not handed out
- `Timers.Transition` : what an owner does to its timers at a time
- `Timers.Spent`      : a token that was given out and is no longer live
- `Timers.Orderly`    : the order of all tokens, given those that were handed out

Main statements: `Spent.of_transition`, a token that is spent stays so, and `Orderly.of_transition`,
every transition keeps the order.
-/

namespace OverlayScrollbar

namespace Timers

/-- The timers after one more was scheduled, while there is a word for its token. -/
def scheduled (timers : Timers) (delay : UInt64) : Timers :=
  ⟨timers.issued + 1, timers.live ++ [timers.issued + 1],
    timers.requests ++ [⟨timers.issued + 1, delay⟩]⟩

/-- The tokens of the requests that are not handed out. -/
def queued (timers : Timers) : List TimerToken :=
  timers.requests.map TimerRequest.token

/-! ## What the operations do -/

theorem schedule_eq_scheduled {timers after : Timers} {delay : UInt64} {token : TimerToken}
    (h : timers.schedule delay = .ok (after, token)) :
    token = timers.issued + 1 ∧ after = timers.scheduled delay := by
  rcases schedule_eq_ok_iff.1 h with ⟨_, rfl, rfl⟩
  exact ⟨rfl, rfl⟩

theorem schedule_eq_ok {timers : Timers} (delay : UInt64) (h : timers.issued + 1 < 2 ^ 64) :
    timers.schedule delay = .ok (timers.scheduled delay, timers.issued + 1) :=
  schedule_eq_ok_iff.2 ⟨h, rfl, rfl⟩

@[simp]
theorem issued_scheduled (timers : Timers) (delay : UInt64) :
    (timers.scheduled delay).issued = timers.issued + 1 :=
  rfl

@[simp]
theorem live_scheduled (timers : Timers) (delay : UInt64) :
    (timers.scheduled delay).live = timers.live ++ [timers.issued + 1] :=
  rfl

theorem live_scheduled_ne_nil (timers : Timers) (delay : UInt64) :
    (timers.scheduled delay).live ≠ [] := by
  simp

@[simp]
theorem queued_scheduled (timers : Timers) (delay : UInt64) :
    (timers.scheduled delay).queued = timers.queued ++ [timers.issued + 1] := by
  simp [queued, scheduled]

@[simp]
theorem queued_cancelAll (timers : Timers) : timers.cancelAll.queued = [] :=
  rfl

theorem drain_of_no_requests {timers : Timers} (h : timers.requests = []) :
    timers.drain = (timers, []) := by
  rcases timers with ⟨issued, live, requests⟩
  dsimp only at h
  subst h
  rfl

/-- The other tokens stay, in another order. -/
theorem swapOut_perm (token : TimerToken) (live : List TimerToken) :
    (swapOut token live).Perm (live.erase token) := by
  induction live with
  | nil => exact List.Perm.refl _
  | cons first rest ih =>
      rw [swapOut]
      split
      · rename_i hfirst
        subst hfirst
        rw [List.erase_cons_head]
        cases hlast : rest.getLast? with
        | none =>
            rw [List.getLast?_eq_none_iff.1 hlast]
            exact List.Perm.refl _
        | some last =>
            obtain ⟨others, rfl⟩ := List.getLast?_eq_some_iff.1 hlast
            rw [Option.toList_some, List.dropLast_concat]
            exact List.perm_append_comm
      · rename_i hfirst
        rw [List.erase_cons_tail (by simpa using hfirst)]
        exact ih.cons first

/-! ## Transitions -/

/-- What an owner does to its timers at a time, and the requests that it hands out. -/
inductive Transition (timers : Timers) : List TimerRequest → Timers → Prop
  | stay : Transition timers [] timers
  | cancel : Transition timers [] timers.cancelAll
  | schedule (delay : UInt64) : Transition timers [] (timers.scheduled delay)
  /-- Cancels all, then schedules. -/
  | restart (delay : UInt64) : Transition timers [] (timers.cancelAll.scheduled delay)
  | drain : Transition timers timers.drain.2 timers.drain.1

namespace Transition

variable {timers after : Timers} {requests : List TimerRequest} {token : TimerToken}

theorem issued_le (h : timers.Transition requests after) : timers.issued ≤ after.issued := by
  cases h with
  | schedule delay => exact Nat.le_succ timers.issued
  | restart delay => exact Nat.le_succ timers.issued
  | _ => exact Nat.le_refl timers.issued

/-- A token that is given out is live. -/
theorem mem_live (h : timers.Transition requests after) (hnew : timers.issued < token)
    (hissued : token ≤ after.issued) : token ∈ after.live := by
  cases h with
  | schedule delay =>
      have htoken : token = timers.issued + 1 := Nat.le_antisymm hissued hnew
      simp [htoken]
  | restart delay =>
      have htoken : token = timers.issued + 1 := Nat.le_antisymm hissued hnew
      simp [htoken]
  | _ => exact absurd hissued (Nat.not_le_of_lt hnew)

end Transition

/-! ## Tokens that do not come back -/

/-- The token is not live, and not one of those that are still to be given out. -/
structure Spent (timers : Timers) (token : TimerToken) : Prop where
  le_issued : token ≤ timers.issued
  not_live : token ∉ timers.live

theorem Spent.scheduled {timers : Timers} {token : TimerToken} (h : timers.Spent token)
    (delay : UInt64) : (timers.scheduled delay).Spent token := by
  constructor
  · exact Nat.le_succ_of_le h.le_issued
  · intro hlive
    rcases List.mem_append.1 hlive with hold | hnew
    · exact h.not_live hold
    · -- The new token is larger than all that were given out.
      have hle : timers.issued + 1 ≤ timers.issued := List.mem_singleton.1 hnew ▸ h.le_issued
      exact absurd hle (Nat.not_succ_le_self timers.issued)

theorem Spent.cancelAll {timers : Timers} {token : TimerToken} (h : timers.Spent token) :
    timers.cancelAll.Spent token :=
  ⟨h.le_issued, List.not_mem_nil⟩

theorem Spent.of_transition {timers after : Timers} {requests : List TimerRequest}
    {token : TimerToken} (h : timers.Spent token) (htransition : timers.Transition requests after) :
    after.Spent token := by
  cases htransition with
  | stay => exact h
  | cancel => exact h.cancelAll
  | schedule delay => exact h.scheduled delay
  | restart delay => exact h.cancelAll.scheduled delay
  | drain => exact ⟨h.le_issued, h.not_live⟩

/-- A new start leaves only its own token. -/
theorem spent_of_restart {timers : Timers} {token : TimerToken} (h : token ≤ timers.issued)
    (delay : UInt64) : (timers.cancelAll.scheduled delay).Spent token := by
  have hcancelled : timers.cancelAll.Spent token := ⟨h, List.not_mem_nil⟩
  exact hcancelled.scheduled delay

/-! ## Order -/

/-- The tokens that were handed out, followed by the queued ones, increase and were all given out;
the queued ones are live, and a live one is queued or was handed out. -/
structure Orderly (timers : Timers) (handed : List TimerToken) : Prop where
  increasing : (handed ++ timers.queued).Pairwise (· < ·)
  le_issued : ∀ token ∈ handed ++ timers.queued, token ≤ timers.issued
  queued_live : ∀ token ∈ timers.queued, token ∈ timers.live
  live_known : ∀ token ∈ timers.live, token ∈ handed ++ timers.queued

namespace Orderly

variable {timers : Timers} {handed : List TimerToken}

theorem empty : Timers.empty.Orderly [] := by
  constructor <;> simp [Timers.empty, queued]

protected theorem scheduled (h : timers.Orderly handed) (delay : UInt64) :
    (timers.scheduled delay).Orderly handed := by
  -- The new token is added at the end of both lists.
  constructor
  · rw [queued_scheduled, ← List.append_assoc, List.pairwise_append]
    refine ⟨h.increasing, by simp, ?_⟩
    intro token htoken new hnew
    rw [List.mem_singleton.1 hnew]
    exact Nat.lt_succ_of_le (h.le_issued token htoken)
  · intro token htoken
    rw [queued_scheduled, ← List.append_assoc, List.mem_append, List.mem_singleton] at htoken
    rcases htoken with hold | rfl
    · exact Nat.le_succ_of_le (h.le_issued token hold)
    · exact Nat.le_refl _
  · intro token htoken
    rw [queued_scheduled, List.mem_append] at htoken
    rw [live_scheduled, List.mem_append]
    exact htoken.imp_left (h.queued_live token)
  · intro token htoken
    rw [live_scheduled, List.mem_append] at htoken
    rw [queued_scheduled, ← List.append_assoc, List.mem_append]
    exact htoken.imp_left (h.live_known token)

protected theorem cancelAll (h : timers.Orderly handed) : timers.cancelAll.Orderly handed := by
  have hsub : ∀ token ∈ handed, token ∈ handed ++ timers.queued := by
    intro token htoken
    exact List.mem_append_left _ htoken
  constructor
  · rw [queued_cancelAll, List.append_nil]
    exact (List.pairwise_append.1 h.increasing).1
  · intro token htoken
    rw [queued_cancelAll, List.append_nil] at htoken
    exact h.le_issued token (hsub token htoken)
  · intro token htoken
    cases htoken
  · intro token htoken
    cases htoken

/-- Draining moves the queued tokens behind those that were handed out. -/
protected theorem drain (h : timers.Orderly handed) :
    timers.drain.1.Orderly (handed ++ timers.drain.2.map TimerRequest.token) := by
  have hall : handed ++ timers.drain.2.map TimerRequest.token ++ timers.drain.1.queued =
      handed ++ timers.queued := by
    simp [queued, Timers.drain]
  constructor
  · rw [hall]
    exact h.increasing
  · rw [hall]
    exact h.le_issued
  · intro token htoken
    cases htoken
  · intro token htoken
    rw [hall]
    exact h.live_known token htoken

theorem le_issued_of_live (h : timers.Orderly handed) {token : TimerToken}
    (hlive : token ∈ timers.live) : token ≤ timers.issued :=
  h.le_issued token (h.live_known token hlive)

theorem of_transition {after : Timers} {requests : List TimerRequest} (h : timers.Orderly handed)
    (htransition : timers.Transition requests after) :
    after.Orderly (handed ++ requests.map TimerRequest.token) := by
  cases htransition with
  | drain => exact h.drain
  | stay =>
      rw [List.map_nil, List.append_nil]
      exact h
  | cancel =>
      rw [List.map_nil, List.append_nil]
      exact h.cancelAll
  | schedule delay =>
      rw [List.map_nil, List.append_nil]
      exact h.scheduled delay
  | restart delay =>
      rw [List.map_nil, List.append_nil]
      exact h.cancelAll.scheduled delay

end Orderly

end Timers

end OverlayScrollbar
