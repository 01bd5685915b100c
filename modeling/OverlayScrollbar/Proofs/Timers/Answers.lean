import Mathlib.Data.List.Nodup
import OverlayScrollbar.Proofs.History
import OverlayScrollbar.Proofs.Run
import OverlayScrollbar.Proofs.Timers

/-!
# What timers answer

Every answer of an owner's timers is told by what was done before and answered then. A token is
outstanding if it was given out, and since then neither were all timers cancelled nor did the token
come back; a request waits if it was made, and since then the timers were neither cancelled nor
drained, whether or not the token came back.

- `Timers.Operation`   : what is done to timers
- `Timers.operate`     : one operation and its answer
- `Timers.Event`       : an operation with its answer
- `Timers.given`       : the tokens that were given out
- `Timers.Outstanding` : the token was given out, and is neither cancelled nor taken back
- `Timers.waiting`     : the requests that the next drain has to hand out
- `Timers.expected`    : the answer that the history demands
- `Timers.Recalls`     : the timers hold what the history says
- `Timers.Recalls.of_operate` : every operation answers as expected and keeps that

Main statement: `run_answers_as_expected`.
-/

namespace OverlayScrollbar

namespace Timers

/-- What is done to timers. -/
inductive Operation
  | schedule (delay : UInt64)
  | cancelAll
  | fire (token : TimerToken)
  | isPending (token : TimerToken)
  | pendingCount
  | drain
  deriving DecidableEq

/-- What an operation answers. -/
inductive Answer
  | done
  | token (token : TimerToken)
  | flag (flag : Bool)
  | count (count : Nat)
  | requests (requests : List TimerRequest)
  deriving DecidableEq

/-- Does one operation. -/
def operate : Machine Timers Operation Answer
  | timers, .schedule delay => do
      let (after, token) ← timers.schedule delay
      return (after, .token token)
  | timers, .cancelAll => .ok (timers.cancelAll, .done)
  | timers, .fire token => .ok ((timers.fire token).1, .flag (timers.fire token).2)
  | timers, .isPending token => .ok (timers, .flag (timers.isPending token))
  | timers, .pendingCount => .ok (timers, .count timers.pendingCount)
  | timers, .drain => .ok (timers.drain.1, .requests timers.drain.2)

/-- An operation with its answer. -/
abbrev Event : Type :=
  Operation × Answer

/-- What a run shows of its steps. -/
def events (steps : List (Step Timers Operation Answer)) : List Event :=
  steps.map fun step => (step.input, step.output)

/-! ## What a history says -/

/-- The request that an event makes, if it schedules a timer. -/
def request : Event → List TimerRequest
  | (.schedule delay, .token token) => [⟨token, delay⟩]
  | _ => []

/-- The tokens that were given out, in their order. -/
def given (history : List Event) : List TimerToken :=
  history.flatMap fun event => (request event).map TimerRequest.token

/-- The tokens that were given out, and since then neither cancelled nor taken back. -/
def outstanding (history : List Event) : List TimerToken :=
  lasting (fun _ event => (request event).map TimerRequest.token)
    (fun event token => event.1 = .cancelAll ∨ event = (.fire token, .flag true)) history

/-- The token was given out, and since then neither cancelled nor taken back. -/
def Outstanding (history : List Event) (token : TimerToken) : Prop :=
  ∃ earlier delay later, history = earlier ++ (.schedule delay, .token token) :: later ∧
    .cancelAll ∉ later.map Prod.fst ∧ (.fire token, .flag true) ∉ later

/-- The requests that were made since the timers were last cancelled or drained. -/
def waiting (history : List Event) : List TimerRequest :=
  lasting (fun _ event => request event)
    (fun event _ => event.1 = .cancelAll ∨ event.1 = .drain) history

/-- The answer that a history demands. -/
def expected (history : List Event) : Operation → Answer
  | .schedule _ => .token ((given history).length + 1)
  | .cancelAll => .done
  | .fire token => .flag (token ∈ outstanding history)
  | .isPending token => .flag (token ∈ outstanding history)
  | .pendingCount => .count (outstanding history).length
  | .drain => .requests (waiting history)

variable {timers after : Timers} {history : List Event} {operation : Operation} {answer : Answer}
  {token : TimerToken}

theorem mem_request_iff {event : Event} {wanted : TimerRequest} :
    wanted ∈ request event ↔ event = (.schedule wanted.delay, .token wanted.token) := by
  rcases wanted with ⟨token, delay⟩
  unfold request
  split
  · simp [eq_comm, and_comm]
  · rename_i hother
    constructor
    · intro hmem
      cases hmem
    · rintro rfl
      exact absurd rfl (hother delay token)

theorem mem_outstanding_iff : token ∈ outstanding history ↔ Outstanding history token := by
  -- A token lasts until all timers are cancelled or it comes back.
  unfold outstanding Outstanding
  rw [mem_lasting_iff]
  constructor
  · rintro ⟨earlier, event, later, hhistory, hbegins, hlasts⟩
    rcases List.mem_map.1 hbegins with ⟨wanted, hwanted, rfl⟩
    rw [mem_request_iff] at hwanted
    subst hwanted
    refine ⟨earlier, wanted.delay, later, hhistory, ?_, ?_⟩
    · intro hcancelled
      rcases List.mem_map.1 hcancelled with ⟨other, hother, hcancel⟩
      simpa [hcancel] using hlasts other hother
    · intro hfired
      simpa using hlasts _ hfired
  · rintro ⟨earlier, delay, later, hhistory, hcancelled, hfired⟩
    refine ⟨earlier, _, later, hhistory, List.mem_singleton.2 rfl, ?_⟩
    intro other hother
    have hcancel : other.1 ≠ .cancelAll := fun h => hcancelled (List.mem_map.2 ⟨other, hother, h⟩)
    have hfire : other ≠ (.fire token, .flag true) := fun h => hfired (h ▸ hother)
    simp [hcancel, hfire]

/-! ## One more event -/

theorem given_concat (history : List Event) (event : Event) :
    given (history ++ [event]) = given history ++ (request event).map TimerRequest.token := by
  rw [given, List.flatMap_append, List.flatMap_singleton, ← given]

theorem outstanding_concat (history : List Event) (event : Event) :
    outstanding (history ++ [event]) = (outstanding history).filter
        (fun token => !(event.1 = .cancelAll ∨ event = (.fire token, .flag true))) ++
      (request event).map TimerRequest.token :=
  lasting_concat history event

theorem waiting_concat (history : List Event) (event : Event) :
    waiting (history ++ [event]) = (waiting history).filter
        (fun _ => !(event.1 = .cancelAll ∨ event.1 = .drain)) ++ request event :=
  lasting_concat history event

/-- The timers hold what the history says, and have given out all tokens up to the last. -/
structure Recalls (timers : Timers) (history : List Event) : Prop where
  given_eq : given history = List.range' 1 timers.issued
  live_perm : timers.live.Perm (outstanding history)
  requests_eq : timers.requests = waiting history

theorem recalls_empty : Timers.empty.Recalls [] :=
  ⟨rfl, List.Perm.refl _, rfl⟩

namespace Recalls

theorem increasing (h : timers.Recalls history) : (given history).Pairwise (· < ·) := by
  rw [h.given_eq]
  exact List.pairwise_lt_range'

theorem length_given (h : timers.Recalls history) : (given history).length = timers.issued := by
  rw [h.given_eq, List.length_range']

theorem nodup_outstanding (h : timers.Recalls history) : (outstanding history).Nodup := by
  have hgiven : (given history).Nodup := h.increasing.imp (fun hlt => Nat.ne_of_lt hlt)
  exact (lasting_sublist history).nodup hgiven

/-- Nothing begins or ends with an operation that only asks. -/
theorem of_asked (h : timers.Recalls history) (hasks : request (operation, answer) = [])
    (hcancel : operation ≠ .cancelAll) (hdrain : operation ≠ .drain)
    (hfire : ∀ token, (operation, answer) ≠ (.fire token, .flag true)) :
    timers.Recalls (history ++ [(operation, answer)]) := by
  constructor
  · rw [given_concat, hasks, List.map_nil, List.append_nil, h.given_eq]
  · rw [outstanding_concat, hasks]
    simpa [hcancel, hfire] using h.live_perm
  · rw [waiting_concat, hasks, h.requests_eq]
    simp [hcancel, hdrain]

protected theorem scheduled (h : timers.Recalls history) (delay : UInt64) :
    (timers.scheduled delay).Recalls
      (history ++ [(.schedule delay, .token (timers.issued + 1))]) := by
  constructor
  · rw [given_concat, h.given_eq, issued_scheduled, List.range'_1_concat, Nat.add_comm 1]
    rfl
  · rw [outstanding_concat, live_scheduled]
    simpa [request] using h.live_perm.append_right [timers.issued + 1]
  · rw [waiting_concat, scheduled, h.requests_eq]
    simp [request]

protected theorem cancelAll (h : timers.Recalls history) :
    timers.cancelAll.Recalls (history ++ [(.cancelAll, .done)]) := by
  constructor
  · rw [given_concat, h.given_eq]
    simp [request]
  · rw [outstanding_concat]
    simp [request]
  · rw [waiting_concat]
    simp [request]

/-- A token that is live is taken out; it is there only once. -/
protected theorem fire (h : timers.Recalls history) (token : TimerToken) :
    (timers.fire token).1.Recalls (history ++ [(.fire token, .flag (timers.fire token).2)]) := by
  by_cases hlive : token ∈ timers.live
  · have hflag : (timers.fire token).2 = true := isPending_iff.2 hlive
    have herase : (swapOut token timers.live).Perm ((outstanding history).filter (· != token)) := by
      rw [← h.nodup_outstanding.erase_eq_filter]
      exact (swapOut_perm token timers.live).trans (h.live_perm.erase token)
    rw [hflag]
    constructor
    · rw [given_concat, h.given_eq]
      simp [request, Timers.fire]
    · rw [outstanding_concat]
      simpa [request, Timers.fire, bne, beq_eq_decide, eq_comm] using herase
    · rw [waiting_concat, Timers.fire, h.requests_eq]
      simp [request]
  · rw [fire_of_not_mem hlive]
    exact h.of_asked rfl (by simp) (by simp) (by simp)

protected theorem drain (h : timers.Recalls history) :
    timers.drain.1.Recalls (history ++ [(.drain, .requests timers.drain.2)]) := by
  constructor
  · rw [given_concat, h.given_eq]
    simp [request, drain]
  · rw [outstanding_concat, live_drain]
    simpa [request] using h.live_perm
  · rw [waiting_concat]
    simp [request, drain]

/-- Every operation answers what the history demands, and the timers then hold what it says. -/
theorem of_operate (h : timers.Recalls history)
    (hoperate : operate timers operation = .ok (after, answer)) :
    answer = expected history operation ∧ after.Recalls (history ++ [(operation, answer)]) := by
  cases operation with
  | schedule delay =>
      rcases Checked.bind_eq_ok_iff.1 hoperate with ⟨⟨_, token⟩, hschedule, hanswer⟩
      rcases schedule_eq_scheduled hschedule with ⟨rfl, rfl⟩
      cases hanswer
      refine ⟨?_, h.scheduled delay⟩
      rw [expected, h.length_given]
  | cancelAll =>
      cases hoperate
      exact ⟨rfl, h.cancelAll⟩
  | fire token =>
      cases hoperate
      refine ⟨?_, h.fire token⟩
      simp [expected, Timers.fire, isPending, h.live_perm.mem_iff]
  | isPending token =>
      cases hoperate
      refine ⟨?_, h.of_asked rfl (by simp) (by simp) (by simp)⟩
      simp [expected, isPending, h.live_perm.mem_iff]
  | pendingCount =>
      cases hoperate
      refine ⟨?_, h.of_asked rfl (by simp) (by simp) (by simp)⟩
      rw [expected, pendingCount, h.live_perm.length_eq]
  | drain =>
      cases hoperate
      refine ⟨?_, h.drain⟩
      rw [expected, Timers.drain, h.requests_eq]

theorem of_run {operations : List Operation} {last : Timers}
    {steps : List (Step Timers Operation Answer)}
    (h : operate.run empty operations = .ok (last, steps)) : last.Recalls (events steps) := by
  refine Machine.run_induct (motive := fun _ last steps => last.Recalls (events steps)) ?_ ?_ h
  · exact recalls_empty
  · intro _ input before steps output after _ ih hstep
    have hafter := (ih.of_operate hstep).2
    rwa [events, List.map_append, ← events]

end Recalls

/-! ## Runs -/

/-- How many timers the operations schedule. -/
def scheduleCount (operations : List Operation) : Nat :=
  operations.countP fun
    | .schedule _ => true
    | _ => false

/-- With the timers that are still to be scheduled the tokens add up to a total that a word holds. -/
structure Within (total : Nat) (rest : List Operation) (timers : Timers) : Prop where
  total_eq : timers.issued + scheduleCount rest = total
  lt_word : total < 2 ^ 64

/-- The next operation can be done. -/
theorem Within.exists_operate {total : Nat} {rest : List Operation}
    (h : Within total (operation :: rest) timers) :
    ∃ after answer, operate timers operation = .ok (after, answer) ∧ Within total rest after := by
  rcases h with ⟨htotal, hword⟩
  cases operation with
  | schedule delay =>
      have hcount : scheduleCount (.schedule delay :: rest) = scheduleCount rest + 1 :=
        List.countP_cons_of_pos rfl
      rw [hcount] at htotal
      have hnext : timers.issued + 1 < 2 ^ 64 := by omega
      refine ⟨timers.scheduled delay, .token (timers.issued + 1), ?_, ?_, hword⟩
      · rw [operate, schedule_eq_ok delay hnext]
        rfl
      · rw [issued_scheduled]
        omega
  | cancelAll => exact ⟨_, _, rfl, htotal, hword⟩
  | fire token => exact ⟨_, _, rfl, htotal, hword⟩
  | isPending token => exact ⟨_, _, rfl, htotal, hword⟩
  | pendingCount => exact ⟨_, _, rfl, htotal, hword⟩
  | drain => exact ⟨_, _, rfl, htotal, hword⟩

theorem exists_run {operations : List Operation} (h : scheduleCount operations < 2 ^ 64) :
    ∃ last steps, operate.run empty operations = .ok (last, steps) ∧
      last.issued = scheduleCount operations := by
  have hstart : Within (scheduleCount operations) operations empty := ⟨Nat.zero_add _, h⟩
  rcases Machine.exists_run_of_progress Within.exists_operate hstart with
    ⟨last, steps, hrun, hlast⟩
  exact ⟨last, steps, hrun, hlast.total_eq⟩

/-- A moment of what a run shows is one of its steps, taken by timers that hold what was shown before. -/
theorem recalls_of_mem_moments {operations : List Operation} {last : Timers}
    {steps : List (Step Timers Operation Answer)} {moment : Moment Event}
    (h : operate.run empty operations = .ok (last, steps))
    (hmoment : moment ∈ moments (events steps)) :
    ∃ before after, before.Recalls moment.earlier ∧
      operate before moment.event.1 = .ok (after, moment.event.2) := by
  rcases moment with ⟨earlier, event, later⟩
  have hsplit := mem_moments_iff.1 hmoment
  rcases List.map_eq_append_iff.1 hsplit with ⟨sofar, rest, rfl, rfl, hrest⟩
  rcases List.map_eq_cons_iff.1 hrest with ⟨step, more, rfl, rfl, rfl⟩
  rcases Machine.exists_run_of_append_eq rfl h with ⟨_, _, _, hbefore, hstep, _⟩
  exact ⟨step.before, step.after, .of_run hbefore, hstep⟩

/-- As long as a word numbers the timers that are scheduled, every operation on fresh timers is done and
answers what was shown before it demands. Each scheduled timer has a larger token than those before,
also after all were cancelled. A token comes back, or is pending, exactly if it is outstanding; they are
counted; and draining hands out the requests that wait. -/
theorem run_answers_as_expected (operations : List Operation)
    (h : scheduleCount operations < 2 ^ 64) :
    ∃ last steps, operate.run empty operations = .ok (last, steps) ∧
      (events steps).map Prod.fst = operations ∧
      (given (events steps)).Pairwise (· < ·) ∧
      (given (events steps)).length = scheduleCount operations ∧
      ∀ moment ∈ moments (events steps),
        moment.event.2 = expected moment.earlier moment.event.1 ∧
        (outstanding moment.earlier).Nodup ∧
        ∀ token, token ∈ outstanding moment.earlier ↔ Outstanding moment.earlier token := by
  rcases exists_run h with ⟨last, steps, hrun, hissued⟩
  have hlast : last.Recalls (events steps) := .of_run hrun
  refine ⟨last, steps, hrun, ?_, hlast.increasing, hlast.length_given.trans hissued, ?_⟩
  · rw [events, List.map_map]
    exact Machine.map_input_of_run hrun
  · intro moment hmoment
    rcases recalls_of_mem_moments hrun hmoment with ⟨before, after, hbefore, hoperate⟩
    exact ⟨(hbefore.of_operate hoperate).1, hbefore.nodup_outstanding, fun _ => mem_outstanding_iff⟩

/-- Of three tokens the first comes back, late for the queue and early for the count; a token comes back
twice, another is cancelled, and one is given out after that. -/
def mixedOperations : List Operation :=
  [.schedule 10, .schedule 20, .schedule 10, .fire 1, .pendingCount, .drain, .fire 1, .fire 3,
    .cancelAll, .isPending 2, .schedule 30, .fire 2, .fire 4, .isPending 4, .drain]

/-- The theorem speaks of a run whose tokens are numbered on after all were cancelled. -/
theorem run_answers_as_expected_mixed : scheduleCount mixedOperations < 2 ^ 64 ∧
    ∃ last steps, operate.run empty mixedOperations = .ok (last, steps) ∧
      steps.map Step.output = [.token 1, .token 2, .token 3, .flag true, .count 2,
        .requests [⟨1, 10⟩, ⟨2, 20⟩, ⟨3, 10⟩], .flag false, .flag true, .done, .flag false, .token 4,
        .flag false, .flag true, .flag false, .requests [⟨4, 30⟩]] ∧
      (given (events steps)).Pairwise (· < ·) ∧
      ∀ moment ∈ moments (events steps),
        moment.event.2 = expected moment.earlier moment.event.1 := by
  have hcount : scheduleCount mixedOperations < 2 ^ 64 := by
    decide
  have houtputs : (operate.run empty mixedOperations).map (fun reached =>
      reached.2.map Step.output) = .ok [.token 1, .token 2, .token 3, .flag true, .count 2,
        .requests [⟨1, 10⟩, ⟨2, 20⟩, ⟨3, 10⟩], .flag false, .flag true, .done, .flag false, .token 4,
        .flag false, .flag true, .flag false, .requests [⟨4, 30⟩]] := by
    decide +kernel
  rcases Checked.map_eq_ok_iff.1 houtputs with ⟨⟨_, _⟩, hrun, hsteps⟩
  rcases run_answers_as_expected mixedOperations hcount with
    ⟨last, steps, hsame, _, hincreasing, _, hanswers⟩
  rcases Prod.mk.inj (Except.ok.inj (hrun.symm.trans hsame)) with ⟨rfl, rfl⟩
  exact ⟨hcount, _, _, hrun, hsteps, hincreasing, fun moment hmem => (hanswers moment hmem).1⟩

end Timers

end OverlayScrollbar
