import OverlayScrollbar.Proofs.Scrollbar.Faultless
import OverlayScrollbar.Proofs.Scrollbar.Setup

/-!
# What is asked of a host

A host can be asked to take a listener, to stop its fling and to scroll. A host that keeps a record
of this, and else is as the host that it stands for, shows what each call of a run asks of its host.

- `HostRequest`                : what a host can be asked to do
- `WatchedHost`                : a host with a record of what it was asked to do
- `Scrollbar.Call.watched`     : a call that is handed a host with an empty record
- `Scrollbar.Answer.asked`     : what the host was asked to do during a call
- `Scrollbar.run_watched`      : a run does not notice that its hosts are watched
- `Scrollbar.asked_of_link`, `Scrollbar.asked_of_touch` : what a link and a touch can ask of a host
-/

namespace OverlayScrollbar

/-! ## Watched hosts -/

/-- What a host can be asked to do. -/
inductive HostRequest
  | addListener (id : ListenerId)
  | abortFling
  | scrollTo (x y : Single)
  deriving DecidableEq, Repr

namespace HostRequest

/-- The host was asked to take a listener. -/
def isRegistration : HostRequest → Bool
  | .addListener _ => true
  | _ => false

/-- The same request, with another listener to take. -/
def withListener (id : ListenerId) : HostRequest → HostRequest
  | .addListener _ => .addListener id
  | request => request

/-- A host was asked to take a listener if some of the requests are registrations. -/
theorem exists_registration_iff {requests : List HostRequest} :
    (∃ id, HostRequest.addListener id ∈ requests) ↔ requests.filter isRegistration ≠ [] := by
  constructor
  · rintro ⟨id, hmem⟩
    exact List.ne_nil_of_mem (List.mem_filter.2 ⟨hmem, rfl⟩)
  · intro hsome
    rcases List.exists_mem_of_ne_nil _ hsome with ⟨request, hrequest⟩
    rcases List.mem_filter.1 hrequest with ⟨hmem, hkind⟩
    cases request with
    | addListener id => exact ⟨id, hmem⟩
    | abortFling => cases hkind
    | scrollTo x y => cases hkind

/-- Requests that are no registrations are the same for every listener. -/
theorem map_withListener (id : ListenerId) {requests : List HostRequest}
    (h : ∀ request ∈ requests, request.isRegistration = false) :
    requests.map (withListener id) = requests := by
  have hsame : ∀ request ∈ requests, request.withListener id = request := by
    intro request hmem
    cases request with
    | addListener other => cases h _ hmem
    | abortFling => rfl
    | scrollTo x y => rfl
  rw [List.map_congr_left hsame, List.map_id']

end HostRequest

/-- A host with a record of what it was asked to do. -/
structure WatchedHost (H : Type) where
  host : H
  /-- The requests, oldest first. -/
  record : List HostRequest
  deriving DecidableEq, Repr

namespace WatchedHost

variable {H : Type} [ScrollHost H]

/-- A watched host answers as the host that it stands for, and writes down what it is asked to do. -/
instance : ScrollHost (WatchedHost H) where
  addListener watched id :=
    let (host, added) := ScrollHost.addListener watched.host id
    (⟨host, watched.record ++ [.addListener id]⟩, added)
  scrollX watched := ScrollHost.scrollX watched.host
  scrollY watched := ScrollHost.scrollY watched.host
  layoutHeight? watched := ScrollHost.layoutHeight? watched.host
  height watched := ScrollHost.height watched.host
  lineHeight watched := ScrollHost.lineHeight watched.host
  abortFling watched := ⟨ScrollHost.abortFling watched.host, watched.record ++ [.abortFling]⟩
  scrollTo watched x y := do
    let host ← ScrollHost.scrollTo watched.host x y
    return ⟨host, watched.record ++ [.scrollTo x y]⟩

@[simp]
theorem record_addListener (watched : WatchedHost H) (id : ListenerId) :
    (ScrollHost.addListener watched id).1.record = watched.record ++ [.addListener id] :=
  rfl

@[simp]
theorem record_abortFling (watched : WatchedHost H) :
    (ScrollHost.abortFling watched).record = watched.record ++ [.abortFling] :=
  rfl

@[simp]
theorem host_abortFling (watched : WatchedHost H) :
    (ScrollHost.abortFling watched).host = ScrollHost.abortFling watched.host :=
  rfl

theorem host_of_scrollTo (watched : WatchedHost H) (x y : Single) :
    (ScrollHost.scrollTo watched x y).map WatchedHost.host =
      ScrollHost.scrollTo watched.host x y := by
  show (ScrollHost.scrollTo watched.host x y >>= _).map WatchedHost.host = _
  cases ScrollHost.scrollTo watched.host x y with
  | error fault => rfl
  | ok host => rfl

theorem record_of_scrollTo {watched after : WatchedHost H} {x y : Single}
    (h : ScrollHost.scrollTo watched x y = .ok after) :
    after.record = watched.record ++ [.scrollTo x y] := by
  rcases Checked.bind_eq_ok_iff.1 h with ⟨host, _, hafter⟩
  cases hafter
  rfl

end WatchedHost

namespace Scrollbar

variable {H : Type}

/-! ## Watched calls -/

/-- The call with its host watched, from an empty record on. -/
def Call.watched : Call H → Call (WatchedHost H)
  | .link host? => .link (host?.map (⟨·, []⟩))
  | .hostScrolled host => .hostScrolled ⟨host, []⟩
  | .touch host event => .touch ⟨host, []⟩ event
  | .timerElapsed token => .timerElapsed token
  | .resize width height => .resize width height
  | .recolor tint => .recolor tint
  | .draw => .draw
  | .takeRequests => .takeRequests
  | .enter visibility => .enter visibility

/-- What the host was asked to do, by its record when it is given back. A scroll only reads its
host. -/
def Answer.asked : Answer (WatchedHost H) → List HostRequest
  | .linked (some watched) _ => watched.record
  | .touched watched _ => watched.record
  | _ => []

/-- What a call gives back, with the host as it is without its record. -/
def Answer.unwatched : Answer (WatchedHost H) → Answer H
  | .done => .done
  | .linked watched? added => .linked (watched?.map WatchedHost.host) added
  | .touched watched used => .touched watched.host used
  | .drawn frame? => .drawn frame?
  | .armed requests => .armed requests

@[simp]
theorem linksHost_watched (call : Call H) : call.watched.linksHost = call.linksHost := by
  cases call with
  | link host? => cases host? <;> rfl
  | _ => rfl

variable [ScrollHost H] {bar after : Scrollbar} {host : H}

/-! ## Watched runs -/

theorem scrollHost_watched (bar : Scrollbar) (watched : WatchedHost H) :
    (bar.scrollHost watched).map WatchedHost.host = bar.scrollHost watched.host := by
  unfold scrollHost
  cases bar.metrics.targetOffset? bar.thumbLength bar.top with
  | none => rfl
  | some y => exact watched.host_of_scrollTo _ y

theorem touch_watched (bar : Scrollbar) (watched : WatchedHost H) (event : Touch) :
    (bar.touch watched event).map (fun result => (result.1, result.2.1.host, result.2.2)) =
      bar.touch watched.host event := by
  unfold touch
  split
  · rfl
  · rw [Checked.map_bind]
    -- The same is measured, so that only what is done then is to be compared.
    show bar.measure watched.host >>= _ = bar.measure watched.host >>= _
    refine congrArg (bar.measure watched.host >>= ·) (funext fun measured => ?_)
    cases event with
    | pressed x y =>
        dsimp only
        split
        · rfl
        · rfl
    | moved x y =>
        dsimp only
        split
        · have hscroll := fun dragged : Scrollbar =>
            dragged.scrollHost_watched (ScrollHost.abortFling watched)
          rw [WatchedHost.host_abortFling] at hscroll
          rw [← hscroll, Checked.map_bind]
          cases scrollHost _ (ScrollHost.abortFling watched) with
          | error fault => rfl
          | ok scrolled => rfl
        · rfl
    | released x y =>
        dsimp only
        rw [Checked.map_bind]
        rfl
    | cancelled =>
        dsimp only
        split
        · rw [Checked.map_bind]
          rfl
        · rfl

/-- A call does to a watched host what it does to the host. -/
theorem call_watched (bar : Scrollbar) (call : Call H) :
    (bar.call call.watched).map (fun result => (result.1, result.2.unwatched)) = bar.call call := by
  cases call with
  | link host? =>
      show (bar.call (.link (host?.map fun host => (⟨host, []⟩ : WatchedHost H)))).map _ = _
      rw [call_link, call_link]
      cases host? with
      | none => rfl
      | some host => cases hlinked : bar.linked <;> rfl
  | touch host event =>
      show (bar.touch (⟨host, []⟩ : WatchedHost H) event >>= _).map _ = bar.touch host event >>= _
      -- A touch with a fresh record asks the same of the host, and gives it back within the record.
      rw [← touch_watched bar ⟨host, []⟩ event]
      cases bar.touch (⟨host, []⟩ : WatchedHost H) event with
      | error fault => rfl
      | ok result => rfl
  | hostScrolled host =>
      show (bar.hostScrolled host >>= _).map _ = bar.hostScrolled host >>= _
      rw [Checked.map_bind]
      rfl
  | draw =>
      show (bar.draw >>= _).map _ = bar.draw >>= _
      rw [Checked.map_bind]
      rfl
  | _ => rfl

/-- A run with watched hosts goes through the states of the run itself, and gives back the same. -/
theorem run_watched {last : Scrollbar} {calls : List (Call H)} {steps : Steps H}
    (h : bar.run calls = .ok (last, steps)) :
    ∃ watched, bar.run (calls.map Call.watched) = .ok (last, watched) ∧
      watched.map (fun step => (step.before, step.output.unwatched, step.after)) =
        steps.map fun step => (step.before, step.output, step.after) := by
  induction calls generalizing bar steps with
  | nil =>
      cases h
      exact ⟨[], rfl, rfl⟩
  | cons call calls ih =>
      rcases Machine.run_cons_eq_ok_iff.1 h with ⟨after, answer, rest, hcall, hrest, rfl⟩
      rcases Checked.map_eq_ok_iff.1 ((call_watched bar call).trans hcall) with
          ⟨⟨after', answer'⟩, hwatched, hsame⟩
      cases hsame
      rcases ih hrest with ⟨watched, hrun, hsteps⟩
      refine ⟨_, Machine.run_cons_eq_ok_iff.2 ⟨_, answer', watched, hwatched, hrun, rfl⟩, ?_⟩
      rw [List.map_cons, List.map_cons, hsteps]

/-! ## What is asked -/

/-- Only the first host is asked, and to take the scrollbar as a listener. -/
theorem asked_of_link {host? : Option H} {answer : Answer (WatchedHost H)}
    (h : bar.call (Call.link host?).watched = .ok (after, answer)) :
    answer.asked = if host?.isSome && !bar.linked then [.addListener bar.id] else [] := by
  cases (bar.call_link _).symm.trans h
  cases host? with
  | none => rfl
  | some host => cases hlinked : bar.linked <;> simp [Answer.asked]

/-- A touch asks nothing of its host, or to stop the fling, or to stop it and then to scroll. -/
theorem asked_of_touch {watched watched' : WatchedHost H} {event : Touch} {used : Bool}
    (hempty : watched.record = [])
    (h : bar.touch watched event = .ok (after, watched', used)) :
    watched'.record = [] ∨ watched'.record = [.abortFling] ∨
      ∃ x y, watched'.record = [.abortFling, .scrollTo x y] := by
  have haborted : (ScrollHost.abortFling watched).record = [.abortFling] := by
    rw [WatchedHost.record_abortFling, hempty, List.nil_append]
  rcases host_of_touch h with rfl | rfl | ⟨x, y, hscrolled⟩
  · exact Or.inl hempty
  · exact Or.inr (Or.inl haborted)
  · have hrecord := WatchedHost.record_of_scrollTo hscrolled
    rw [haborted] at hrecord
    exact Or.inr (Or.inr ⟨x, y, hrecord⟩)

/-- A touch does not register. -/
theorem isRegistration_of_touch {watched watched' : WatchedHost H} {event : Touch} {used : Bool}
    (hempty : watched.record = []) (h : bar.touch watched event = .ok (after, watched', used)) :
    ∀ request ∈ watched'.record, request.isRegistration = false := by
  rcases asked_of_touch hempty h with hrecord | hrecord | ⟨x, y, hrecord⟩
  · simp [hrecord]
  · simp [hrecord, HostRequest.isRegistration]
  · simp [hrecord, HostRequest.isRegistration]

end Scrollbar

end OverlayScrollbar
