import OverlayScrollbar.Proofs.Scrollbar.Operations

/-!
# What calls leave as it is

- `Scrollbar.Setup`         : the part of a scrollbar that is its own set-up or goes into its frames
- `Scrollbar.setup_touch`, `Scrollbar.setup_hostScrolled`, `Scrollbar.setup_timerElapsed` :
  scrolls, touches and timers leave it as it is
- `Scrollbar.call_wiring`   : no call changes the listener or the settings, and only a host to link links
- `Scrollbar.call_settings` : no call takes the host away
- `Scrollbar.settings_of_run` : so that a run ends with the settings that it starts with
-/

namespace OverlayScrollbar

namespace Scrollbar

/-- The part of a scrollbar that is its own set-up or goes into its frames. -/
structure Setup where
  id : ListenerId
  settings : ScrollbarSettings
  linked : Bool
  width : Single
  height : Single
  alpha : UInt8
  tint : Color
  sprites : SpriteCache

/-- The set-up of a scrollbar. -/
def setup (bar : Scrollbar) : Setup :=
  ⟨bar.id, bar.settings, bar.linked, bar.width, bar.height, bar.alpha, bar.tint, bar.sprites⟩

variable {H : Type} [ScrollHost H] {bar after : Scrollbar}

/-! ## Shared steps -/

@[simp]
theorem setup_enter (bar : Scrollbar) (visibility : Visibility) :
    (bar.enter visibility).setup = bar.setup := by
  unfold enter
  split <;> rfl

theorem setup_scheduleAutoHide (h : bar.scheduleAutoHide = .ok after) :
    after.setup = bar.setup := by
  by_cases hhidden : bar.visibility = .hidden
  · cases (scheduleAutoHide_of_hidden hhidden).symm.trans h
    rfl
  · rw [scheduleAutoHide_eq_ok hhidden h]
    rfl

theorem setup_measure {host : H} (h : bar.measure host = .ok after) : after.setup = bar.setup := by
  by_cases hlinked : bar.linked = true
  · rcases measure_eq_ok hlinked h with ⟨⟨metrics, top, rfl⟩, _⟩
    rfl
  · rw [measure, if_neg hlinked] at h
    cases h
    rfl

theorem setup_hostScrolled {host : H} (h : bar.hostScrolled host = .ok after) :
    after.setup = bar.setup := by
  rcases hostScrolled_eq_ok h with ⟨_, rfl⟩ | ⟨_, _, measured, hmeasured, hafter⟩
  · rfl
  · calc
      after.setup = (measured.enter .visible).setup := setup_scheduleAutoHide hafter
      _ = measured.setup := setup_enter measured .visible
      _ = bar.setup := setup_measure hmeasured

theorem setup_release (h : bar.release = .ok after) : after.setup = bar.setup :=
  (setup_scheduleAutoHide h).trans (setup_enter bar .visible)

theorem setup_touch {host host' : H} {event : Touch} {used : Bool}
    (h : bar.touch host event = .ok (after, host', used)) : after.setup = bar.setup := by
  cases touch_eq_ok h with
  | inert => rfl
  | missed _ _ measuring _ => exact setup_measure measuring
  | passed _ _ measuring _ _ => exact setup_measure measuring
  | ended _ _ measuring _ releasing => exact (setup_release releasing).trans (setup_measure measuring)
  | grabbed _ _ measuring _ after_eq =>
      have hsetup := setup_measure measuring
      subst after_eq
      exact hsetup
  | dragged _ _ measuring after_eq _ =>
      have hsetup := setup_measure measuring
      subst after_eq
      exact hsetup

theorem setup_timerElapsed (bar : Scrollbar) (token : TimerToken) :
    (bar.timerElapsed token).setup = bar.setup := by
  unfold timerElapsed
  simp only
  split
  · exact setup_enter _ _
  · rfl

/-- A frame may lower the alpha, and may need sprites that are missing. -/
theorem setup_draw {frame? : Option Frame} (h : bar.draw = .ok (after, frame?)) :
    after.setup = { bar.setup with alpha := after.alpha, sprites := after.sprites } := by
  cases draw_eq_ok h with
  | blank => rfl
  | steady _ _ _ _ after_eq =>
      subst after_eq
      rfl
  | faded _ _ _ _ after_eq =>
      subst after_eq
      rfl
  | vanished _ _ _ _ after_eq =>
      subst after_eq
      rfl

/-! ## Calls -/

/-- The call is handed a host to link. -/
def Call.linksHost {H : Type} : Call H → Bool
  | .link (some _) => true
  | _ => false

/-- The listener and the settings stay, and only a call that is handed a host to link links. -/
theorem call_wiring {call : Call H} {answer : Answer H} (h : bar.call call = .ok (after, answer)) :
    after.id = bar.id ∧ after.settings = bar.settings ∧
      after.linked = (bar.linked || call.linksHost) := by
  have of_kept : call.linksHost = false → after.id = bar.id → after.settings = bar.settings →
      after.linked = bar.linked →
        after.id = bar.id ∧ after.settings = bar.settings ∧
          after.linked = (bar.linked || call.linksHost) := by
    intro hother hid hsettings hlinked
    rw [hother, Bool.or_false]
    exact ⟨hid, hsettings, hlinked⟩
  -- Most calls keep the whole set-up.
  have of_setup : call.linksHost = false → after.setup = bar.setup →
      after.id = bar.id ∧ after.settings = bar.settings ∧
        after.linked = (bar.linked || call.linksHost) := by
    intro hother hsetup
    exact of_kept hother (congrArg Setup.id hsetup) (congrArg Setup.settings hsetup)
      (congrArg Setup.linked hsetup)
  cases call_eq_ok h with
  | linked host? =>
      cases host? with
      | none => exact ⟨rfl, rfl, rfl⟩
      | some host => exact ⟨rfl, rfl, rfl⟩
  | scrolled scrolling => exact of_setup rfl (setup_hostScrolled scrolling)
  | touched touching => exact of_setup rfl (setup_touch touching)
  | elapsed token => exact of_setup rfl (setup_timerElapsed bar token)
  | drawn drawing =>
      have hsetup := setup_draw drawing
      exact of_kept rfl (congrArg Setup.id hsetup) (congrArg Setup.settings hsetup)
        (congrArg Setup.linked hsetup)
  | entered visibility => exact of_setup rfl (setup_enter bar visibility)
  | _ => exact of_kept rfl rfl rfl rfl

/-- The settings stay, and a host stays linked. -/
theorem call_settings {call : Call H} {answer : Answer H}
    (h : bar.call call = .ok (after, answer)) :
    after.settings = bar.settings ∧ (bar.linked = true → after.linked = true) := by
  rcases call_wiring h with ⟨_, hsettings, hafter⟩
  refine ⟨hsettings, ?_⟩
  intro hlinked
  rw [hafter, hlinked, Bool.true_or]

theorem settings_of_run {start last : Scrollbar} {calls : List (Call H)} {steps : Steps H}
    (h : start.run calls = .ok (last, steps)) :
    last.settings = start.settings ∧
      ∀ step ∈ steps, step.before.settings = start.settings ∧
        step.after.settings = start.settings := by
  have hkept : ∀ step : Step Scrollbar (Call H) (Answer H), step.before.settings = start.settings →
      True → step.before.call step.input = .ok (step.after, step.output) →
        step.after.settings = start.settings := by
    intro step hbefore _ hcall
    exact (call_settings hcall).1.trans hbefore
  refine ⟨Machine.invariant_of_steps (fun bar => bar.settings = start.settings) rfl hkept
    (fun _ _ => trivial) h, ?_⟩
  intro step hmem
  rcases Machine.invariant_of_mem_steps (fun bar => bar.settings = start.settings) rfl hkept
    (fun _ _ => trivial) h step hmem with ⟨hbefore, hafter, _⟩
  exact ⟨hbefore, hafter⟩

end Scrollbar

end OverlayScrollbar
