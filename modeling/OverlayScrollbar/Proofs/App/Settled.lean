import Mathlib.Data.List.Nodup
import OverlayScrollbar.Proofs.App.Run
import OverlayScrollbar.Proofs.Scrollbar.Picture

/-!
# The application between two messages

Between two messages nothing is left to be done: changes were told, frames were made, and every
timer that was scheduled was armed.

- `App.Settled`           : nothing is left to be done
- `App.settled_new`       : before the first message
- `App.settled_of_update` : after each message
- `App.settled_of_run`    : after every run
-/

namespace OverlayScrollbar

namespace App

variable {D E : Type} [TextEditor D E]

/-- Nothing is left to be done, by an application with the given settings that has armed the given
timers. -/
structure Settled (settings : ScrollbarSettings) (armed : List TimerToken) (app : App D) : Prop where
  coherent : app.bar.Coherent
  orderly : app.bar.timers.Orderly armed
  no_requests : app.bar.timers.requests = []
  no_changes : app.host.listeners.queue = []
  settings_eq : app.bar.settings = settings
  alpha_le : app.bar.alpha.toNat ≤ settings.maxAlpha.toNat
  pictured : app.bar.Pictured app.frame?
  synced : app.images.sync app.bar.sprites = app.images

variable {settings : ScrollbarSettings} {handed : List TimerToken} {app mid drawn after : App D}
  {message : AppMessage E} {requests : List TimerRequest}

/-! ## Before the first message -/

/-- A new scrollbar that is given a size has no sprites to drop. -/
theorem resize_new (id : ListenerId) (settings : ScrollbarSettings) (tint : Color)
    (width height : Single) : ∃ width' height' needsRedraw,
    (Scrollbar.new id settings tint).resize width height =
      { Scrollbar.new id settings tint with
        width := width'
        height := height'
        needsRedraw := needsRedraw } := by
  unfold Scrollbar.resize
  split
  · exact ⟨_, _, _, rfl⟩
  · exact ⟨_, _, _, rfl⟩

theorem bar_assemble (launch : Launch) (host : EditorHost D) (bar : Scrollbar) :
    (assemble launch host bar).bar = (bar.link (some host)).1 :=
  rfl

/-- Nothing is painted at first. -/
theorem blank_assemble (launch : Launch) (host : EditorHost D) (bar : Scrollbar) :
    (assemble launch host bar).frame? = none ∧
      (assemble launch host bar).images = ThumbImages.empty :=
  ⟨rfl, rfl⟩

/-- To be linked is no change that is to be told. -/
theorem queue_assemble (launch : Launch) (host : EditorHost D) (bar : Scrollbar) :
    (assemble launch host bar).host.listeners.queue = host.listeners.queue := by
  unfold assemble Scrollbar.link
  dsimp only
  split
  · rfl
  · dsimp only [Option.getD_some, ScrollHost.addListener]
    unfold Listeners.add
    split <;> rfl

/-- To be linked leaves the size of the strip, and makes the scrollbar a listener of the editor. -/
theorem assemble_of_unlinked {launch : Launch} {bar : Scrollbar} (host : EditorHost D)
    (h : bar.linked = false) :
    (assemble launch host bar).bar.width = bar.width ∧
      (assemble launch host bar).bar.height = bar.height ∧
        (assemble launch host bar).host = (ScrollHost.addListener host bar.id).1 := by
  unfold assemble Scrollbar.link
  simp only [h, Bool.false_eq_true, if_false, Option.getD_some, and_self]

theorem linked_startBar (launch : Launch) : (startBar launch).linked = false := by
  unfold startBar
  rcases resize_new 0 launch.settings.scrollbar launch.theme.accent (Single.ofNat
      launch.settings.scrollbar.thumbWidth.toNat) startHeight with ⟨_, _, _, hresize⟩
  rw [hresize]
  rfl

section Start

variable (D : Type) {E : Type} [TextEditor D E] (launch : Launch)

theorem start_new :
    (new launch : App D).bar.width = (startBar launch).width ∧
      (new launch : App D).bar.height = (startBar launch).height ∧
        (new launch : App D).host =
          (ScrollHost.addListener (startHost launch) (startBar launch).id).1 :=
  assemble_of_unlinked (startHost launch) (linked_startBar launch)

/-- Nothing is painted before the first message. -/
theorem blank_new :
    (new launch : App D).frame? = none ∧ (new launch : App D).images = ThumbImages.empty :=
  blank_assemble launch (startHost launch) (startBar launch)

/-- The scrollbar of a new application is linked to its editor and may have been given its size. -/
theorem bar_new : ∃ width height needsRedraw,
    (new launch : App D).bar =
      { Scrollbar.new 0 launch.settings.scrollbar launch.theme.accent with
        linked := true
        width := width
        height := height
        needsRedraw := needsRedraw } := by
  rcases resize_new 0 launch.settings.scrollbar launch.theme.accent (Single.ofNat
      launch.settings.scrollbar.thumbWidth.toNat) startHeight with
      ⟨width, height, needsRedraw, hresize⟩
  refine ⟨width, height, needsRedraw, ?_⟩
  have hstart : startBar launch = _ := hresize
  have hbar : (new launch : App D).bar =
      ((startBar launch).link (some (startHost launch : EditorHost D))).1 :=
    bar_assemble launch (startHost launch) (startBar launch)
  rw [hbar, hstart]
  -- What the editor holds does not matter here, and need not be computed.
  generalize (startHost launch : EditorHost D) = host
  rfl

theorem settled_new : (new launch : App D).Settled launch.settings.scrollbar [] := by
  rcases bar_new D launch with ⟨width, height, needsRedraw, hbar⟩
  have hhidden : (new launch : App D).bar.visibility = .hidden := by rw [hbar]; rfl
  have htimers : (new launch : App D).bar.timers = Timers.empty := by rw [hbar]; rfl
  have hqueue : (startHost launch : EditorHost D).listeners.queue = [] := rfl
  rcases blank_new D launch with ⟨hframe, himages⟩
  -- A hidden thumb without timers has nothing left to be done, whatever its size.
  constructor
  · constructor <;> simp [hhidden, htimers, Timers.empty]
  · rw [htimers]
    exact Timers.Orderly.empty
  · rw [htimers]
    rfl
  · exact (queue_assemble launch (startHost launch) (startBar launch)).trans hqueue
  · rw [hbar]
    rfl
  · rw [hbar]
    exact Nat.le_refl _
  · exact ⟨fun _ => hhidden, fun _ => hframe, fun hseen => absurd hhidden hseen⟩
  · rw [hbar, himages]
    rfl

end Start

/-! ## After a message -/

/-- What the scrollbar and its picture are like once a frame was made if one was asked for. -/
theorem Settled.of_redraw (h : app.Settled settings handed) (hcoherent : mid.bar.Coherent)
    (hundrawn : Scrollbar.Undrawn app.bar mid.bar) (hframe : mid.frame? = app.frame?)
    (himages : mid.images = app.images) (hredraw : mid.redraw = .ok drawn) :
    drawn.host = mid.host ∧ drawn.bar.settings = settings ∧
      drawn.bar.alpha.toNat ≤ settings.maxAlpha.toNat ∧ drawn.bar.Pictured drawn.frame? ∧
        drawn.images.sync drawn.bar.sprites = drawn.images := by
  have hsettings : mid.bar.settings = settings := hundrawn.settings.trans h.settings_eq
  have halpha : mid.bar.alpha.toNat ≤ settings.maxAlpha.toNat := hundrawn.alpha ▸ h.alpha_le
  rcases redraw_eq_ok hredraw with ⟨hquiet, rfl⟩ | ⟨bar, frame?, hdraw, rfl⟩
  · -- No event has asked for a frame, so that the last one is still right.
    rcases hundrawn.same_unless_redraw hquiet with ⟨_, _, hsetup⟩
    have hsprites : drawn.bar.sprites = app.bar.sprites := congrArg Scrollbar.Setup.sprites hsetup
    refine ⟨rfl, hsettings, halpha, ?_, ?_⟩
    · rw [hframe]
      exact h.pictured.of_undrawn hundrawn hquiet
    · rw [himages, hsprites]
      exact h.synced
  · -- A frame was made, and the images were taken from the sprites that it was made with.
    have hkept := Scrollbar.alpha_le_of_draw (hsettings ▸ halpha) hdraw
    rw [hsettings] at hkept
    exact ⟨rfl, hkept.1, hkept.2, Scrollbar.pictured_of_draw hcoherent hdraw,
      ThumbImages.sync_sync _ _⟩

/-- Each message leaves nothing to be done: the scrollbar has gone through a run of calls, which keeps
its timers, and its picture is made from what the events have left. -/
theorem settled_of_update (h : app.Settled settings handed)
    (hupdate : app.update message = .ok (after, requests)) :
    after.Settled settings (handed ++ requests.map TimerRequest.token) := by
  rcases exists_run_of_update hupdate with ⟨calls, steps, hindirect, hrun, hhanded⟩
  rcases h.coherent.of_run h.orderly hindirect hrun with ⟨hcoherent, horderly⟩
  rw [hhanded] at horderly
  rcases update_eq_ok hupdate with ⟨mid, drawn, hhandled, hqueue, hredraw, rfl, rfl⟩
  rcases hhandled.events with ⟨events, earlier, hevents, hmid⟩
  have hundrawn := (Scrollbar.undrawn_of_run hevents hmid).1
  -- The frame is made in the midst of the message, when the timers fit the visibility as well.
  have hbefore := (h.coherent.of_run h.orderly (fun call hcall => (hevents call hcall).isIndirect)
    hmid).1
  rcases h.of_redraw hbefore hundrawn hhandled.frame_eq hhandled.images_eq hredraw with
      ⟨hhost, hsettings, halpha, hpictured, hsynced⟩
  constructor
  · exact hcoherent
  · exact horderly
  · rfl
  · exact (congrArg (fun host => host.listeners.queue) hhost).trans hqueue
  · exact hsettings
  · exact halpha
  · exact ⟨hpictured.hidden_of_redraw, hpictured.blank_of_hidden, hpictured.drawn_of_seen⟩
  · exact hsynced

/-! ## Runs -/

theorem Settled.of_run {messages : List (AppMessage E)} {steps : Steps D E}
    (h : app.Settled settings handed) (hrun : app.run messages = .ok (after, steps)) :
    after.Settled settings (handed ++ armed steps) := by
  refine Machine.run_invariant (fun reached steps => reached.Settled settings (handed ++ armed steps))
    ?_ ?_ (fun _ _ => trivial) hrun
  · simpa [armed] using h
  · intro before steps message requests after hbefore (_ : True) hstep
    have hafter := settled_of_update hbefore hstep
    rw [armed_append, armed_singleton, ← List.append_assoc]
    exact hafter

/-- Between two messages every live token was armed, since no request is left. -/
theorem Settled.armed_of_live (h : app.Settled settings handed) {token : TimerToken}
    (hlive : token ∈ app.bar.timers.live) : token ∈ handed := by
  have hknown := h.orderly.live_known token hlive
  rwa [Timers.queued, h.no_requests, List.map_nil, List.append_nil] at hknown

/-- And it was armed only once. -/
theorem Settled.count_eq_one (h : app.Settled settings handed) {token : TimerToken}
    (hlive : token ∈ app.bar.timers.live) : handed.count token = 1 := by
  have hincreasing := (List.pairwise_append.1 h.orderly.increasing).1
  exact List.count_eq_one_of_mem (hincreasing.imp Nat.ne_of_lt) (h.armed_of_live hlive)

end App

end OverlayScrollbar
