import OverlayScrollbar.Proofs.App.Fade
import OverlayScrollbar.Proofs.App.Painted
import OverlayScrollbar.Proofs.App.Strip
import OverlayScrollbar.Proofs.Editor.Host
import OverlayScrollbar.Proofs.Editor.Lines
import OverlayScrollbar.Proofs.Scrollbar.Sound

/-!
# An application that does not fault

Settings that are valid do not keep the application from faults: bitmaps may be too large, and a view
may have too many lines. It is these sizes, and no order of messages, that a fault comes from.

- `Launch.Fits`, `AppMessage.Fits` : sizes that lead to no fault
- `AppMessage.edits`               : what a message does to the text
- `App.Sound`                      : what keeps an application from faults
- `App.exists_update`              : a message does not fault, and counts up by three at most
- `App.Ready`                      : the messages that are left do not count too far

Main statement: `exists_run_of_fits`.
-/

namespace OverlayScrollbar

variable {D E : Type} [TextEditor D E]

/-! ## Sizes -/

/-- The text that is shown at first. -/
def Launch.text (launch : Launch) : String :=
  launch.text?.getD sampleText

/-- The bitmaps at the start can be held, and the view has not too many lines. -/
structure Launch.Fits (launch : Launch) : Prop where
  bitmap : Scrollbar.BitmapFits launch.settings.scrollbar
    (Single.ofNat launch.settings.scrollbar.thumbWidth.toNat)
  view : ScrollTracker.linesIn launch.settings.editor.linePixels App.startHeight ≤ 2 ^ 63

namespace AppMessage

/-- The message sets no size that leads to a fault. -/
def Fits (settings : Settings) : AppMessage E → Prop
  | .editor action => action.Fits
  | .overlayResized width height =>
      height.isNaN = false ∧ Scrollbar.BitmapFits settings.scrollbar width
  | .windowResized _ height =>
      ScrollTracker.linesIn settings.editor.linePixels (max (height - statusBarHeight) 0) ≤ 2 ^ 63
  | _ => True

instance (settings : Settings) (message : AppMessage E) : Decidable (message.Fits settings) := by
  cases message <;> unfold Fits <;> infer_instance

/-- What the message does to the text. -/
def edits : AppMessage E → List E
  | .editor action => action.edits
  | _ => []

end AppMessage

namespace App

variable {settings : Settings} {text : String} {edits : List E} {count : Nat} {app mid : App D}
  {message : AppMessage E}

/-- What keeps an application from faults, of which the editor came from a text by some edits. -/
structure Sound (settings : Settings) (text : String) (edits : List E) (count : Nat) (app : App D) :
    Prop where
  bar : app.bar.Sound count
  host : app.host.Sound text edits settings.editor.linePixels
  settings_eq : app.bar.settings = settings.scrollbar
  told : app.host.listeners.queue = []

theorem bitmapFits_startBar {launch : Launch} (hfits : launch.Fits) :
    Scrollbar.BitmapFits launch.settings.scrollbar (startBar launch).width := by
  have hnone : Scrollbar.BitmapFits launch.settings.scrollbar 0 := by
    have hzero : (max (Single.nearest 0) 0).toUInt32.toNat = 0 := by decide +kernel
    unfold Scrollbar.BitmapFits
    rw [hzero, Nat.zero_mul, Nat.zero_mul]
    exact Nat.two_pow_pos 63
  unfold startBar
  generalize startHeight = height
  exact Scrollbar.fits_resize hnone hfits.bitmap

theorem sound_new {launch : Launch} (hfits : launch.Fits)
    (hlines : TextEditor.lineCount (TextEditor.ofText launch.text : D) < 2 ^ 62) :
    (new launch : App D).Sound launch.settings launch.text [] 0 := by
  rcases start_new D launch with ⟨hwidth, _, hhost⟩
  have hsettled := settled_new D launch
  have hsettings : (new launch : App D).bar.settings = launch.settings.scrollbar :=
    hsettled.settings_eq
  -- Before the first message nothing was scheduled or painted.
  have hcounters : (new launch : App D).bar.timers.issued = 0 ∧
      (new launch : App D).bar.sprites.generation = 0 := by
    rcases bar_new D launch with ⟨_, _, _, hnew⟩
    rw [hnew]
    exact ⟨rfl, rfl⟩
  constructor
  · refine ⟨(inStep_new D launch).fresh, ?_, ?_, isNaN_height_new D launch, ?_⟩
    · exact Nat.le_of_eq hcounters.1
    · exact Nat.le_of_eq hcounters.2
    · rw [hsettings, hwidth]
      exact bitmapFits_startBar hfits
  · rw [hhost]
    exact (EditorHost.sound_new hfits.view hlines).addListener rfl _
  · exact hsettings
  · exact hsettled.no_changes

/-! ## The stages of a message -/

/-- A touch does not fault: a drag scrolls the editor, and any other touch at most stops its fling. -/
theorem exists_touch_of_sound (h : app.Sound settings text edits count)
    (hword : count + 1 < 2 ^ 64) (touch : Touch) :
    ∃ bar host used, app.bar.touch app.host touch = .ok (bar, host, used) ∧ bar.Sound (count + 1) ∧
      host.Sound text edits settings.editor.linePixels ∧ host.listeners.queue.length ≤ 1 := by
  -- The changes of an earlier message were all told, so that the one scroll is the only change.
  have hqueue : app.host.listeners.queue.length = 0 := by
    rw [h.told]
    rfl
  have hscroll : ∀ x y, ∃ host,
      ScrollHost.scrollTo (ScrollHost.abortFling app.host) x y = .ok host := by
    intro x y
    rcases EditorHost.exists_scrollTo h.host x y with ⟨host, hscrolled, _⟩
    exact ⟨host, hscrolled⟩
  have hissued := Nat.lt_of_le_of_lt (Nat.succ_le_succ h.bar.issued_le) hword
  rcases Scrollbar.exists_touch app.host touch h.bar.number hissued hscroll with
    ⟨⟨bar, host, used⟩, htouch⟩
  have hcall : app.bar.call (.touch app.host touch) = .ok (bar, .touched host used) :=
    Checked.bind_eq_ok_iff.2 ⟨_, htouch, rfl⟩
  refine ⟨bar, host, used, htouch, h.bar.of_call (by simp) hcall, ?_⟩
  -- The host is the same, has stopped its fling, or was scrolled once.
  rcases Scrollbar.host_of_touch htouch with rfl | rfl | ⟨x, y, hscrolled⟩
  · exact ⟨h.host, Nat.le_succ_of_le (Nat.le_of_eq hqueue)⟩
  · exact ⟨h.host.withFling 0 0, Nat.le_succ_of_le (Nat.le_of_eq hqueue)⟩
  · rcases EditorHost.exists_scrollTo h.host x y with ⟨other, hother, hsound, hchanges⟩
    cases hscrolled.symm.trans hother
    rw [hqueue] at hchanges
    exact ⟨hsound, hchanges⟩

theorem exists_handle (h : app.Sound settings text edits count) (hfits : message.Fits settings)
    (hlines : ∀ d : D, TextEditor.Reached text (edits ++ message.edits) d →
      TextEditor.lineCount d < 2 ^ 62)
    (hword : count + 1 < 2 ^ 64) :
    ∃ handled, app.handle message = .ok handled ∧ handled.bar.Sound (count + 1) ∧
      handled.host.Sound text (edits ++ message.edits) settings.editor.linePixels ∧
        handled.host.listeners.queue.length ≤ 1 := by
  have hqueue : app.host.listeners.queue.length = 0 := by
    rw [h.told]
    rfl
  have hquiet : app.host.listeners.queue.length ≤ 1 := Nat.le_succ_of_le (Nat.le_of_eq hqueue)
  have hbar := h.bar.mono (Nat.le_succ count)
  -- Only an action of the user is an edit.
  have hsame : ∀ {host : EditorHost D}, host.Sound text edits settings.editor.linePixels →
      message.edits = [] → host.Sound text (edits ++ message.edits) settings.editor.linePixels := by
    intro host hsound hnone
    rw [hnone, List.append_nil]
    exact hsound
  -- Only the operations of the editor and a touch compute anything that may fault.
  cases message with
  | editor action =>
      rcases EditorHost.exists_perform h.host hfits hlines with
          ⟨host, hperformed, hsound, hchanges⟩
      rw [hqueue] at hchanges
      exact ⟨_, Checked.bind_eq_ok_iff.2 ⟨host, hperformed, rfl⟩, hbar, hsound, hchanges⟩
  | flingTick =>
      rcases EditorHost.exists_tickFling h.host with ⟨host, hticked, hsound, hchanges⟩
      rw [hqueue] at hchanges
      exact ⟨_, Checked.bind_eq_ok_iff.2 ⟨host, hticked, rfl⟩, hbar, hsame hsound rfl, hchanges⟩
  | overlay touch =>
      rcases exists_touch_of_sound h hword touch with
        ⟨bar, host, used, htouch, hsound, hafter, hchanges⟩
      exact ⟨_, Checked.bind_eq_ok_iff.2 ⟨_, htouch, rfl⟩, hsound, hsame hafter rfl, hchanges⟩
  | timerFired token =>
      have hcall : app.bar.call (.timerElapsed token : Scrollbar.Call (EditorHost D)) = .ok _ := rfl
      exact ⟨_, rfl, h.bar.of_call (by simp) hcall, hsame h.host rfl, hquiet⟩
  | overlayResized width height =>
      have hcall : app.bar.call (.resize width height : Scrollbar.Call (EditorHost D)) = .ok _ := rfl
      refine ⟨_, rfl, h.bar.of_call ?_ hcall, hsame h.host rfl, hquiet⟩
      intro other another hresized
      cases hresized
      rw [h.settings_eq]
      exact hfits
  | windowResized width height =>
      have hcall : app.bar.call (.resize app.bar.width (max (height - statusBarHeight) 0) :
        Scrollbar.Call (EditorHost D)) = .ok _ := rfl
      refine ⟨_, rfl, h.bar.of_call ?_ hcall, hsame (h.host.setViewport hfits) rfl, hquiet⟩
      intro other another hresized
      cases hresized
      exact ⟨Single.isNaN_max_zero _, h.bar.fits⟩

theorem exists_deliver {changes : List (ListenerId × ScrollChange)} (hbar : app.bar.Sound count)
    (hword : count + changes.length < 2 ^ 64) :
    ∃ mid, app.deliver changes = .ok mid ∧ mid.bar.Sound (count + changes.length) := by
  -- By induction on the changes; each that is for the scrollbar is one call.
  induction changes generalizing app count with
  | nil => exact ⟨app, rfl, hbar⟩
  | cons change rest ih =>
      have hmore : count + 1 + rest.length = count + (change :: rest).length := by
        rw [List.length_cons, Nat.add_right_comm, Nat.add_assoc]
      rw [← hmore] at hword ⊢
      unfold deliver
      split
      · have hnext : count + 1 < 2 ^ 64 := Nat.lt_of_le_of_lt (Nat.le_add_right _ _) hword
        have hissued := Nat.lt_of_le_of_lt (Nat.succ_le_succ hbar.issued_le) hnext
        rcases Scrollbar.exists_hostScrolled app.host hbar.number hissued with ⟨bar, hscrolled⟩
        have hcall : app.bar.call (.hostScrolled app.host) = .ok (bar, .done) :=
          Checked.bind_eq_ok_iff.2 ⟨bar, hscrolled, rfl⟩
        have hafter : ({ app with bar := bar } : App D).bar.Sound (count + 1) :=
          hbar.of_call (by simp) hcall
        rcases ih hafter hword with ⟨mid, hdelivered, hsound⟩
        exact ⟨mid, Checked.bind_eq_ok_iff.2 ⟨bar, hscrolled, hdelivered⟩, hsound⟩
      · exact ih (hbar.mono (Nat.le_succ count)) hword

theorem exists_redraw (hbar : mid.bar.Sound count) (hword : count + 1 < 2 ^ 64) :
    ∃ drawn, mid.redraw = .ok drawn ∧ drawn.bar.Sound (count + 1) := by
  cases hasked : mid.bar.needsRedraw with
  | false => exact ⟨mid, redraw_of_quiet hasked, hbar.mono (Nat.le_succ count)⟩
  | true =>
      -- A frame asks nothing of a host, so that any host will do.
      have hdraws : ∃ bar answer,
          mid.bar.call (.draw : Scrollbar.Call RecordedHost) = .ok (bar, answer) :=
        hbar.exists_call hword (by simp)
      rcases hdraws with ⟨bar, answer, hcall⟩
      rcases Checked.bind_eq_ok_iff.1 hcall with ⟨⟨drawn, frame?⟩, hdraw, hanswer⟩
      cases hanswer
      exact ⟨_, redraw_of_draw hasked hdraw, hbar.of_call (by simp) hcall⟩

/-! ## Messages and runs -/

/-- A message does not fault, and keeps the application from faults. -/
theorem exists_update (h : app.Sound settings text edits count) (hfits : message.Fits settings)
    (hlines : ∀ d : D, TextEditor.Reached text (edits ++ message.edits) d →
      TextEditor.lineCount d < 2 ^ 62)
    (hword : count + 3 < 2 ^ 64) :
    ∃ after requests, app.update message = .ok (after, requests) ∧
      after.Sound settings text (edits ++ message.edits) (count + 3) := by
  rcases exists_handle h hfits hlines (by omega) with ⟨handled, hhandle, hbar, hhost, hchanges⟩
  -- At most one change is told.
  have hdrained : ({ handled with host := handled.host.drainChanges.1 } : App D).bar.Sound
      (count + 1) := hbar
  have hfew : handled.host.drainChanges.2.length ≤ 1 := hchanges
  have htold : count + 1 + handled.host.drainChanges.2.length < 2 ^ 64 := by omega
  rcases exists_deliver hdrained htold with ⟨mid, hdeliver, hdelivered⟩
  have hmid : mid.bar.Sound (count + 2) := hdelivered.mono (by omega)
  rcases exists_redraw hmid hword with ⟨drawn, hredraw, hdrawn⟩
  have hupdate : app.update message =
      .ok ({ drawn with bar := drawn.bar.takeRequests.1 }, drawn.bar.takeRequests.2) :=
    Checked.bind_eq_ok_iff.2 ⟨handled, hhandle, Checked.bind_eq_ok_iff.2 ⟨mid, hdeliver,
      Checked.bind_eq_ok_iff.2 ⟨drawn, hredraw, rfl⟩⟩⟩
  refine ⟨_, _, hupdate, ?_⟩
  have hsame : drawn.host = handled.host.drainChanges.1 :=
    (kept_of_redraw hredraw).1.trans (handled_of_deliver hdeliver).2
  constructor
  · exact hdrawn.takeRequests
  · dsimp only
    rw [hsame]
    exact hhost.drainChanges
  · rcases exists_run_of_update hupdate with ⟨calls, steps, _, hrun, _⟩
    exact (Scrollbar.settings_of_run hrun).1.trans h.settings_eq
  · dsimp only
    rw [hsame]
    rfl

/-- What has been counted, and what the messages that are left may count, stays below the words. -/
structure Ready (settings : Settings) (text : String) (messages : List (AppMessage E))
    (app : App D) : Prop where
  fits : ∀ message ∈ messages, message.Fits settings
  sound : ∃ edits count, app.Sound settings text edits count ∧
    (∀ (d : D) (more : List E), more <+: messages.flatMap AppMessage.edits →
      TextEditor.Reached text (edits ++ more) d → TextEditor.lineCount d < 2 ^ 62) ∧
    count + 3 * messages.length < 2 ^ 64

theorem Ready.exists_update {rest : List (AppMessage E)}
    (h : app.Ready settings text (message :: rest)) :
    ∃ after requests, app.update message = .ok (after, requests) ∧
      after.Ready settings text rest := by
  rcases h.sound with ⟨edits, count, hsound, hlines, hword⟩
  rw [List.length_cons] at hword
  rcases App.exists_update hsound (h.fits message List.mem_cons_self)
      (fun d hreached => hlines d _ (List.prefix_append _ _) hreached) (by omega) with
      ⟨after, requests, hupdate, hafter⟩
  refine ⟨after, requests, hupdate, ?_, edits ++ message.edits, count + 3, hafter, ?_, by omega⟩
  · intro other hmem
    exact h.fits other (List.mem_cons_of_mem message hmem)
  · -- What is still to come follows what this message does to the text.
    intro d more hmore hreached
    rw [List.append_assoc] at hreached
    exact hlines d _ ((List.prefix_append_right_inj message.edits).2 hmore) hreached

/-- No run faults in which the bitmaps can be held, no view has too many lines, no height of the strip
is other than a number, the texts that the messages lead to have not too many lines, and words count
what the messages schedule and draw. -/
theorem exists_run_of_fits {launch : Launch} {messages : List (AppMessage E)}
    (hlaunch : launch.Fits) (hmessages : ∀ message ∈ messages, message.Fits launch.settings)
    (hlines : ∀ (d : D) (edits : List E), edits <+: messages.flatMap AppMessage.edits →
      TextEditor.Reached launch.text edits d → TextEditor.lineCount d < 2 ^ 62)
    (hword : 3 * messages.length < 2 ^ 64) :
    ∃ last steps, (new launch : App D).run messages = .ok (last, steps) := by
  have hstart := hlines _ [] (List.nil_prefix) .ofText
  have hready : (new launch : App D).Ready launch.settings launch.text messages := by
    refine ⟨hmessages, [], 0, sound_new hlaunch hstart, hlines, ?_⟩
    rw [Nat.zero_add]
    exact hword
  -- Each message counts up by three, and leaves what the others need.
  rcases Machine.exists_run_of_progress Ready.exists_update hready with ⟨last, steps, hrun, _⟩
  exact ⟨last, steps, hrun⟩

/-- Messages that set sizes, and lead to a text with one line more. -/
def resizingMessages : List (AppMessage Edit) :=
  [.editor (.scroll 1), .overlayResized 5 300, .windowResized 900 400, .editor (.edit .enter)]

theorem lineCount_lt_of_resizing {d : Document} {edits : List Edit}
    (hedits : edits <+: resizingMessages.flatMap AppMessage.edits)
    (hreached : TextEditor.Reached highLines.text edits d) : d.lineCount < 2 ^ 62 := by
  have hstart : (Document.ofText highLines.text).lineCount = 3 := by decide +kernel
  have hcount := Document.lineCount_le_of_reached hreached
  rw [hstart] at hcount
  have hone : edits <+: [.enter] := hedits
  -- The line that is put in is the only edit, and may not be made yet.
  have hsum : edits.foldl (fun count edit => count + (edit.characters + 2)) 3 ≤ 6 := by
    rcases List.prefix_cons_iff.1 hone with rfl | ⟨rest, rfl, hrest⟩
    · decide
    · rw [List.prefix_nil.1 hrest]
      decide
  omega

/-- The theorem speaks of a run that sets sizes. -/
theorem exists_run_of_fits_resizing :
    highLines.Fits ∧ (∀ message ∈ resizingMessages, message.Fits highLines.settings) ∧
      (∀ (d : Document) (edits : List Edit),
        edits <+: resizingMessages.flatMap AppMessage.edits →
          TextEditor.Reached highLines.text edits d → d.lineCount < 2 ^ 62) ∧
        ∃ last steps, (new highLines : App Document).run resizingMessages = .ok (last, steps) := by
  have hlaunch : highLines.Fits := ⟨by decide +kernel, by decide +kernel⟩
  have hmessages : ∀ message ∈ resizingMessages, message.Fits highLines.settings := by
    decide +kernel
  have hlines : ∀ (d : Document) (edits : List Edit),
      edits <+: resizingMessages.flatMap AppMessage.edits →
        TextEditor.Reached highLines.text edits d → d.lineCount < 2 ^ 62 :=
    fun _ _ => lineCount_lt_of_resizing
  exact ⟨hlaunch, hmessages, hlines, exists_run_of_fits hlaunch hmessages hlines (by decide)⟩

/-- Lines so low that a view has more of them than a word can count. -/
def lowLines : Launch :=
  { highLines with settings := { highLines.settings with editor := ⟨1e-20, 1, "dark"⟩ } }

/-- The settings are valid, but to follow the cursor leaves the word for lines. -/
theorem run_faults_of_low_lines :
    lowLines.settings.validate = .ok () ∧
      ¬∃ last steps, (new lowLines : App Document).run
        [.editor (.scroll 1), .editor (.edit (.move .down))] = .ok (last, steps) := by
  have hvalid : lowLines.settings.validate = .ok () := by decide +kernel
  have hfault : ((new lowLines : App Document).run
      [.editor (.scroll 1), .editor (.edit (.move .down))]).map (fun _ => ()) =
        .error .overflow := by
    decide +kernel
  refine ⟨hvalid, ?_⟩
  rintro ⟨last, steps, hrun⟩
  rw [hrun] at hfault
  cases hfault

/-- A thumb whose bitmap is larger than what can be addressed. -/
def hugeThumb : Launch :=
  { highLines with
    settings :=
      { highLines.settings with
        scrollbar :=
          { ScrollbarSettings.standard with thumbWidth := 2147483648, thumbHeight := 1073741824 } } }

/-- The settings are valid, but the bitmaps cannot be made when the thumb is first shown. -/
theorem run_faults_of_huge_thumb :
    hugeThumb.settings.validate = .ok () ∧
      ¬∃ last steps, (new hugeThumb : App Document).run [.editor (.scroll 1)] =
        .ok (last, steps) := by
  have hvalid : hugeThumb.settings.validate = .ok () := by decide +kernel
  have hfault : ((new hugeThumb : App Document).run [.editor (.scroll 1)]).map (fun _ => ()) =
      .error .bufferTooLarge := by
    decide +kernel
  refine ⟨hvalid, ?_⟩
  rintro ⟨last, steps, hrun⟩
  rw [hrun] at hfault
  cases hfault

end App

end OverlayScrollbar
