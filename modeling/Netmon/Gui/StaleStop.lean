import Netmon.Gui.Handles

/-! All sessions report to the app through one channel, and a message does not say which
session it is about. A session that is started when its predecessors have no more to
report is safe from them. -/
namespace Netmon.Gui
open Library Capture
namespace Monitor

def Shows (monitor : Monitor) (session : Nat) : Prop :=
  monitor.app.isCapturing = true ∧ monitor.control = some session

def Runs (monitor : Monitor) (session : Nat) : Prop :=
  ∃ thread, monitor.threads[session]? = some thread ∧ monitor.isRunning thread = true

/-- The app no longer shows the session as capturing, its flag is cleared or its handle is dropped. -/
def SwitchesOff (before after : Monitor) (session : Nat) : Prop :=
  before.Shows session ∧ ¬after.Shows session ∨ before.Runs session ∧ ¬after.Runs session ∨
    before.control = some session ∧ after.control ≠ some session

/-- A message of one session that capture has stopped leaves every later session as it is. -/
def SparesLater (monitor : Monitor) (event : Event) : Prop :=
  event = .receiveStatus → ∀ message ∈ monitor.statusRx.head?, StopsCapture message.text →
    ∀ session > message.session, ¬SwitchesOff monitor (monitor.step event) session

structure Quiet (monitor : Monitor) : Prop where
  channel : ∀ message ∈ monitor.statusRx, ¬StopsCapture message.text
  threads : ∀ thread ∈ monitor.threads, thread.phase.reports = false

/-- The app is idle, a device is selected, and the capture crate opens it. -/
def Launch.Spawns (launch : Launch) (app : CaptureApp) : Prop :=
  app.isCapturing = false ∧ ∃ iface, app.devices[app.selectedIface]? = some iface ∧
    (launch.spawn ⟨iface, [], some (launch.home ++ "/".toList ++ pcapSessionPrefix ++ decimal launch.timestamp ++
      ".pcap".toList)⟩).isOk = true

/-- A thread is spawned only when no earlier session can report any more that it has stopped. -/
def StartsQuiet (monitor : Monitor) : Event → Prop
  | .startCapture launch => launch.Spawns monitor.app → monitor.Quiet
  | .restartCaptureForInterfaceChange selected steps launch => monitor.app.isCapturing = true →
    launch.Spawns (monitor.stopForInterfaceChange selected steps).app →
      (monitor.stopForInterfaceChange selected steps).Quiet
  | _ => True

instance (monitor : Monitor) : Decidable monitor.Quiet :=
  decidable_of_iff ((∀ message ∈ monitor.statusRx, ¬StopsCapture message.text) ∧
    ∀ thread ∈ monitor.threads, thread.phase.reports = false)
    ⟨fun ⟨channel, threads⟩ => ⟨channel, threads⟩, fun ⟨channel, threads⟩ => ⟨channel, threads⟩⟩

theorem spawns_iff (launch : Launch) (app : CaptureApp) : launch.Spawns app ↔ (launch.started app).2.isSome = true := by
  unfold Launch.Spawns Launch.started Gui.startCapture
  cases app.isCapturing with
  | true => simp
  | false =>
    cases selected : app.devices[app.selectedIface]? with
    | none =>
      simp only [Bool.false_or]
      split <;> simp
    | some iface =>
      have filled : app.devices.isEmpty = false := by
        cases devices : app.devices with
        | nil => simp [devices] at selected
        | cons => rfl
      simp only [filled, Bool.false_or, Bool.false_eq_true, if_false, Option.some.injEq, exists_eq_left', true_and]
      cases launch.spawn ⟨iface, [], _⟩ with
      | ok => simp [Except.isOk, Except.toBool]
      | error error => simp [Except.isOk, Except.toBool]

theorem captureStopped_stops : StopsCapture captureStopped := by decide

theorem announcement_spares {text : Text} (announcement : Announcement text) : ¬StopsCapture text := by
  intro stops
  cases announcement with
  | capturing interface =>
    have different := prefix_get stops (i := 6) (c := 'e') (by simp)
    have inside : 6 < "Capturing on ".toList.length := by decide
    unfold capturingOn at different
    rw [List.getElem?_append_left inside] at different
    simp at different
  | filterApplied filterExpression =>
    have different := prefix_get stops (i := 0) (c := 'C') (by simp)
    simp at different
  | rejected error =>
    have different := prefix_get stops (i := 0) (c := 'C') (by simp)
    simp at different

theorem recording_spares (error : Text) : ¬StopsCapture ("PCAP recording disabled: ".toList ++ error) := by
  intro stops
  have different := prefix_get stops (i := 0) (c := 'C') (by simp)
  simp at different

/-- Neither a message in the channel nor an earlier thread can stop the current session. -/
structure Undisturbed (monitor : Monitor) : Prop where
  consistent : monitor.Consistent
  channel : ∀ session, monitor.control = some session → ∀ message ∈ monitor.statusRx,
    StopsCapture message.text → session ≤ message.session
  threads : ∀ session, monitor.control = some session → ∀ earlier < session, ∀ thread,
    monitor.threads[earlier]? = some thread → thread.phase.reports = false

section Undisturbed
variable {monitor : Monitor}

theorem Undisturbed.of_none (consistent : monitor.Consistent) (none : monitor.control = none) :
    monitor.Undisturbed where
  consistent := consistent
  channel := by simp [none]
  threads := by simp [none]

theorem Undisturbed.same {other : Monitor} (before : monitor.Undisturbed) (consistent : other.Consistent)
    (control : other.control = monitor.control) (statusRx : other.statusRx ⊆ monitor.statusRx)
    (threads : Threadwise SamePhase monitor.threads other.threads) :
    other.Undisturbed where
  consistent := consistent
  channel := by
    intro session held message queued stops
    exact before.channel session (control ▸ held) message (statusRx queued) stops
  threads := by
    intro session held earlier older thread found
    obtain ⟨known, there, phase⟩ := threads.thread earlier thread found
    rw [phase]
    exact before.threads session (control ▸ held) earlier older known there

theorem Undisturbed.startCapture (before : monitor.Undisturbed) (launch : Launch)
    (quiet : launch.Spawns monitor.app → monitor.Quiet) : (monitor.startCapture launch).Undisturbed := by
  have consistent := before.consistent.startCapture launch
  rcases started_cases launch monitor.app with nothing | ⟨idle, path, status, failed | ⟨args, started⟩⟩
  · rw [startCapture_nothing nothing]
    exact before
  · apply Undisturbed.of_none consistent
    simp only [Monitor.startCapture, failed]
    exact before.consistent.control_none idle
  · have none := before.consistent.control_none idle
    have silent := quiet ((spawns_iff launch monitor.app).mpr (by rw [started]; rfl))
    refine ⟨consistent, ?_, ?_⟩
    · intro session held message queued stops
      simp only [Monitor.startCapture, started, takeControl_eq none] at queued
      rcases List.mem_append.mp queued with old | recording
      · exact absurd stops (silent.channel message old)
      · obtain ⟨error, _, rfl⟩ := List.mem_map.mp recording
        exact absurd stops (recording_spares error)
    · intro session held earlier older thread found
      simp only [Monitor.startCapture, started, takeControl_eq none] at held found
      cases held
      rw [List.getElem?_append_left older] at found
      exact silent.threads thread (List.mem_of_getElem? found)

theorem receiveStatus_other {message : StatusMessage} {rest : List StatusMessage}
    (queue : monitor.statusRx = message :: rest) (other : ¬StopsCapture message.text) :
    monitor.receiveStatus.control = monitor.control ∧ monitor.receiveStatus.threads = monitor.threads ∧
      monitor.receiveStatus.statusRx = rest := by
  obtain ⟨_, control, threads, statusRx⟩ := noteFilter_same { monitor with statusRx := rest } message.text
  simp only [Monitor.receiveStatus, queue, noteStopped, if_neg other, setStatus]
  exact ⟨control, threads, statusRx⟩

theorem receiveStatus_stop {message : StatusMessage} {rest : List StatusMessage}
    (queue : monitor.statusRx = message :: rest) (stops : StopsCapture message.text) :
    monitor.receiveStatus.control = none := by
  simp only [Monitor.receiveStatus, queue, noteStopped, if_pos stops, setStatus]
  exact takeControl_control

theorem Undisturbed.receiveStatus (before : monitor.Undisturbed) : monitor.receiveStatus.Undisturbed := by
  have consistent := before.consistent.receiveStatus
  cases queue : monitor.statusRx with
  | nil =>
    rw [receiveStatus_empty queue]
    exact before
  | cons message rest =>
    by_cases stops : StopsCapture message.text
    · exact .of_none consistent (receiveStatus_stop queue stops)
    · obtain ⟨control, threads, statusRx⟩ := receiveStatus_other queue stops
      apply before.same consistent control
      · rw [statusRx, queue]
        exact List.subset_cons_self message rest
      · rw [threads]
        exact .refl SamePhase.refl _

theorem Undisturbed.advance (before : monitor.Undisturbed) (acting : Nat) (answer : Answer) :
    (monitor.advance acting answer).Undisturbed := by
  have consistent := before.consistent.advance acting answer
  cases known : monitor.threads[acting]? with
  | none =>
    rw [advance_unknown known]
    exact before
  | some thread =>
    obtain ⟨control, threads, statusRx⟩ := advance_known known answer
    refine ⟨consistent, ?_, ?_⟩
    · intro session held message queued stops
      rw [control] at held
      rw [statusRx] at queued
      rcases List.mem_append.mp queued with old | new
      · exact before.channel session held message old stops
      · obtain ⟨text, sent, rfl⟩ := List.mem_map.mp new
        rcases advance_status sent with ⟨_, failed⟩ | announcement
        · by_contra older
          have silent := before.threads session held acting (Nat.lt_of_not_le older) thread known
          rw [failed] at silent
          cases silent
        · exact absurd stops (announcement_spares announcement)
    · intro session held earlier older later found
      rw [control] at held
      rw [threads, List.getElem?_set] at found
      split at found
      · rename_i same
        subst same
        split at found
        · cases found
          have other : monitor.control ≠ some acting := by
            rw [held]
            intro same
            exact Nat.ne_of_gt older (Option.some.inj same)
          obtain ⟨still, told⟩ := before.consistent.others acting thread known other
          exact advance_reports still told (before.threads session held acting older thread known)
        · cases found
      · exact before.threads session held earlier older later found

theorem Undisturbed.advanceAll (before : monitor.Undisturbed) (steps : List (Nat × Answer)) :
    (monitor.advanceAll steps).Undisturbed :=
  run_keeps _ Undisturbed (fun _ action before => before.advance action.1 action.2) monitor steps before

theorem Undisturbed.stopCapture (before : monitor.Undisturbed) : monitor.stopCapture.Undisturbed :=
  .of_none before.consistent.stopCapture (stopCapture_control before.consistent)

theorem Undisturbed.applyBpfFilter (before : monitor.Undisturbed) (bpfInput : Text) :
    (monitor.applyBpfFilter bpfInput).Undisturbed := by
  obtain ⟨_, control, threads, statusRx⟩ := applyBpfFilter_same bpfInput
  apply before.same (before.consistent.applyBpfFilter bpfInput) control
  · rw [statusRx]
    exact List.Subset.refl _
  · exact threads.weaken fun _ _ kept => kept.2

theorem Undisturbed.stopForInterfaceChange (before : monitor.Undisturbed) (selected : Nat)
    (steps : List (Nat × Answer)) : (monitor.stopForInterfaceChange selected steps).Undisturbed := by
  have chosen : ({ monitor with app := { monitor.app with selectedIface := selected } } : Monitor).Undisturbed :=
    ⟨before.consistent.same rfl rfl rfl rfl (.refl .refl _), before.channel, before.threads⟩
  exact chosen.stopCapture.advanceAll steps

theorem Undisturbed.step (before : monitor.Undisturbed) (event : Event) (quiet : monitor.StartsQuiet event) :
    (monitor.step event).Undisturbed := by
  cases event with
  | startCapture launch => exact before.startCapture launch quiet
  | stopCapture => exact before.stopCapture
  | restartCaptureForInterfaceChange selected steps launch =>
    simp only [Monitor.step, restartCaptureForInterfaceChange]
    split
    · rename_i wasRunning
      exact (before.stopForInterfaceChange selected steps).startCapture launch (quiet wasRunning)
    · exact before.stopForInterfaceChange selected steps
  | applyBpfFilter bpfInput => exact before.applyBpfFilter bpfInput
  | receiveStatus => exact before.receiveStatus
  | advance session answer => exact before.advance session answer
  | aggregatorExits => exact ⟨before.consistent.step .aggregatorExits, before.channel, before.threads⟩

/-- In an undisturbed state there is nothing a message could switch off but the session it is about. -/
theorem Undisturbed.spares (before : monitor.Undisturbed) (event : Event) : monitor.SparesLater event := by
  rintro rfl message head stops session later off
  have queued := List.mem_of_mem_head? head
  have other : monitor.control ≠ some session := fun held =>
    Nat.not_lt.mpr (before.channel session held message queued stops) later
  rcases off with ⟨shown, _⟩ | ⟨⟨thread, known, running⟩, _⟩ | ⟨held, _⟩
  · exact other shown.2
  · rw [(before.consistent.others session thread known other).1] at running
    cases running
  · exact other held

end Undisturbed

/-- In a run that starts a session only when nothing is left to report about an earlier one, no message about a
session switches a later one off. -/
theorem stopped_spares_later (devices : List Text) (events : List Event)
    (quiet : Meets Monitor.step StartsQuiet (new devices) events) :
    Meets Monitor.step SparesLater (new devices) events :=
  quiet.of_invariant (Undisturbed.of_none (new_consistent devices) rfl) (fun _ event before starts => before.step event starts)
    fun _ event before _ => before.spares event

def Attributed (monitor : Monitor) : Prop := ∀ message ∈ monitor.statusRx, message.session < monitor.threads.length

section Attributed
variable {monitor : Monitor}

theorem Attributed.same {other : Monitor} (before : monitor.Attributed) (statusRx : other.statusRx ⊆ monitor.statusRx)
    (threads : other.threads.length = monitor.threads.length) : other.Attributed := fun message queued =>
  threads ▸ before message (statusRx queued)

theorem Attributed.startCapture (before : monitor.Attributed) (launch : Launch) :
    (monitor.startCapture launch).Attributed := by
  intro message queued
  rcases started_cases launch monitor.app with nothing | ⟨_, path, status, failed | ⟨args, started⟩⟩
  · simp only [Monitor.startCapture, nothing] at queued ⊢
    exact before message queued
  · simp only [Monitor.startCapture, failed] at queued ⊢
    exact before message queued
  · simp only [Monitor.startCapture, started, List.length_append, List.length_singleton, takeControl_length] at queued ⊢
    rcases List.mem_append.mp queued with old | recording
    · exact Nat.lt_succ_of_lt (before message old)
    · obtain ⟨error, _, rfl⟩ := List.mem_map.mp recording
      exact Nat.lt_succ_self _

theorem Attributed.stopCapture (before : monitor.Attributed) : monitor.stopCapture.Attributed := by
  unfold Monitor.stopCapture
  split
  · exact before
  · obtain ⟨_, _, threads, statusRx⟩ := (monitor.storeRunning monitor.captureRunning).requestStop_same
    apply before.same
    · rw [takeControl_statusRx, statusRx]
      exact List.Subset.refl _
    · exact takeControl_length.trans threads.length

theorem Attributed.receiveStatus (before : monitor.Attributed) : monitor.receiveStatus.Attributed := by
  unfold Monitor.receiveStatus
  split
  · exact before
  rename_i message rest queue
  obtain ⟨_, _, threads, statusRx⟩ := noteFilter_same { monitor with statusRx := rest } message.text
  have noted : ({ monitor with statusRx := rest }.noteFilter message.text).Attributed := by
    apply before.same
    · rw [statusRx, queue]
      exact List.subset_cons_self message rest
    · rw [threads]
  unfold noteStopped
  split
  · apply noted.same
    · simp [setStatus, Monitor.storeRunning]
    · exact takeControl_length
  · exact noted.same (List.Subset.refl _) rfl

theorem Attributed.advance (before : monitor.Attributed) (session : Nat) (answer : Answer) :
    (monitor.advance session answer).Attributed := by
  cases known : monitor.threads[session]? with
  | none =>
    rw [advance_unknown known]
    exact before
  | some thread =>
    obtain ⟨_, threads, statusRx⟩ := advance_known known answer
    intro message queued
    rw [threads, List.length_set]
    rw [statusRx] at queued
    rcases List.mem_append.mp queued with old | new
    · exact before message old
    · obtain ⟨text, _, rfl⟩ := List.mem_map.mp new
      exact (List.getElem?_eq_some_iff.mp known).1

theorem Attributed.stopForInterfaceChange (before : monitor.Attributed) (selected : Nat) (steps : List (Nat × Answer)) :
    (monitor.stopForInterfaceChange selected steps).Attributed := by
  have chosen : ({ monitor with app := { monitor.app with selectedIface := selected } } : Monitor).Attributed := before
  exact run_keeps _ Attributed (fun _ action before => before.advance action.1 action.2) _ steps chosen.stopCapture

theorem Attributed.step (before : monitor.Attributed) (event : Event) : (monitor.step event).Attributed := by
  cases event with
  | startCapture launch => exact before.startCapture launch
  | stopCapture => exact before.stopCapture
  | restartCaptureForInterfaceChange selected steps launch =>
    simp only [Monitor.step, restartCaptureForInterfaceChange]
    split
    · exact (before.stopForInterfaceChange selected steps).startCapture launch
    · exact before.stopForInterfaceChange selected steps
  | applyBpfFilter bpfInput =>
    obtain ⟨_, _, threads, statusRx⟩ := applyBpfFilter_same bpfInput
    apply before.same
    · simp only [Monitor.step]
      rw [statusRx]
      exact List.Subset.refl _
    · exact threads.length
  | receiveStatus => exact before.receiveStatus
  | advance session answer => exact before.advance session answer
  | aggregatorExits => exact before

theorem run_attributed (devices : List Text) (events : List Event) : (run Monitor.step (new devices) events).Attributed :=
  run_keeps Monitor.step Attributed (fun _ event before => before.step event) (new devices) events
    (by simp [Attributed, new])

theorem queued_stop_ends {session : Nat} (held : monitor.control = some session)
    (earlier : ∀ message ∈ monitor.statusRx, StopsCapture message.text → message.session < session)
    (queued : ∃ message ∈ monitor.statusRx, StopsCapture message.text) :
    ∃ events, ¬Meets Monitor.step SparesLater monitor events := by
  generalize queue : monitor.statusRx = messages at earlier queued
  induction messages generalizing monitor with
  | nil =>
    obtain ⟨_, none, _⟩ := queued
    cases none
  | cons message rest ih =>
    by_cases stops : StopsCapture message.text
    · refine ⟨[.receiveStatus], fun spares => ?_⟩
      have dropped : monitor.receiveStatus.control ≠ some session := by
        rw [receiveStatus_stop queue stops]
        exact nofun
      exact spares.1 rfl message (by rw [queue]; rfl) stops session (earlier message (by simp) stops)
        (Or.inr (Or.inr ⟨held, dropped⟩))
    · obtain ⟨control, _, statusRx⟩ := receiveStatus_other queue stops
      obtain ⟨stop, member, ends⟩ := queued
      have later : stop ∈ rest := by
        rcases List.mem_cons.mp member with rfl | later
        · exact absurd ends stops
        · exact later
      obtain ⟨events, broken⟩ := ih (control.trans held) statusRx
        (fun other inside => earlier other (List.mem_cons_of_mem message inside)) ⟨stop, later, ends⟩
      exact ⟨.receiveStatus :: events, fun spares => broken spares.2⟩

theorem reporting_thread_stops {acting : Nat} {thread : CaptureThread} (known : monitor.threads[acting]? = some thread)
    (reports : thread.phase.reports = true) :
    ∃ events, (run Monitor.step monitor events).control = monitor.control ∧
      (run Monitor.step monitor events).statusRx = monitor.statusRx ++ [⟨captureStopped, acting⟩] := by
  let wentDown : Answer := ⟨fun _ => .ok (), .error⟩
  have failed : ∀ {monitor : Monitor} {thread : CaptureThread}, monitor.threads[acting]? = some thread →
      thread.phase = .failed → (monitor.advance acting wentDown).control = monitor.control ∧
        (monitor.advance acting wentDown).statusRx = monitor.statusRx ++ [⟨captureStopped, acting⟩] := by
    intro monitor thread known phase
    obtain ⟨control, _, statusRx⟩ := advance_known known wentDown
    refine ⟨control, statusRx.trans ?_⟩
    simp [CaptureThread.advance, phase, CaptureTrace.ended]
  cases phase : thread.phase with
  | failed => exact ⟨[.advance acting wentDown], failed known phase⟩
  | reading =>
    obtain ⟨control, threads, statusRx⟩ := advance_known known wentDown
    have cleared : (monitor.advance acting wentDown).threads[acting]? = some { thread with phase := .failed } := by
      rw [threads, List.getElem?_set_self (List.getElem?_eq_some_iff.mp known).1]
      simp [CaptureThread.advance, phase, wentDown]
    have sent : (monitor.advance acting wentDown).statusRx = monitor.statusRx := by
      rw [statusRx]
      simp [CaptureThread.advance, phase, wentDown]
    obtain ⟨control', statusRx'⟩ := failed cleared rfl
    exact ⟨[.advance acting wentDown, .advance acting wentDown], control'.trans control, sent ▸ statusRx'⟩
  | spawned | looping | handling | sending | exited => simp [phase, Phase.reports] at reports

/-- A session has been started behind what is left of the earlier ones. -/
structure Behind (monitor later : Monitor) : Prop where
  held : later.control = some monitor.threads.length
  kept : ∀ message ∈ monitor.statusRx, message ∈ later.statusRx
  earlier : ∀ message ∈ later.statusRx, StopsCapture message.text → message.session < monitor.threads.length
  threads : ∀ (acting : Nat) thread, monitor.threads[acting]? = some thread → later.threads[acting]? = some thread

theorem Attributed.behind (attributed : monitor.Attributed) (consistent : monitor.Consistent) {launch : Launch}
    (spawns : launch.Spawns monitor.app) : Behind monitor (monitor.startCapture launch) := by
  rw [spawns_iff] at spawns
  rcases started_cases launch monitor.app with nothing | ⟨idle, path, status, failed | ⟨args, started⟩⟩
  · rw [nothing] at spawns
    cases spawns
  · rw [failed] at spawns
    cases spawns
  have none := consistent.control_none idle
  refine ⟨?_, ?_, ?_, ?_⟩
  · simp only [Monitor.startCapture, started]
  · intro message queued
    simp only [Monitor.startCapture, started]
    exact List.mem_append_left _ queued
  · intro message queued stops
    simp only [Monitor.startCapture, started] at queued
    rcases List.mem_append.mp queued with old | recording
    · exact attributed message old
    · obtain ⟨error, _, rfl⟩ := List.mem_map.mp recording
      exact absurd stops (recording_spares error)
  · intro acting thread known
    simp only [Monitor.startCapture, started, takeControl_eq none]
    rw [List.getElem?_append_left (List.getElem?_eq_some_iff.mp known).1]
    exact known

theorem loud_cases (loud : ¬monitor.Quiet) : (∃ message ∈ monitor.statusRx, StopsCapture message.text) ∨
    ∃ thread ∈ monitor.threads, thread.phase.reports = true := by
  by_contra neither
  rw [not_or] at neither
  refine loud ⟨fun message member stops => neither.1 ⟨message, member, stops⟩, fun thread member => ?_⟩
  exact Bool.eq_false_iff.mpr fun reports => neither.2 ⟨thread, member, reports⟩

theorem loud_start_ends (consistent : monitor.Consistent) (attributed : monitor.Attributed) {launch : Launch}
    (spawns : launch.Spawns monitor.app) (loud : ¬monitor.Quiet) :
    ∃ events, ¬Meets Monitor.step SparesLater (monitor.startCapture launch) events := by
  have behind := attributed.behind consistent spawns
  rcases loud_cases loud with ⟨message, member, stops⟩ | ⟨thread, member, reports⟩
  · exact queued_stop_ends behind.held behind.earlier ⟨message, behind.kept message member, stops⟩
  · obtain ⟨acting, known⟩ := List.mem_iff_getElem?.mp member
    have bound := (List.getElem?_eq_some_iff.mp known).1
    obtain ⟨first, control, statusRx⟩ := reporting_thread_stops (behind.threads acting thread known) reports
    have earlier : ∀ message ∈ (run Monitor.step (monitor.startCapture launch) first).statusRx,
        StopsCapture message.text → message.session < monitor.threads.length := by
      intro message queued stops
      rw [statusRx] at queued
      rcases List.mem_append.mp queued with old | new
      · exact behind.earlier message old stops
      · obtain rfl := List.mem_singleton.mp new
        exact bound
    obtain ⟨events, broken⟩ := queued_stop_ends (control.trans behind.held) earlier
      ⟨⟨captureStopped, acting⟩, by simp [statusRx], captureStopped_stops⟩
    refine ⟨first ++ events, fun spares => ?_⟩
    rw [meets_append] at spares
    exact broken spares.2

/-- A session that is started while there is something left to report about an earlier one can be switched off by it. -/
theorem early_start_ends (devices : List Text) (events : List Event) (event : Event)
    (early : ¬StartsQuiet (run Monitor.step (new devices) events) event) :
    ∃ later, ¬Meets Monitor.step SparesLater (new devices) (events ++ event :: later) := by
  have consistent := run_consistent devices events
  have attributed := run_attributed devices events
  have continued : ∀ later, ¬Meets Monitor.step SparesLater ((run Monitor.step (new devices) events).step event) later →
      ¬Meets Monitor.step SparesLater (new devices) (events ++ event :: later) := by
    intro later broken spares
    rw [meets_append] at spares
    exact broken spares.2.2
  cases event with
  | startCapture launch =>
    simp only [StartsQuiet, Classical.not_imp] at early
    obtain ⟨later, broken⟩ := loud_start_ends consistent attributed early.1 early.2
    exact ⟨later, continued later broken⟩
  | restartCaptureForInterfaceChange selected steps launch =>
    simp only [StartsQuiet, Classical.not_imp] at early
    obtain ⟨wasRunning, spawns, loud⟩ := early
    obtain ⟨later, broken⟩ := loud_start_ends (consistent.stopForInterfaceChange selected steps)
      (attributed.stopForInterfaceChange selected steps) spawns loud
    refine ⟨later, continued later ?_⟩
    simpa only [Monitor.step, restartCaptureForInterfaceChange, wasRunning, if_true] using broken
  | stopCapture | applyBpfFilter | receiveStatus | advance | aggregatorExits => exact absurd trivial early

end Attributed

def twoDevices : Monitor := new ["eth0".toList, "wlan0".toList]

def accepted : Launch := ⟨"/root".toList, 0, fun _ => .ok (), none⟩
def silence : Answer := ⟨fun _ => .ok (), .timeoutExpired⟩
def wentDown : Answer := ⟨fun _ => .ok (), .error⟩

/-- The first session reads, and the app has shown so. -/
def capturing : List Event :=
  [.startCapture accepted, .advance 0 silence, .advance 0 silence, .advance 0 silence, .receiveStatus]

def failing : List Event := [.advance 0 wentDown, .advance 0 wentDown]

/-- The message of the first session is shown before the second is started. -/
theorem stopped_spares_later_restart :
    Meets Monitor.step SparesLater twoDevices (capturing ++ failing ++ [.receiveStatus, .startCapture accepted, .receiveStatus]) :=
  stopped_spares_later _ _ ⟨fun _ => by decide, trivial, trivial, trivial, trivial, trivial, trivial, trivial,
    fun _ => by decide, trivial, trivial⟩

/-- The message of the first session is in the channel when the second is started. -/
theorem stopped_ends_successor :
    (run Monitor.step twoDevices (capturing ++ failing ++ [.restartCaptureForInterfaceChange 1 [] accepted])).control = some 1 ∧
    (run Monitor.step twoDevices
      (capturing ++ failing ++ [.restartCaptureForInterfaceChange 1 [] accepted, .receiveStatus])).control = none ∧
    ¬Meets Monitor.step SparesLater twoDevices
      (capturing ++ failing ++ [.restartCaptureForInterfaceChange 1 [] accepted] ++ [.receiveStatus]) := by
  refine ⟨by decide, by decide, fun spares => ?_⟩
  rw [meets_append] at spares
  exact spares.2.1 rfl ⟨captureStopped, 0⟩ (by decide) captureStopped_stops 1 (by decide)
    (Or.inr (Or.inr ⟨by decide, by decide⟩))

end Monitor
end Netmon.Gui
