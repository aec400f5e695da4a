import Netmon.Gui.StaleStop

/-! A capture thread that ends on its own reports so, and the app shows it. The thread
has one more way out: it leaves its loop without a word when nobody receives records
any longer. -/
namespace Netmon.Gui
open Library Capture
namespace Monitor

/-- `update_status_from_channel`, on the messages that are there when it begins. -/
def updateStatusFromChannel (monitor : Monitor) : Monitor :=
  run (fun monitor _ => monitor.receiveStatus) monitor monitor.statusRx

/-! ### Exits and their messages -/

def StopQueued (monitor : Monitor) (session : Nat) : Prop :=
  ∃ message ∈ monitor.statusRx, message.session = session ∧ StopsCapture message.text

/-- When the thread of the current session has left its loop, its message is on the way, and the app is idle once
the channel is drained. -/
def ExitReported (monitor : Monitor) : Prop :=
  ∀ session thread, monitor.control = some session → monitor.threads[session]? = some thread →
    thread.phase = .exited → monitor.StopQueued session ∧ monitor.updateStatusFromChannel.app.isCapturing = false

/-- The thread of the current session does not go on in `send` when the aggregator has gone. -/
def Delivers (monitor : Monitor) (event : Event) : Prop :=
  ∀ session thread answer delivery, event = .advance session answer → monitor.control = some session →
    monitor.threads[session]? = some thread → thread.phase = .sending delivery → monitor.receiving = true

/-! ### Draining the channel -/

section Drain
variable {monitor : Monitor}

theorem receiveStatus_idle (idle : monitor.app.isCapturing = false) : monitor.receiveStatus.app.isCapturing = false := by
  unfold receiveStatus
  split
  · exact idle
  rename_i message rest _
  obtain ⟨app, _⟩ := noteFilter_same { monitor with statusRx := rest } message.text
  unfold noteStopped
  split
  · simp only [setStatus, takeControl_app, Monitor.storeRunning]
  · simp only [setStatus, app]
    exact idle

theorem receiveStatus_stopped {message : StatusMessage} {rest : List StatusMessage}
    (queue : monitor.statusRx = message :: rest) (stops : StopsCapture message.text) :
    monitor.receiveStatus.app.isCapturing = false := by
  simp only [receiveStatus, queue, noteStopped, if_pos stops, setStatus, takeControl_app, Monitor.storeRunning]

theorem drained_idle (idle : monitor.app.isCapturing = false) (turns : List StatusMessage) :
    (run (fun monitor _ => monitor.receiveStatus) monitor turns).app.isCapturing = false :=
  run_keeps _ (fun monitor => monitor.app.isCapturing = false) (fun _ _ idle => receiveStatus_idle idle) monitor turns idle

/-- A queued message that capture has stopped is acted on when the channel is drained. -/
theorem drained_stopped {session : Nat} (queued : monitor.StopQueued session) :
    monitor.updateStatusFromChannel.app.isCapturing = false := by
  unfold updateStatusFromChannel
  obtain ⟨message, member, _, stops⟩ := queued
  generalize queue : monitor.statusRx = messages at member
  induction messages generalizing monitor with
  | nil => cases member
  | cons first rest ih =>
    rw [run_cons]
    by_cases ends : StopsCapture first.text
    · exact drained_idle (receiveStatus_stopped queue ends) rest
    · rcases List.mem_cons.mp member with rfl | later
      · exact absurd stops ends
      · exact ih (receiveStatus_other queue ends).2.2 later

end Drain

/-! ### The thread of the current session -/

section Thread
variable {running receiving : Bool} {answer : Answer} {thread : CaptureThread}

theorem advance_commands : (thread.advance running receiving answer).1.commands ⊆ thread.commands := by
  unfold CaptureThread.advance
  cases phase : thread.phase with
  | handling =>
    simp only
    split
    · exact List.Subset.refl _
    · rename_i command rest queue
      rw [queue]
      exact List.subset_cons_self command rest
  | reading | sending =>
    simp only
    repeat' split
    all_goals exact List.Subset.refl _
  | spawned | looping | failed | exited => exact List.Subset.refl _

theorem advance_cleared (cleared : (thread.advance running receiving answer).2.clearedRunning = true) :
    (thread.advance running receiving answer).1.phase = .failed := by
  unfold CaptureThread.advance at cleared ⊢
  cases phase : thread.phase with
  | handling =>
    simp only [phase] at cleared
    split at cleared <;> cases cleared
  | reading =>
    simp only [phase] at cleared ⊢
    cases read : answer.read with
    | error => rfl
    | timeoutExpired => simp [read, CaptureTrace.ended] at cleared
    | packet data len now =>
      simp only [read] at cleared
      repeat' split at cleared
      all_goals cases cleared
  | sending delivery =>
    simp only [phase] at cleared
    split at cleared <;> cases cleared
  | spawned | looping | failed | exited =>
    simp only [phase] at cleared
    cases cleared

theorem advance_leaving (ended : thread.phase = .failed ∨ thread.phase = .exited) :
    (thread.advance running receiving answer).1.phase = .exited := by
  rcases ended with failed | exited
  · simp only [CaptureThread.advance, failed]
  · simp only [CaptureThread.advance, exited]

/-- Without a request to stop, a thread whose records are received leaves its loop only to report that it has stopped. -/
theorem advance_exited (connected : thread.disconnected = false) (unstopped : .stop ∉ thread.commands)
    (still : thread.phase = .looping → running = true)
    (delivers : ∀ delivery, thread.phase = .sending delivery → receiving = true)
    (exited : (thread.advance running receiving answer).1.phase = .exited) :
    thread.phase = .exited ∨ captureStopped ∈ (thread.advance running receiving answer).2.statuses := by
  unfold CaptureThread.advance at exited ⊢
  cases phase : thread.phase with
  | exited => exact Or.inl rfl
  | failed => exact Or.inr (List.mem_singleton.mpr rfl)
  | spawned =>
    simp only [phase] at exited
    cases exited
  | looping =>
    simp only [phase, still phase] at exited
    cases exited
  | handling =>
    simp only [phase, connected] at exited
    split at exited
    · cases exited
    · rename_i command rest queue
      cases command with
      | stop => exact absurd (queue ▸ List.mem_cons_self) unstopped
      | applyFilter filterExpression => cases exited
  | reading =>
    simp only [phase] at exited
    cases read : answer.read with
    | timeoutExpired | error =>
      simp only [read] at exited
      cases exited
    | packet data len now =>
      simp only [read] at exited
      rcases parsePacket_total len thread.localIps now data with skipped | ⟨key, carries, parsed⟩
      · simp only [skipped] at exited
        cases exited
      · simp only [parsed] at exited
        cases exited
  | sending delivery =>
    simp only [phase, delivers delivery phase] at exited
    cases exited

end Thread

/-! ### Runs -/

structure Served (monitor : Monitor) (session : Nat) (thread : CaptureThread) : Prop where
  connected : thread.disconnected = false
  unstopped : .stop ∉ thread.commands
  running : thread.phase ≠ .failed → thread.phase ≠ .exited → monitor.isRunning thread = true
  reported : thread.phase = .exited → monitor.StopQueued session

/-- Nobody has told the thread of the current session to stop, and it has not left its loop without a word. -/
structure Attended (monitor : Monitor) : Prop where
  consistent : monitor.Consistent
  current : ∀ session thread, monitor.control = some session → monitor.threads[session]? = some thread →
    monitor.Served session thread

section Attended
variable {monitor : Monitor}

theorem Attended.of_none (consistent : monitor.Consistent) (none : monitor.control = none) : monitor.Attended where
  consistent := consistent
  current := by simp [none]

/-- Nothing but what is queued has changed, and no request to stop was added. -/
def Unstopped (thread later : CaptureThread) : Prop :=
  OnlyQueued thread later ∧ (.stop ∈ later.commands → .stop ∈ thread.commands)

theorem Unstopped.refl (thread : CaptureThread) : Unstopped thread thread := ⟨.refl thread, id⟩

theorem Attended.same {other : Monitor} (before : monitor.Attended) (consistent : other.Consistent)
    (control : other.control = monitor.control) (flags : other.app.runningFlags = monitor.app.runningFlags)
    (threads : Threadwise Unstopped monitor.threads other.threads)
    (queued : ∀ session, monitor.StopQueued session → other.StopQueued session) : other.Attended where
  consistent := consistent
  current := by
    intro session thread held found
    obtain ⟨earlier, known, ⟨⟨flag, disconnected⟩, phase⟩, commands⟩ := threads.thread session thread found
    have served := before.current session earlier (control ▸ held) known
    refine ⟨disconnected.trans served.connected, fun stop => served.unstopped (commands stop), ?_, ?_⟩
    · rw [phase, isRunning, flags, flag]
      exact served.running
    · rw [phase]
      exact fun exited => queued session (served.reported exited)

theorem Attended.startCapture (before : monitor.Attended) (launch : Launch) :
    (monitor.startCapture launch).Attended := by
  have consistent := before.consistent.startCapture launch
  rcases started_cases launch monitor.app with nothing | ⟨idle, path, status, failed | ⟨args, started⟩⟩
  · rw [startCapture_nothing nothing]
    exact before
  · apply Attended.of_none consistent
    simp only [Monitor.startCapture, failed]
    exact before.consistent.control_none idle
  · have none := before.consistent.control_none idle
    refine ⟨consistent, fun session thread held found => ?_⟩
    simp only [Monitor.startCapture, started, takeControl_eq none] at held found
    cases held
    rw [List.getElem?_concat_length] at found
    cases found
    refine ⟨rfl, by simp, fun _ _ => ?_, ?_⟩
    · simp [isRunning, Monitor.startCapture, started]
    · intro exited
      cases exited

theorem Attended.stopCapture (before : monitor.Attended) : monitor.stopCapture.Attended :=
  .of_none before.consistent.stopCapture (stopCapture_control before.consistent)

theorem Attended.receiveStatus (before : monitor.Attended) : monitor.receiveStatus.Attended := by
  have consistent := before.consistent.receiveStatus
  cases queue : monitor.statusRx with
  | nil =>
    rw [receiveStatus_empty queue]
    exact before
  | cons message rest =>
    by_cases stops : StopsCapture message.text
    · exact .of_none consistent (receiveStatus_stop queue stops)
    · obtain ⟨control, threads, statusRx⟩ := receiveStatus_other queue stops
      refine before.same consistent control ?_ ?_ ?_
      · obtain ⟨app, _⟩ := noteFilter_same { monitor with statusRx := rest } message.text
        simp only [Monitor.receiveStatus, queue, noteStopped, if_neg stops, setStatus, app]
      · rw [threads]
        exact .refl Unstopped.refl _
      · rintro session ⟨stop, member, about, ends⟩
        rw [queue] at member
        rcases List.mem_cons.mp member with rfl | later
        · exact absurd ends stops
        · exact ⟨stop, statusRx ▸ later, about, ends⟩

theorem send_queues {command : CaptureCommand} {session : Nat} {sent : Monitor}
    (accepted : monitor.send command session = some sent) :
    ∃ thread, monitor.threads[session]? = some thread ∧
      sent = { monitor with threads := monitor.threads.set session { thread with commands := thread.commands ++ [command] } } := by
  unfold send at accepted
  split at accepted
  · cases accepted
  · rename_i thread known
    split at accepted
    · cases accepted
    · cases accepted
      exact ⟨thread, known, rfl⟩

theorem applyBpfFilter_threads (bpfInput : Text) : (monitor.applyBpfFilter bpfInput).threads = monitor.threads ∨
    ∃ session thread filterExpression, monitor.control = some session ∧ monitor.threads[session]? = some thread ∧
      (monitor.applyBpfFilter bpfInput).threads = monitor.threads.set session { thread with
        commands := thread.commands ++ [.applyFilter filterExpression] } := by
  unfold Monitor.applyBpfFilter
  split
  · exact Or.inl rfl
  rename_i session held
  simp only
  split
  · exact Or.inl rfl
  split
  · rename_i sent accepted
    obtain ⟨thread, known, rfl⟩ := send_queues accepted
    exact Or.inr ⟨session, thread, _, held, known, rfl⟩
  · exact Or.inl rfl

theorem applyBpfFilter_unstopped (bpfInput : Text) :
    Threadwise Unstopped monitor.threads (monitor.applyBpfFilter bpfInput).threads := by
  rcases applyBpfFilter_threads bpfInput with same | ⟨session, thread, filterExpression, _, known, queued⟩
  · rw [same]
    exact .refl .refl _
  · rw [queued]
    refine .set .refl known ⟨⟨⟨rfl, rfl⟩, rfl⟩, fun stop => ?_⟩
    simpa using stop

theorem Attended.applyBpfFilter (before : monitor.Attended) (bpfInput : Text) :
    (monitor.applyBpfFilter bpfInput).Attended := by
  obtain ⟨⟨status, app⟩, control, _, statusRx⟩ := applyBpfFilter_same bpfInput
  refine before.same (before.consistent.applyBpfFilter bpfInput) control (by rw [app]) (applyBpfFilter_unstopped bpfInput) ?_
  intro session queued
  unfold StopQueued
  rw [statusRx]
  exact queued

theorem advance_flags {session : Nat} {thread : CaptureThread} (known : monitor.threads[session]? = some thread)
    (answer : Answer) :
    (monitor.advance session answer).app.runningFlags =
      if (thread.advance (monitor.isRunning thread) monitor.receiving answer).2.clearedRunning = true then
        monitor.app.runningFlags.set thread.flag false
      else monitor.app.runningFlags := by
  simp only [Monitor.advance, known]
  split
  · simp only [Monitor.storeRunning, advance_flag]
  · rfl

theorem advance_queued {session acting : Nat} {thread : CaptureThread} (known : monitor.threads[acting]? = some thread)
    (answer : Answer) (queued : monitor.StopQueued session) : (monitor.advance acting answer).StopQueued session := by
  obtain ⟨_, _, statusRx⟩ := advance_known known answer
  obtain ⟨message, member, about, stops⟩ := queued
  exact ⟨message, statusRx ▸ List.mem_append_left _ member, about, stops⟩

/-- The thread of the current session, when it acts itself. -/
theorem Served.acting {session : Nat} {thread : CaptureThread} (served : monitor.Served session thread)
    (held : monitor.control = some session) (known : monitor.threads[session]? = some thread) (answer : Answer)
    (delivers : monitor.Delivers (.advance session answer)) :
    (monitor.advance session answer).Served session
      (thread.advance (monitor.isRunning thread) monitor.receiving answer).1 := by
  refine ⟨advance_disconnected.trans served.connected, fun stop => served.unstopped (advance_commands stop), ?_, ?_⟩
  · intro unfailed inside
    have looping := served.running (fun failed => inside (advance_leaving (Or.inl failed)))
      (fun exited => inside (advance_leaving (Or.inr exited)))
    rw [isRunning, advance_flags known answer, advance_flag, if_neg fun cleared => unfailed (advance_cleared cleared)]
    exact looping
  · intro exited
    have still : thread.phase = .looping → monitor.isRunning thread = true := fun looping =>
      served.running (by simp [looping]) (by simp [looping])
    have delivering : ∀ delivery, thread.phase = .sending delivery → monitor.receiving = true :=
      fun delivery sending => delivers session thread answer delivery rfl held known sending
    rcases advance_exited served.connected served.unstopped still delivering exited with left | sent
    · exact advance_queued known answer (served.reported left)
    · obtain ⟨_, _, statusRx⟩ := advance_known known answer
      refine ⟨⟨captureStopped, session⟩, ?_, rfl, captureStopped_stops⟩
      rw [statusRx]
      exact List.mem_append_right _ (List.mem_map_of_mem (f := fun text => (⟨text, session⟩ : StatusMessage)) sent)

/-- The thread of the current session, when another one acts. -/
theorem Served.waiting {session acting : Nat} {thread later : CaptureThread} (served : monitor.Served session later)
    (consistent : monitor.Consistent) (held : monitor.control = some session) (other : acting ≠ session)
    (known : monitor.threads[acting]? = some thread) (answer : Answer) :
    (monitor.advance acting answer).Served session later := by
  refine ⟨served.connected, served.unstopped, ?_, fun exited => advance_queued known answer (served.reported exited)⟩
  intro unfailed inside
  have looping := served.running unfailed inside
  rw [isRunning, advance_flags known answer]
  split
  · -- the acting thread is told to stop already, so the flag that it clears is not this one
    have still := (consistent.others acting thread known (by rw [held]; simpa using Ne.symm other)).1
    have different : later.flag ≠ thread.flag := by
      intro same
      rw [isRunning, same] at looping
      rw [isRunning, looping] at still
      cases still
    rw [isRunning_set]
    simp only [different, ne_eq, not_false_eq_true, decide_true, Bool.and_true]
    exact looping
  · exact looping

theorem Attended.advance (before : monitor.Attended) (acting : Nat) (answer : Answer)
    (delivers : monitor.Delivers (.advance acting answer)) : (monitor.advance acting answer).Attended := by
  have consistent := before.consistent.advance acting answer
  cases known : monitor.threads[acting]? with
  | none =>
    rw [advance_unknown known]
    exact before
  | some thread =>
    obtain ⟨control, threads, _⟩ := advance_known known answer
    refine ⟨consistent, fun session later held found => ?_⟩
    rw [control] at held
    rw [threads, List.getElem?_set] at found
    split at found
    · rename_i same
      subst same
      rw [if_pos (List.getElem?_eq_some_iff.mp known).1] at found
      cases found
      exact (before.current acting thread held known).acting held known answer delivers
    · rename_i other
      exact (before.current session later held found).waiting before.consistent held other known answer

theorem advanceAll_control (steps : List (Nat × Answer)) : (monitor.advanceAll steps).control = monitor.control := by
  apply run_keeps _ (fun later => later.control = monitor.control) _ monitor steps rfl
  intro later action same
  cases known : later.threads[action.1]? with
  | none =>
    rw [advance_unknown known]
    exact same
  | some thread => exact (advance_known known action.2).1.trans same

theorem stopForInterfaceChange_control (consistent : monitor.Consistent) (selected : Nat) (steps : List (Nat × Answer)) :
    (monitor.stopForInterfaceChange selected steps).control = none := by
  have chosen : ({ monitor with app := { monitor.app with selectedIface := selected } } : Monitor).Consistent :=
    consistent.same rfl rfl rfl rfl (.refl .refl _)
  exact (advanceAll_control steps).trans (stopCapture_control chosen)

theorem Attended.step (before : monitor.Attended) (event : Event) (delivers : monitor.Delivers event) :
    (monitor.step event).Attended := by
  cases event with
  | startCapture launch => exact before.startCapture launch
  | stopCapture => exact before.stopCapture
  | restartCaptureForInterfaceChange selected steps launch =>
    have stopped : (monitor.stopForInterfaceChange selected steps).Attended :=
      .of_none (before.consistent.stopForInterfaceChange selected steps)
        (stopForInterfaceChange_control before.consistent selected steps)
    simp only [Monitor.step, restartCaptureForInterfaceChange]
    split
    · exact stopped.startCapture launch
    · exact stopped
  | applyBpfFilter bpfInput => exact before.applyBpfFilter bpfInput
  | receiveStatus => exact before.receiveStatus
  | advance session answer => exact before.advance session answer delivers
  | aggregatorExits => exact before.same (before.consistent.step .aggregatorExits) rfl rfl (.refl .refl _) fun _ => id

theorem Attended.exitReported (attended : monitor.Attended) : monitor.ExitReported := by
  intro session thread held known exited
  have queued := (attended.current session thread held known).reported exited
  exact ⟨queued, drained_stopped queued⟩

end Attended

/-! ### A message is about a thread that has exited -/

structure Truthful (monitor : Monitor) : Prop where
  attributed : monitor.Attributed
  exited : ∀ message ∈ monitor.statusRx, StopsCapture message.text → ∀ thread,
    monitor.threads[message.session]? = some thread → thread.phase = .exited

section Truthful
variable {monitor : Monitor}

theorem Truthful.same {other : Monitor} (before : monitor.Truthful) (statusRx : other.statusRx ⊆ monitor.statusRx)
    (threads : Threadwise SamePhase monitor.threads other.threads) : other.Truthful where
  attributed := before.attributed.same statusRx threads.length
  exited := by
    intro message queued stops thread found
    obtain ⟨earlier, known, phase⟩ := threads.thread message.session thread found
    rw [phase]
    exact before.exited message (statusRx queued) stops earlier known

theorem takeControl_phases : Threadwise SamePhase monitor.threads monitor.takeControl.threads where
  length := takeControl_length
  thread := by
    intro session thread found
    obtain ⟨earlier, known, rfl⟩ := takeControl_thread found
    exact ⟨earlier, known, rfl⟩

theorem noteStopped_threads (text : Text) : (monitor.noteStopped text).threads =
    if StopsCapture text then monitor.takeControl.threads else monitor.threads := by
  rcases monitor with ⟨app, control⟩
  unfold noteStopped
  split
  · cases control <;> rfl
  · rfl

theorem noteStopped_statusRx (text : Text) : (monitor.noteStopped text).statusRx = monitor.statusRx := by
  unfold noteStopped
  split
  · exact takeControl_statusRx
  · rfl

theorem Truthful.startCapture (before : monitor.Truthful) (launch : Launch) :
    (monitor.startCapture launch).Truthful := by
  refine ⟨before.attributed.startCapture launch, ?_⟩
  rcases started_cases launch monitor.app with nothing | ⟨_, path, status, failed | ⟨args, started⟩⟩
  · simp only [Monitor.startCapture, nothing]
    exact before.exited
  · simp only [Monitor.startCapture, failed]
    exact before.exited
  · intro message queued stops thread found
    simp only [Monitor.startCapture, started] at queued found
    rcases List.mem_append.mp queued with old | recording
    · have older := before.attributed message old
      rw [List.getElem?_append_left (by rw [takeControl_length]; exact older)] at found
      obtain ⟨earlier, known, phase⟩ := takeControl_phases.thread message.session thread found
      rw [phase]
      exact before.exited message old stops earlier known
    · obtain ⟨error, _, rfl⟩ := List.mem_map.mp recording
      exact absurd stops (recording_spares error)

theorem Truthful.stopCapture (before : monitor.Truthful) : monitor.stopCapture.Truthful := by
  unfold Monitor.stopCapture
  split
  · exact before
  · obtain ⟨_, _, threads, statusRx⟩ := (monitor.storeRunning monitor.captureRunning).requestStop_same
    have asked : (monitor.storeRunning monitor.captureRunning).requestStop.Truthful := by
      apply before.same
      · rw [statusRx]
        exact List.Subset.refl _
      · exact threads.weaken fun _ _ kept => kept.2
    apply asked.same
    · rw [takeControl_statusRx]
      exact List.Subset.refl _
    · exact takeControl_phases

theorem Truthful.receiveStatus (before : monitor.Truthful) : monitor.receiveStatus.Truthful := by
  unfold Monitor.receiveStatus
  split
  · exact before
  rename_i message rest queue
  obtain ⟨_, _, threads, statusRx⟩ := noteFilter_same { monitor with statusRx := rest } message.text
  have noted : ({ monitor with statusRx := rest }.noteFilter message.text).Truthful := by
    apply before.same
    · rw [statusRx, queue]
      exact List.subset_cons_self message rest
    · rw [threads]
      exact .refl SamePhase.refl _
  apply noted.same
  · simp only [setStatus, noteStopped_statusRx]
    exact List.Subset.refl _
  · simp only [setStatus, noteStopped_threads]
    split
    · exact takeControl_phases
    · exact .refl SamePhase.refl _

theorem Truthful.advance (before : monitor.Truthful) (acting : Nat) (answer : Answer) :
    (monitor.advance acting answer).Truthful := by
  refine ⟨before.attributed.advance acting answer, ?_⟩
  cases known : monitor.threads[acting]? with
  | none =>
    rw [advance_unknown known]
    exact before.exited
  | some thread =>
    obtain ⟨_, threads, statusRx⟩ := advance_known known answer
    intro message queued stops later found
    rw [threads, List.getElem?_set] at found
    rw [statusRx] at queued
    rcases List.mem_append.mp queued with old | new
    · split at found
      · rename_i same
        split at found
        · cases found
          exact advance_leaving (Or.inr (before.exited message old stops thread (same ▸ known)))
        · cases found
      · exact before.exited message old stops later found
    · obtain ⟨text, sent, rfl⟩ := List.mem_map.mp new
      rw [if_pos rfl, if_pos (List.getElem?_eq_some_iff.mp known).1] at found
      cases found
      rcases advance_status sent with ⟨_, failed⟩ | announcement
      · exact advance_leaving (Or.inl failed)
      · exact absurd stops (announcement_spares announcement)

theorem Truthful.step (before : monitor.Truthful) (event : Event) : (monitor.step event).Truthful := by
  cases event with
  | startCapture launch => exact before.startCapture launch
  | stopCapture => exact before.stopCapture
  | restartCaptureForInterfaceChange selected steps launch =>
    have chosen : ({ monitor with app := { monitor.app with selectedIface := selected } } : Monitor).Truthful :=
      before.same (List.Subset.refl _) (.refl SamePhase.refl _)
    have stopped : (monitor.stopForInterfaceChange selected steps).Truthful :=
      run_keeps _ Truthful (fun _ action before => before.advance action.1 action.2) _ steps chosen.stopCapture
    simp only [Monitor.step, restartCaptureForInterfaceChange]
    split
    · exact stopped.startCapture launch
    · exact stopped
  | applyBpfFilter bpfInput =>
    obtain ⟨_, _, threads, statusRx⟩ := applyBpfFilter_same bpfInput
    apply before.same
    · simp only [Monitor.step]
      rw [statusRx]
      exact List.Subset.refl _
    · exact threads.weaken fun _ _ kept => kept.2
  | receiveStatus => exact before.receiveStatus
  | advance session answer => exact before.advance session answer
  | aggregatorExits => exact before.same (List.Subset.refl _) (.refl SamePhase.refl _)

/-- A thread that finds nobody to receive its record leaves without a word. -/
theorem Truthful.undelivered (before : monitor.Truthful) (event : Event) (undelivered : ¬monitor.Delivers event) :
    ¬(monitor.step event).ExitReported := by
  intro reported
  simp only [Delivers, not_forall] at undelivered
  obtain ⟨session, thread, answer, delivery, rfl, held, known, sending, gone⟩ := undelivered
  have gone : monitor.receiving = false := by simpa using gone
  obtain ⟨control, threads, statusRx⟩ := advance_known known answer
  have left : thread.advance (monitor.isRunning thread) monitor.receiving answer =
      ({ thread with phase := .exited }, .ended []) := by
    simp only [CaptureThread.advance, sending, gone, Bool.false_eq_true, if_false]
  rw [left] at threads statusRx
  have exited : (monitor.advance session answer).threads[session]? = some { thread with phase := .exited } := by
    rw [threads, List.getElem?_set_self (List.getElem?_eq_some_iff.mp known).1]
  obtain ⟨⟨message, queued, about, stops⟩, _⟩ := reported session _ (control.trans held) exited rfl
  have old : message ∈ monitor.statusRx := by
    change message ∈ (monitor.advance session answer).statusRx at queued
    rw [statusRx] at queued
    simpa [CaptureTrace.ended] using queued
  have inside := before.exited message old stops thread (about ▸ known)
  rw [sending] at inside
  cases inside

end Truthful

/-- The thread of the current session never ends without a message in exactly the runs in which its sends, those that
wait for room in the channel included, are over before the aggregator has gone. -/
theorem exits_reported (devices : List Text) (events : List Event) :
    Meets Monitor.step (fun monitor event => (monitor.step event).ExitReported) (new devices) events ↔
      Meets Monitor.step Delivers (new devices) events := by
  have attended : (new devices).Attended := .of_none (new_consistent devices) rfl
  have truthful : (new devices).Truthful := ⟨by simp [Attributed, new], by simp [new]⟩
  apply meets_iff_of_invariant (fun monitor => monitor.Attended ∧ monitor.Truthful) ⟨attended, truthful⟩
  · intro monitor event before delivers
    exact ⟨before.1.step event delivers, before.2.step event⟩
  · intro monitor event before
    constructor
    · intro reported
      by_contra undelivered
      exact before.2.undelivered event undelivered reported
    · intro delivers
      exact (before.1.step event delivers).exitReported

def requestRead : Answer := ⟨fun _ => .ok (), .packet requestFrame 60 0⟩

/-- The aggregator goes between the read of a packet and the send of its record. -/
def closedChannel : List Event := capturing ++ [.advance 0 requestRead, .aggregatorExits, .advance 0 requestRead]

/-- The app goes on showing that it captures. -/
theorem closed_channel_unreported :
    (run Monitor.step twoDevices closedChannel).control = some 0 ∧
    (run Monitor.step twoDevices closedChannel).threads.map (·.phase) = [.exited] ∧
    (run Monitor.step twoDevices closedChannel).updateStatusFromChannel.app.isCapturing = true ∧
    ¬Meets Monitor.step (fun monitor event => (monitor.step event).ExitReported) twoDevices closedChannel := by
  refine ⟨by decide +kernel, by decide +kernel, by decide +kernel, fun reported => ?_⟩
  rw [closedChannel, meets_append] at reported
  obtain ⟨_, _, _, last, _⟩ := reported
  have silent : (run Monitor.step twoDevices closedChannel).statusRx = [] := by decide +kernel
  obtain ⟨⟨message, queued, _⟩, _⟩ := last 0 ⟨"eth0".toList, [], 1, .exited, [], false, none⟩ (by decide +kernel)
    (by decide +kernel) rfl
  rw [← run_nil Monitor.step (Monitor.step _ _), ← run_cons, ← run_cons, ← run_cons, ← run_append] at queued
  exact absurd (silent ▸ queued) (by simp)

end Monitor
end Netmon.Gui
