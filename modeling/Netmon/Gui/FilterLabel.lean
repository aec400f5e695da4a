import Netmon.Gui.SilentExit

/-! The filter label of the app follows the messages of every session, the filter itself
belongs to the capture handle of one. The label is right for a session that is started
while no label is shown and none is on its way. -/
namespace Netmon.Gui
open Library Capture
namespace Monitor

def filterApplied : Text := "Filter applied: ".toList

def AppliesFilter (text : Text) : Prop := filterApplied <+: text

instance (text : Text) : Decidable (AppliesFilter text) := inferInstanceAs (Decidable (_ <+: _))

/-- The expression in force on the current capture handle: the last one of its session that was accepted. -/
def inForce (monitor : Monitor) : Option Text :=
  monitor.control.bind fun session => monitor.threads[session]?.bind CaptureThread.filter

/-- All messages are drained, and all commands are handled where there is a thread to handle them. -/
structure Settled (monitor : Monitor) : Prop where
  drained : monitor.statusRx = []
  handled : ∀ thread ∈ monitor.threads, thread.phase = .exited ∨ thread.commands = []

def ShowsFilter (monitor : Monitor) : Prop := monitor.activeFilter = monitor.inForce.getD []

/-! ### No label, and none on its way -/

/-- A thread that is told to stop, and is not about to handle an expression, handles none. -/
def Muted (thread : CaptureThread) : Prop :=
  thread.phase = .handling → ∀ filterExpression, thread.commands.head? ≠ some (.applyFilter filterExpression)

instance (thread : CaptureThread) : Decidable (Muted thread) :=
  decidable_of_iff (thread.phase = .handling → ∀ command ∈ thread.commands.head?, command = .stop) (by
    apply imp_congr_right
    intro _
    cases thread.commands.head? with
    | none => simp
    | some command => cases command <;> simp)

structure Unlabelled (monitor : Monitor) : Prop where
  label : monitor.activeFilter = []
  channel : ∀ message ∈ monitor.statusRx, ¬AppliesFilter message.text
  threads : ∀ thread ∈ monitor.threads, Muted thread

instance (monitor : Monitor) : Decidable monitor.Unlabelled :=
  decidable_of_iff (monitor.activeFilter = [] ∧ (∀ message ∈ monitor.statusRx, ¬AppliesFilter message.text) ∧
    ∀ thread ∈ monitor.threads, Muted thread)
    ⟨fun ⟨label, channel, threads⟩ => ⟨label, channel, threads⟩, fun ⟨label, channel, threads⟩ => ⟨label, channel, threads⟩⟩

/-- A thread is spawned only when there is no label and none is on its way. -/
def StartsUnlabelled (monitor : Monitor) : Event → Prop
  | .startCapture launch => launch.Spawns monitor.app → monitor.Unlabelled
  | .restartCaptureForInterfaceChange selected steps launch => monitor.app.isCapturing = true →
    launch.Spawns (monitor.stopForInterfaceChange selected steps).app →
      (monitor.stopForInterfaceChange selected steps).Unlabelled
  | _ => True

/-- A session ends only when there is no label and none is on its way. -/
def EndsUnlabelled (monitor : Monitor) : Event → Prop
  | .stopCapture | .restartCaptureForInterfaceChange .. => monitor.app.isCapturing = true → monitor.Unlabelled
  | .receiveStatus => monitor.app.isCapturing = true → ∀ message ∈ monitor.statusRx.head?,
    StopsCapture message.text → monitor.Unlabelled
  | _ => True

/-! ### Messages and the label -/

def labelAfter (label : Text) (message : StatusMessage) : Text :=
  (message.text.dropPrefix? filterApplied).getD label

/-- The label when the messages are drained. -/
def labelDrained (label : Text) (messages : List StatusMessage) : Text := messages.foldl labelAfter label

theorem noteFilter_activeFilter (monitor : Monitor) (message : StatusMessage) :
    (monitor.noteFilter message.text).activeFilter = labelAfter monitor.activeFilter message := by
  unfold noteFilter labelAfter filterApplied
  split
  · rename_i applied found
    rw [found, Option.getD_some]
  · rename_i found
    rw [found, Option.getD_none]

theorem labelAfter_applied (label filterExpression : Text) (session : Nat) :
    labelAfter label ⟨filterApplied ++ filterExpression, session⟩ = filterExpression := by
  rw [labelAfter, List.dropPrefix?_append_of_beq filterExpression (beq_self_eq_true filterApplied), Option.getD_some]

theorem labelAfter_other {message : StatusMessage} (other : ¬AppliesFilter message.text) (label : Text) :
    labelAfter label message = label := by
  rw [labelAfter]
  cases found : message.text.dropPrefix? filterApplied with
  | none => rfl
  | some applied =>
    obtain ⟨front, split, same⟩ := List.dropPrefix?_eq_some_iff.mp found
    rw [beq_iff_eq] at same
    exact absurd ⟨applied, by rw [split, same]⟩ other

theorem labelDrained_others {messages : List StatusMessage} (others : ∀ message ∈ messages, ¬AppliesFilter message.text)
    (label : Text) : labelDrained label messages = label := by
  induction messages with
  | nil => rfl
  | cons message messages ih =>
    rw [labelDrained, List.foldl_cons, labelAfter_other (others message (by simp))]
    exact ih fun later member => others later (List.mem_cons_of_mem message member)

theorem not_applies_of_head {text : Text} {c : Char} (head : text[0]? = some c) (other : c ≠ 'F') :
    ¬AppliesFilter text := by
  intro applies
  have first := prefix_get applies (i := 0) (c := 'F') rfl
  rw [head] at first
  exact other (Option.some.inj first)

theorem stop_is_no_filter {text : Text} (stops : StopsCapture text) : ¬AppliesFilter text :=
  not_applies_of_head (prefix_get stops (i := 0) (c := 'C') (by simp)) (by decide)

theorem capturing_is_no_filter (interface : Text) : ¬AppliesFilter (capturingOn interface) := by
  have inside : 0 < "Capturing on ".toList.length := by decide
  have head : (capturingOn interface)[0]? = some 'C' := by
    unfold capturingOn
    rw [List.getElem?_append_left inside]
    simp
  exact not_applies_of_head head (by decide)

theorem rejected_is_no_filter (error : Text) : ¬AppliesFilter ("BPF error: ".toList ++ error) :=
  not_applies_of_head (c := 'B') (by simp) (by decide)

theorem recording_is_no_filter (error : Text) : ¬AppliesFilter ("PCAP recording disabled: ".toList ++ error) :=
  not_applies_of_head (c := 'P') (by simp) (by decide)

/-! ### What a thread does to its filter -/

section Thread
variable (running receiving : Bool) (answer : Answer) (thread : CaptureThread)

/-- A thread that installs a filter says so, and says it only then. -/
theorem advance_filter :
    ((thread.advance running receiving answer).1.filter = thread.filter ∧
      ∀ status ∈ (thread.advance running receiving answer).2.statuses, ¬AppliesFilter status) ∨
    ∃ filterExpression, (thread.advance running receiving answer).1.filter = some filterExpression ∧
      (thread.advance running receiving answer).2.statuses = [filterApplied ++ filterExpression] ∧
      thread.phase = .handling ∧ thread.commands.head? = some (.applyFilter filterExpression) := by
  unfold CaptureThread.advance
  cases phase : thread.phase with
  | spawned =>
    refine Or.inl ⟨rfl, fun status sent => ?_⟩
    simp only [CaptureTrace.ended, List.mem_singleton] at sent
    rw [sent]
    exact capturing_is_no_filter thread.interface
  | handling =>
    cases queue : thread.commands with
    | nil => exact Or.inl ⟨rfl, by simp [CaptureTrace.ended]⟩
    | cons command rest =>
      cases command with
      | stop => exact Or.inl ⟨rfl, by simp [CaptureTrace.ended, handlePendingCommands]⟩
      | applyFilter filterExpression =>
        cases accepted : answer.filter filterExpression with
        | ok =>
          refine Or.inr ⟨filterExpression, by simp [CaptureCommand.install, accepted, Except.isOk, Except.toBool], ?_, rfl, rfl⟩
          simp only [handlePendingCommands, accepted, CaptureTrace.ended]
          rfl
        | error error =>
          refine Or.inl ⟨by simp [CaptureCommand.install, accepted, Except.isOk, Except.toBool], fun status sent => ?_⟩
          simp only [handlePendingCommands, accepted, CaptureTrace.ended, List.mem_singleton] at sent
          rw [sent]
          exact rejected_is_no_filter error
  | reading =>
    refine Or.inl ?_
    simp only
    cases answer.read with
    | timeoutExpired | error => exact ⟨rfl, by simp [CaptureTrace.ended]⟩
    | packet data len now =>
      simp only
      repeat' split
      all_goals exact ⟨rfl, by simp [CaptureTrace.ended]⟩
  | sending delivery => cases receiving <;> exact Or.inl ⟨rfl, by simp [CaptureTrace.ended]⟩
  | failed =>
    refine Or.inl ⟨rfl, fun status sent => ?_⟩
    simp only [CaptureTrace.ended, List.mem_singleton] at sent
    rw [sent]
    exact stop_is_no_filter captureStopped_stops
  | looping | exited => exact Or.inl ⟨rfl, by simp [CaptureTrace.ended]⟩

variable {running receiving answer thread}

theorem advance_muted (muted : Muted thread) (still : running = false) (disconnected : thread.disconnected = true) :
    Muted (thread.advance running receiving answer).1 := by
  unfold CaptureThread.advance
  cases phase : thread.phase with
  | handling =>
    cases queue : thread.commands with
    | nil => simp [Muted, disconnected]
    | cons command rest =>
      cases command with
      | stop => simp [Muted, handlePendingCommands]
      | applyFilter filterExpression => exact absurd (by rw [queue]; rfl) (muted phase filterExpression)
  | looping => simp [Muted, still]
  | reading =>
    simp only
    cases answer.read with
    | timeoutExpired | error => simp [Muted]
    | packet data len now =>
      simp only
      repeat' split
      all_goals simp [Muted]
  | sending delivery => cases receiving <;> simp [Muted]
  | spawned | failed | exited => simp [Muted, phase]

theorem muted_silent (muted : Muted thread) :
    ∀ status ∈ (thread.advance running receiving answer).2.statuses, ¬AppliesFilter status := by
  rcases advance_filter running receiving answer thread with ⟨_, silent⟩ | ⟨filterExpression, _, _, handling, head⟩
  · exact silent
  · exact absurd head (muted handling filterExpression)

end Thread

/-! ### The label of the current session -/

/-- Once the messages are drained, the label is the filter of the current session, and no other session has one to announce. -/
structure Tracking (monitor : Monitor) : Prop where
  consistent : monitor.Consistent
  label : ∀ session thread, monitor.control = some session → monitor.threads[session]? = some thread →
    labelDrained monitor.activeFilter monitor.statusRx = thread.filter.getD []
  others : ∀ session other thread, monitor.control = some session → other ≠ session →
    monitor.threads[other]? = some thread → Muted thread

section Tracking
variable {monitor : Monitor}

theorem Tracking.of_none (consistent : monitor.Consistent) (none : monitor.control = none) : monitor.Tracking where
  consistent := consistent
  label := by simp [none]
  others := by simp [none]

theorem Tracking.shows (tracking : monitor.Tracking) (drained : monitor.statusRx = []) {session : Nat}
    (held : monitor.control = some session) : monitor.ShowsFilter := by
  have bound : session < monitor.threads.length := by
    have last := (tracking.consistent.newest session held).1
    omega
  have label := tracking.label session monitor.threads[session] held (List.getElem?_eq_getElem bound)
  rw [drained] at label
  unfold ShowsFilter inForce
  rw [held, Option.bind_some, List.getElem?_eq_getElem bound, Option.bind_some]
  exact label

theorem Tracking.same {other : Monitor} (before : monitor.Tracking) (consistent : other.Consistent)
    (control : other.control = monitor.control)
    (label : labelDrained other.activeFilter other.statusRx = labelDrained monitor.activeFilter monitor.statusRx)
    (filters : ∀ session, monitor.control = some session → ∀ thread, other.threads[session]? = some thread →
      ∃ earlier, monitor.threads[session]? = some earlier ∧ thread.filter = earlier.filter)
    (muted : ∀ session, monitor.control = some session → ∀ acting ≠ session, ∀ thread,
      other.threads[acting]? = some thread → Muted thread) : other.Tracking where
  consistent := consistent
  label := by
    intro session thread held found
    rw [control] at held
    obtain ⟨earlier, known, filter⟩ := filters session held thread found
    rw [label, filter]
    exact before.label session earlier held known
  others := by
    intro session acting thread held different found
    rw [control] at held
    exact muted session held acting different thread found

theorem Tracking.startCapture (before : monitor.Tracking) (launch : Launch)
    (unlabelled : launch.Spawns monitor.app → monitor.Unlabelled) : (monitor.startCapture launch).Tracking := by
  have consistent := before.consistent.startCapture launch
  rcases started_cases launch monitor.app with nothing | ⟨idle, path, status, failed | ⟨args, started⟩⟩
  · rw [startCapture_nothing nothing]
    exact before
  · apply Tracking.of_none consistent
    simp only [Monitor.startCapture, failed]
    exact before.consistent.control_none idle
  · have none := before.consistent.control_none idle
    have bare := unlabelled ((spawns_iff launch monitor.app).mpr (by rw [started]; rfl))
    refine ⟨consistent, fun session thread held found => ?_, fun session other thread held different found => ?_⟩
    · simp only [Monitor.startCapture, started, takeControl_eq none] at held found ⊢
      cases held
      rw [List.getElem?_concat_length] at found
      cases found
      rw [labelDrained_others, bare.label]
      · rfl
      · intro message queued
        rcases List.mem_append.mp queued with old | recording
        · exact bare.channel message old
        · obtain ⟨error, _, rfl⟩ := List.mem_map.mp recording
          exact recording_is_no_filter error
    · simp only [Monitor.startCapture, started, takeControl_eq none] at held found
      cases held
      have older : other < monitor.threads.length := by
        have bound := (List.getElem?_eq_some_iff.mp found).1
        simp only [List.length_append, List.length_singleton] at bound
        omega
      rw [List.getElem?_append_left older] at found
      exact bare.threads thread (List.mem_of_getElem? found)

theorem receiveStatus_label {message : StatusMessage} {rest : List StatusMessage} (queue : monitor.statusRx = message :: rest) :
    monitor.receiveStatus.activeFilter = labelAfter monitor.activeFilter message := by
  have noted := noteFilter_activeFilter { monitor with statusRx := rest } message
  simp only [Monitor.receiveStatus, queue, setStatus]
  rw [← noted]
  generalize ({ monitor with statusRx := rest } : Monitor).noteFilter message.text = other
  rcases other with ⟨app, control⟩
  unfold noteStopped
  split
  · cases control <;> rfl
  · rfl

theorem Tracking.receiveStatus (before : monitor.Tracking) : monitor.receiveStatus.Tracking := by
  have consistent := before.consistent.receiveStatus
  cases queue : monitor.statusRx with
  | nil =>
    rw [receiveStatus_empty queue]
    exact before
  | cons message rest =>
    by_cases stops : StopsCapture message.text
    · exact .of_none consistent (receiveStatus_stop queue stops)
    · obtain ⟨control, threads, statusRx⟩ := receiveStatus_other queue stops
      apply before.same consistent control
      · rw [statusRx, receiveStatus_label queue, queue]
        rfl
      · rw [threads]
        exact fun session _ thread found => ⟨thread, found, rfl⟩
      · rw [threads]
        exact fun session held acting different thread found => before.others session acting thread held different found

theorem Tracking.stopCapture (before : monitor.Tracking) : monitor.stopCapture.Tracking :=
  .of_none before.consistent.stopCapture (stopCapture_control before.consistent)

theorem advance_label {session : Nat} (answer : Answer) :
    (monitor.advance session answer).activeFilter = monitor.activeFilter := by
  unfold Monitor.advance
  split
  · rfl
  · simp only
    split <;> rfl

theorem Tracking.advance (before : monitor.Tracking) (acting : Nat) (answer : Answer) :
    (monitor.advance acting answer).Tracking := by
  have consistent := before.consistent.advance acting answer
  cases known : monitor.threads[acting]? with
  | none =>
    rw [advance_unknown known]
    exact before
  | some thread =>
    obtain ⟨control, threads, statusRx⟩ := advance_known known answer
    have inside := (List.getElem?_eq_some_iff.mp known).1
    refine ⟨consistent, fun session later held found => ?_, fun session other later held different found => ?_⟩
    · rw [control] at held
      rw [advance_label, statusRx, labelDrained, List.foldl_append]
      by_cases same : acting = session
      · subst same
        rw [threads, List.getElem?_set_self inside] at found
        cases found
        have label := before.label acting thread held known
        rcases advance_filter (monitor.isRunning thread) monitor.receiving answer thread with
          ⟨filter, silent⟩ | ⟨filterExpression, filter, sent, _⟩
        · rw [filter, ← label]
          apply labelDrained_others
          intro message member
          obtain ⟨status, told, rfl⟩ := List.mem_map.mp member
          exact silent status told
        · rw [filter, sent]
          exact labelAfter_applied _ filterExpression acting
      · rw [threads, List.getElem?_set_ne same] at found
        rw [← before.label session later held found]
        apply labelDrained_others
        intro message member
        obtain ⟨status, told, rfl⟩ := List.mem_map.mp member
        exact muted_silent (before.others session acting thread held same known) status told
    · rw [control] at held
      rw [threads, List.getElem?_set] at found
      split at found
      · rename_i same
        subst same
        cases found
        have told := before.consistent.others acting thread known (by rw [held]; simpa using Ne.symm different)
        exact advance_muted (before.others session acting thread held different known) told.1 told.2
      · exact before.others session other later held different found

theorem applyBpfFilter_label (bpfInput : Text) :
    (monitor.applyBpfFilter bpfInput).activeFilter = monitor.activeFilter := by
  unfold Monitor.applyBpfFilter
  split
  · rfl
  simp only
  split
  · rfl
  split
  · rename_i sent accepted
    obtain ⟨thread, _, rfl⟩ := send_queues accepted
    rfl
  · rfl

theorem Tracking.applyBpfFilter (before : monitor.Tracking) (bpfInput : Text) :
    (monitor.applyBpfFilter bpfInput).Tracking := by
  obtain ⟨_, control, _, statusRx⟩ := applyBpfFilter_same bpfInput
  apply before.same (before.consistent.applyBpfFilter bpfInput) control
  · rw [statusRx, applyBpfFilter_label]
  · intro session held thread found
    rcases applyBpfFilter_threads bpfInput with same | ⟨sent, earlier, filterExpression, _, known, queued⟩
    · exact ⟨thread, same ▸ found, rfl⟩
    · rw [queued, List.getElem?_set] at found
      split at found
      · rename_i equal
        subst equal
        rw [if_pos (List.getElem?_eq_some_iff.mp known).1] at found
        cases found
        exact ⟨earlier, known, rfl⟩
      · exact ⟨thread, found, rfl⟩
  · intro session held acting different thread found
    rcases applyBpfFilter_threads bpfInput with same | ⟨sent, earlier, filterExpression, current, known, queued⟩
    · exact before.others session acting thread held different (same ▸ found)
    · have other : sent ≠ acting := by
        rw [held] at current
        cases current
        exact Ne.symm different
      rw [queued, List.getElem?_set_ne other] at found
      exact before.others session acting thread held different found

theorem Tracking.step (before : monitor.Tracking) (event : Event) (unlabelled : monitor.StartsUnlabelled event) :
    (monitor.step event).Tracking := by
  cases event with
  | startCapture launch => exact before.startCapture launch unlabelled
  | stopCapture => exact before.stopCapture
  | restartCaptureForInterfaceChange selected steps launch =>
    have stopped : (monitor.stopForInterfaceChange selected steps).Tracking :=
      .of_none (before.consistent.stopForInterfaceChange selected steps)
        (stopForInterfaceChange_control before.consistent selected steps)
    simp only [Monitor.step, restartCaptureForInterfaceChange]
    split
    · rename_i wasRunning
      exact stopped.startCapture launch (unlabelled wasRunning)
    · exact stopped
  | applyBpfFilter bpfInput => exact before.applyBpfFilter bpfInput
  | receiveStatus => exact before.receiveStatus
  | advance session answer => exact before.advance session answer
  | aggregatorExits =>
    exact ⟨before.consistent.step .aggregatorExits, before.label, before.others⟩

end Tracking

/-! ### While there is no session -/

def KeepsMuted (thread later : CaptureThread) : Prop := Muted thread → Muted later

theorem KeepsMuted.refl (thread : CaptureThread) : KeepsMuted thread thread := id

section Unlabelled
variable {monitor : Monitor}

theorem Unlabelled.same {other : Monitor} (before : monitor.Unlabelled) (label : other.activeFilter = monitor.activeFilter)
    (statusRx : other.statusRx ⊆ monitor.statusRx) (threads : Threadwise KeepsMuted monitor.threads other.threads) :
    other.Unlabelled where
  label := label.trans before.label
  channel := fun message queued => before.channel message (statusRx queued)
  threads := by
    intro thread member
    obtain ⟨session, found⟩ := List.mem_iff_getElem?.mp member
    obtain ⟨earlier, known, keeps⟩ := threads.thread session thread found
    exact keeps (before.threads earlier (List.mem_of_getElem? known))

theorem takeControl_muted : Threadwise KeepsMuted monitor.threads monitor.takeControl.threads where
  length := takeControl_length
  thread := by
    intro session thread found
    obtain ⟨earlier, known, rfl⟩ := takeControl_thread found
    exact ⟨earlier, known, id⟩

theorem takeControl_label : monitor.takeControl.activeFilter = monitor.activeFilter := by
  unfold takeControl
  split <;> rfl

theorem requestStop_muted : Threadwise KeepsMuted monitor.threads monitor.requestStop.threads ∧
    monitor.requestStop.activeFilter = monitor.activeFilter := by
  unfold requestStop
  split
  · exact ⟨.refl .refl _, rfl⟩
  rename_i session _
  cases accepted : monitor.send .stop session with
  | none => exact ⟨.refl .refl _, rfl⟩
  | some sent =>
    obtain ⟨thread, known, rfl⟩ := send_queues accepted
    refine ⟨.set .refl known fun muted handling filterExpression head => ?_, rfl⟩
    cases queue : thread.commands with
    | nil => simp [queue] at head
    | cons command rest =>
      rw [queue, List.cons_append] at head
      exact muted handling filterExpression (by rw [queue]; exact head)

theorem Unlabelled.stopCapture (before : monitor.Unlabelled) : monitor.stopCapture.Unlabelled := by
  unfold Monitor.stopCapture
  split
  · exact before
  · obtain ⟨threads, label⟩ := (monitor.storeRunning monitor.captureRunning).requestStop_muted
    obtain ⟨_, _, _, statusRx⟩ := (monitor.storeRunning monitor.captureRunning).requestStop_same
    have asked : (monitor.storeRunning monitor.captureRunning).requestStop.Unlabelled := by
      refine before.same label ?_ threads
      rw [statusRx]
      exact List.Subset.refl _
    refine asked.same takeControl_label ?_ takeControl_muted
    rw [takeControl_statusRx]
    exact List.Subset.refl _

theorem Unlabelled.receiveStatus (before : monitor.Unlabelled) : monitor.receiveStatus.Unlabelled := by
  cases queue : monitor.statusRx with
  | nil =>
    rw [receiveStatus_empty queue]
    exact before
  | cons message rest =>
    obtain ⟨_, _, threads, statusRx⟩ := noteFilter_same { monitor with statusRx := rest } message.text
    have quiet := before.channel message (queue ▸ List.mem_cons_self)
    apply before.same
    · rw [receiveStatus_label queue, labelAfter_other quiet]
    · simp only [Monitor.receiveStatus, queue, setStatus, noteStopped_statusRx, statusRx]
      exact List.subset_cons_self message rest
    · simp only [Monitor.receiveStatus, queue, setStatus, noteStopped_threads]
      generalize ({ monitor with statusRx := rest } : Monitor).noteFilter message.text = noted at threads ⊢
      change noted.threads = monitor.threads at threads
      rw [← threads]
      split
      · exact takeControl_muted
      · exact .refl .refl _

theorem Unlabelled.advance (before : monitor.Unlabelled) (consistent : monitor.Consistent) (none : monitor.control = none)
    (acting : Nat) (answer : Answer) : (monitor.advance acting answer).Unlabelled := by
  cases known : monitor.threads[acting]? with
  | none =>
    rw [advance_unknown known]
    exact before
  | some thread =>
    obtain ⟨_, threads, statusRx⟩ := advance_known known answer
    have muted := before.threads thread (List.mem_of_getElem? known)
    have told := consistent.others acting thread known (by simp [none])
    refine ⟨(advance_label answer).trans before.label, ?_, ?_⟩
    · rw [statusRx]
      intro message queued
      rcases List.mem_append.mp queued with old | new
      · exact before.channel message old
      · obtain ⟨status, sent, rfl⟩ := List.mem_map.mp new
        exact muted_silent muted status sent
    · rw [threads]
      intro later member
      rcases List.mem_or_eq_of_mem_set member with old | rfl
      · exact before.threads later old
      · exact advance_muted muted told.1 told.2

/-- While there is no session, threads that are not joined yet put no label back. -/
theorem Unlabelled.advanceAll (before : monitor.Unlabelled) (consistent : monitor.Consistent)
    (none : monitor.control = none) (steps : List (Nat × Answer)) : (monitor.advanceAll steps).Unlabelled := by
  have kept : (monitor.advanceAll steps).Unlabelled ∧ (monitor.advanceAll steps).Consistent ∧
      (monitor.advanceAll steps).control = Option.none := by
    apply run_keeps _ (fun later => later.Unlabelled ∧ later.Consistent ∧ later.control = Option.none) _ monitor steps
      ⟨before, consistent, none⟩
    rintro later action ⟨unlabelled, consistent, idle⟩
    exact ⟨unlabelled.advance consistent idle action.1 action.2, consistent.advance action.1 action.2,
      (advanceAll_control [action]).trans idle⟩
  exact kept.1

end Unlabelled

/-! ### Runs -/

/-- With a session its filter is tracked, without one there is no label. -/
structure Cleared (monitor : Monitor) : Prop where
  tracking : monitor.Tracking
  idle : monitor.control = none → monitor.Unlabelled

section Cleared
variable {monitor : Monitor}

theorem Cleared.shows (cleared : monitor.Cleared) (drained : monitor.statusRx = []) : monitor.ShowsFilter := by
  cases held : monitor.control with
  | some session => exact cleared.tracking.shows drained held
  | none =>
    unfold ShowsFilter inForce
    rw [held]
    exact (cleared.idle held).label

theorem Cleared.startCapture (before : monitor.Cleared) (launch : Launch) : (monitor.startCapture launch).Cleared where
  tracking := before.tracking.startCapture launch fun spawns =>
    before.idle (before.tracking.consistent.control_none spawns.1)
  idle := by
    intro none
    rcases started_cases launch monitor.app with nothing | ⟨idle, path, status, failed | ⟨args, started⟩⟩
    · simp only [Monitor.startCapture, nothing] at none ⊢
      exact before.idle none
    · simp only [Monitor.startCapture, failed] at none ⊢
      exact (before.idle none).same rfl (List.Subset.refl _) (.refl .refl _)
    · simp only [Monitor.startCapture, started] at none
      cases none

theorem Cleared.stopCapture (before : monitor.Cleared)
    (unlabelled : monitor.app.isCapturing = true → monitor.Unlabelled) : monitor.stopCapture.Cleared where
  tracking := before.tracking.stopCapture
  idle := by
    intro _
    cases capturing : monitor.app.isCapturing with
    | true => exact (unlabelled capturing).stopCapture
    | false => exact (before.idle (before.tracking.consistent.control_none capturing)).stopCapture

theorem Cleared.stopForInterfaceChange (before : monitor.Cleared)
    (unlabelled : monitor.app.isCapturing = true → monitor.Unlabelled) (selected : Nat) (steps : List (Nat × Answer)) :
    (monitor.stopForInterfaceChange selected steps).Cleared := by
  have chosen : ({ monitor with app := { monitor.app with selectedIface := selected } } : Monitor).Cleared :=
    ⟨⟨before.tracking.consistent.same rfl rfl rfl rfl (.refl .refl _), before.tracking.label, before.tracking.others⟩,
      fun none => (before.idle none).same rfl (List.Subset.refl _) (.refl .refl _)⟩
  have stopped := chosen.stopCapture fun capturing =>
    (unlabelled capturing).same rfl (List.Subset.refl _) (.refl .refl _)
  have none := stopCapture_control chosen.tracking.consistent
  have control := (advanceAll_control steps).trans none
  exact ⟨.of_none (before.tracking.consistent.stopForInterfaceChange selected steps) control,
    fun _ => (stopped.idle none).advanceAll stopped.tracking.consistent none steps⟩

theorem Cleared.receiveStatus (before : monitor.Cleared) (unlabelled : monitor.EndsUnlabelled .receiveStatus) :
    monitor.receiveStatus.Cleared where
  tracking := before.tracking.receiveStatus
  idle := by
    intro after
    cases held : monitor.control with
    | none => exact (before.idle held).receiveStatus
    | some session =>
      cases queue : monitor.statusRx with
      | nil =>
        simp only [Monitor.receiveStatus, queue, held] at after
        cases after
      | cons message rest =>
        have capturing := before.tracking.consistent.capturing
        rw [held] at capturing
        by_cases stops : StopsCapture message.text
        · exact (unlabelled capturing message (by rw [queue]; rfl) stops).receiveStatus
        · rw [(receiveStatus_other queue stops).1, held] at after
          cases after

theorem Cleared.step (before : monitor.Cleared) (event : Event) (unlabelled : monitor.EndsUnlabelled event) :
    (monitor.step event).Cleared := by
  cases event with
  | startCapture launch => exact before.startCapture launch
  | stopCapture => exact before.stopCapture unlabelled
  | restartCaptureForInterfaceChange selected steps launch =>
    simp only [Monitor.step, restartCaptureForInterfaceChange]
    split
    · exact (before.stopForInterfaceChange unlabelled selected steps).startCapture launch
    · exact before.stopForInterfaceChange unlabelled selected steps
  | applyBpfFilter bpfInput =>
    refine ⟨before.tracking.applyBpfFilter bpfInput, fun none => ?_⟩
    obtain ⟨_, control, _, statusRx⟩ := applyBpfFilter_same bpfInput
    have idle := before.idle (control.symm.trans none)
    refine idle.same (applyBpfFilter_label bpfInput) ?_ ?_
    · simp only [Monitor.step]
      rw [statusRx]
      exact List.Subset.refl _
    · simp only [Monitor.step]
      rcases applyBpfFilter_threads bpfInput with same | ⟨session, _, _, held, _⟩
      · rw [same]
        exact .refl .refl _
      · rw [← control] at held
        rw [Monitor.step, held] at none
        cases none
  | receiveStatus => exact before.receiveStatus unlabelled
  | advance session answer =>
    refine ⟨before.tracking.advance session answer, fun none => ?_⟩
    have control := (advanceAll_control [(session, answer)]).symm.trans none
    exact (before.idle control).advance before.tracking.consistent control session answer
  | aggregatorExits =>
    exact ⟨before.tracking.step .aggregatorExits trivial,
      fun none => (before.idle none).same rfl (List.Subset.refl _) (.refl .refl _)⟩

end Cleared

/-- In a run that starts a session only while no label is shown or on its way, the label of every session is the filter
in force. When sessions also end only so, there is never a label without a filter in force. -/
theorem label_in_force (devices : List Text) (events : List Event) :
    (Meets Monitor.step StartsUnlabelled (new devices) events →
      Meets Monitor.step (fun monitor event => (monitor.step event).Settled → (monitor.step event).control.isSome = true →
        (monitor.step event).ShowsFilter) (new devices) events) ∧
    (Meets Monitor.step EndsUnlabelled (new devices) events →
      Meets Monitor.step (fun monitor event => (monitor.step event).Settled → (monitor.step event).ShowsFilter)
        (new devices) events) := by
  have tracking : (new devices).Tracking := .of_none (new_consistent devices) rfl
  have unlabelled : (new devices).Unlabelled := ⟨rfl, by simp [new], by simp [new]⟩
  constructor
  · intro starts
    refine starts.of_invariant tracking (fun _ event before starts => before.step event starts) ?_
    intro monitor event before starts settled current
    obtain ⟨session, held⟩ := Option.isSome_iff_exists.mp current
    exact (before.step event starts).shows settled.drained held
  · intro ends
    have cleared : (new devices).Cleared := ⟨tracking, fun _ => unlabelled⟩
    refine ends.of_invariant cleared (fun _ event before ends => before.step event ends) ?_
    intro monitor event before ends settled
    exact (before.step event ends).shows settled.drained

/-! ### A filter of the session before -/

/-- The first session is stopped without a filter, the second accepts one. -/
def restartedThenFiltered : List Event :=
  [.startCapture accepted, .advance 0 silence, .receiveStatus, .stopCapture, .startCapture accepted, .advance 1 silence,
    .advance 1 silence, .applyBpfFilter "tcp".toList, .advance 1 silence, .receiveStatus, .receiveStatus]

theorem label_in_force_restarted :
    Meets Monitor.step (fun monitor event => (monitor.step event).Settled → (monitor.step event).ShowsFilter) twoDevices
      restartedThenFiltered :=
  (label_in_force _ _).2 ⟨trivial, trivial, fun _ => by decide +kernel, fun _ => by decide +kernel, trivial, trivial, trivial,
    trivial, trivial, fun _ => by decide +kernel, fun _ => by decide +kernel, trivial⟩

/-- The first session accepts a filter and is stopped, then the second is started. -/
def filteredThenRestarted : List Event :=
  [.startCapture accepted, .advance 0 silence, .advance 0 silence, .applyBpfFilter "tcp".toList, .advance 0 silence,
    .receiveStatus, .receiveStatus, .stopCapture, .advance 0 silence, .startCapture accepted]

/-- The label is the filter of a session that has ended, and the current session has accepted none. -/
theorem label_outlives_session :
    (run Monitor.step twoDevices filteredThenRestarted).Settled ∧
    (run Monitor.step twoDevices filteredThenRestarted).control = some 1 ∧
    (run Monitor.step twoDevices filteredThenRestarted).activeFilter = "tcp".toList ∧
    (run Monitor.step twoDevices filteredThenRestarted).inForce = none ∧
    ¬(run Monitor.step twoDevices filteredThenRestarted).ShowsFilter := by
  refine ⟨⟨by decide +kernel, by decide +kernel⟩, by decide +kernel, by decide +kernel, by decide +kernel, ?_⟩
  unfold ShowsFilter
  decide +kernel

end Monitor
end Netmon.Gui
