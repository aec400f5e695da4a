import Netmon.Gui.PipelineLedger
import Netmon.Library.Progress
import Mathlib.Algebra.BigOperators.Group.Finset.Basic
import Mathlib.Algebra.Order.BigOperators.Group.Finset

/-! Dropping the app ends every thread: from any state that a run can reach, whatever the
network then brings and whatever the order of the turns, nobody waits for ever. -/
namespace Netmon.Gui
open Library Capture Aggregator
namespace Pipeline

/-- Turns that a capture thread has left once its flag is cleared. A record that it sends costs the aggregator a turn. -/
def threadLeft (thread : CaptureThread) : Nat :=
  match thread.phase with
  | .exited => 0
  | .failed | .looping => 1
  | .spawned => 2
  | .sending _ => 3
  | .reading => 4
  | .handling => 5 + thread.commands.length

def sessionLeft (pipeline : Pipeline) (session : Nat) : Nat := (pipeline.monitor.threads[session]?.map threadLeft).getD 0

def aggregatorLeft (phase : AggregatorPhase) (queued : Nat) : Nat :=
  match phase with
  | .exited => 0
  | .looping => queued + 1
  | .spawned | .publishing => queued + 2
  | .maintaining => queued + 3
  | .draining => queued + 4

def workLeft (pipeline : Pipeline) : Nat :=
  aggregatorLeft pipeline.aggregator.phase pipeline.flow.queue.length +
    ∑ session ∈ Finset.range pipeline.monitor.threads.length, pipeline.sessionLeft session

/-- Who can go on: the aggregator as long as it runs, and then every thread that has not ended. -/
def CanGoOn (pipeline : Pipeline) : Option Nat → Prop
  | none => pipeline.aggregator.phase ≠ .exited
  | some session => pipeline.aggregator.phase = .exited ∧
    ∃ thread, pipeline.monitor.threads[session]? = some thread ∧ thread.phase ≠ .exited

def agent : Turn → Option Nat
  | .capture session _ => some session
  | .aggregate _ => none

section Thread
variable {running receiving : Bool} {answer : Answer} {thread : CaptureThread}

theorem advance_left (off : running = false) (live : thread.phase ≠ .exited) (receiving : Bool) (answer : Answer) :
    threadLeft (thread.advance running receiving answer).1 < threadLeft thread := by
  subst off
  obtain ⟨interface, localIps, flag, phase, commands, disconnected, filter⟩ := thread
  cases phase with
  | spawned | looping | failed => simp [CaptureThread.advance, threadLeft]
  | handling =>
    cases commands with
    | nil => cases disconnected <;> simp [CaptureThread.advance, threadLeft]
    | cons command rest =>
      simp only [CaptureThread.advance, threadLeft, List.length_cons]
      cases (handlePendingCommands answer.filter false [command]).1 <;> simp
  | reading =>
    simp only [CaptureThread.advance]
    cases answer.read with
    | timeoutExpired | error => simp [threadLeft]
    | packet data len now =>
      simp only
      split <;> simp [threadLeft]
  | sending delivery => cases receiving <;> simp [CaptureThread.advance, threadLeft]
  | exited => exact absurd rfl live

theorem advance_exited (exited : thread.phase = .exited) :
    (thread.advance running receiving answer).1 = thread := by
  simp only [CaptureThread.advance, exited]

end Thread

section Flags
variable {monitor : Monitor}

def AllOff (monitor : Monitor) : Prop := ∀ thread ∈ monitor.threads, monitor.isRunning thread = false

theorem advance_off (off : AllOff monitor) (session : Nat) (answer : Answer) :
    AllOff (monitor.advance session answer) := by
  cases known : monitor.threads[session]? with
  | none =>
    rw [Monitor.advance_unknown known]
    exact off
  | some thread =>
    obtain ⟨_, threads, _⟩ := Monitor.advance_known known answer
    have cleared : ∀ other : CaptureThread, monitor.isRunning other = false →
        (monitor.advance session answer).isRunning other = false := by
      intro other still
      unfold Monitor.advance
      simp only [known]
      split
      · unfold Monitor.isRunning at still ⊢
        simp only [Monitor.storeRunning, Monitor.isRunning_set, still, Bool.false_and]
      · exact still
    intro other member
    rw [threads] at member
    apply cleared
    rcases List.mem_or_eq_of_mem_set member with earlier | rfl
    · exact off other earlier
    · unfold Monitor.isRunning
      rw [advance_flag]
      exact off thread (List.mem_of_getElem? known)

theorem drop_off (consistent : monitor.Consistent) :
    AllOff (monitor.storeRunning monitor.captureRunning).requestStop.takeControl := by
  obtain ⟨app, _, threads, _⟩ := (monitor.storeRunning monitor.captureRunning).requestStop_same
  intro thread member
  obtain ⟨session, found⟩ := List.mem_iff_getElem?.mp member
  obtain ⟨queued, there, rfl⟩ := Monitor.takeControl_thread found
  obtain ⟨earlier, known, ⟨flag, _⟩, _⟩ := threads.thread session queued there
  unfold Monitor.isRunning
  rw [Monitor.takeControl_app, app, flag]
  simp only [Monitor.storeRunning, Monitor.isRunning_set]
  by_cases held : monitor.control = some session
  · rw [(consistent.newest session held).2 earlier known]
    simp
  · have still := (consistent.others session earlier known held).1
    unfold Monitor.isRunning at still
    rw [still, Bool.false_and]

end Flags

section Runs
variable {pipeline : Pipeline}

structure Sound (pipeline : Pipeline) : Prop where
  receiving : pipeline.monitor.receiving = true ↔ pipeline.aggregator.phase ≠ .exited
  alive : pipeline.appRunning = true → pipeline.monitor.Consistent
  dropped : pipeline.appRunning = false → AllOff pipeline.monitor

theorem advance_ended {running : Bool} {front : Option FlowRecord} {found : Findings} {thread : AggregatorThread}
    (exited : thread.phase = .exited) : thread.advance running front found = (thread, .silent) := by
  simp only [AggregatorThread.advance, exited]

theorem operate_consistent {monitor : Monitor} (before : monitor.Consistent) (operation : Operation) :
    (monitor.operate operation).Consistent := by
  cases operation with
  | startCapture launch => exact before.startCapture launch
  | stopCapture => exact before.stopCapture
  | stopForInterfaceChange selected => exact before.stopForInterfaceChange selected []
  | applyBpfFilter bpfInput => exact before.applyBpfFilter bpfInput
  | receiveStatus => exact before.receiveStatus

theorem capture_rest (pipeline : Pipeline) (session : Nat) (answer : Answer) :
    (pipeline.capture session answer).appRunning = pipeline.appRunning ∧
      (pipeline.capture session answer).aggregator = pipeline.aggregator := by
  unfold capture
  split <;> exact ⟨rfl, rfl⟩

theorem Sound.capture (sound : pipeline.Sound) (session : Nat) (answer : Answer) :
    (pipeline.capture session answer).Sound := by
  obtain ⟨appRunning, aggregator⟩ := pipeline.capture_rest session answer
  have receiving := (pipeline.capture_others session answer).receiving
  refine ⟨?_, ?_, ?_⟩
  · rw [receiving, aggregator]
    exact sound.receiving
  · intro running
    have before := sound.alive (appRunning ▸ running)
    rcases pipeline.capture_cases session answer with same | advanced
    · rw [same]
      exact before
    · rw [advanced]
      exact before.advance session answer
  · intro stopped
    have before := sound.dropped (appRunning ▸ stopped)
    rcases pipeline.capture_cases session answer with same | advanced
    · rw [same]
      exact before
    · rw [advanced]
      exact advance_off before session answer

theorem Sound.aggregate (sound : pipeline.Sound) (found : Findings) : (pipeline.aggregate found).Sound := by
  obtain ⟨status, monitor⟩ := pipeline.aggregate_monitor found
  have appRunning : (pipeline.aggregate found).appRunning = pipeline.appRunning := rfl
  refine ⟨?_, ?_, ?_⟩
  · rw [monitor]
    simp only [Bool.and_eq_true, decide_eq_true_eq, sound.receiving, ne_eq, and_iff_right_iff_imp]
    intro going exited
    apply going
    unfold Pipeline.aggregate
    simp only [advance_ended exited]
    exact exited
  · intro running
    rw [monitor]
    exact (sound.alive (appRunning ▸ running)).same rfl rfl rfl rfl (.refl .refl _)
  · intro stopped
    rw [monitor]
    exact sound.dropped (appRunning ▸ stopped)

theorem Sound.work (sound : pipeline.Sound) (turn : Turn) : (pipeline.work turn).Sound := by
  cases turn with
  | capture session answer => exact sound.capture session answer
  | aggregate found => exact sound.aggregate found

theorem Sound.drop (sound : pipeline.Sound) (running : pipeline.appRunning = true) : pipeline.drop.Sound where
  receiving := by
    rw [Pipeline.drop, (switchOff_work pipeline.monitor).receiving]
    exact sound.receiving
  alive := by
    intro still
    cases still
  dropped _ := drop_off (sound.alive running)

theorem Sound.step (sound : pipeline.Sound) (event : PipelineEvent) : (pipeline.step event).Sound := by
  cases event with
  | work turn => exact sound.work turn
  | operate operation =>
    simp only [Pipeline.step]
    split
    · rename_i running
      have kept := operate_work operation pipeline.monitor
      refine ⟨?_, ?_, ?_⟩
      · simp only [kept.receiving]
        exact sound.receiving
      · exact fun _ => operate_consistent (sound.alive running) operation
      · intro stopped
        rw [running] at stopped
        cases stopped
    · exact sound
  | drop =>
    simp only [Pipeline.step]
    split
    · rename_i running
      exact sound.drop running
    · exact sound

theorem run_sound (devices : List Text) (start : LoopState) (events : List PipelineEvent) :
    (run Pipeline.step (new devices start) events).Sound := by
  apply run_keeps Pipeline.step Sound fun _ event sound => sound.step event
  refine ⟨by simp [new, Monitor.new], fun _ => Monitor.new_consistent devices, ?_⟩
  intro stopped
  cases stopped

end Runs

section Left
variable {pipeline later : Pipeline} {session sessions : Nat}

/-- The app is gone. -/
structure Dropped (sessions : Nat) (pipeline : Pipeline) : Prop where
  sound : pipeline.Sound
  stopped : pipeline.appRunning = false
  sessions : pipeline.monitor.threads.length = sessions

theorem threadLeft_eq_zero {thread : CaptureThread} : threadLeft thread = 0 ↔ thread.phase = .exited := by
  unfold threadLeft
  cases thread.phase <;> simp

theorem aggregatorLeft_eq_zero {phase : AggregatorPhase} {queued : Nat} :
    aggregatorLeft phase queued = 0 ↔ phase = .exited := by
  cases phase <;> simp [aggregatorLeft]

theorem sum_left (length : later.monitor.threads.length = pipeline.monitor.threads.length)
    (within : session < pipeline.monitor.threads.length)
    (others : ∀ other, other ≠ session → later.sessionLeft other = pipeline.sessionLeft other) :
    (∑ other ∈ Finset.range later.monitor.threads.length, later.sessionLeft other) + pipeline.sessionLeft session =
      (∑ other ∈ Finset.range pipeline.monitor.threads.length, pipeline.sessionLeft other) +
        later.sessionLeft session := by
  have member := Finset.mem_range.mpr within
  rw [length, ← Finset.add_sum_erase _ later.sessionLeft member, ← Finset.add_sum_erase _ pipeline.sessionLeft member]
  have same : (∑ other ∈ (Finset.range pipeline.monitor.threads.length).erase session, later.sessionLeft other) =
      ∑ other ∈ (Finset.range pipeline.monitor.threads.length).erase session, pipeline.sessionLeft other := by
    apply Finset.sum_congr rfl
    intro other erased
    exact others other (Finset.ne_of_mem_erase erased)
  omega

theorem OthersKept.left (kept : pipeline.OthersKept later session) {other : Nat} (different : other ≠ session) :
    later.sessionLeft other = pipeline.sessionLeft other := by
  unfold sessionLeft
  rw [kept.threads other different]

theorem capture_length (pipeline : Pipeline) (session : Nat) (answer : Answer) :
    (pipeline.capture session answer).monitor.threads.length = pipeline.monitor.threads.length := by
  rcases pipeline.capture_cases session answer with same | advanced
  · rw [same]
  · rw [advanced]
    cases known : pipeline.monitor.threads[session]? with
    | none => rw [Monitor.advance_unknown known]
    | some thread =>
      obtain ⟨_, threads, _⟩ := Monitor.advance_known known answer
      rw [threads, List.length_set]

theorem aggregatorLeft_succ (phase : AggregatorPhase) (queued : Nat) :
    aggregatorLeft phase (queued + 1) ≤ aggregatorLeft phase queued + 1 := by
  cases phase <;> simp only [aggregatorLeft] <;> omega

/-- What the turn of a capture thread costs: nothing is added, and unless the thread is blocked, or has ended, there is
less to do. -/
theorem capture_left (dropped : pipeline.Dropped sessions) (session : Nat) (answer : Answer) :
    (pipeline.capture session answer).workLeft ≤ pipeline.workLeft ∧
      ∀ thread, pipeline.monitor.threads[session]? = some thread → thread.phase ≠ .exited →
        pipeline.monitor.receiving = false → (pipeline.capture session answer).workLeft < pipeline.workLeft := by
  rcases pipeline.outcome_cases session with ⟨unknown, outcome⟩ | ⟨thread, known, acted⟩
  · have same : pipeline.capture session answer = pipeline := by
      simp only [capture, outcome]
    rw [same]
    refine ⟨Nat.le_refl _, ?_⟩
    intro thread known
    rw [unknown] at known
    cases known
  have within := (List.getElem?_eq_some_iff.mp known).1
  have sum := sum_left (pipeline.capture_length session answer) within
    fun other different => (pipeline.capture_others session answer).left different
  have before : pipeline.sessionLeft session = threadLeft thread := by
    simp only [sessionLeft, known, Option.map_some, Option.getD_some]
  obtain ⟨_, aggregator⟩ := pipeline.capture_rest session answer
  have off := dropped.sound.dropped dropped.stopped thread (List.mem_of_getElem? known)
  have after (moved : (pipeline.capture session answer).monitor = pipeline.monitor.advance session answer) :
      (pipeline.capture session answer).sessionLeft session = threadLeft
        (thread.advance (pipeline.monitor.isRunning thread) pipeline.monitor.receiving answer).1 := by
    unfold sessionLeft
    rw [moved, advance_own known]
    rfl
  unfold workLeft
  rw [aggregator]
  rcases acted with ⟨delivery, sending, receiving, _, outcome⟩ | ⟨delivery, flow, sending, receiving, queue, outcome⟩ |
    ⟨_, outcome⟩
  · have same : pipeline.capture session answer = pipeline := by
      simp only [capture, outcome]
    rw [same]
    refine ⟨Nat.le_refl _, ?_⟩
    intro _ _ _ gone
    rw [gone] at receiving
    cases receiving
  · have sent : (pipeline.capture session answer).flow = flow := by
      simp only [capture, outcome]
    have less : (pipeline.capture session answer).sessionLeft session = 1 := by
      rw [after (by simp only [capture, outcome]), advance_sending sending, receiving]
      rfl
    have held : pipeline.sessionLeft session = 3 := by
      rw [before, threadLeft, toSend_some.mp sending]
    have longer := aggregatorLeft_succ pipeline.aggregator.phase pipeline.flow.queue.length
    rw [sent, queue, List.length_append, List.length_singleton]
    refine ⟨by omega, ?_⟩
    intro _ _ _ gone
    rw [gone] at receiving
    cases receiving
  · have kept : (pipeline.capture session answer).flow = pipeline.flow := by
      simp only [capture, outcome]
    have after := after (by simp only [capture, outcome])
    rw [kept]
    by_cases exited : thread.phase = .exited
    · rw [advance_exited exited] at after
      refine ⟨by omega, ?_⟩
      intro other there live
      rw [known] at there
      cases there
      exact absurd exited live
    · have less := advance_left off exited pipeline.monitor.receiving answer
      exact ⟨by omega, fun _ _ _ _ => by omega⟩

theorem aggregate_left (stopped : pipeline.appRunning = false) (found : Findings) :
    (pipeline.aggregate found).workLeft ≤ pipeline.workLeft ∧
      (pipeline.aggregator.phase ≠ .exited → (pipeline.aggregate found).workLeft < pipeline.workLeft) := by
  obtain ⟨status, monitor⟩ := pipeline.aggregate_monitor found
  have threads : (pipeline.aggregate found).monitor.threads = pipeline.monitor.threads := by rw [monitor]
  have same : (pipeline.aggregate found).sessionLeft = pipeline.sessionLeft := by
    funext session
    unfold sessionLeft
    rw [threads]
  have turn : (pipeline.aggregator.phase = .exited ∧
        (pipeline.aggregate found).aggregator = pipeline.aggregator ∧ (pipeline.aggregate found).flow = pipeline.flow) ∨
      aggregatorLeft (pipeline.aggregate found).aggregator.phase (pipeline.aggregate found).flow.queue.length <
        aggregatorLeft pipeline.aggregator.phase pipeline.flow.queue.length := by
    unfold Pipeline.aggregate AggregatorThread.advance
    rw [stopped]
    cases phase : pipeline.aggregator.phase with
    | spawned =>
      apply Or.inr
      simp only
      cases found.resolver with
      | ok => simp [aggregatorLeft, AggregatorTrace.silent]
      | error error => simp [aggregatorLeft]
    | looping => simp [aggregatorLeft, AggregatorTrace.silent]
    | draining =>
      apply Or.inr
      cases front : pipeline.flow.front? with
      | none => simp [aggregatorLeft, AggregatorTrace.silent]
      | some record => simp [aggregatorLeft, Channel.front?_rest front]
    | maintaining => simp [aggregatorLeft, AggregatorTrace.silent]
    | publishing => simp [aggregatorLeft, AggregatorTrace.silent]
    | exited => exact Or.inl ⟨rfl, rfl, by simp [AggregatorTrace.silent]⟩
  unfold workLeft
  rw [threads, same]
  rcases turn with ⟨exited, aggregator, flow⟩ | less
  · rw [aggregator, flow]
    exact ⟨Nat.le_refl _, fun going => absurd exited going⟩
  · exact ⟨by omega, fun _ => by omega⟩

end Left

section Shutdown
variable {pipeline : Pipeline} {sessions : Nat}

theorem Dropped.work (dropped : pipeline.Dropped sessions) (turn : Turn) : (pipeline.work turn).Dropped sessions := by
  refine ⟨dropped.sound.work turn, ?_, ?_⟩
  · cases turn with
    | capture session answer => exact (pipeline.capture_rest session answer).1.trans dropped.stopped
    | aggregate found => exact dropped.stopped
  · cases turn with
    | capture session answer => exact (pipeline.capture_length session answer).trans dropped.sessions
    | aggregate found =>
      obtain ⟨status, monitor⟩ := pipeline.aggregate_monitor found
      rw [Pipeline.work, monitor]
      exact dropped.sessions

theorem workLeft_eq_zero : pipeline.workLeft = 0 ↔
    pipeline.aggregator.phase = .exited ∧ ∀ thread ∈ pipeline.monitor.threads, thread.phase = .exited := by
  unfold workLeft
  rw [Nat.add_eq_zero_iff, aggregatorLeft_eq_zero, Finset.sum_eq_zero_iff]
  apply and_congr_right
  intro _
  constructor
  · intro none thread member
    obtain ⟨session, known⟩ := List.mem_iff_getElem?.mp member
    have within := (List.getElem?_eq_some_iff.mp known).1
    have zero := none session (Finset.mem_range.mpr within)
    simp only [sessionLeft, known, Option.map_some, Option.getD_some] at zero
    exact threadLeft_eq_zero.mp zero
  · intro exited session _
    unfold sessionLeft
    cases known : pipeline.monitor.threads[session]? with
    | none => rfl
    | some thread => exact threadLeft_eq_zero.mpr (exited thread (List.mem_of_getElem? known))

/-- While anyone has work left, someone can go on: first the aggregator, which nobody blocks, and when it has ended
every thread, since a send then fails. -/
theorem dropped_progress (sessions : Nat) : Progress work agent (Dropped sessions)
    (fun who => ∀ session, who = some session → session < sessions) CanGoOn workLeft where
  kept _ turn dropped := dropped.work turn
  bounded pipeline turn dropped := by
    cases turn with
    | capture session answer => exact (capture_left dropped session answer).1
    | aggregate found => exact (aggregate_left dropped.stopped found).1
  helped pipeline dropped left := by
    by_cases going : pipeline.aggregator.phase = .exited
    · rw [Ne, workLeft_eq_zero] at left
      have live : ∃ thread ∈ pipeline.monitor.threads, thread.phase ≠ .exited := by
        by_contra none
        exact left ⟨going, by simpa using none⟩
      obtain ⟨thread, member, live⟩ := live
      obtain ⟨session, known⟩ := List.mem_iff_getElem?.mp member
      refine ⟨some session, ?_, going, thread, known, live⟩
      rintro _ ⟨⟩
      rw [← dropped.sessions]
      exact (List.getElem?_eq_some_iff.mp known).1
    · refine ⟨none, ?_, going⟩
      rintro session ⟨⟩
  lowers pipeline turn dropped helper := by
    cases turn with
    | capture session answer =>
      obtain ⟨exited, thread, known, live⟩ := helper
      have gone : pipeline.monitor.receiving = false := by
        have receiving := dropped.sound.receiving
        rw [exited] at receiving
        simpa using receiving
      exact (capture_left dropped session answer).2 thread known live gone
    | aggregate found => exact (aggregate_left dropped.stopped found).2 helper
  waits pipeline turn who _ helper other := by
    apply Or.inr
    cases turn with
    | capture session answer =>
      obtain ⟨_, aggregator⟩ := pipeline.capture_rest session answer
      cases who with
      | none =>
        unfold CanGoOn at helper ⊢
        rw [work, aggregator]
        exact helper
      | some waiter =>
        obtain ⟨exited, thread, known, live⟩ := helper
        have different : waiter ≠ session := fun same => other (congrArg some same.symm)
        refine ⟨(congrArg _ aggregator).trans exited, thread, ?_, live⟩
        exact ((pipeline.capture_others session answer).threads waiter different).trans known
    | aggregate found =>
      cases who with
      | none => exact absurd rfl other
      | some waiter =>
        obtain ⟨exited, thread, known, live⟩ := helper
        obtain ⟨status, monitor⟩ := pipeline.aggregate_monitor found
        refine ⟨?_, thread, ?_, live⟩
        · simp only [work, aggregate, advance_ended exited]
          exact exited
        · rw [work, monitor]
          exact known

/-- When the app is dropped, after any run, every thread ends: whatever is read or answered, and in whatever order the
threads take turns, as many rounds with a turn of each are enough as `workLeft` counts. -/
theorem shutdown_ends (devices : List Text) (start : LoopState) (events : List PipelineEvent) :
    let dropped := run step (new devices start) (events ++ [.drop])
    ∀ rounds : List (List Turn), dropped.workLeft ≤ rounds.length →
      (∀ round ∈ rounds, (∃ found, .aggregate found ∈ round) ∧
        ∀ session < dropped.monitor.threads.length, ∃ answer, .capture session answer ∈ round) →
      (run work dropped rounds.flatten).aggregator.phase = .exited ∧
        ∀ thread ∈ (run work dropped rounds.flatten).monitor.threads, thread.phase = .exited := by
  intro dropped rounds enough fair
  have gone : dropped.Dropped dropped.monitor.threads.length := by
    refine ⟨run_sound devices start (events ++ [.drop]), ?_, rfl⟩
    have last : dropped = (run step (new devices start) events).step .drop := run_append _ _ _ _
    rw [last]
    simp only [step]
    split
    · rfl
    · rename_i stopped
      exact Bool.not_eq_true _ ▸ stopped
  have progress := dropped_progress dropped.monitor.threads.length
  have everyones : ∀ round ∈ rounds, ∀ who : Option Nat,
      (∀ session, who = some session → session < dropped.monitor.threads.length) →
        ∃ turn ∈ round, agent turn = who := by
    intro round member who one
    obtain ⟨⟨found, aggregates⟩, captures⟩ := fair round member
    cases who with
    | none => exact ⟨_, aggregates, rfl⟩
    | some session =>
      obtain ⟨answer, turn⟩ := captures session (one session rfl)
      exact ⟨_, turn, rfl⟩
  exact workLeft_eq_zero.mp (progress.rounds gone rounds everyones enough)

end Shutdown

def quiet : Answer := ⟨fun _ => .ok (), .timeoutExpired⟩

def nothingFound : Findings := ⟨.ok (), none, 0, 0, .atTime 0 []⟩

def readingSession : List PipelineEvent :=
  [.operate (.startCapture ⟨"/root".toList, 0, fun _ => .ok (), none⟩), .work (.capture 0 quiet),
    .work (.capture 0 quiet), .work (.capture 0 quiet)]

def droppedReading : Pipeline := run step (new ["eth0".toList] (.start 0 0 none)) (readingSession ++ [.drop])

def sixRounds : List (List Turn) := List.replicate 6 [.capture 0 quiet, .aggregate nothingFound]

theorem droppedReading_left : droppedReading.monitor.threads.map (·.phase) = [.reading] ∧ droppedReading.workLeft = 6 := by
  decide +kernel

theorem shutdown_ends_reading : (run work droppedReading sixRounds.flatten).aggregator.phase = .exited ∧
    ∀ thread ∈ (run work droppedReading sixRounds.flatten).monitor.threads, thread.phase = .exited := by
  obtain ⟨phases, left⟩ := droppedReading_left
  have one : droppedReading.monitor.threads.length = 1 := by rw [← List.length_map, phases, List.length_singleton]
  have fair : ∀ round ∈ sixRounds, (∃ found, .aggregate found ∈ round) ∧
      ∀ session < droppedReading.monitor.threads.length, ∃ answer, .capture session answer ∈ round := by
    intro round member
    obtain rfl := List.eq_of_mem_replicate member
    refine ⟨⟨nothingFound, by simp⟩, ?_⟩
    intro session within
    have first : session = 0 := by omega
    exact ⟨quiet, by simp [first]⟩
  exact shutdown_ends ["eth0".toList] (.start 0 0 none) readingSession sixRounds (Nat.le_of_eq left) fair

end Pipeline
end Netmon.Gui
