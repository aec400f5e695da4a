import Netmon.Gui.Session

/-! In every state between two operations the app holds the handle of the session that
it shows as capturing, and every other session has been told to end. -/
namespace Netmon.Gui
open Library Capture
namespace Monitor

structure Consistent (monitor : Monitor) : Prop where
  handle : monitor.app.captureControl.isSome = monitor.control.isSome
  capturing : monitor.app.isCapturing = monitor.control.isSome
  flagged : 0 < monitor.app.runningFlags.length
  flags : ∀ thread ∈ monitor.threads, thread.flag < monitor.app.runningFlags.length
  newest : ∀ session, monitor.control = some session → session + 1 = monitor.threads.length ∧
    ∀ thread, monitor.threads[session]? = some thread → thread.flag = monitor.captureRunning
  others : ∀ session thread, monitor.threads[session]? = some thread → monitor.control ≠ some session →
    monitor.isRunning thread = false ∧ thread.disconnected = true

theorem new_consistent (devices : List Text) : (new devices).Consistent where
  handle := rfl
  capturing := rfl
  flagged := by simp [new]
  flags := by simp [new]
  newest := by simp [new]
  others := by simp [new]

section Parts
variable {monitor : Monitor}

theorem isRunning_set (flags : List Bool) (cleared flag : Nat) :
    (flags.set cleared false)[flag]?.getD false = (flags[flag]?.getD false && decide (flag ≠ cleared)) := by
  rw [List.getElem?_set]
  split
  · rename_i same
    subst same
    split <;> simp
  · rename_i other
    simp [Ne.symm other]

@[simp] theorem takeControl_control : monitor.takeControl.control = none := by
  unfold takeControl
  split
  · assumption
  · rfl

theorem takeControl_app : monitor.takeControl.app = { monitor.app with
    captureControl := if monitor.control.isSome then none else monitor.app.captureControl } := by
  unfold takeControl
  split
  · rename_i none
    simp [none]
  · rename_i session some
    simp [some]

@[simp] theorem takeControl_statusRx : monitor.takeControl.statusRx = monitor.statusRx := by
  unfold takeControl
  split <;> rfl

@[simp] theorem takeControl_length : monitor.takeControl.threads.length = monitor.threads.length := by
  unfold takeControl
  split
  · rfl
  · exact List.length_modify _ _ _

theorem takeControl_idle (status : Text) :
    ({ monitor with app := { monitor.app with isCapturing := false, status } } : Monitor).takeControl =
      { monitor.takeControl with app := { monitor.takeControl.app with isCapturing := false, status } } := by
  rcases monitor with ⟨app, control⟩
  cases control <;> rfl

theorem takeControl_thread {session : Nat} {thread : CaptureThread}
    (found : monitor.takeControl.threads[session]? = some thread) :
    ∃ earlier, monitor.threads[session]? = some earlier ∧ thread = { earlier with
      disconnected := earlier.disconnected || decide (monitor.control = some session) } := by
  unfold takeControl at found
  split at found
  · rename_i none
    exact ⟨thread, found, by simp [none]⟩
  · rename_i holder some
    rw [List.getElem?_modify, Option.map_eq_map, Option.map_eq_some_iff] at found
    obtain ⟨earlier, known, rfl⟩ := found
    refine ⟨earlier, known, ?_⟩
    by_cases same : holder = session
    · simp [some, same]
    · simp [some, same]

/-- The threads are the same ones, and what became of each is related to what it was. -/
structure Threadwise (related : CaptureThread → CaptureThread → Prop) (threads later : List CaptureThread) : Prop where
  length : later.length = threads.length
  thread : ∀ (session : Nat) (thread : CaptureThread), later[session]? = some thread →
    ∃ earlier, threads[session]? = some earlier ∧ related earlier thread

theorem Threadwise.refl {related : CaptureThread → CaptureThread → Prop} (same : ∀ thread, related thread thread)
    (threads : List CaptureThread) : Threadwise related threads threads :=
  ⟨rfl, fun _ thread found => ⟨thread, found, same thread⟩⟩

theorem Threadwise.set {related : CaptureThread → CaptureThread → Prop} (same : ∀ thread, related thread thread)
    {threads : List CaptureThread} {session : Nat} {thread later : CaptureThread}
    (known : threads[session]? = some thread) (changed : related thread later) :
    Threadwise related threads (threads.set session later) where
  length := List.length_set
  thread := by
    intro other found there
    rw [List.getElem?_set] at there
    split at there
    · rename_i equal
      subst equal
      split at there
      · cases there
        exact ⟨thread, known, changed⟩
      · cases there
    · exact ⟨found, there, same found⟩

theorem Threadwise.weaken {related weaker : CaptureThread → CaptureThread → Prop} {threads later : List CaptureThread}
    (kept : Threadwise related threads later) (implies : ∀ thread other, related thread other → weaker thread other) :
    Threadwise weaker threads later where
  length := kept.length
  thread := by
    intro session thread found
    obtain ⟨earlier, known, holds⟩ := kept.thread session thread found
    exact ⟨earlier, known, implies earlier thread holds⟩

/-- The same flag and the same sender for commands. -/
def SameEnds (thread later : CaptureThread) : Prop :=
  later.flag = thread.flag ∧ later.disconnected = thread.disconnected

theorem SameEnds.refl (thread : CaptureThread) : SameEnds thread thread := ⟨rfl, rfl⟩

theorem Consistent.same {other : Monitor} (before : monitor.Consistent)
    (handle : other.app.captureControl = monitor.app.captureControl)
    (capturing : other.app.isCapturing = monitor.app.isCapturing)
    (flags : other.app.runningFlags = monitor.app.runningFlags) (control : other.control = monitor.control)
    (threads : Threadwise SameEnds monitor.threads other.threads) : other.Consistent where
  handle := by rw [handle, control, before.handle]
  capturing := by rw [capturing, control, before.capturing]
  flagged := by rw [flags]; exact before.flagged
  flags := by
    intro thread member
    obtain ⟨session, found⟩ := List.mem_iff_getElem?.mp member
    obtain ⟨earlier, known, flag, _⟩ := threads.thread session thread found
    rw [flags, flag]
    exact before.flags earlier (List.mem_of_getElem? known)
  newest := by
    intro session held
    obtain ⟨last, current⟩ := before.newest session (control ▸ held)
    refine ⟨threads.length ▸ last, fun thread found => ?_⟩
    obtain ⟨earlier, known, flag, _⟩ := threads.thread session thread found
    rw [captureRunning, flags, flag]
    exact current earlier known
  others := by
    intro session thread found other
    obtain ⟨earlier, known, flag, disconnected⟩ := threads.thread session thread found
    rw [isRunning, flags, flag, disconnected]
    exact before.others session earlier known (control ▸ other)

def SamePhase (thread later : CaptureThread) : Prop := later.phase = thread.phase

theorem SamePhase.refl (thread : CaptureThread) : SamePhase thread thread := rfl

/-- A command changes what is queued, and nothing else. -/
def OnlyQueued (thread later : CaptureThread) : Prop := SameEnds thread later ∧ SamePhase thread later

theorem OnlyQueued.refl (thread : CaptureThread) : OnlyQueued thread thread := ⟨.refl thread, .refl thread⟩

theorem send_same {command : CaptureCommand} {session : Nat} {sent : Monitor}
    (accepted : monitor.send command session = some sent) :
    sent.app = monitor.app ∧ sent.control = monitor.control ∧ Threadwise OnlyQueued monitor.threads sent.threads ∧
      sent.statusRx = monitor.statusRx := by
  unfold send at accepted
  split at accepted
  · cases accepted
  · rename_i thread known
    split at accepted
    · cases accepted
    · cases accepted
      exact ⟨rfl, rfl, .set .refl known ⟨⟨rfl, rfl⟩, rfl⟩, rfl⟩

theorem requestStop_same : monitor.requestStop.app = monitor.app ∧ monitor.requestStop.control = monitor.control ∧
    Threadwise OnlyQueued monitor.threads monitor.requestStop.threads ∧
      monitor.requestStop.statusRx = monitor.statusRx := by
  unfold requestStop
  split
  · exact ⟨rfl, rfl, .refl .refl _, rfl⟩
  · rename_i session _
    cases accepted : monitor.send .stop session with
    | none => exact ⟨rfl, rfl, .refl .refl _, rfl⟩
    | some sent => exact send_same accepted

theorem noteFilter_same (monitor : Monitor) (text : Text) : (monitor.noteFilter text).app = monitor.app ∧
    (monitor.noteFilter text).control = monitor.control ∧ (monitor.noteFilter text).threads = monitor.threads ∧
      (monitor.noteFilter text).statusRx = monitor.statusRx := by
  unfold noteFilter
  split <;> exact ⟨rfl, rfl, rfl, rfl⟩

theorem Consistent.storeRunning (before : monitor.Consistent) (flag : Nat) : (monitor.storeRunning flag).Consistent where
  handle := before.handle
  capturing := before.capturing
  flagged := by
    simp only [Monitor.storeRunning, List.length_set]
    exact before.flagged
  flags := by
    simp only [Monitor.storeRunning, List.length_set]
    exact before.flags
  newest := by
    simp only [Monitor.storeRunning, captureRunning, List.length_set]
    exact before.newest
  others := by
    intro session thread found other
    obtain ⟨still, told⟩ := before.others session thread found other
    unfold isRunning at still
    simp only [Monitor.storeRunning, isRunning, isRunning_set]
    exact ⟨by rw [still, Bool.false_and], told⟩

theorem Consistent.off {m : Monitor} (before : monitor.Consistent)
    (handle : m.app.captureControl = monitor.app.captureControl)
    (flags : m.app.runningFlags = monitor.app.runningFlags.set monitor.captureRunning false)
    (control : m.control = monitor.control) (threads : Threadwise SameEnds monitor.threads m.threads)
    (status : Text) : ({ m.takeControl with
      app := { m.takeControl.app with isCapturing := false, status } } : Monitor).Consistent where
  handle := by
    have held := before.handle
    rw [← control, ← handle] at held
    rw [takeControl_control, takeControl_app]
    cases found : m.control with
    | some session => rfl
    | none => simpa [found] using held
  capturing := by rw [takeControl_control]; rfl
  flagged := by
    rw [takeControl_app, flags, List.length_set]
    exact before.flagged
  flags := by
    intro thread member
    obtain ⟨session, found⟩ := List.mem_iff_getElem?.mp member
    obtain ⟨kept, there, rfl⟩ := takeControl_thread found
    obtain ⟨earlier, known, flag, _⟩ := threads.thread session kept there
    rw [takeControl_app, flags, List.length_set, flag]
    exact before.flags earlier (List.mem_of_getElem? known)
  newest := by
    intro session held
    rw [takeControl_control] at held
    cases held
  others := by
    intro session thread found _
    obtain ⟨kept, there, rfl⟩ := takeControl_thread found
    obtain ⟨earlier, known, flag, disconnected⟩ := threads.thread session kept there
    simp only [isRunning, takeControl_app]
    rw [flags, isRunning_set, flag, disconnected, control]
    by_cases held : monitor.control = some session
    · have current := (before.newest session held).2 earlier known
      simp [held, current]
    · obtain ⟨still, told⟩ := before.others session earlier known held
      unfold isRunning at still
      simp [still, told]

end Parts

section Operations
variable {monitor : Monitor}

theorem started_cases (launch : Launch) (app : CaptureApp) :
    launch.started app = (app, none) ∨ app.isCapturing = false ∧ ∃ path status,
      launch.started app = ({ app with
        runningFlags := app.runningFlags ++ [true], captureRecordingPath := path, status }, none) ∨
      ∃ args, launch.started app = ({ app with
        runningFlags := app.runningFlags ++ [true], captureControl := some args
        captureRecordingPath := path, isCapturing := true, status }, some args) := by
  unfold Launch.started Gui.startCapture
  split
  · exact Or.inl rfl
  rename_i idle
  have idle : app.isCapturing = false := by
    rw [Bool.or_eq_true, not_or, Bool.not_eq_true] at idle
    exact idle.1
  split
  · exact Or.inl rfl
  · simp only
    refine Or.inr ⟨idle, ?_⟩
    split
    · exact ⟨_, _, Or.inr ⟨_, rfl⟩⟩
    · exact ⟨_, _, Or.inl rfl⟩

theorem Consistent.control_none (before : monitor.Consistent) (idle : monitor.app.isCapturing = false) :
    monitor.control = none := by
  have capturing := before.capturing
  rw [idle] at capturing
  exact Option.isNone_iff_eq_none.mp (Option.isSome_eq_false_iff.mp capturing.symm)

theorem takeControl_eq (none : monitor.control = none) : monitor.takeControl = monitor := by
  unfold takeControl
  rw [none]

theorem startCapture_nothing {launch : Launch} (nothing : launch.started monitor.app = (monitor.app, none)) :
    monitor.startCapture launch = monitor := by
  simp only [Monitor.startCapture, nothing]

theorem stopCapture_control (consistent : monitor.Consistent) : monitor.stopCapture.control = none := by
  unfold Monitor.stopCapture
  split
  · rename_i idle
    exact consistent.control_none (by simpa using idle)
  · exact takeControl_control

theorem receiveStatus_empty (queue : monitor.statusRx = []) : monitor.receiveStatus = monitor := by
  simp only [Monitor.receiveStatus, queue]

theorem Consistent.fresh_flag (before : monitor.Consistent) (session : Nat) (thread : CaptureThread)
    (found : monitor.threads[session]? = some thread) :
    (monitor.app.runningFlags ++ [true])[thread.flag]?.getD false = monitor.isRunning thread := by
  have bound := before.flags thread (List.mem_of_getElem? found)
  rw [isRunning, List.getElem?_append_left bound]

theorem Consistent.startCapture (before : monitor.Consistent) (launch : Launch) :
    (monitor.startCapture launch).Consistent := by
  unfold Monitor.startCapture
  rcases started_cases launch monitor.app with nothing | ⟨idle, path, status, failed | ⟨args, started⟩⟩
  · simp only [nothing]
    exact before
  · have none := before.control_none idle
    simp only [failed]
    refine ⟨before.handle, before.capturing, by simp, ?_, ?_, ?_⟩
    · intro thread member
      have bound := before.flags thread member
      simp only [List.length_append, List.length_singleton]
      omega
    · intro session held
      simp [none] at held
    · intro session thread found other
      simp only [isRunning]
      rw [before.fresh_flag session thread found]
      exact before.others session thread found other
  · have none := before.control_none idle
    simp only [started, takeControl_eq none]
    refine ⟨rfl, rfl, by simp, ?_, ?_, ?_⟩
    · intro thread member
      rcases List.mem_append.mp member with known | added
      · have bound := before.flags thread known
        simp only [List.length_append, List.length_singleton]
        omega
      · obtain rfl := List.mem_singleton.mp added
        simp
    · intro session held
      cases held
      simp [captureRunning]
    · intro session thread found other
      have older : session < monitor.threads.length := by
        have bound := (List.getElem?_eq_some_iff.mp found).1
        have distinct : session ≠ monitor.threads.length := fun same => other (same ▸ rfl)
        simp only [List.length_append, List.length_singleton] at bound
        omega
      rw [List.getElem?_append_left older] at found
      simp only [isRunning]
      rw [before.fresh_flag session thread found]
      exact before.others session thread found (by simp [none])

theorem Consistent.stopCapture (before : monitor.Consistent) : monitor.stopCapture.Consistent := by
  unfold Monitor.stopCapture
  split
  · exact before
  · obtain ⟨app, control, threads, _⟩ := (monitor.storeRunning monitor.captureRunning).requestStop_same
    exact before.off (by rw [app]; rfl) (by rw [app]; rfl) control (threads.weaken fun _ _ kept => kept.1) _

theorem Consistent.noteStopped (before : monitor.Consistent) (text : Text) :
    (monitor.noteStopped text).Consistent := by
  unfold Monitor.noteStopped
  split
  · have off := before.off (m := monitor.storeRunning monitor.captureRunning) rfl rfl rfl (.refl .refl _) monitor.app.status
    rw [← takeControl_idle] at off
    exact off
  · exact before

theorem Consistent.receiveStatus (before : monitor.Consistent) : monitor.receiveStatus.Consistent := by
  unfold Monitor.receiveStatus
  split
  · exact before
  rename_i message rest queued
  obtain ⟨app, control, threads, _⟩ := noteFilter_same { monitor with statusRx := rest } message.text
  have noted : ({ monitor with statusRx := rest }.noteFilter message.text).Consistent := by
    refine before.same ?_ ?_ ?_ control ?_
    · rw [app]
    · rw [app]
    · rw [app]
    · rw [threads]
      exact .refl .refl _
  exact (noted.noteStopped message.text).same rfl rfl rfl rfl (.refl .refl _)

theorem advance_unknown {session : Nat} (unknown : monitor.threads[session]? = none) (answer : Answer) :
    monitor.advance session answer = monitor := by
  simp only [Monitor.advance, unknown]

theorem advance_known {session : Nat} {thread : CaptureThread} (known : monitor.threads[session]? = some thread)
    (answer : Answer) :
    (monitor.advance session answer).control = monitor.control ∧
    (monitor.advance session answer).threads =
      monitor.threads.set session (thread.advance (monitor.isRunning thread) monitor.receiving answer).1 ∧
    (monitor.advance session answer).statusRx = monitor.statusRx ++
      (thread.advance (monitor.isRunning thread) monitor.receiving answer).2.statuses.map (⟨·, session⟩) := by
  simp only [Monitor.advance, known]
  split <;> exact ⟨rfl, rfl, rfl⟩

theorem Consistent.advance (before : monitor.Consistent) (session : Nat) (answer : Answer) :
    (monitor.advance session answer).Consistent := by
  unfold Monitor.advance
  split
  · exact before
  rename_i thread known
  simp only
  split
  · exact (before.storeRunning _).same rfl rfl rfl rfl (.set .refl known ⟨advance_flag, advance_disconnected⟩)
  · exact before.same rfl rfl rfl rfl (.set .refl known ⟨advance_flag, advance_disconnected⟩)

theorem Consistent.advanceAll (before : monitor.Consistent) (steps : List (Nat × Answer)) :
    (monitor.advanceAll steps).Consistent :=
  run_keeps _ Consistent (fun _ action before => before.advance action.1 action.2) monitor steps before

theorem applyBpfFilter_same (bpfInput : Text) :
    (∃ status, (monitor.applyBpfFilter bpfInput).app = { monitor.app with status }) ∧
    (monitor.applyBpfFilter bpfInput).control = monitor.control ∧
    Threadwise OnlyQueued monitor.threads (monitor.applyBpfFilter bpfInput).threads ∧
    (monitor.applyBpfFilter bpfInput).statusRx = monitor.statusRx := by
  unfold Monitor.applyBpfFilter
  split
  · exact ⟨⟨_, rfl⟩, rfl, .refl .refl _, rfl⟩
  rename_i session held
  simp only
  split
  · exact ⟨⟨_, rfl⟩, rfl, .refl .refl _, rfl⟩
  split
  · rename_i sent accepted
    obtain ⟨app, control, threads, statusRx⟩ := send_same accepted
    exact ⟨⟨monitor.app.status, app⟩, control, threads, statusRx⟩
  · exact ⟨⟨_, rfl⟩, rfl, .refl .refl _, rfl⟩

theorem Consistent.applyBpfFilter (before : monitor.Consistent) (bpfInput : Text) :
    (monitor.applyBpfFilter bpfInput).Consistent := by
  obtain ⟨⟨status, app⟩, control, threads, _⟩ := applyBpfFilter_same bpfInput
  refine before.same ?_ ?_ ?_ control (threads.weaken fun _ _ kept => kept.1)
  all_goals rw [app]

theorem Consistent.stopForInterfaceChange (before : monitor.Consistent) (selected : Nat) (steps : List (Nat × Answer)) :
    (monitor.stopForInterfaceChange selected steps).Consistent := by
  have chosen : ({ monitor with app := { monitor.app with selectedIface := selected } } : Monitor).Consistent :=
    before.same rfl rfl rfl rfl (.refl .refl _)
  exact chosen.stopCapture.advanceAll steps

theorem Consistent.step (before : monitor.Consistent) (event : Event) : (monitor.step event).Consistent := by
  cases event with
  | startCapture launch => exact before.startCapture launch
  | stopCapture => exact before.stopCapture
  | restartCaptureForInterfaceChange selected steps launch =>
    simp only [Monitor.step, restartCaptureForInterfaceChange]
    split
    · exact (before.stopForInterfaceChange selected steps).startCapture launch
    · exact before.stopForInterfaceChange selected steps
  | applyBpfFilter bpfInput => exact before.applyBpfFilter bpfInput
  | receiveStatus => exact before.receiveStatus
  | advance session answer => exact before.advance session answer
  | aggregatorExits => exact before.same rfl rfl rfl rfl (.refl .refl _)

theorem run_consistent (devices : List Text) (events : List Event) : (run Monitor.step (new devices) events).Consistent :=
  run_keeps Monitor.step Consistent (fun _ event before => before.step event) (new devices) events (new_consistent devices)

/-- The flag of a thread is set only while the app has the handle of its session, which it has exactly while it shows
that it captures. -/
theorem one_session_on (devices : List Text) (events : List Event) :
    let monitor := run Monitor.step (new devices) events
    (monitor.app.isCapturing = true ↔ monitor.app.captureControl.isSome = true) ∧
      monitor.app.captureControl.isSome = monitor.control.isSome ∧
      (∀ session thread, monitor.threads[session]? = some thread → monitor.control ≠ some session →
        monitor.isRunning thread = false) ∧
      (monitor.app.isCapturing = false → ∀ thread ∈ monitor.threads, monitor.isRunning thread = false) := by
  intro monitor
  have consistent : monitor.Consistent := run_consistent devices events
  refine ⟨?_, consistent.handle, ?_, ?_⟩
  · rw [consistent.capturing, consistent.handle]
  · intro session thread known other
    exact (consistent.others session thread known other).1
  · intro idle thread member
    obtain ⟨session, known⟩ := List.mem_iff_getElem?.mp member
    have none := consistent.control_none idle
    exact (consistent.others session thread known (by simp [none])).1

end Operations

end Monitor
end Netmon.Gui
