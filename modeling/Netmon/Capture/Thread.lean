import Netmon.Capture.Loop

/-! The capture thread one action at a time, so that whatever shares its running flag
and its channels can act in between. -/
namespace Netmon.Capture
open Library

inductive Phase where
  /-- The thread has not reported yet that it captures. -/
  | spawned
  /-- At the head of the loop. -/
  | looping
  | handling
  /-- Inside `next_packet`. -/
  | reading
  /-- Inside `send`, with the record of the packet that was read. -/
  | sending (delivery : Delivery)
  /-- The flag is cleared after a read error, the message about it is not sent. -/
  | failed
  | exited
deriving DecidableEq, Repr

structure CaptureThread where
  interface : Text
  localIps : List IpAddr
  /-- Which of the running flags the thread was given. -/
  flag : Nat
  phase : Phase
  commands : List CaptureCommand
  /-- Nobody holds the sending end for commands any longer. -/
  disconnected : Bool
  /-- The expression that is in force on the capture handle. -/
  filter : Option Text
deriving DecidableEq, Repr

/-- What the capture library answers. -/
structure Answer where
  filter : Text → Except Text Unit
  read : ReadResult

def CaptureCommand.install (filter : Text → Except Text Unit) (current : Option Text) : CaptureCommand → Option Text
  | .applyFilter filterExpression => if (filter filterExpression).isOk then some filterExpression else current
  | .stop => current

def capturingOn (interface : Text) : Text := "Capturing on ".toList ++ (interface ++ "...".toList)

/-- The thread after its next action, and what the action sends and clears. -/
def CaptureThread.advance (running receiving : Bool) (answer : Answer) (thread : CaptureThread) :
    CaptureThread × CaptureTrace :=
  match thread.phase with
  | .spawned => ({ thread with phase := .looping }, .ended [capturingOn thread.interface])
  | .looping => ({ thread with phase := if running then .handling else .exited }, .ended [])
  | .handling =>
    match thread.commands with
    | [] => ({ thread with phase := if thread.disconnected then .exited else .reading }, .ended [])
    | command :: rest =>
      let (stop, statuses) := handlePendingCommands answer.filter false [command]
      ({ thread with
        phase := if stop then .exited else .handling
        commands := rest
        filter := command.install answer.filter thread.filter }, .ended statuses)
  | .reading =>
    match answer.read with
    | .timeoutExpired => ({ thread with phase := .looping }, .ended [])
    | .error => ({ thread with phase := .failed }, ⟨[], [], true⟩)
    | .packet data len now =>
      match (parsePacket data len thread.localIps now).run with
      | .error _ => ({ thread with phase := .exited }, .ended [])
      | .ok none => ({ thread with phase := .looping }, .ended [])
      | .ok (some record) => ({ thread with phase := .sending ⟨data, len, record⟩ }, .ended [])
  | .sending delivery =>
    if receiving then ({ thread with phase := .looping }, ⟨[delivery], [], false⟩)
    else ({ thread with phase := .exited }, .ended [])
  | .failed => ({ thread with phase := .exited }, .ended [captureStopped])
  | .exited => (thread, .ended [])

/-- A message of the thread while it captures. -/
inductive Announcement : Text → Prop where
  | capturing (interface : Text) : Announcement (capturingOn interface)
  | filterApplied (filterExpression : Text) : Announcement ("Filter applied: ".toList ++ filterExpression)
  | rejected (error : Text) : Announcement ("BPF error: ".toList ++ error)

theorem handlePendingCommands_announcement {filter : Text → Except Text Unit} {disconnected : Bool}
    {commands : List CaptureCommand} {status : Text}
    (sent : status ∈ (handlePendingCommands filter disconnected commands).2) : Announcement status := by
  induction commands with
  | nil => cases sent
  | cons command commands ih =>
    cases command with
    | stop => cases sent
    | applyFilter filterExpression =>
      rcases List.mem_cons.mp sent with rfl | later
      · cases filter filterExpression with
        | ok => exact .filterApplied filterExpression
        | error error => exact .rejected error
      · exact ih later

/-- Whatever it is told, a thread in this phase may yet send that it has stopped. -/
def Phase.reports : Phase → Bool
  | .reading | .failed => true
  | _ => false

section Advance
variable {running receiving : Bool} {answer : Answer} {thread : CaptureThread}

@[simp] theorem advance_flag : (thread.advance running receiving answer).1.flag = thread.flag := by
  unfold CaptureThread.advance
  repeat' split
  all_goals rfl

@[simp] theorem advance_disconnected :
    (thread.advance running receiving answer).1.disconnected = thread.disconnected := by
  unfold CaptureThread.advance
  repeat' split
  all_goals rfl

@[simp] theorem advance_localIps : (thread.advance running receiving answer).1.localIps = thread.localIps := by
  unfold CaptureThread.advance
  repeat' split
  all_goals rfl

theorem advance_status {status : Text} (sent : status ∈ (thread.advance running receiving answer).2.statuses) :
    status = captureStopped ∧ thread.phase = .failed ∨ Announcement status := by
  unfold CaptureThread.advance at sent
  cases phase : thread.phase with
  | spawned =>
    simp only [phase, CaptureTrace.ended, List.mem_singleton] at sent
    subst sent
    exact Or.inr (.capturing thread.interface)
  | handling =>
    simp only [phase] at sent
    split at sent
    · cases sent
    · exact Or.inr (handlePendingCommands_announcement sent)
  | reading | sending =>
    simp only [phase] at sent
    repeat' split at sent
    all_goals cases sent
  | failed =>
    simp only [phase, CaptureTrace.ended, List.mem_singleton] at sent
    exact Or.inl ⟨sent, rfl⟩
  | looping | exited =>
    simp only [phase] at sent
    cases sent

/-- A thread that is told to stop, and is not inside a read, reads no more. -/
theorem advance_reports (still : running = false) (disconnected : thread.disconnected = true)
    (silent : thread.phase.reports = false) :
    (thread.advance running receiving answer).1.phase.reports = false := by
  unfold CaptureThread.advance
  cases phase : thread.phase with
  | spawned | exited => simp [phase, Phase.reports]
  | looping => simp [still, Phase.reports]
  | handling =>
    simp only [disconnected]
    split
    · rfl
    · simp only
      split <;> rfl
  | sending delivery => cases receiving <;> rfl
  | reading | failed => simp [phase, Phase.reports] at silent

end Advance

def CaptureTrace.andThen (first rest : CaptureTrace) : CaptureTrace where
  deliveries := first.deliveries ++ rest.deliveries
  statuses := first.statuses ++ rest.statuses
  clearedRunning := first.clearedRunning || rest.clearedRunning

@[simp] theorem nothing_andThen (trace : CaptureTrace) : (CaptureTrace.ended []).andThen trace = trace := by
  cases trace
  rfl

@[simp] theorem andThen_nothing (trace : CaptureTrace) : trace.andThen (.ended []) = trace := by
  simp [CaptureTrace.andThen, CaptureTrace.ended]

theorem andThen_assoc (first second third : CaptureTrace) :
    (first.andThen second).andThen third = first.andThen (second.andThen third) := by
  simp [CaptureTrace.andThen, Bool.or_assoc]

/-- The next actions of a thread, as many as are counted, in a turn in which nobody else acts. -/
def CaptureThread.actions (turn : Turn) : Nat → CaptureThread → CaptureThread × CaptureTrace
  | 0, thread => (thread, .ended [])
  | n + 1, thread =>
    let (thread, first) := thread.advance turn.running turn.receiving ⟨turn.filter, turn.read⟩
    let (thread, rest) := thread.actions turn n
    (thread, first.andThen rest)

section Turns
variable {turn : Turn}

theorem actions_add {m n : Nat} {thread middle later : CaptureThread} {first rest : CaptureTrace}
    (one : thread.actions turn m = (middle, first)) (two : middle.actions turn n = (later, rest)) :
    thread.actions turn (m + n) = (later, first.andThen rest) := by
  induction m generalizing thread first with
  | zero =>
    cases one
    rw [Nat.zero_add, two, nothing_andThen]
  | succ m ih =>
    rw [Nat.succ_add]
    simp only [CaptureThread.actions] at one ⊢
    generalize thread.advance turn.running turn.receiving ⟨turn.filter, turn.read⟩ = acted at one ⊢
    obtain ⟨next, trace⟩ := acted
    cases split : next.actions turn m with
    | mk reached done =>
      simp only [split, Prod.mk.injEq] at one
      obtain ⟨rfl, rfl⟩ := one
      rw [ih split, andThen_assoc]

theorem actions_one (thread : CaptureThread) :
    thread.actions turn 1 = thread.advance turn.running turn.receiving ⟨turn.filter, turn.read⟩ := by
  simp only [CaptureThread.actions, andThen_nothing]

/-- From the queued commands on, the thread acts as `handle_pending_commands` does. -/
theorem actions_handling (turn : Turn) (thread : CaptureThread) (handling : thread.phase = .handling)
    (disconnected : thread.disconnected = turn.disconnected) :
    ∃ n later, thread.actions turn n =
        (later, .ended (handlePendingCommands turn.filter turn.disconnected thread.commands).2) ∧
      later.localIps = thread.localIps ∧
      later.phase = if (handlePendingCommands turn.filter turn.disconnected thread.commands).1 then .exited else .reading := by
  generalize queue : thread.commands = commands
  induction commands generalizing thread with
  | nil =>
    refine ⟨1, { thread with phase := if turn.disconnected then .exited else .reading }, ?_, rfl, rfl⟩
    rw [actions_one]
    simp only [CaptureThread.advance, handling, queue, disconnected, handlePendingCommands]
  | cons command commands ih =>
    cases command with
    | stop =>
      refine ⟨1, { thread with phase := .exited, commands }, ?_, rfl, rfl⟩
      rw [actions_one]
      simp only [CaptureThread.advance, handling, queue, handlePendingCommands, CaptureCommand.install, if_true]
    | applyFilter filterExpression =>
      let next : CaptureThread := { thread with
        commands
        filter := (CaptureCommand.applyFilter filterExpression).install turn.filter thread.filter }
      obtain ⟨n, later, rest, localIps, phase⟩ := ih next handling disconnected rfl
      have first : thread.actions turn 1 = (next, .ended
          (handlePendingCommands turn.filter false [.applyFilter filterExpression]).2) := by
        rw [actions_one]
        simp only [CaptureThread.advance, handling, queue, handlePendingCommands, next]
        rfl
      exact ⟨1 + n, later, actions_add first rest, localIps, phase⟩

/-- A turn of the loop is what the thread does until it is at the head of the loop again or has exited. -/
theorem runCaptureLoop_actions {thread : CaptureThread} (looping : thread.phase = .looping)
    (commands : thread.commands = turn.commands) (disconnected : thread.disconnected = turn.disconnected)
    (turns : List Turn) :
    ∃ n later trace, thread.actions turn n = (later, trace) ∧
      (later.phase = .looping ∧ runCaptureLoop thread.localIps (turn :: turns) =
          (runCaptureLoop thread.localIps turns).map (.after trace.deliveries trace.statuses) ∨
        later.phase = .exited ∧ runCaptureLoop thread.localIps (turn :: turns) = .ok trace) := by
  have head : thread.actions turn 1 =
      ({ thread with phase := if turn.running then .handling else .exited }, .ended []) := by
    rw [actions_one]
    simp only [CaptureThread.advance, looping]
  cases running : turn.running with
  | false =>
    refine ⟨1, _, _, head, Or.inr ⟨?_, ?_⟩⟩
    · simp [running]
    · simp [runCaptureLoop, running]
  | true =>
    rw [running] at head
    obtain ⟨n, middle, handled, localIps, phase⟩ := actions_handling turn
      { thread with phase := .handling } rfl disconnected
    have reached := actions_add head handled
    rw [nothing_andThen] at reached
    simp only [commands] at reached phase
    rw [runCaptureLoop]
    simp only [running]
    generalize handlePendingCommands turn.filter turn.disconnected turn.commands = pending at reached phase ⊢
    obtain ⟨stop, statuses⟩ := pending
    cases stop with
    | true => exact ⟨_, middle, _, reached, Or.inr ⟨phase, rfl⟩⟩
    | false =>
      have phase : middle.phase = .reading := phase
      have localIps : middle.localIps = thread.localIps := localIps
      cases read : turn.read with
      | timeoutExpired =>
        have back : middle.actions turn 1 = ({ middle with phase := .looping }, .ended []) := by
          rw [actions_one]
          simp only [CaptureThread.advance, phase, read]
        exact ⟨_, _, _, actions_add reached back, Or.inl ⟨rfl, by rw [andThen_nothing]; rfl⟩⟩
      | error =>
        have ended : middle.actions turn 2 = ({ middle with phase := .exited }, ⟨[], [captureStopped], true⟩) := by
          simp only [CaptureThread.actions, CaptureThread.advance, phase, read]
          rfl
        exact ⟨_, _, _, actions_add reached ended, Or.inr ⟨rfl, rfl⟩⟩
      | packet data len now =>
        rcases parsePacket_total len thread.localIps now data with skipped | ⟨key, carries, parsed⟩
        · have back : middle.actions turn 1 = ({ middle with phase := .looping }, .ended []) := by
            rw [actions_one]
            simp only [CaptureThread.advance, phase, read, localIps, skipped]
          refine ⟨_, _, _, actions_add reached back, Or.inl ⟨rfl, ?_⟩⟩
          simp only [skipped, andThen_nothing]
          rfl
        · simp only [parsed]
          let delivery : Delivery := ⟨data, len, ⟨key, len, now, classifyDirection thread.localIps key.srcIp key.dstIp⟩⟩
          have taken : middle.actions turn 1 = ({ middle with phase := .sending delivery }, .ended []) := by
            rw [actions_one]
            simp only [CaptureThread.advance, phase, read, localIps, parsed, delivery]
          have held := actions_add reached taken
          rw [andThen_nothing] at held
          cases receiving : turn.receiving with
          | true =>
            have back : ({ middle with phase := .sending delivery } : CaptureThread).actions turn 1 =
                ({ middle with phase := .looping }, ⟨[delivery], [], false⟩) := by
              rw [actions_one]
              simp only [CaptureThread.advance, receiving, if_true]
            refine ⟨_, _, _, actions_add held back, Or.inl ⟨rfl, ?_⟩⟩
            simp [CaptureTrace.andThen, CaptureTrace.ended, delivery]
          | false =>
            have ended : ({ middle with phase := .sending delivery } : CaptureThread).actions turn 1 =
                ({ middle with phase := .exited }, .ended []) := by
              rw [actions_one]
              simp only [CaptureThread.advance, receiving, Bool.false_eq_true, if_false]
            exact ⟨_, _, _, actions_add held ended, Or.inr ⟨rfl, by rw [andThen_nothing]; rfl⟩⟩

end Turns

end Netmon.Capture
