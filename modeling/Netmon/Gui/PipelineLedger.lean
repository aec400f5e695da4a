import Netmon.Gui.Pipeline

/-! No record is lost, repeated or overtaken between a capture thread and the aggregator,
in whatever order the app and the threads act. -/
namespace Netmon.Gui
open Library Capture Aggregator

/-! ### What a thread works on -/

section Work
variable {answer : Answer} {thread later : CaptureThread} {delivery : Delivery} {running receiving : Bool}

theorem accepts_some (accepted : accepts answer thread = some delivery) : thread.phase = .reading ∧ ∃ data len now record,
    answer.read = .packet data len now ∧ (parsePacket data len thread.localIps now).run = .ok (some record) ∧
      delivery = ⟨data, len, record⟩ := by
  unfold accepts at accepted
  split at accepted
  · rename_i data len now reading read
    split at accepted
    · rename_i record parsed
      cases accepted
      exact ⟨reading, data, len, now, record, read, parsed, rfl⟩
    · cases accepted
  · cases accepted

theorem accepts_other (other : thread.phase ≠ .reading) : accepts answer thread = none := by
  cases accepted : accepts answer thread with
  | none => rfl
  | some delivery => exact absurd (accepts_some accepted).1 other

theorem toSend_some : toSend thread = some delivery ↔ thread.phase = .sending delivery := by
  unfold toSend
  cases thread.phase <;> simp

theorem advance_sending (sending : toSend thread = some delivery) :
    (thread.advance running receiving answer).1 = { thread with phase := if receiving then .looping else .exited } := by
  cases receiving <;> simp [CaptureThread.advance, toSend_some.mp sending]

theorem advance_toSend : toSend (thread.advance running receiving answer).1 = accepts answer thread := by
  cases phase : thread.phase with
  | sending delivery =>
    rw [advance_sending (toSend_some.mpr phase), accepts_other (by simp [phase])]
    cases receiving <;> rfl
  | reading =>
    unfold CaptureThread.advance accepts
    simp only [phase]
    repeat' split
    all_goals first | rfl | simp_all [toSend]
  | handling =>
    rw [accepts_other (by simp [phase])]
    unfold CaptureThread.advance
    simp only [phase]
    split
    · cases thread.disconnected <;> rfl
    · simp only
      split <;> rfl
  | looping =>
    rw [accepts_other (by simp [phase])]
    cases running <;> simp [CaptureThread.advance, phase, toSend]
  | spawned | failed | exited =>
    rw [accepts_other (by simp [phase])]
    simp [CaptureThread.advance, phase, toSend]

/-- The same phase and addresses, whatever became of the commands. -/
def SameWork (thread later : CaptureThread) : Prop := later.phase = thread.phase ∧ later.localIps = thread.localIps

theorem SameWork.toSend (same : SameWork thread later) : toSend later = toSend thread := by
  unfold Gui.toSend
  rw [same.1]

end Work

/-! ### The app leaves the threads their work -/

/-- Every thread is still there with its work, and so is who receives the records. A new one has done nothing and
knows no address. -/
structure KeepsWork (monitor later : Monitor) : Prop where
  receiving : later.receiving = monitor.receiving
  thread : ∀ (session : Nat) thread, monitor.threads[session]? = some thread →
    ∃ kept, later.threads[session]? = some kept ∧ SameWork thread kept
  fresh : ∀ (session : Nat) thread, later.threads[session]? = some thread → monitor.threads[session]? = none →
    thread.phase = .spawned ∧ thread.localIps = []

section Keeps
variable {monitor later last : Monitor}

theorem KeepsWork.of_threads (receiving : later.receiving = monitor.receiving) (same : later.threads = monitor.threads) :
    KeepsWork monitor later := by
  refine ⟨receiving, ?_, ?_⟩
  · intro session thread known
    exact ⟨thread, same ▸ known, rfl, rfl⟩
  · intro session thread known unknown
    rw [same, unknown] at known
    cases known

theorem KeepsWork.trans (first : KeepsWork monitor later) (second : KeepsWork later last) : KeepsWork monitor last := by
  refine ⟨second.receiving.trans first.receiving, ?_, ?_⟩
  · intro session thread known
    obtain ⟨kept, there, phase, localIps⟩ := first.thread session thread known
    obtain ⟨final, found, phase', localIps'⟩ := second.thread session kept there
    exact ⟨final, found, phase'.trans phase, localIps'.trans localIps⟩
  · intro session thread known unknown
    cases between : later.threads[session]? with
    | none => exact second.fresh session thread known between
    | some kept =>
      obtain ⟨final, found, phase, localIps⟩ := second.thread session kept between
      obtain rfl : final = thread := Option.some.inj (found.symm.trans known)
      obtain ⟨spawned, untold⟩ := first.fresh session kept between unknown
      exact ⟨phase.trans spawned, localIps.trans untold⟩

theorem KeepsWork.set {session : Nat} {thread other : CaptureThread} (known : monitor.threads[session]? = some thread)
    (same : SameWork thread other) (receiving : later.receiving = monitor.receiving)
    (set : later.threads = monitor.threads.set session other) : KeepsWork monitor later := by
  refine ⟨receiving, ?_, ?_⟩
  · intro found earlier there
    rw [set, List.getElem?_set]
    by_cases equal : session = found
    · subst equal
      have within := (List.getElem?_eq_some_iff.mp known).1
      rw [known] at there
      cases there
      exact ⟨other, by simp [within], same⟩
    · rw [if_neg equal]
      exact ⟨earlier, there, rfl, rfl⟩
  · intro found later there unknown
    have beyond := List.getElem?_eq_none_iff.mp unknown
    have within := (List.getElem?_eq_some_iff.mp there).1
    rw [set, List.length_set] at within
    omega

theorem takeControl_work (monitor : Monitor) : KeepsWork monitor monitor.takeControl := by
  unfold Monitor.takeControl
  split
  · exact .of_threads rfl rfl
  · refine ⟨rfl, ?_, ?_⟩
    · intro session thread known
      simp only [List.getElem?_modify, known, Option.map_eq_map, Option.map_some]
      split
      · exact ⟨_, rfl, rfl, rfl⟩
      · exact ⟨_, rfl, rfl, rfl⟩
    · intro session thread known unknown
      simp only [List.getElem?_modify, unknown] at known
      cases known

theorem send_work {command : CaptureCommand} {session : Nat} (accepted : monitor.send command session = some later) :
    KeepsWork monitor later := by
  unfold Monitor.send at accepted
  split at accepted
  · cases accepted
  · rename_i thread known
    split at accepted
    · cases accepted
    · cases accepted
      let queued : CaptureThread := { thread with commands := thread.commands ++ [command] }
      have same : SameWork thread queued := ⟨rfl, rfl⟩
      exact .set known same rfl rfl

theorem requestStop_work (monitor : Monitor) : KeepsWork monitor monitor.requestStop := by
  unfold Monitor.requestStop
  split
  · exact .of_threads rfl rfl
  · rename_i session _
    cases accepted : monitor.send .stop session with
    | none => exact .of_threads rfl rfl
    | some sent => exact send_work accepted

theorem switchOff_work (monitor : Monitor) :
    KeepsWork monitor (monitor.storeRunning monitor.captureRunning).requestStop.takeControl := by
  have flag : KeepsWork monitor (monitor.storeRunning monitor.captureRunning) := .of_threads rfl rfl
  exact flag.trans ((requestStop_work _).trans (takeControl_work _))

theorem stopCapture_work (monitor : Monitor) : KeepsWork monitor monitor.stopCapture := by
  unfold Monitor.stopCapture
  split
  · exact .of_threads rfl rfl
  · exact (switchOff_work monitor).trans (.of_threads rfl rfl)

theorem startCapture_work (launch : Monitor.Launch) (monitor : Monitor) : KeepsWork monitor (monitor.startCapture launch) := by
  unfold Monitor.startCapture
  split
  · exact .of_threads rfl rfl
  · rename_i args started
    apply (takeControl_work monitor).trans
    refine ⟨rfl, ?_, ?_⟩
    · intro session thread known
      have within := (List.getElem?_eq_some_iff.mp known).1
      refine ⟨thread, ?_, rfl, rfl⟩
      simp only [List.getElem?_append_left within, known]
    · intro session thread known unknown
      have told : args.localIps = [] := startCapture_localIps (congrArg Prod.snd started)
      rw [List.getElem?_append_right (List.getElem?_eq_none_iff.mp unknown)] at known
      obtain rfl := List.mem_singleton.mp (List.mem_of_getElem? known)
      exact ⟨rfl, told⟩

theorem noteStopped_work (text : Text) (monitor : Monitor) : KeepsWork monitor (monitor.noteStopped text) := by
  unfold Monitor.noteStopped
  split
  · let idle : Monitor := { monitor with app := { monitor.app with isCapturing := false } }
    have flag : KeepsWork monitor (idle.storeRunning idle.captureRunning) := .of_threads rfl rfl
    exact flag.trans (takeControl_work _)
  · exact .of_threads rfl rfl

theorem receiveStatus_work (monitor : Monitor) : KeepsWork monitor monitor.receiveStatus := by
  unfold Monitor.receiveStatus
  split
  · exact .of_threads rfl rfl
  rename_i message rest _
  have noted : KeepsWork monitor (({ monitor with statusRx := rest } : Monitor).noteFilter message.text) := by
    unfold Monitor.noteFilter
    split <;> exact .of_threads rfl rfl
  exact noted.trans ((noteStopped_work message.text _).trans (.of_threads rfl rfl))

theorem applyBpfFilter_work (bpfInput : Text) (monitor : Monitor) : KeepsWork monitor (monitor.applyBpfFilter bpfInput) := by
  unfold Monitor.applyBpfFilter
  split
  · exact .of_threads rfl rfl
  simp only
  split
  · exact .of_threads rfl rfl
  split
  · rename_i sent accepted
    exact send_work accepted
  · exact .of_threads rfl rfl

theorem operate_work (operation : Operation) (monitor : Monitor) : KeepsWork monitor (monitor.operate operation) := by
  cases operation with
  | startCapture launch => exact startCapture_work launch monitor
  | stopCapture => exact stopCapture_work monitor
  | stopForInterfaceChange selected =>
    let chosen : Monitor := { monitor with app := { monitor.app with selectedIface := selected } }
    have selection : KeepsWork monitor chosen := .of_threads rfl rfl
    exact selection.trans (stopCapture_work chosen)
  | applyBpfFilter bpfInput => exact applyBpfFilter_work bpfInput monitor
  | receiveStatus => exact receiveStatus_work monitor

end Keeps

/-! ### One turn of a capture thread -/

namespace Pipeline
section Capture
variable {pipeline : Pipeline} {session : Nat} {answer : Answer}

theorem outcome_cases (pipeline : Pipeline) (session : Nat) :
    pipeline.monitor.threads[session]? = none ∧ pipeline.outcome session = .unknown ∨
    ∃ thread, pipeline.monitor.threads[session]? = some thread ∧
      ((∃ delivery, toSend thread = some delivery ∧ pipeline.monitor.receiving = true ∧
        pipeline.flow.queue.length = flowCapacity ∧ pipeline.outcome session = .blocked) ∨
      (∃ delivery flow, toSend thread = some delivery ∧ pipeline.monitor.receiving = true ∧
        flow.queue = pipeline.flow.queue ++ [delivery.record] ∧ pipeline.outcome session = .sent delivery flow) ∨
      (toSend thread = none ∨ pipeline.monitor.receiving = false) ∧ pipeline.outcome session = .advanced) := by
  unfold outcome
  cases known : pipeline.monitor.threads[session]? with
  | none => exact Or.inl ⟨rfl, rfl⟩
  | some thread =>
    refine Or.inr ⟨thread, rfl, ?_⟩
    simp only
    cases sending : toSend thread with
    | none => exact Or.inr (Or.inr ⟨Or.inl rfl, rfl⟩)
    | some delivery =>
      cases receiving : pipeline.monitor.receiving with
      | false => exact Or.inr (Or.inr ⟨Or.inr rfl, rfl⟩)
      | true =>
        cases sent : pipeline.flow.send? delivery.record with
        | none =>
          refine Or.inl ⟨delivery, rfl, rfl, Channel.send?_none.mp sent, ?_⟩
          simp only [if_true, sent]
        | some flow =>
          refine Or.inr (Or.inl ⟨delivery, flow, rfl, rfl, Channel.send?_some sent, ?_⟩)
          simp only [if_true, sent]

theorem pending_eq {thread : CaptureThread} (known : pipeline.monitor.threads[session]? = some thread) :
    pipeline.pending session = toSend thread := by
  rw [pending, known, Option.bind_some]

theorem captured_eq (answer : Answer) {thread : CaptureThread} (known : pipeline.monitor.threads[session]? = some thread) :
    ofSession session (pipeline.captured (.work (.capture session answer))) = (accepts answer thread).toList := by
  simp only [captured, known, Option.bind_some]
  cases accepts answer thread <;> simp [ofSession]

theorem pending_kept {later : Pipeline} (kept : KeepsWork pipeline.monitor later.monitor) (session : Nat) :
    later.pending session = pipeline.pending session := by
  unfold pending
  cases known : pipeline.monitor.threads[session]? with
  | some thread =>
    obtain ⟨same, there, work⟩ := kept.thread session thread known
    rw [there]
    exact work.toSend
  | none =>
    cases there : later.monitor.threads[session]? with
    | none => rfl
    | some thread =>
      obtain ⟨spawned, _⟩ := kept.fresh session thread there known
      simp [toSend, spawned]

/-- After a turn of a capture thread the others are where they were. -/
structure OthersKept (pipeline later : Pipeline) (session : Nat) : Prop where
  receiving : later.monitor.receiving = pipeline.monitor.receiving
  threads : ∀ other, other ≠ session → later.monitor.threads[other]? = pipeline.monitor.threads[other]?

theorem advance_receiving (monitor : Monitor) (session : Nat) (answer : Answer) :
    (monitor.advance session answer).receiving = monitor.receiving := by
  unfold Monitor.advance
  split
  · rfl
  · simp only
    split <;> rfl

theorem advance_others (monitor : Monitor) (answer : Answer) {other : Nat} (different : other ≠ session) :
    (monitor.advance session answer).threads[other]? = monitor.threads[other]? := by
  cases known : monitor.threads[session]? with
  | none => rw [Monitor.advance_unknown known]
  | some thread =>
    obtain ⟨_, threads, _⟩ := Monitor.advance_known known answer
    rw [threads, List.getElem?_set_ne (Ne.symm different)]

theorem advance_own {monitor : Monitor} {thread : CaptureThread} (known : monitor.threads[session]? = some thread)
    (answer : Answer) : (monitor.advance session answer).threads[session]? =
      some (thread.advance (monitor.isRunning thread) monitor.receiving answer).1 := by
  obtain ⟨_, threads, _⟩ := Monitor.advance_known known answer
  have within := (List.getElem?_eq_some_iff.mp known).1
  rw [threads, List.getElem?_set_self within]

/-- A thread that is blocked, or is not there, changes nothing; any other acts. -/
theorem capture_cases (pipeline : Pipeline) (session : Nat) (answer : Answer) :
    pipeline.capture session answer = pipeline ∨
      (pipeline.capture session answer).monitor = pipeline.monitor.advance session answer := by
  unfold capture
  cases pipeline.outcome session with
  | unknown | blocked => exact Or.inl rfl
  | sent | advanced => exact Or.inr rfl

theorem capture_others (pipeline : Pipeline) (session : Nat) (answer : Answer) :
    pipeline.OthersKept (pipeline.capture session answer) session := by
  rcases pipeline.capture_cases session answer with same | acted
  · rw [same]
    exact ⟨rfl, fun _ _ => rfl⟩
  · refine ⟨?_, fun other different => ?_⟩
    · rw [acted, advance_receiving]
    · rw [acted, advance_others _ _ different]

theorem OthersKept.pending {later : Pipeline} (kept : pipeline.OthersKept later session) {other : Nat}
    (different : other ≠ session) : later.pending other = pipeline.pending other := by
  unfold Pipeline.pending
  rw [kept.threads other different]

end Capture

/-! ### The ledger of a session -/

section Ledger
variable {pipeline : Pipeline} {session : Nat} {captured delivered : List Delivery}

/-- The thread of the session has left its loop. -/
def Ended (pipeline : Pipeline) (session : Nat) : Prop :=
  ∃ thread, pipeline.monitor.threads[session]? = some thread ∧ thread.phase = .exited

/-- All that a session has read is delivered, or in the hands of its thread, or was when nobody received any longer. -/
def Accounted (pipeline : Pipeline) (session : Nat) (captured delivered : List Delivery) : Prop :=
  captured = delivered ++ (pipeline.pending session).toList ∨
    pipeline.monitor.receiving = false ∧ pipeline.Ended session ∧ ∃ lost, captured = delivered ++ [lost]

theorem Accounted.kept {later : Pipeline} (before : pipeline.Accounted session captured delivered)
    (pending : later.pending session = pipeline.pending session)
    (receiving : pipeline.monitor.receiving = false → later.monitor.receiving = false)
    (ended : pipeline.Ended session → later.Ended session) : later.Accounted session captured delivered := by
  rcases before with held | ⟨gone, exited, lost⟩
  · exact Or.inl (pending ▸ held)
  · exact Or.inr ⟨receiving gone, ended exited, lost⟩

theorem Accounted.operated {later : Pipeline} (before : pipeline.Accounted session captured delivered)
    (kept : KeepsWork pipeline.monitor later.monitor) : later.Accounted session captured delivered := by
  apply before.kept (pending_kept kept session)
  · intro gone
    rw [kept.receiving, gone]
  · rintro ⟨thread, known, exited⟩
    obtain ⟨same, there, phase, _⟩ := kept.thread session thread known
    exact ⟨same, there, phase.trans exited⟩

theorem setStatuses (statuses : List Text) (monitor : Monitor) : ∃ status,
    statuses.foldl (fun monitor status => monitor.setStatus status) monitor =
      { monitor with app := { monitor.app with status } } := by
  induction statuses generalizing monitor with
  | nil => exact ⟨monitor.app.status, rfl⟩
  | cons first rest ih =>
    obtain ⟨status, same⟩ := ih (monitor.setStatus first)
    exact ⟨status, same⟩

theorem aggregate_monitor (pipeline : Pipeline) (found : Findings) : ∃ status,
    (pipeline.aggregate found).monitor = { pipeline.monitor with
      app := { pipeline.monitor.app with status }
      receiving := pipeline.monitor.receiving && decide ((pipeline.aggregate found).aggregator.phase ≠ .exited) } := by
  obtain ⟨status, same⟩ := setStatuses
    (pipeline.aggregator.advance pipeline.appRunning pipeline.flow.front? found).2.statuses pipeline.monitor
  refine ⟨status, ?_⟩
  unfold aggregate
  simp only [same]
  split
  · rename_i exited
    simp [exited]
  · rename_i going
    simp [going]

theorem aggregate_pending (found : Findings) (session : Nat) :
    (pipeline.aggregate found).pending session = pipeline.pending session := by
  obtain ⟨status, monitor⟩ := pipeline.aggregate_monitor found
  unfold Pipeline.pending
  rw [monitor]

theorem Accounted.aggregated (before : pipeline.Accounted session captured delivered) (found : Findings) :
    (pipeline.aggregate found).Accounted session captured delivered := by
  obtain ⟨status, monitor⟩ := pipeline.aggregate_monitor found
  apply before.kept
  · exact aggregate_pending found session
  · intro gone
    rw [monitor, gone]
    rfl
  · unfold Ended
    rw [monitor]
    exact id

/-- What a thread that acts has in its hands is what it has just read. -/
theorem capture_pending {thread : CaptureThread} (known : pipeline.monitor.threads[session]? = some thread)
    (acted : (pipeline.capture session answer).monitor = pipeline.monitor.advance session answer) :
    (pipeline.capture session answer).pending session = accepts answer thread := by
  rw [pending, acted, advance_own known, Option.bind_some, advance_toSend]

theorem ended_capture (answer : Answer) (ended : pipeline.Ended session) :
    ofSession session (pipeline.captured (.work (.capture session answer))) = [] ∧
      pipeline.delivered (.work (.capture session answer)) = [] ∧ (pipeline.capture session answer).Ended session := by
  obtain ⟨thread, known, exited⟩ := ended
  have outcome : pipeline.outcome session = .advanced := by
    unfold Pipeline.outcome
    simp only [known, toSend, exited]
  have acted : (pipeline.capture session answer).monitor = pipeline.monitor.advance session answer := by
    simp only [capture, outcome]
  refine ⟨?_, ?_, ?_⟩
  · rw [captured_eq answer known, accepts_other (by simp [exited]), Option.toList_none]
  · simp only [Pipeline.delivered, outcome]
  · unfold Ended
    rw [acted]
    refine ⟨_, advance_own known answer, ?_⟩
    simp only [CaptureThread.advance, exited]

theorem Accounted.captured_own (before : pipeline.Accounted session captured delivered)
    (answer : Answer) : (pipeline.capture session answer).Accounted session
      (captured ++ ofSession session (pipeline.captured (.work (.capture session answer))))
      (delivered ++ ofSession session (pipeline.delivered (.work (.capture session answer)))) := by
  have receiving := (pipeline.capture_others session answer).receiving
  rcases before with held | ⟨gone, ended, lost, left⟩
  · rcases pipeline.outcome_cases session with ⟨unknown, outcome⟩ | ⟨thread, known, acted⟩
    · have nothing : pipeline.captured (.work (.capture session answer)) = [] := by
        simp only [Pipeline.captured, unknown, Option.bind_none, Option.toList_none, List.map_nil]
      have none : pipeline.delivered (.work (.capture session answer)) = [] := by
        simp only [Pipeline.delivered, outcome]
      have same : pipeline.capture session answer = pipeline := by
        simp only [capture, outcome]
      rw [nothing, none, same]
      exact Or.inl (by simpa [ofSession] using held)
    rw [captured_eq answer known, held, pending_eq known]
    rcases acted with ⟨delivery, sending, _, _, outcome⟩ | ⟨delivery, flow, sending, _, _, outcome⟩ | ⟨idle, outcome⟩
    · have none : pipeline.delivered (.work (.capture session answer)) = [] := by
        simp only [Pipeline.delivered, outcome]
      have same : pipeline.capture session answer = pipeline := by
        simp only [capture, outcome]
      rw [none, same, accepts_other (by simp [toSend_some.mp sending]), Accounted, pending_eq known]
      exact Or.inl (by simp [ofSession])
    · have sent : pipeline.delivered (.work (.capture session answer)) = [(session, delivery)] := by
        simp only [Pipeline.delivered, outcome]
      have acted : (pipeline.capture session answer).monitor = pipeline.monitor.advance session answer := by
        simp only [capture, outcome]
      rw [sent, Accounted, capture_pending known acted, sending]
      exact Or.inl (by simp [ofSession])
    · have none : pipeline.delivered (.work (.capture session answer)) = [] := by
        simp only [Pipeline.delivered, outcome]
      have acted : (pipeline.capture session answer).monitor = pipeline.monitor.advance session answer := by
        simp only [capture, outcome]
      rw [none]
      cases sending : toSend thread with
      | none =>
        rw [Accounted, capture_pending known acted]
        exact Or.inl (by simp [ofSession])
      | some delivery =>
        -- The receiving end is gone, and the thread leaves with the packet in its hands.
        have gone : pipeline.monitor.receiving = false := by
          rcases idle with nothing | gone
          · rw [sending] at nothing
            cases nothing
          · exact gone
        rw [accepts_other (by simp [toSend_some.mp sending])]
        refine Or.inr ⟨receiving.trans gone, ?_, delivery, by simp [ofSession]⟩
        unfold Ended
        rw [acted]
        refine ⟨_, advance_own known _, ?_⟩
        rw [advance_sending sending, gone]
        rfl
  · obtain ⟨nothing, none, exited⟩ := ended_capture answer ended
    rw [nothing, none]
    exact Or.inr ⟨receiving.trans gone, exited, lost, by simpa [ofSession] using left⟩

theorem Accounted.captured_other (before : pipeline.Accounted session captured delivered) {other : Nat}
    (different : session ≠ other) (answer : Answer) : (pipeline.capture other answer).Accounted session
      (captured ++ ofSession session (pipeline.captured (.work (.capture other answer))))
      (delivered ++ ofSession session (pipeline.delivered (.work (.capture other answer)))) := by
  have kept := pipeline.capture_others other answer
  have nothing : ofSession session (pipeline.captured (.work (.capture other answer))) = [] := by
    simp only [Pipeline.captured]
    cases pipeline.monitor.threads[other]?.bind (accepts answer) <;> simp [ofSession, Ne.symm different]
  have none : ofSession session (pipeline.delivered (.work (.capture other answer))) = [] := by
    simp only [Pipeline.delivered]
    split <;> simp [ofSession, Ne.symm different]
  rw [nothing, none, List.append_nil, List.append_nil]
  apply before.kept (kept.pending different)
  · intro gone
    rw [kept.receiving, gone]
  · rintro ⟨thread, known, exited⟩
    exact ⟨thread, (kept.threads session different).trans known, exited⟩

theorem step_accounted (before : pipeline.Accounted session captured delivered) (event : PipelineEvent) :
    (pipeline.step event).Accounted session (captured ++ ofSession session (pipeline.captured event))
      (delivered ++ ofSession session (pipeline.delivered event)) := by
  cases event with
  | operate operation =>
    have kept := operate_work operation pipeline.monitor
    simp only [Pipeline.captured, Pipeline.delivered, ofSession, List.filter_nil, List.map_nil, List.append_nil, step]
    split
    · exact before.operated kept
    · exact before
  | drop =>
    have kept := switchOff_work pipeline.monitor
    simp only [Pipeline.captured, Pipeline.delivered, ofSession, List.filter_nil, List.map_nil, List.append_nil, step]
    split
    · exact before.operated kept
    · exact before
  | work turn =>
    cases turn with
    | aggregate found =>
      simp only [Pipeline.captured, Pipeline.delivered, ofSession, List.filter_nil, List.map_nil, List.append_nil]
      exact before.aggregated found
    | capture other answer =>
      by_cases same : session = other
      · subst same
        exact before.captured_own answer
      · exact before.captured_other same answer

end Ledger

/-! ### The labels -/

section Untold
variable {pipeline : Pipeline}

/-- No thread knows an address of the host, and so none has labelled a record by one. -/
structure Untold (pipeline : Pipeline) : Prop where
  localIps : ∀ (session : Nat) thread, pipeline.monitor.threads[session]? = some thread → thread.localIps = []
  accepted : ∀ (session : Nat) delivery, pipeline.pending session = some delivery → delivery.Accepted []

theorem accepts_accepted {answer : Answer} {thread : CaptureThread} {delivery : Delivery}
    (accepted : accepts answer thread = some delivery) : delivery.Accepted thread.localIps := by
  obtain ⟨_, data, len, now, record, _, parsed, rfl⟩ := accepts_some accepted
  exact ⟨now, parsed⟩

theorem Untold.kept {later : Pipeline} (untold : pipeline.Untold) (kept : KeepsWork pipeline.monitor later.monitor) :
    later.Untold where
  localIps session thread known := by
    cases earlier : pipeline.monitor.threads[session]? with
    | none => exact (kept.fresh session thread known earlier).2
    | some before =>
      obtain ⟨same, there, _, localIps⟩ := kept.thread session before earlier
      obtain rfl : same = thread := Option.some.inj (there.symm.trans known)
      exact localIps.trans (untold.localIps session before earlier)
  accepted session delivery held := untold.accepted session delivery (pending_kept kept session ▸ held)

theorem Untold.captured (untold : pipeline.Untold) (session : Nat) (answer : Answer) :
    (pipeline.capture session answer).Untold := by
  have others := pipeline.capture_others session answer
  rcases pipeline.capture_cases session answer with same | acted
  · rw [same]
    exact untold
  cases known : pipeline.monitor.threads[session]? with
  | none =>
    have unchanged : (pipeline.capture session answer).monitor = pipeline.monitor := by
      rw [acted, Monitor.advance_unknown known]
    refine ⟨by rw [unchanged]; exact untold.localIps, fun other delivery held => untold.accepted other delivery ?_⟩
    rwa [pending, unchanged] at held
  | some thread =>
    refine ⟨fun other later there => ?_, fun other delivery held => ?_⟩
    · by_cases same : other = session
      · subst same
        rw [acted, advance_own known] at there
        obtain rfl := Option.some.inj there
        exact advance_localIps.trans (untold.localIps other thread known)
      · exact untold.localIps other later (others.threads other same ▸ there)
    · by_cases same : other = session
      · subst same
        rw [capture_pending known acted] at held
        exact untold.localIps other thread known ▸ accepts_accepted held
      · exact untold.accepted other delivery (others.pending same ▸ held)

theorem step_untold (untold : pipeline.Untold) (event : PipelineEvent) : (pipeline.step event).Untold := by
  cases event with
  | operate operation =>
    unfold step
    simp only
    split
    · exact untold.kept (operate_work operation pipeline.monitor)
    · exact untold
  | drop =>
    unfold step
    simp only
    split
    · exact untold.kept (switchOff_work pipeline.monitor)
    · exact untold
  | work turn =>
    cases turn with
    | capture session answer => exact untold.captured session answer
    | aggregate found =>
      obtain ⟨status, monitor⟩ := pipeline.aggregate_monitor found
      refine ⟨fun session thread known => untold.localIps session thread ?_, fun session delivery held => ?_⟩
      · have there : (pipeline.aggregate found).monitor.threads[session]? = some thread := known
        rwa [monitor] at there
      · have there : (pipeline.aggregate found).pending session = some delivery := held
        rw [aggregate_pending] at there
        exact untold.accepted session delivery there

/-- A packet is delivered with the record that it is parsed to without an address to compare with. -/
theorem delivered_accepted (untold : pipeline.Untold) (event : PipelineEvent) :
    ∀ sent ∈ pipeline.delivered event, sent.2.Accepted [] := by
  intro sent member
  unfold delivered at member
  split at member
  · rename_i session answer
    rcases pipeline.outcome_cases session with ⟨_, outcome⟩ | ⟨thread, known, acted⟩
    · rw [outcome] at member
      cases member
    rcases acted with ⟨_, _, _, _, outcome⟩ | ⟨delivery, flow, sending, _, _, outcome⟩ | ⟨_, outcome⟩
    · rw [outcome] at member
      cases member
    · rw [outcome] at member
      obtain rfl := List.mem_singleton.mp member
      exact untold.accepted session delivery ((pending_eq known).trans sending)
    · rw [outcome] at member
      cases member
  · cases member

theorem run_accepted (devices : List Text) (start : LoopState) (events : List PipelineEvent) :
    ∀ sent ∈ observed step delivered (new devices start) events, sent.2.Accepted [] := by
  apply forall_observed step Untold (fun _ event untold => step_untold untold event) fun _ event untold =>
    delivered_accepted untold event
  refine ⟨fun session thread known => ?_, fun session delivery held => ?_⟩
  · cases known
  · cases held

end Untold

/-! ### The channel -/

section Flow
variable {pipeline : Pipeline}

theorem advance_received (running : Bool) (front : Option FlowRecord) (found : Findings) (thread : AggregatorThread) :
    (thread.advance running front found).2.received = [] ∨
      ∃ record, front = some record ∧ (thread.advance running front found).2.received = [record] := by
  unfold AggregatorThread.advance
  cases thread.phase with
  | spawned =>
    simp only
    split <;> exact Or.inl rfl
  | looping =>
    simp only
    split <;> exact Or.inl rfl
  | draining =>
    cases front with
    | none => exact Or.inl rfl
    | some record => exact Or.inr ⟨record, rfl, rfl⟩
  | maintaining | publishing | exited => exact Or.inl rfl

theorem step_fifo (pipeline : Pipeline) (event : PipelineEvent) :
    pipeline.flow.queue ++ (pipeline.delivered event).map (·.2.record) =
      pipeline.received event ++ (pipeline.step event).flow.queue := by
  cases event with
  | operate operation =>
    simp only [delivered, received, step, List.map_nil, List.append_nil, List.nil_append]
    split <;> rfl
  | drop =>
    simp only [delivered, received, step, List.map_nil, List.append_nil, List.nil_append]
    split <;> rfl
  | work turn =>
    cases turn with
    | aggregate found =>
      simp only [delivered, received, step, work, aggregate, List.map_nil, List.append_nil]
      rcases advance_received pipeline.appRunning pipeline.flow.front? found pipeline.aggregator with
        nothing | ⟨record, front, taken⟩
      · rw [nothing, if_pos rfl, List.nil_append]
      · rw [taken, if_neg (List.cons_ne_nil record []), Channel.front?_rest front]
        rfl
    | capture session answer =>
      simp only [delivered, received, step, work, capture, List.nil_append]
      rcases pipeline.outcome_cases session with ⟨_, outcome⟩ | ⟨thread, _, acted⟩
      · rw [outcome]
        exact List.append_nil _
      rcases acted with ⟨_, _, _, _, outcome⟩ | ⟨delivery, flow, _, _, queue, outcome⟩ | ⟨_, outcome⟩
      · rw [outcome]
        exact List.append_nil _
      · rw [outcome]
        exact queue.symm
      · rw [outcome]
        exact List.append_nil _

end Flow

/-! ### Runs -/

section Runs
variable (devices : List Text) (start : LoopState) (events : List PipelineEvent)

theorem run_accounted (session : Nat) : (run step (new devices start) events).Accounted session
    (ofSession session (observed step captured (new devices start) events))
    (ofSession session (observed step delivered (new devices start) events)) := by
  induction events using List.reverseRecOn with
  | nil => exact Or.inl rfl
  | append_singleton events event ih =>
    have after := step_accounted ih event
    rw [observed_append, observed_append, ofSession_append, ofSession_append, run_append]
    simpa [observed] using after

theorem run_delivered : (observed step delivered (new devices start) events).map (·.2.record) =
    observed step received (new devices start) events ++ (run step (new devices start) events).flow.queue := by
  have fifo := run_fifo step_fifo (new devices start) events
  rw [observed_map, ← fifo]
  rfl

theorem run_held (session : Nat) : ∃ held,
    ofSession session (observed step captured (new devices start) events) =
      ofSession session (observed step delivered (new devices start) events) ++ held ∧
    held.length ≤ 1 ∧ ((run step (new devices start) events).monitor.receiving = true →
      held = ((run step (new devices start) events).pending session).toList) := by
  obtain held | ⟨gone, _, lost, left⟩ := run_accounted devices start events session
  · refine ⟨_, held, ?_, fun _ => rfl⟩
    cases (run step (new devices start) events).pending session <;> simp
  · refine ⟨[lost], left, Nat.le_refl _, ?_⟩
    intro receiving
    rw [gone] at receiving
    cases receiving

/-- Whatever the app and the threads do and in whatever order, the records that got into the channel are those that the
aggregator has received, in that order, and then those that the channel holds, never more than its capacity. Of each
session they are the packets that it has read, in that order, but for one that its thread still has in its hands, or
had when the receiving end was gone. -/
theorem pipeline_conserves (devices : List Text) (start : LoopState) (events : List PipelineEvent) :
    let pipeline := run step (new devices start) events
    (observed step delivered (new devices start) events).map (·.2.record) =
        observed step received (new devices start) events ++ pipeline.flow.queue ∧
      pipeline.flow.queue.length ≤ flowCapacity ∧
      ∀ session, ∃ held,
        ofSession session (observed step captured (new devices start) events) =
          ofSession session (observed step delivered (new devices start) events) ++ held ∧
        held.length ≤ 1 ∧ (pipeline.monitor.receiving = true → held = (pipeline.pending session).toList) := by
  intro pipeline
  exact ⟨run_delivered devices start events, pipeline.flow.bounded, fun session => run_held devices start events session⟩

end Runs
end Pipeline
end Netmon.Gui
