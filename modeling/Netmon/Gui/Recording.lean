import Netmon.Capture.Recording
import Netmon.Gui.ExportCsv
import Netmon.Gui.Shutdown

/-! The recordings of all sessions, and their export. The program runs as before, and
beside it every session has the savefile that its thread writes. -/
namespace Netmon.Gui
open Library Capture Aggregator

namespace Pipeline

def readPacket (pipeline : Pipeline) (session : Nat) (answer : Answer) : Option Packet :=
  pipeline.monitor.threads[session]?.bind (Capture.readPacket answer)

/-- The thread of the session leaves its loop in this turn. -/
def leaves (pipeline : Pipeline) (session : Nat) (answer : Answer) : Bool :=
  match pipeline.monitor.threads[session]?, (pipeline.capture session answer).monitor.threads[session]? with
  | some before, some after => before.phase ≠ .exited && after.phase = .exited
  | _, _ => false

end Pipeline

structure Recorder where
  pipeline : Pipeline
  recordings : Nat → Option Recording

structure RecorderEvent where
  event : PipelineEvent
  /-- Whether the flush after a hundred packets succeeds, and that at the end. -/
  atHundred : Bool
  atExit : Bool

def pcapExported (home : Text) (timestamp : Nat) : Text :=
  "Exported PCAP to ".toList ++ (home ++ "/".toList ++ pcapExportPrefix ++ decimal timestamp ++ ".pcap".toList)

namespace Recorder

def new (devices : List Text) (start : LoopState) : Recorder where
  pipeline := .new devices start
  recordings _ := none

/-- The recording of the session that a start begins, if its savefile can be opened. -/
def begin (launch : Monitor.Launch) (recorder : Recorder) : Nat → Option Recording :=
  match (launch.started recorder.pipeline.monitor.app).2 with
  | none => recorder.recordings
  | some args =>
    let recording := if launch.savefile = none then args.recordingPath.map Recording.opened else none
    Function.update recorder.recordings recorder.pipeline.monitor.threads.length recording

def record (recorder : Recorder) (event : RecorderEvent) : Nat → Option Recording :=
  match event.event with
  | .operate (.startCapture launch) => if recorder.pipeline.appRunning then recorder.begin launch else recorder.recordings
  | .work (.capture session answer) =>
    Function.update recorder.recordings session ((recorder.recordings session).map
      (Recording.turn (recorder.pipeline.readPacket session answer) (recorder.pipeline.leaves session answer)
        event.atHundred event.atExit))
  | _ => recorder.recordings

def step (recorder : Recorder) (event : RecorderEvent) : Recorder where
  pipeline := recorder.pipeline.step event.event
  recordings := recorder.record event

/-- The packets that are read, whatever becomes of them. -/
def read (recorder : Recorder) (event : RecorderEvent) : List (Nat × Packet) :=
  match event.event with
  | .work (.capture session answer) => (recorder.pipeline.readPacket session answer).toList.map (session, ·)
  | _ => []

def captured (recorder : Recorder) (event : RecorderEvent) : List (Nat × Delivery) :=
  recorder.pipeline.captured event.event

/-- The latest session whose recording has this path. It has truncated what an earlier one left. -/
def sessionAt (recorder : Recorder) (path : Text) : Option Nat :=
  (List.range recorder.pipeline.monitor.threads.length).reverse.find? fun session =>
    (recorder.recordings session).any fun recording => recording.path = path

def file (writer : SavefileWriter) (recorder : Recorder) (path : Text) : Option Bytes :=
  ((recorder.sessionAt path).bind recorder.recordings).map fun recording => writer.file recording.calls

/-- The bytes of the copy, if one is made, and the status. -/
def exportPcap (writer : SavefileWriter) (home : Text) (timestamp : Nat) (copy : Except Text Unit)
    (recorder : Recorder) : Option Bytes × Text :=
  match recorder.pipeline.monitor.app.captureRecordingPath with
  | none => (none, "PCAP export unavailable: start capture first".toList)
  | some sourcePath =>
    match recorder.file writer sourcePath with
    | none => (none, "PCAP export unavailable: no recording file yet".toList)
    | some bytes =>
      match copy with
      | .error error => (none, "PCAP export failed: ".toList ++ error)
      | .ok () => (some bytes, pcapExported home timestamp)

end Recorder

def packetsOf (session : Nat) (log : List (Nat × Packet)) : List Packet :=
  (log.filter (·.1 = session)).map (·.2)

@[simp] theorem packetsOf_append (session : Nat) (first second : List (Nat × Packet)) :
    packetsOf session (first ++ second) = packetsOf session first ++ packetsOf session second := by
  simp [packetsOf]

theorem packetsOf_own (session : Nat) (packet : Option Packet) :
    packetsOf session (packet.toList.map (session, ·)) = packet.toList := by
  cases packet <;> simp [packetsOf]

theorem packetsOf_other {session other : Nat} (different : session ≠ other) (packet : Option Packet) :
    packetsOf session (packet.toList.map (other, ·)) = [] := by
  cases packet <;> simp [packetsOf, Ne.symm different]

theorem readPacket_accepts {answer : Answer} {thread : CaptureThread} {delivery : Delivery}
    (accepted : accepts answer thread = some delivery) :
    Capture.readPacket answer thread = some ⟨delivery.packetBytes, delivery.packetLen⟩ := by
  obtain ⟨reading, data, len, now, record, read, _, rfl⟩ := accepts_some accepted
  simp only [Capture.readPacket, reading, read]

def frame (delivery : Delivery) : Packet := ⟨delivery.packetBytes, delivery.packetLen⟩

theorem captured_read (recorder : Recorder) (event : RecorderEvent) (session : Nat) :
    ((ofSession session (recorder.captured event)).map frame).Sublist (packetsOf session (recorder.read event)) := by
  obtain ⟨event, atHundred, atExit⟩ := event
  cases event with
  | operate operation => exact List.nil_sublist _
  | drop => exact List.nil_sublist _
  | work turn =>
    cases turn with
    | aggregate found => exact List.nil_sublist _
    | capture other answer =>
      simp only [Recorder.captured, Pipeline.captured, Recorder.read, Pipeline.readPacket]
      cases recorder.pipeline.monitor.threads[other]? with
      | none => exact List.nil_sublist _
      | some thread =>
        simp only [Option.bind_some]
        cases accepted : accepts answer thread with
        | none => exact List.nil_sublist _
        | some delivery =>
          rw [readPacket_accepts accepted]
          by_cases same : other = session <;> simp [ofSession, packetsOf, frame, same]

namespace Recorder

/-- A recording belongs to a thread that is there, and has what this has read. -/
structure Kept (recorder : Recorder) (log : List (Nat × Packet)) : Prop where
  thread : ∀ session recording, recorder.recordings session = some recording →
    ∃ thread, recorder.pipeline.monitor.threads[session]? = some thread ∧
      recording.Batched (packetsOf session log) (decide (thread.phase = .exited))
  silent : ∀ session, recorder.pipeline.monitor.threads[session]? = none → packetsOf session log = []

/-- The threads stay, and each is where it was. -/
def Stay (pipeline later : Pipeline) : Prop :=
  ∀ (session : Nat) thread, pipeline.monitor.threads[session]? = some thread →
    ∃ kept, later.monitor.threads[session]? = some kept ∧ SameWork thread kept

variable {recorder : Recorder} {log : List (Nat × Packet)} {later : Pipeline}

theorem Kept.kept (before : recorder.Kept log) (stay : Stay recorder.pipeline later) :
    Recorder.Kept ⟨later, recorder.recordings⟩ log where
  thread session recording there := by
    obtain ⟨thread, known, batched⟩ := before.thread session recording there
    obtain ⟨same, found, phase, _⟩ := stay session thread known
    exact ⟨same, found, phase ▸ batched⟩
  silent session unknown := by
    apply before.silent
    cases known : recorder.pipeline.monitor.threads[session]? with
    | none => rfl
    | some thread =>
      obtain ⟨same, found, _⟩ := stay session thread known
      rw [unknown] at found
      cases found

theorem begin_cases (launch : Monitor.Launch) (recorder : Recorder) :
    recorder.begin launch = recorder.recordings ∨
      ((recorder.pipeline.monitor.startCapture launch).threads[recorder.pipeline.monitor.threads.length]?).isSome = true ∧
        ∃ recording, recorder.begin launch =
          Function.update recorder.recordings recorder.pipeline.monitor.threads.length recording ∧
          ∀ fresh, recording = some fresh → ∃ path, fresh = .opened path := by
  unfold begin
  cases started : launch.started recorder.pipeline.monitor.app with
  | mk app begun =>
    cases begun with
    | none => exact Or.inl rfl
    | some args =>
      refine Or.inr ⟨?_, _, rfl, ?_⟩
      · simp only [Monitor.startCapture, started]
        rw [List.getElem?_append_right (by simp)]
        simp
      · intro fresh there
        split at there
        · obtain ⟨path, _, rfl⟩ := Option.map_eq_some_iff.mp there
          exact ⟨path, rfl⟩
        · cases there

theorem Kept.started (before : recorder.Kept log) (launch : Monitor.Launch) (later : Pipeline)
    (monitor : later.monitor = recorder.pipeline.monitor.startCapture launch) :
    Recorder.Kept ⟨later, recorder.begin launch⟩ log := by
  have work : KeepsWork recorder.pipeline.monitor later.monitor :=
    monitor ▸ startCapture_work launch recorder.pipeline.monitor
  have others := before.kept work.thread
  obtain same | ⟨added, recording, begun, fresh⟩ := recorder.begin_cases launch
  · rw [same]
    exact others
  · rw [begun]
    refine ⟨?_, others.silent⟩
    intro session found there
    by_cases own : session = recorder.pipeline.monitor.threads.length
    · subst own
      have absent : recorder.pipeline.monitor.threads[recorder.pipeline.monitor.threads.length]? = none :=
        List.getElem?_eq_none (Nat.le_refl _)
      rw [← monitor] at added
      obtain ⟨thread, known⟩ := Option.isSome_iff_exists.mp added
      simp only [Function.update_self] at there
      obtain ⟨path, rfl⟩ := fresh found there
      refine ⟨thread, known, ?_⟩
      rw [before.silent _ absent, (work.fresh _ thread known absent).1]
      exact Recording.opened_batched path
    · simp only [Function.update_of_ne own] at there
      exact others.thread session found there

theorem readPacket_known {pipeline : Pipeline} {session : Nat} {answer : Answer} {packet : Packet}
    (read : pipeline.readPacket session answer = some packet) :
    ∃ thread, pipeline.monitor.threads[session]? = some thread ∧ thread.phase = .reading := by
  obtain ⟨thread, known, taken⟩ := Option.bind_eq_some_iff.mp read
  refine ⟨thread, known, ?_⟩
  by_contra other
  rw [readPacket_other other] at taken
  cases taken

theorem capture_known {pipeline : Pipeline} {session : Nat} {thread : CaptureThread}
    (known : pipeline.monitor.threads[session]? = some thread) (other : Nat) (answer : Answer) :
    ∃ after, (pipeline.capture other answer).monitor.threads[session]? = some after := by
  have length := List.getElem?_eq_some_iff.mp known
  obtain ⟨within, _⟩ := length
  rw [← Pipeline.capture_length pipeline other answer] at within
  exact ⟨_, List.getElem?_eq_getElem within⟩

theorem ended_turn {pipeline : Pipeline} {session : Nat} {thread : CaptureThread}
    (known : pipeline.monitor.threads[session]? = some thread) (ended : thread.phase = .exited) (answer : Answer) :
    pipeline.readPacket session answer = none ∧ pipeline.leaves session answer = false := by
  constructor
  · cases read : pipeline.readPacket session answer with
    | none => rfl
    | some packet =>
      obtain ⟨other, there, reading⟩ := readPacket_known read
      rw [known] at there
      cases there
      rw [ended] at reading
      cases reading
  · unfold Pipeline.leaves
    rw [known]
    split
    · rename_i before after first _
      cases first
      simp [ended]
    · rfl

theorem leaves_of {pipeline : Pipeline} {session : Nat} {thread after : CaptureThread} {answer : Answer}
    (known : pipeline.monitor.threads[session]? = some thread) (going : thread.phase ≠ .exited)
    (there : (pipeline.capture session answer).monitor.threads[session]? = some after) :
    pipeline.leaves session answer = decide (after.phase = .exited) := by
  unfold Pipeline.leaves
  simp [known, there, going]

theorem turn_batched {pipeline : Pipeline} {session : Nat} {thread : CaptureThread} {recording : Recording}
    {packets : List Packet} (known : pipeline.monitor.threads[session]? = some thread)
    (batched : recording.Batched packets (decide (thread.phase = .exited))) (answer : Answer) (atHundred atExit : Bool) :
    ∃ after, (pipeline.capture session answer).monitor.threads[session]? = some after ∧
      (recording.turn (pipeline.readPacket session answer) (pipeline.leaves session answer) atHundred atExit).Batched
        (packets ++ (pipeline.readPacket session answer).toList) (decide (after.phase = .exited)) := by
  by_cases ended : thread.phase = .exited
  · obtain ⟨after, there, exited⟩ := (Pipeline.ended_capture answer ⟨thread, known, ended⟩).2.2
    obtain ⟨nothing, stays⟩ := ended_turn known ended answer
    refine ⟨after, there, ?_⟩
    rw [nothing, stays, Option.toList_none, List.append_nil, exited]
    rwa [ended] at batched
  · obtain ⟨after, there⟩ := capture_known known session answer
    refine ⟨after, there, ?_⟩
    rw [leaves_of known ended there]
    rw [decide_eq_false ended] at batched
    exact batched.turn _ _ _ _

theorem Kept.captured (before : recorder.Kept log) (session : Nat) (answer : Answer) (atHundred atExit : Bool) :
    (recorder.step ⟨.work (.capture session answer), atHundred, atExit⟩).Kept
      (log ++ recorder.read ⟨.work (.capture session answer), atHundred, atExit⟩) where
  thread found recording there := by
    simp only [step, record] at there
    simp only [read]
    rw [packetsOf_append]
    by_cases own : found = session
    · subst own
      rw [Function.update_self] at there
      obtain ⟨old, held, rfl⟩ := Option.map_eq_some_iff.mp there
      obtain ⟨thread, known, batched⟩ := before.thread found old held
      rw [packetsOf_own]
      exact turn_batched known batched answer atHundred atExit
    · rw [Function.update_of_ne own] at there
      obtain ⟨thread, known, batched⟩ := before.thread found recording there
      rw [packetsOf_other own, List.append_nil]
      refine ⟨thread, ?_, batched⟩
      exact ((recorder.pipeline.capture_others session answer).threads found own).trans known
  silent found unknown := by
    have absent : recorder.pipeline.monitor.threads[found]? = none := by
      cases known : recorder.pipeline.monitor.threads[found]? with
      | none => rfl
      | some thread =>
        obtain ⟨after, there⟩ := capture_known known session answer
        simp only [step, Pipeline.step, Pipeline.work] at unknown
        rw [unknown] at there
        cases there
    rw [packetsOf_append, before.silent found absent, List.nil_append]
    simp only [read]
    by_cases own : found = session
    · subst own
      rw [packetsOf_own]
      cases taken : recorder.pipeline.readPacket found answer with
      | none => rfl
      | some packet =>
        obtain ⟨thread, known, _⟩ := readPacket_known taken
        rw [absent] at known
        cases known
    · exact packetsOf_other own _

theorem Stay.operate (pipeline : Pipeline) (operation : Operation) :
    Stay pipeline { pipeline with monitor := pipeline.monitor.operate operation } :=
  (operate_work operation pipeline.monitor).thread

theorem Stay.drop (pipeline : Pipeline) : Stay pipeline pipeline.drop := (switchOff_work pipeline.monitor).thread

theorem Stay.aggregate (pipeline : Pipeline) (found : Findings) : Stay pipeline (pipeline.aggregate found) := by
  intro session thread known
  obtain ⟨status, monitor⟩ := pipeline.aggregate_monitor found
  rw [monitor]
  exact ⟨thread, known, rfl, rfl⟩

theorem Stay.refl (pipeline : Pipeline) : Stay pipeline pipeline := fun _ thread known => ⟨thread, known, rfl, rfl⟩

/-- What an event is to the recordings: a start, the turn of a thread, or nothing. -/
theorem event_cases (recorder : Recorder) (event : RecorderEvent) :
    (∃ launch, recorder.pipeline.appRunning = true ∧ event.event = .operate (.startCapture launch)) ∨
    (∃ session answer, event.event = .work (.capture session answer)) ∨
    (recorder.record event = recorder.recordings ∧ recorder.read event = [] ∧
      Stay recorder.pipeline (recorder.pipeline.step event.event)) := by
  obtain ⟨event, atHundred, atExit⟩ := event
  cases event with
  | drop =>
    refine Or.inr (Or.inr ⟨rfl, rfl, ?_⟩)
    simp only [Pipeline.step]
    split
    · exact .drop _
    · exact .refl _
  | work turn =>
    cases turn with
    | aggregate found => exact Or.inr (Or.inr ⟨rfl, rfl, .aggregate _ found⟩)
    | capture session answer => exact Or.inr (Or.inl ⟨session, answer, rfl⟩)
  | operate operation =>
    cases running : recorder.pipeline.appRunning with
    | false =>
      refine Or.inr (Or.inr ⟨?_, rfl, ?_⟩)
      · unfold record
        simp only [running]
        split
        · rfl
        · rename_i same
          cases same
        · rfl
      · simp only [Pipeline.step, running]
        exact .refl _
    | true =>
      have stay : Stay recorder.pipeline (recorder.pipeline.step (.operate operation)) := by
        simp only [Pipeline.step, running]
        exact .operate _ operation
      cases operation with
      | startCapture launch => exact Or.inl ⟨launch, rfl, rfl⟩
      | stopCapture => exact Or.inr (Or.inr ⟨rfl, rfl, stay⟩)
      | stopForInterfaceChange selected => exact Or.inr (Or.inr ⟨rfl, rfl, stay⟩)
      | applyBpfFilter bpfInput => exact Or.inr (Or.inr ⟨rfl, rfl, stay⟩)
      | receiveStatus => exact Or.inr (Or.inr ⟨rfl, rfl, stay⟩)

theorem started_step (launch : Monitor.Launch) {event : RecorderEvent} (running : recorder.pipeline.appRunning = true)
    (starts : event.event = .operate (.startCapture launch)) :
    recorder.step event = ⟨recorder.pipeline.step event.event, recorder.begin launch⟩ ∧
      (recorder.pipeline.step event.event).monitor = recorder.pipeline.monitor.startCapture launch ∧
      recorder.read event = [] := by
  simp only [step, record, read, starts, running, Pipeline.step, Monitor.operate, if_true, and_self]

theorem step_kept (before : recorder.Kept log) (event : RecorderEvent) :
    (recorder.step event).Kept (log ++ recorder.read event) := by
  obtain ⟨launch, running, starts⟩ | ⟨session, answer, turns⟩ | ⟨recordings, silent, stay⟩ := recorder.event_cases event
  · obtain ⟨next, monitor, silent⟩ := started_step launch running starts
    rw [next, silent, List.append_nil]
    exact before.started launch _ monitor
  · obtain ⟨event, atHundred, atExit⟩ := event
    cases turns
    exact before.captured session answer atHundred atExit
  · rw [silent, List.append_nil, step, recordings]
    exact before.kept stay

section Runs
variable (devices : List Text) (start : LoopState) (events : List RecorderEvent)

theorem run_kept : (run step (new devices start) events).Kept (observed step read (new devices start) events) := by
  induction events using List.reverseRecOn with
  | nil =>
    refine ⟨?_, fun _ _ => rfl⟩
    intro session recording there
    cases there
  | append_singleton events event ih =>
    rw [run_append, observed_append]
    simpa [observed] using step_kept ih event

/-- The program itself runs as it does without a look at the recordings. -/
theorem observed_captured (recorder : Recorder) (session : Nat) :
    ((ofSession session (observed Pipeline.step Pipeline.captured recorder.pipeline
        (events.map RecorderEvent.event))).map frame).Sublist
      (packetsOf session (observed step read recorder events)) := by
  induction events generalizing recorder with
  | nil => exact List.nil_sublist _
  | cons event events ih =>
    rw [List.map_cons, observed, observed, ofSession_append, packetsOf_append, List.map_append]
    exact (captured_read recorder event session).append (ih (recorder.step event))

end Runs

/-- The thread of the session has left its loop. -/
def ended (recorder : Recorder) (session : Nat) : Bool :=
  recorder.pipeline.monitor.threads[session]?.any fun thread => decide (thread.phase = .exited)

theorem Kept.batched (holds : recorder.Kept log) {session : Nat} {recording : Recording}
    (there : recorder.recordings session = some recording) :
    recording.Batched (packetsOf session log) (recorder.ended session) := by
  obtain ⟨thread, known, batched⟩ := holds.thread session recording there
  unfold ended
  rwa [known]

/-- Whatever the program does and in whatever order, the calls of a session on its savefile write all packets that it
has read, in that order, whether or not they became records, with a flush after each hundred and one at the end. As
long as none of these fails, the file has what `UpToDate` says, by what libpcap promises. -/
theorem recording_faithful (writer : SavefileWriter) (lawful : writer.Lawful) (devices : List Text) (start : LoopState)
    (events : List RecorderEvent) (session : Nat) :
    let packets := packetsOf session (observed step read (new devices start) events)
    let recorder := run step (new devices start) events
    ((ofSession session (observed Pipeline.step Pipeline.captured (Pipeline.new devices start)
        (events.map RecorderEvent.event))).map frame).Sublist packets ∧
      ∀ recording ∈ recorder.recordings session, recording.Batched packets (recorder.ended session) ∧
        (.flush false ∉ recording.calls →
          Recording.UpToDate writer packets (recorder.ended session) (writer.file recording.calls)) := by
  intro packets recorder
  have kept := run_kept devices start events
  refine ⟨observed_captured events (new devices start) session, ?_⟩
  intro recording there
  have batched := kept.batched there
  exact ⟨batched, batched.upToDate lawful⟩

def frameRead : Answer := ⟨fun _ => .ok (), .packet requestFrame 60 0⟩

/-- A session reads one packet and is stopped. -/
def recordedRun : List RecorderEvent :=
  ([.operate (.startCapture ⟨"/root".toList, 0, fun _ => .ok (), none⟩), .work (.capture 0 Pipeline.quiet),
    .work (.capture 0 Pipeline.quiet), .work (.capture 0 Pipeline.quiet), .work (.capture 0 frameRead),
    .work (.capture 0 Pipeline.quiet), .operate .stopCapture,
    .work (.capture 0 Pipeline.quiet)] : List PipelineEvent).map (⟨·, true, true⟩)

def recorded : Recorder := run step (new ["eth0".toList] (.start 0 0 none)) recordedRun

def finished : Recording :=
  ⟨"/root/netmon_capture_0.pcap".toList, [.write ⟨requestFrame, 60⟩, .flush true], 1⟩

theorem recorded_finished : recorded.recordings 0 = some finished ∧ recorded.ended 0 = true ∧
    packetsOf 0 (observed step read (new ["eth0".toList] (.start 0 0 none)) recordedRun) = [⟨requestFrame, 60⟩] := by
  decide +kernel

theorem recording_faithful_stopped : blockWriter.file finished.calls = blockWriter.image [⟨requestFrame, 60⟩] := by
  obtain ⟨there, ended, packets⟩ := recorded_finished
  obtain ⟨_, files⟩ := recording_faithful blockWriter blockWriter_lawful ["eth0".toList] (.start 0 0 none) recordedRun 0
  have upToDate := (files finished there).2 (by decide)
  exact packets ▸ upToDate.whole ended

theorem sessionAt_some {recorder : Recorder} {path : Text} {session : Nat}
    (found : recorder.sessionAt path = some session) :
    ∃ recording, recorder.recordings session = some recording ∧ recording.path = path := by
  have passed := List.find?_some found
  cases there : recorder.recordings session with
  | none => simp [there] at passed
  | some recording =>
    rw [there] at passed
    exact ⟨recording, rfl, of_decide_eq_true passed⟩

theorem Kept.sessionAt_none (holds : recorder.Kept log) {path : Text} (absent : recorder.sessionAt path = none)
    {session : Nat} {recording : Recording} (there : recorder.recordings session = some recording) :
    recording.path ≠ path := by
  intro same
  obtain ⟨thread, known, _⟩ := holds.thread session recording there
  have within := (List.getElem?_eq_some_iff.mp known).1
  have none := List.find?_eq_none.mp absent session (by simp [within])
  rw [there] at none
  exact none (decide_eq_true same)

theorem Kept.sessionAt_latest (holds : recorder.Kept log) {path : Text} {session : Nat}
    (found : recorder.sessionAt path = some session) (later : Nat) (after : session < later) (recording : Recording)
    (there : recorder.recordings later = some recording) : recording.path ≠ path := by
  intro same
  obtain ⟨thread, known, _⟩ := holds.thread later recording there
  have within := (List.getElem?_eq_some_iff.mp known).1
  obtain ⟨_, before, rest, split, passedOver⟩ := List.find?_eq_some_iff_append.mp found
  have falling : (List.range recorder.pipeline.monitor.threads.length).reverse.Pairwise (· > ·) :=
    List.pairwise_reverse.mpr List.pairwise_lt_range
  have listed : later ∈ (List.range recorder.pipeline.monitor.threads.length).reverse := by simp [within]
  rw [split] at falling listed
  rw [List.pairwise_append, List.pairwise_cons] at falling
  obtain ahead | rfl | behind : later ∈ before ∨ later = session ∨ later ∈ rest := by simpa using listed
  · have skipped := passedOver later ahead
    simp [there, same] at skipped
  · exact Nat.lt_irrefl _ after
  · have smaller := falling.2.1.1 later behind
    omega

/-- What an export comes to. The copy is that of the file of the latest session with the path that the app remembers;
if no other session records to that path and no flush of it has failed, it has what the session has read. -/
inductive ExportsPcap (writer : SavefileWriter) (recorder : Recorder) (home : Text) (timestamp : Nat)
    (copy : Except Text Unit) (log : List (Nat × Packet)) : Option Bytes × Text → Prop where
  | idle : recorder.pipeline.monitor.app.captureRecordingPath = none →
      ExportsPcap writer recorder home timestamp copy log (none, "PCAP export unavailable: start capture first".toList)
  | unrecorded (path : Text) : recorder.pipeline.monitor.app.captureRecordingPath = some path →
      (∀ session, ∀ recording ∈ recorder.recordings session, recording.path ≠ path) →
      ExportsPcap writer recorder home timestamp copy log (none, "PCAP export unavailable: no recording file yet".toList)
  | failed (error : Text) : copy = .error error →
      ExportsPcap writer recorder home timestamp copy log (none, "PCAP export failed: ".toList ++ error)
  | copied (session : Nat) (recording : Recording) (file : Bytes) : copy = .ok () →
      recorder.recordings session = some recording →
      recorder.pipeline.monitor.app.captureRecordingPath = some recording.path →
      (∀ later > session, ∀ other ∈ recorder.recordings later, other.path ≠ recording.path) →
      ((∀ earlier < session, ∀ other ∈ recorder.recordings earlier, other.path ≠ recording.path) →
        .flush false ∉ recording.calls →
          Recording.UpToDate writer (packetsOf session log) (recorder.ended session) file) →
      ExportsPcap writer recorder home timestamp copy log (some file, pcapExported home timestamp)

/-- At any moment of a run the export refuses, reports its error, or copies the file of the session whose path the app
remembers. -/
theorem export_copies_prefix (writer : SavefileWriter) (lawful : writer.Lawful) (devices : List Text)
    (start : LoopState) (events : List RecorderEvent) (home : Text) (timestamp : Nat) (copy : Except Text Unit) :
    let recorder := run step (new devices start) events
    ExportsPcap writer recorder home timestamp copy (observed step read (new devices start) events)
      (recorder.exportPcap writer home timestamp copy) := by
  intro recorder
  have kept := run_kept devices start events
  unfold exportPcap
  cases remembered : recorder.pipeline.monitor.app.captureRecordingPath with
  | none => exact .idle remembered
  | some path =>
    simp only [file]
    cases found : recorder.sessionAt path with
    | none => exact .unrecorded path remembered fun session recording there => kept.sessionAt_none found there
    | some session =>
      obtain ⟨recording, there, rfl⟩ := sessionAt_some found
      simp only [Option.bind_some, there, Option.map_some]
      cases copy with
      | error error => exact .failed error rfl
      | ok done =>
        exact .copied session recording _ rfl there remembered (kept.sessionAt_latest found)
          fun _ clean => (kept.batched there).upToDate lawful clean

theorem export_copies_stopped : ExportsPcap blockWriter recorded "/root".toList 9 (.ok ())
    (observed step read (new ["eth0".toList] (.start 0 0 none)) recordedRun)
    (some (blockWriter.image [⟨requestFrame, 60⟩]), pcapExported "/root".toList 9) := by
  have exported : recorded.exportPcap blockWriter "/root".toList 9 (.ok ()) =
      (some (blockWriter.image [⟨requestFrame, 60⟩]), pcapExported "/root".toList 9) := by decide +kernel
  rw [← exported]
  exact export_copies_prefix blockWriter blockWriter_lawful ["eth0".toList] (.start 0 0 none) recordedRun "/root".toList
    9 (.ok ())

end Recorder
end Netmon.Gui
