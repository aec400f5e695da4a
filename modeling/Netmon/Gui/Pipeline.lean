import Netmon.Aggregator.Thread
import Netmon.Gui.Handles
import Netmon.Library.Channel

/-! The whole program: the app, a capture thread for each session and the aggregator
thread, with the bounded channel of records between them. Each acts in its turn, in any
order. -/
namespace Netmon.Gui
open Library Capture Aggregator

def flowCapacity : Nat := 1024

structure Pipeline where
  monitor : Monitor
  appRunning : Bool
  flow : Channel FlowRecord flowCapacity
  aggregator : AggregatorThread

inductive Operation where
  | startCapture (launch : Monitor.Launch)
  | stopCapture
  /-- The first half of a restart on another interface, up to the join; a start is the other half. -/
  | stopForInterfaceChange (selected : Nat)
  | applyBpfFilter (bpfInput : Text)
  | receiveStatus

def Monitor.operate (monitor : Monitor) : Operation → Monitor
  | .startCapture launch => monitor.startCapture launch
  | .stopCapture => monitor.stopCapture
  | .stopForInterfaceChange selected => monitor.stopForInterfaceChange selected []
  | .applyBpfFilter bpfInput => monitor.applyBpfFilter bpfInput
  | .receiveStatus => monitor.receiveStatus

/-- The packet that a thread reads in its next action, if it is parsed to a record. -/
def accepts (answer : Answer) (thread : CaptureThread) : Option Delivery :=
  match thread.phase, answer.read with
  | .reading, .packet data len now =>
    match (parsePacket data len thread.localIps now).run with
    | .ok (some record) => some ⟨data, len, record⟩
    | _ => none
  | _, _ => none

/-- The packet that a thread has in its hands inside `send`. -/
def toSend (thread : CaptureThread) : Option Delivery :=
  match thread.phase with
  | .sending delivery => some delivery
  | _ => none

/-- What becomes of the turn of a capture thread. -/
inductive Outcome where
  | unknown
  /-- The channel is full, and the thread stays inside `send`. -/
  | blocked
  | sent (delivery : Delivery) (flow : Channel FlowRecord flowCapacity)
  | advanced

/-- Turns of a worker thread. -/
inductive Turn where
  | capture (session : Nat) (answer : Answer)
  | aggregate (found : Findings)

inductive PipelineEvent where
  | operate (operation : Operation)
  | work (turn : Turn)
  | drop

namespace Pipeline

def new (devices : List Text) (start : LoopState) : Pipeline where
  monitor := .new devices
  appRunning := true
  flow := .empty
  aggregator := ⟨.spawned, start⟩

section Turns
variable (pipeline : Pipeline)

def outcome (session : Nat) : Outcome :=
  match pipeline.monitor.threads[session]? with
  | none => .unknown
  | some thread =>
    match toSend thread with
    | none => .advanced
    | some delivery =>
      if pipeline.monitor.receiving then
        match pipeline.flow.send? delivery.record with
        | none => .blocked
        | some flow => .sent delivery flow
      else .advanced

def capture (session : Nat) (answer : Answer) : Pipeline :=
  match pipeline.outcome session with
  | .unknown | .blocked => pipeline
  | .sent _ flow => { pipeline with monitor := pipeline.monitor.advance session answer, flow }
  | .advanced => { pipeline with monitor := pipeline.monitor.advance session answer }

/-- The last action of the aggregator lets go of the receiving end of the channel. -/
def aggregate (found : Findings) : Pipeline :=
  let (aggregator, trace) := pipeline.aggregator.advance pipeline.appRunning pipeline.flow.front? found
  let monitor := trace.statuses.foldl (fun monitor status => monitor.setStatus status) pipeline.monitor
  { pipeline with
    monitor := if aggregator.phase = .exited then { monitor with receiving := false } else monitor
    flow := if trace.received = [] then pipeline.flow else pipeline.flow.rest
    aggregator }

def work : Turn → Pipeline
  | .capture session answer => pipeline.capture session answer
  | .aggregate found => pipeline.aggregate found

/-- `drop` of the app, up to the joins; what the threads do meanwhile are turns of their own. -/
def drop : Pipeline :=
  { pipeline with
    monitor := (pipeline.monitor.storeRunning pipeline.monitor.captureRunning).requestStop.takeControl
    appRunning := false }

/-- The app does nothing any longer once it is dropped. -/
def step : PipelineEvent → Pipeline
  | .operate operation =>
    if pipeline.appRunning then { pipeline with monitor := pipeline.monitor.operate operation } else pipeline
  | .work turn => pipeline.work turn
  | .drop => if pipeline.appRunning then pipeline.drop else pipeline

/-- Packets that are read and parsed to a record, whatever becomes of the record. -/
def captured : PipelineEvent → List (Nat × Delivery)
  | .work (.capture session answer) =>
    (pipeline.monitor.threads[session]?.bind (accepts answer)).toList.map (session, ·)
  | _ => []

/-- Records that get into the channel. -/
def delivered : PipelineEvent → List (Nat × Delivery)
  | .work (.capture session _) =>
    match pipeline.outcome session with
    | .sent delivery _ => [(session, delivery)]
    | _ => []
  | _ => []

def received : PipelineEvent → List FlowRecord
  | .work (.aggregate found) =>
    (pipeline.aggregator.advance pipeline.appRunning pipeline.flow.front? found).2.received
  | _ => []

/-- The packet that the thread of a session holds until its record is sent. -/
def pending (session : Nat) : Option Delivery := pipeline.monitor.threads[session]?.bind toSend

end Turns
end Pipeline

def ofSession (session : Nat) (deliveries : List (Nat × Delivery)) : List Delivery :=
  (deliveries.filter (·.1 = session)).map (·.2)

@[simp] theorem ofSession_append (session : Nat) (first second : List (Nat × Delivery)) :
    ofSession session (first ++ second) = ofSession session first ++ ofSession session second := by
  simp [ofSession]

end Netmon.Gui
