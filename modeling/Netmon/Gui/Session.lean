import Netmon.Capture.Thread
import Netmon.Gui.Direction
import Netmon.Library.Run

/-! The GUI and its capture threads: one session a thread, a running flag and a command
channel for each, and one status channel for all of them. -/
namespace Netmon.Gui
open Library Capture

structure StatusMessage where
  text : Text
  /-- The session it is about; the channel does not carry this. -/
  session : Nat
deriving DecidableEq, Repr

structure Monitor where
  app : CaptureApp
  /-- The session behind the handle of the app. -/
  control : Option Nat
  activeFilter : Text
  /-- The thread of every session so far. -/
  threads : List CaptureThread
  statusRx : List StatusMessage
  /-- The aggregator is there to receive records. -/
  receiving : Bool
deriving DecidableEq, Repr

namespace Monitor

def new (devices : List Text) : Monitor where
  app := {
    devices
    selectedIface := 0
    isCapturing := false
    runningFlags := [false]
    captureControl := none
    captureRecordingPath := none
    status := "Ready".toList }
  control := none
  activeFilter := []
  threads := []
  statusRx := []
  receiving := true

section Actions
variable (monitor : Monitor)

def setStatus (status : Text) : Monitor := { monitor with app := { monitor.app with status } }

def storeRunning (flag : Nat) : Monitor :=
  { monitor with app := { monitor.app with runningFlags := monitor.app.runningFlags.set flag false } }

/-- `self.capture_running`. -/
def captureRunning : Nat := monitor.app.runningFlags.length - 1

def isRunning (thread : CaptureThread) : Bool := monitor.app.runningFlags[thread.flag]?.getD false

/-- Drops the handle; the sending end for commands goes with it. -/
def takeControl : Monitor :=
  match monitor.control with
  | none => monitor
  | some session =>
    { monitor with
      app := { monitor.app with captureControl := none }
      control := none
      threads := monitor.threads.modify session fun thread => { thread with disconnected := true } }

end Actions

/-- What a start finds outside the program. -/
structure Launch where
  home : Text
  timestamp : Nat
  spawn : SpawnArgs → Except Text Unit
  /-- The error of opening the savefile. -/
  savefile : Option Text

def Launch.started (launch : Launch) (app : CaptureApp) : CaptureApp × Option SpawnArgs :=
  Gui.startCapture launch.home launch.timestamp launch.spawn app

def startCapture (launch : Launch) (monitor : Monitor) : Monitor :=
  match launch.started monitor.app with
  | (app, none) => { monitor with app }
  | (app, some args) =>
    let session := monitor.threads.length
    let thread : CaptureThread :=
      ⟨args.interface, args.localIps, app.runningFlags.length - 1, .spawned, [], false, none⟩
    let recording := launch.savefile.toList.map fun error =>
      (⟨"PCAP recording disabled: ".toList ++ error, session⟩ : StatusMessage)
    { monitor.takeControl with
      app
      control := some session
      threads := monitor.takeControl.threads ++ [thread]
      statusRx := monitor.statusRx ++ recording }

/-- A send to a thread that has exited is refused. -/
def send (command : CaptureCommand) (session : Nat) (monitor : Monitor) : Option Monitor :=
  match monitor.threads[session]? with
  | none => none
  | some thread =>
    if thread.phase = .exited then none
    else some { monitor with
      threads := monitor.threads.set session { thread with commands := thread.commands ++ [command] } }

/-- `control.stop()`, its answer dropped. -/
def requestStop (monitor : Monitor) : Monitor :=
  match monitor.control with
  | none => monitor
  | some session => (monitor.send .stop session).getD monitor

/-- Joining the thread only waits, and gives up after a while: what the thread does meanwhile is an action of its own. -/
def stopCapture (monitor : Monitor) : Monitor :=
  if !monitor.app.isCapturing then monitor
  else
    let monitor := (monitor.storeRunning monitor.captureRunning).requestStop.takeControl
    { monitor with app := { monitor.app with isCapturing := false, status := "Capture stopped".toList } }

def applyBpfFilter (bpfInput : Text) (monitor : Monitor) : Monitor :=
  match monitor.control with
  | none => monitor.setStatus "Cannot apply BPF: capture is not running".toList
  | some session =>
    let expr := trim bpfInput
    if expr = [] then monitor.setStatus "Enter a BPF expression before applying it".toList
    else
      match monitor.send (.applyFilter expr) session with
      | some sent => sent
      | none => monitor.setStatus "BPF error: capture channel send failed: sending on a closed channel".toList

def StopsCapture (text : Text) : Prop := "Capture stopped:".toList <+: text

instance (text : Text) : Decidable (StopsCapture text) := inferInstanceAs (Decidable (_ <+: _))

def noteFilter (text : Text) (monitor : Monitor) : Monitor :=
  match text.dropPrefix? "Filter applied: ".toList with
  | some appliedFilter => { monitor with activeFilter := appliedFilter }
  | none => monitor

def noteStopped (text : Text) (monitor : Monitor) : Monitor :=
  if StopsCapture text then
    let monitor := { monitor with app := { monitor.app with isCapturing := false } }
    (monitor.storeRunning monitor.captureRunning).takeControl
  else monitor

/-- One turn of the loop of `update_status_from_channel`. -/
def receiveStatus (monitor : Monitor) : Monitor :=
  match monitor.statusRx with
  | [] => monitor
  | message :: rest =>
    (({ monitor with statusRx := rest }.noteFilter message.text).noteStopped message.text).setStatus message.text

/-- The next action of the thread of a session. -/
def advance (session : Nat) (answer : Answer) (monitor : Monitor) : Monitor :=
  match monitor.threads[session]? with
  | none => monitor
  | some thread =>
    let (thread, trace) := thread.advance (monitor.isRunning thread) monitor.receiving answer
    let monitor := if trace.clearedRunning then monitor.storeRunning thread.flag else monitor
    { monitor with
      threads := monitor.threads.set session thread
      statusRx := monitor.statusRx ++ trace.statuses.map (⟨·, session⟩) }

def advanceAll (steps : List (Nat × Answer)) (monitor : Monitor) : Monitor :=
  run (fun monitor step => monitor.advance step.1 step.2) monitor steps

def stopForInterfaceChange (selected : Nat) (steps : List (Nat × Answer)) (monitor : Monitor) : Monitor :=
  ({ monitor with app := { monitor.app with selectedIface := selected } } : Monitor).stopCapture.advanceAll steps

/-- The threads take the given steps while the stopped one is joined. -/
def restartCaptureForInterfaceChange (selected : Nat) (steps : List (Nat × Answer)) (launch : Launch)
    (monitor : Monitor) : Monitor :=
  let wasRunning := monitor.app.isCapturing
  let monitor := monitor.stopForInterfaceChange selected steps
  if wasRunning then monitor.startCapture launch else monitor

inductive Event where
  | startCapture (launch : Launch)
  | stopCapture
  | restartCaptureForInterfaceChange (selected : Nat) (steps : List (Nat × Answer)) (launch : Launch)
  | applyBpfFilter (bpfInput : Text)
  | receiveStatus
  | advance (session : Nat) (answer : Answer)
  | aggregatorExits

def step (monitor : Monitor) : Event → Monitor
  | .startCapture launch => monitor.startCapture launch
  | .stopCapture => monitor.stopCapture
  | .restartCaptureForInterfaceChange selected steps launch =>
    monitor.restartCaptureForInterfaceChange selected steps launch
  | .applyBpfFilter bpfInput => monitor.applyBpfFilter bpfInput
  | .receiveStatus => monitor.receiveStatus
  | .advance session answer => monitor.advance session answer
  | .aggregatorExits => { monitor with receiving := false }

end Monitor
end Netmon.Gui
