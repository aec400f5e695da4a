import Netmon.Capture.Loop
import Netmon.Aggregator.ConnectionBytes
import Netmon.Aggregator.Owners

/-! From the start of a capture to the totals of the interface: the GUI tells the
capture thread the local addresses, the thread labels its records by them, and the
aggregator counts the records by their labels. -/
namespace Netmon.Gui
open Library Capture Aggregator

structure SpawnArgs where
  interface : Text
  localIps : List IpAddr
  recordingPath : Option Text
deriving DecidableEq, Repr

structure CaptureApp where
  devices : List Text
  selectedIface : Nat
  isCapturing : Bool
  /-- All running flags created so far; the last is that of the app. -/
  runningFlags : List Bool
  /-- The thread behind the handle, by what it was spawned with. -/
  captureControl : Option SpawnArgs
  captureRecordingPath : Option Text
  status : Text
deriving DecidableEq, Repr

def pcapSessionPrefix : Text := "netmon_capture_".toList

/-- The app afterwards and the session that was started, `spawn` being the answer of the capture crate. -/
def startCapture (home : Text) (timestamp : Nat) (spawn : SpawnArgs → Except Text Unit) (app : CaptureApp) :
    CaptureApp × Option SpawnArgs :=
  if app.isCapturing || app.devices.isEmpty then (app, none)
  else
    match app.devices[app.selectedIface]? with
    | none => (app, none)
    | some iface =>
      let app := { app with runningFlags := app.runningFlags ++ [true] }
      let recordingPath := home ++ "/".toList ++ pcapSessionPrefix ++ decimal timestamp ++ ".pcap".toList
      let args : SpawnArgs := ⟨iface, [], some recordingPath⟩
      match spawn args with
      | .ok () =>
        ({ app with
          captureControl := some args
          captureRecordingPath := some recordingPath
          isCapturing := true
          status := "Capturing on ".toList ++ iface ++ "...".toList }, some args)
      | .error error =>
        ({ app with
          captureRecordingPath := none
          status := "Failed to start capture on ".toList ++ iface ++ ": ".toList ++ error }, none)

theorem startCapture_localIps {home : Text} {timestamp : Nat} {spawn : SpawnArgs → Except Text Unit}
    {app : CaptureApp} {args : SpawnArgs} (started : (startCapture home timestamp spawn app).2 = some args) :
    args.localIps = [] := by
  unfold startCapture at started
  split at started
  · cases started
  split at started
  · cases started
  · simp only at started
    split at started
    · cases started
      rfl
    · cases started

def expectedDirection (addresses : List IpAddr) (key : FlowKey) : Option Direction :=
  if key.srcIp ∈ addresses then some .tx
  else if key.dstIp ∈ addresses then some .rx
  else none

def receivedLength (addresses : List IpAddr) (deliveries : List Delivery) : Nat :=
  ((deliveries.filter fun delivery => decide (expectedDirection addresses delivery.record.key = some .rx)).map
    fun delivery => delivery.packetLen.toNat).sum

structure DirectionalAccounting (addresses : List IpAddr) (deliveries : List Delivery) (ops : List Op)
    (final : State) : Prop where
  labels : ∀ delivery ∈ deliveries, ∀ direction ∈ expectedDirection addresses delivery.record.key,
    delivery.record.direction = direction
  counters : ∀ op ∈ ops, ∀ record ∈ op.record?, ∀ direction ∈ expectedDirection addresses record.key,
    ∃ owner ∈ op.owner?, op.RaisesOnly direction (ownerKey owner) record.byteCount.toNat
  total : final.ifRxTotal = receivedLength addresses deliveries

section Accounting
variable {addresses : List IpAddr} {deliveries : List Delivery} {ops : List Op}

theorem counters_of_labels (fed : ops.filterMap Op.record? = deliveries.map Delivery.record)
    (labels : ∀ delivery ∈ deliveries, ∀ direction ∈ expectedDirection addresses delivery.record.key,
      delivery.record.direction = direction) :
    ∀ op ∈ ops, ∀ record ∈ op.record?, ∀ direction ∈ expectedDirection addresses record.key,
      ∃ owner ∈ op.owner?, op.RaisesOnly direction (ownerKey owner) record.byteCount.toNat := by
  intro op member record found direction expected
  have sent : record ∈ deliveries.map Delivery.record := fed ▸ List.mem_filterMap.mpr ⟨op, member, found⟩
  obtain ⟨delivery, inside, rfl⟩ := List.mem_map.mp sent
  rw [← labels delivery inside direction expected]
  cases op with
  | processRecord record resolved connectionCache now connectionNow =>
    obtain rfl : record = delivery.record := Option.some.inj found
    exact ⟨_, rfl, processRecord_raisesOnly _ resolved connectionCache now connectionNow⟩
  | _ => cases found

theorem run_ifRxTotal (now : Instant) (fed : ops.filterMap Op.record? = deliveries.map Delivery.record)
    (fits : directionBytes .rx (deliveries.map Delivery.record) < 2^64) :
    (run step (State.initial now) ops).ifRxTotal = directionBytes .rx (deliveries.map Delivery.record) := by
  have bytes : recordedBytes .rx ops = directionBytes .rx (deliveries.map Delivery.record) := by
    rw [recordedBytes_eq, fed]
  have start : (State.initial now).ifTotal .rx = 0 := rfl
  have counted := (run_conserves (State.initial now) ops .rx (Nat.le_refl 0) (by omega)).1
  rw [start, Nat.zero_add, bytes] at counted
  exact counted

theorem directionBytes_received {localIps : List IpAddr} (accepted : ∀ delivery ∈ deliveries, delivery.Accepted localIps)
    (right : ∀ delivery ∈ deliveries, delivery.record.direction = .rx ↔
      expectedDirection addresses delivery.record.key = some .rx) :
    directionBytes .rx (deliveries.map Delivery.record) = receivedLength addresses deliveries := by
  rw [directionBytes, bytesOf, receivedLength, List.filter_map, List.map_map]
  have same : deliveries.filter ((fun record => decide (record.direction = .rx)) ∘ Delivery.record) =
      deliveries.filter fun delivery => decide (expectedDirection addresses delivery.record.key = some .rx) := by
    apply List.filter_congr
    intro delivery member
    exact decide_eq_decide.mpr (right delivery member)
  rw [same]
  congr 1
  apply List.map_congr_left
  intro delivery member
  rw [Function.comp_apply, (accepted delivery (List.mem_filter.mp member).1).record.1]

end Accounting

/-- A thread that is told the addresses of its interface accounts as it should. -/
theorem accounting_of_addresses (addresses : List IpAddr) (turns : List Turn) (trace : CaptureTrace)
    (looped : runCaptureLoop addresses turns = .ok trace) (now : Instant) (ops : List Op)
    (fed : ops.filterMap Op.record? = trace.deliveries.map Delivery.record)
    (fits : receivedLength addresses trace.deliveries < 2^64) :
    DirectionalAccounting addresses trace.deliveries ops (run step (State.initial now) ops) := by
  obtain ⟨sent, same, accepted⟩ := runCaptureLoop_accepted addresses turns
  obtain rfl : sent = trace := Except.ok.inj (same.symm.trans looped)
  have labels : ∀ delivery ∈ sent.deliveries, ∀ direction ∈ expectedDirection addresses delivery.record.key,
      delivery.record.direction = direction := by
    intro delivery member direction expected
    rw [(accepted delivery member).record.2]
    unfold classifyDirection
    unfold expectedDirection at expected
    split at expected
    · rename_i isLocal
      rw [if_pos isLocal]
      exact Option.some.inj expected
    · rename_i remote
      rw [if_neg remote]
      split at expected
      · rename_i isLocal
        rw [if_pos isLocal]
        exact Option.some.inj expected
      · cases expected
  have received : directionBytes .rx (sent.deliveries.map Delivery.record) =
      receivedLength addresses sent.deliveries := by
    apply directionBytes_received accepted
    intro delivery member
    rw [(accepted delivery member).record.2]
    unfold classifyDirection expectedDirection
    split
    · simp
    · split <;> simp
  refine ⟨labels, counters_of_labels fed labels, ?_⟩
  rw [run_ifRxTotal now fed (received ▸ fits), received]

def tcpFrame (source destination : Bytes) : Bytes :=
  List.replicate 12 0 ++ [0x08, 0x00, 0x45] ++ List.replicate 8 0 ++ [6, 0, 0] ++ source ++ destination ++
    [0x9c, 0x40, 0x01, 0xbb]

def requestFrame : Bytes := tcpFrame [10, 0, 0, 2] [192, 0, 2, 1]
def answerFrame : Bytes := tcpFrame [192, 0, 2, 1] [10, 0, 0, 2]

def readFrame (frame : Bytes) : Turn where
  running := true
  commands := []
  disconnected := false
  filter _ := .ok ()
  read := .packet frame 60 0
  receiving := true

def idleApp : CaptureApp where
  devices := ["eth0".toList]
  selectedIface := 0
  isCapturing := false
  runningFlags := [false]
  captureControl := none
  captureRecordingPath := none
  status := []

def ethernetSession : SpawnArgs := ⟨"eth0".toList, [], some "/root/netmon_capture_0.pcap".toList⟩

def clientIp : IpAddr := .v4 ⟨10, 0, 0, 2⟩
def serverIp : IpAddr := .v4 ⟨192, 0, 2, 1⟩

def requestRecord : FlowRecord := ⟨⟨clientIp, serverIp, 40000, 443, .tcp⟩, 60, 0, .tx⟩
def answerRecord : FlowRecord := ⟨⟨serverIp, clientIp, 40000, 443, .tcp⟩, 60, 0, .tx⟩

end Netmon.Gui
