import Netmon.Library.HashMap
import Netmon.Library.Run
import Netmon.Capture.Packet
import Netmon.Resolver.Process

/-! The aggregator: flow records are attributed to threads and connections, whose
counters are kept until the thread has been silent for too long. Every clock
reading, and every answer of the resolver, is an argument of the operation. -/
namespace Netmon.Aggregator
open Library Capture Resolver

def historySlots : Nat := 300

/-- In nanoseconds. -/
def processEvictionTimeout : Nat := 30 * 10^9
def rotationPeriod : Nat := 10^9

def unknownProcessLabel : Text := "[unknown]".toList
def exitedSuffix : Text := " [exited]".toList

def saturatingAdd (a b : Nat) : Nat := min (a + b) (2^64 - 1)

/-- `Instant::elapsed`, at a reading of the clock. -/
def elapsed (now past : Instant) : Nat := now - past

abbrev History := Vector Nat historySlots

/-- The loop from slot `idx` down to slot 1. -/
def shiftSlots : Nat → History → History
  | 0, history => history
  | idx + 1, history => shiftSlots idx (history.setIfInBounds (idx + 1) (history.getD idx 0))

def rotateHistory (history : History) (currentSecond : Nat) : History :=
  (shiftSlots (historySlots - 1) history).setIfInBounds 0 currentSecond

def emptyHistory : History := Vector.replicate historySlots 0

def source (record : FlowRecord) : SocketAddr := ⟨record.key.srcIp, record.key.srcPort⟩
def destination (record : FlowRecord) : SocketAddr := ⟨record.key.dstIp, record.key.dstPort⟩

/-- The local endpoint, by the record's own label. -/
def localEnd (record : FlowRecord) : SocketAddr :=
  match record.direction with
  | .tx => source record
  | .rx => destination record

def remoteEnd (record : FlowRecord) : SocketAddr :=
  match record.direction with
  | .tx => destination record
  | .rx => source record

structure ThreadKey where
  pid : Nat
  tid : Nat
deriving DecidableEq, Repr

structure ConnectionKey where
  pid : Nat
  tid : Nat
  localAddr : SocketAddr
  remoteAddr : SocketAddr
  protocol : Protocol
deriving DecidableEq, Repr

def ConnectionKey.thread (key : ConnectionKey) : ThreadKey := ⟨key.pid, key.tid⟩

structure ConnectionStats where
  txBytes : Nat
  rxBytes : Nat
  lastSeen : Instant
deriving DecidableEq, Repr

structure ThreadStats where
  info : ProcessInfo
  txBytesTotal : Nat
  rxBytesTotal : Nat
  lastSeen : Instant
  txCurrentSecond : Nat
  rxCurrentSecond : Nat
  txHistory : History
  rxHistory : History

def ThreadStats.new (info : ProcessInfo) (now : Instant) : ThreadStats where
  info := info
  txBytesTotal := 0
  rxBytesTotal := 0
  lastSeen := now
  txCurrentSecond := 0
  rxCurrentSecond := 0
  txHistory := emptyHistory
  rxHistory := emptyHistory

def ThreadStats.rotateSecond (stats : ThreadStats) : ThreadStats :=
  { stats with
    txHistory := rotateHistory stats.txHistory stats.txCurrentSecond
    rxHistory := rotateHistory stats.rxHistory stats.rxCurrentSecond
    txCurrentSecond := 0
    rxCurrentSecond := 0 }

/-- The variables of `run_aggregator_loop` that its operations change. -/
structure State where
  statsByThread : HashMap ThreadKey ThreadStats
  connectionStats : HashMap ConnectionKey ConnectionStats
  lastRotation : Instant
  ifTxTotal : Nat
  ifRxTotal : Nat
  ifTxCurrentSecond : Nat
  ifRxCurrentSecond : Nat
  ifTxHistory : History
  ifRxHistory : History
  peakBw : Nat

def State.initial (now : Instant) : State where
  statsByThread := ∅
  connectionStats := ∅
  lastRotation := now
  ifTxTotal := 0
  ifRxTotal := 0
  ifTxCurrentSecond := 0
  ifRxCurrentSecond := 0
  ifTxHistory := emptyHistory
  ifRxHistory := emptyHistory
  peakBw := 0

def forwardMatch (flow : FlowKey) (conn : ResolvedConnection) : Bool :=
  conn.localAddr.ip == flow.srcIp && conn.localAddr.port == flow.srcPort &&
    conn.remoteAddr.ip == flow.dstIp && conn.remoteAddr.port == flow.dstPort

def reverseMatch (flow : FlowKey) (conn : ResolvedConnection) : Bool :=
  conn.localAddr.ip == flow.dstIp && conn.localAddr.port == flow.dstPort &&
    conn.remoteAddr.ip == flow.srcIp && conn.remoteAddr.port == flow.srcPort

def lookupProcessFromConnections (flow : FlowKey) : List ResolvedConnection → Option ProcessInfo
  | [] => none
  | conn :: rest =>
    if conn.protocol != flow.protocol then lookupProcessFromConnections flow rest
    else if !forwardMatch flow conn && !reverseMatch flow conn then lookupProcessFromConnections flow rest
    else some {
      pid := conn.pid
      tid := conn.tid
      name := conn.process
      threadName := conn.threadName
      uid := conn.uid
      username := conn.username }

def unknownProcess : ProcessInfo where
  pid := 0
  tid := 0
  name := unknownProcessLabel
  threadName := unknownProcessLabel
  uid := 0
  username := unknownProcessLabel

/-- The owner that a record is attributed to, `resolved` being what `resolve_flow_owner` returns. -/
def flowOwner (flow : FlowKey) (resolved : Option ProcessInfo) (connectionCache : List ResolvedConnection) :
    ProcessInfo :=
  (resolved.or (lookupProcessFromConnections flow connectionCache)).getD unknownProcess

def ownerKey (info : ProcessInfo) : ThreadKey := ⟨info.pid, info.tid⟩

def connectionKey (flow : FlowKey) (info : ProcessInfo) (isTx : Bool) : ConnectionKey :=
  let source : SocketAddr := ⟨flow.srcIp, flow.srcPort⟩
  let destination : SocketAddr := ⟨flow.dstIp, flow.dstPort⟩
  if isTx then ⟨info.pid, info.tid, source, destination, flow.protocol⟩
  else ⟨info.pid, info.tid, destination, source, flow.protocol⟩

def updateConnectionStats (connectionStats : HashMap ConnectionKey ConnectionStats) (record : FlowRecord)
    (info : ProcessInfo) (bytes : Nat) (isTx : Bool) (now : Instant) : HashMap ConnectionKey ConnectionStats :=
  let key := connectionKey record.key info isTx
  let entry := (connectionStats.lookup key).getD ⟨0, 0, now⟩
  let entry := { entry with lastSeen := now }
  if isTx then connectionStats.insert key { entry with txBytes := saturatingAdd entry.txBytes bytes }
  else connectionStats.insert key { entry with rxBytes := saturatingAdd entry.rxBytes bytes }

/-- The clock is read for the thread and then for the connection. -/
def processRecord (record : FlowRecord) (resolved : Option ProcessInfo) (connectionCache : List ResolvedConnection)
    (now connectionNow : Instant) (state : State) : State :=
  let info := flowOwner record.key resolved connectionCache
  let key := ownerKey info
  let bytes := record.byteCount.toNat
  let entry := (state.statsByThread.lookup key).getD (ThreadStats.new info now)
  let entry := { entry with info, lastSeen := now }
  match record.direction with
  | .tx =>
    { state with
      statsByThread := state.statsByThread.insert key { entry with
        txBytesTotal := saturatingAdd entry.txBytesTotal bytes
        txCurrentSecond := saturatingAdd entry.txCurrentSecond bytes }
      ifTxTotal := saturatingAdd state.ifTxTotal bytes
      ifTxCurrentSecond := saturatingAdd state.ifTxCurrentSecond bytes
      connectionStats := updateConnectionStats state.connectionStats record info bytes true connectionNow }
  | .rx =>
    { state with
      statsByThread := state.statsByThread.insert key { entry with
        rxBytesTotal := saturatingAdd entry.rxBytesTotal bytes
        rxCurrentSecond := saturatingAdd entry.rxCurrentSecond bytes }
      ifRxTotal := saturatingAdd state.ifRxTotal bytes
      ifRxCurrentSecond := saturatingAdd state.ifRxCurrentSecond bytes
      connectionStats := updateConnectionStats state.connectionStats record info bytes false connectionNow }

/-- `resolves` is whether `process_by_pid` answers when a thread is visited. -/
def markExitedThreads (resolves : ThreadKey → Bool) (state : State) : State :=
  { state with
    statsByThread := HashMap.mapValues (fun key stats =>
      if key.pid = 0 then stats
      else if !resolves key && !exitedSuffix.isSuffixOf stats.info.name then
        { stats with info := { stats.info with name := stats.info.name ++ exitedSuffix } }
      else stats) state.statsByThread }

def stillActive (now : ThreadKey → Instant) (key : ThreadKey) (stats : ThreadStats) : Bool :=
  elapsed (now key) stats.lastSeen ≤ processEvictionTimeout

def evictStaleThreads (now : ThreadKey → Instant) (state : State) : State :=
  { state with statsByThread := HashMap.retain (stillActive now) state.statsByThread }

def keepsConnection (now : ConnectionKey → Instant) (statsByThread : HashMap ThreadKey ThreadStats)
    (key : ConnectionKey) (stats : ConnectionStats) : Bool :=
  if elapsed (now key) stats.lastSeen > processEvictionTimeout then false
  else (statsByThread.lookup key.thread).isSome

def pruneConnectionStats (now : ConnectionKey → Instant) (state : State) : State :=
  { state with
    connectionStats := HashMap.retain (keepsConnection now state.statsByThread) state.connectionStats }

def rotateInterfaceSecond (state : State) : State :=
  { state with
    ifTxHistory := rotateHistory state.ifTxHistory state.ifTxCurrentSecond
    ifRxHistory := rotateHistory state.ifRxHistory state.ifRxCurrentSecond
    ifTxCurrentSecond := 0
    ifRxCurrentSecond := 0 }

/-- Whether a rotation occurred, and the state after it. The sum wraps around, as in a release build. -/
def rotateHistoriesIfDue (checked rotated : Instant) (state : State) : Bool × State :=
  if elapsed checked state.lastRotation < rotationPeriod then (false, state)
  else
    let state := { state with
      statsByThread := HashMap.mapValues (fun _ stats => stats.rotateSecond) state.statsByThread }
    let state := rotateInterfaceSecond state
    let currentBandwidth := (state.ifTxHistory.getD 0 0 + state.ifRxHistory.getD 0 0) % 2^64
    let peakBw := if currentBandwidth > state.peakBw then currentBandwidth else state.peakBw
    (true, { state with peakBw, lastRotation := rotated })

inductive Op where
  | processRecord (record : FlowRecord) (resolved : Option ProcessInfo) (connectionCache : List ResolvedConnection)
    (now connectionNow : Instant)
  | markExitedThreads (resolves : ThreadKey → Bool)
  | evictStaleThreads (now : ThreadKey → Instant)
  | pruneConnectionStats (now : ConnectionKey → Instant)
  | rotateHistoriesIfDue (checked rotated : Instant)

def step (state : State) : Op → State
  | .processRecord record resolved connectionCache now connectionNow =>
    processRecord record resolved connectionCache now connectionNow state
  | .markExitedThreads resolves => markExitedThreads resolves state
  | .evictStaleThreads now => evictStaleThreads now state
  | .pruneConnectionStats now => pruneConnectionStats now state
  | .rotateHistoriesIfDue checked rotated => (rotateHistoriesIfDue checked rotated state).2

end Netmon.Aggregator
