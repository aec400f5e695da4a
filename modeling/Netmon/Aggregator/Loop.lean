import Netmon.Aggregator.HistoryCsv
import Netmon.Aggregator.Publish

/-! The loop of the aggregator: an iteration drains the channel of records, maintains the
maps, rotates the histories when a second has passed, and publishes. -/
namespace Netmon.Aggregator
open Library Capture Resolver

/-- In nanoseconds. -/
def resolverScanInterval : Int := 800 * 10^6

/-- A record in the channel, with the resolver's answer and the readings of the clock while it is applied. -/
structure Arrival where
  record : FlowRecord
  resolved : Option ProcessInfo
  now : Instant
  connectionNow : Instant

/-- What one iteration finds outside its own variables. -/
structure Iteration where
  scanChecked : Int
  scanned : Int
  /-- The answer of `list_connections`. -/
  connections : List ResolvedConnection
  arrivals : List Arrival
  resolves : ThreadKey → Bool
  evictNow : ThreadKey → Instant
  pruneNow : ConnectionKey → Instant
  checked : Instant
  rotated : Instant
  timestamp : Nat
  /-- What reaches the history file of the line with a given number. -/
  written : Nat → Text → Text
  /-- The order in which the map of threads is walked. -/
  order : HashMap.Iteration ThreadKey ThreadStats
  blocked : Finset Nat

structure LoopState where
  state : State
  connectionCache : List ResolvedConnection
  lastProcScan : Int
  /-- The text of the history file, if it could be opened. -/
  historyCsv : Option Text
  sessionHistory : List HistoryCsvRow
  rows : List ProcessRow
  interface : InterfaceStats

def InterfaceStats.default : InterfaceStats where
  txBytesTotal := 0
  rxBytesTotal := 0
  currentBandwidthBytesPerSec := 0
  peakBandwidthBytesPerSec := 0
  txHistory := emptyHistory
  rxHistory := emptyHistory

def LoopState.start (now : Instant) (scanNow : Int) (historyCsv : Option Text) : LoopState where
  state := .initial now
  connectionCache := []
  lastProcScan := scanNow - 10^9
  historyCsv := historyCsv
  sessionHistory := []
  rows := []
  interface := .default

def refreshConnectionCacheIfDue (iteration : Iteration) (loop : LoopState) : LoopState :=
  if max (iteration.scanChecked - loop.lastProcScan) 0 ≥ resolverScanInterval then
    { loop with connectionCache := iteration.connections, lastProcScan := iteration.scanned }
  else loop

def drainFlowChannel (arrivals : List Arrival) (connectionCache : List ResolvedConnection) (state : State) : State :=
  arrivals.foldl (fun state arrival =>
    processRecord arrival.record arrival.resolved connectionCache arrival.now arrival.connectionNow state) state

/-- The variables of an iteration when it tests whether a rotation is due. -/
def Iteration.maintained (iteration : Iteration) (loop : LoopState) : State :=
  let state := drainFlowChannel iteration.arrivals (refreshConnectionCacheIfDue iteration loop).connectionCache loop.state
  let state := evictStaleThreads iteration.evictNow (markExitedThreads iteration.resolves state)
  pruneConnectionStats iteration.pruneNow state

/-- Whether the iteration rotates, and the variables after it. -/
def Iteration.rotation (iteration : Iteration) (loop : LoopState) : Bool × State :=
  rotateHistoriesIfDue iteration.checked iteration.rotated (iteration.maintained loop)

def runIteration (loop : LoopState) (iteration : Iteration) : LoopState :=
  let refreshed := refreshConnectionCacheIfDue iteration loop
  let (rotated, state) := iteration.rotation loop
  let threads := iteration.order.entries state.statsByThread
  let (historyCsv, sessionHistory) :=
    match rotated, loop.historyCsv with
    | true, some file =>
      let (file, sessionHistory) := appendHistoryCsv iteration.timestamp iteration.written (threads.map (·.2)) file
        loop.sessionHistory
      (some file, sessionHistory)
    | _, historyCsv => (historyCsv, loop.sessionHistory)
  let (rows, interface) := publishSnapshots threads refreshed.connectionCache iteration.blocked state
  { refreshed with state, historyCsv, sessionHistory, rows, interface }

def Iteration.ops (iteration : Iteration) (loop : LoopState) : List Op :=
  iteration.arrivals.map (fun arrival => .processRecord arrival.record arrival.resolved
      (refreshConnectionCacheIfDue iteration loop).connectionCache arrival.now arrival.connectionNow) ++
    [.markExitedThreads iteration.resolves, .evictStaleThreads iteration.evictNow,
      .pruneConnectionStats iteration.pruneNow, .rotateHistoriesIfDue iteration.checked iteration.rotated]

/-- The operations of a run of the loop. -/
def loopOps (start : LoopState) (iterations : List Iteration) : List Op :=
  observed runIteration (fun loop iteration => iteration.ops loop) start iterations

theorem drainFlowChannel_run (arrivals : List Arrival) (connectionCache : List ResolvedConnection) (state : State) :
    drainFlowChannel arrivals connectionCache state = run step state (arrivals.map fun arrival =>
      .processRecord arrival.record arrival.resolved connectionCache arrival.now arrival.connectionNow) := by
  rw [run, List.foldl_map]
  rfl

theorem runIteration_state (loop : LoopState) (iteration : Iteration) :
    (runIteration loop iteration).state = run step loop.state (iteration.ops loop) := by
  rw [Iteration.ops, run_append, ← drainFlowChannel_run]
  rfl

theorem loop_state (start : LoopState) (iterations : List Iteration) :
    (run runIteration start iterations).state = run step start.state (loopOps start iterations) :=
  run_observed runIteration_state start iterations

theorem runIteration_published (loop : LoopState) (iteration : Iteration) :
    ((runIteration loop iteration).rows, (runIteration loop iteration).interface) =
      publishSnapshots (iteration.order.entries (runIteration loop iteration).state.statsByThread)
        (runIteration loop iteration).connectionCache iteration.blocked (runIteration loop iteration).state := rfl

/-- An iteration that takes no time and finds every process alive. -/
def Iteration.atTime (time : Instant) (records : List (FlowRecord × ProcessInfo)) : Iteration where
  scanChecked := 0
  scanned := 0
  connections := []
  arrivals := records.map fun (record, info) => ⟨record, some info, time, time⟩
  resolves _ := true
  evictNow _ := time
  pruneNow _ := time
  checked := time
  rotated := time
  timestamp := time / 10^9
  written _ line := line
  order := .plain
  blocked := ∅

end Netmon.Aggregator
