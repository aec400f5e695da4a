import Netmon.Aggregator.State
import Mathlib.Data.Finset.Basic

/-! What the aggregator publishes: a row for every thread with the cached
connections it owns, and the counters of the interface. -/
namespace Netmon.Aggregator
open Library Capture Resolver

structure ConnectionEntry where
  localAddr : SocketAddr
  remoteAddr : SocketAddr
  protocol : Protocol
  state : Text
  pid : Nat
  tid : Nat
  process : Text
  threadName : Text
  username : Text
  txBytes : Nat
  rxBytes : Nat
deriving DecidableEq, Repr

structure ProcessRow where
  info : ProcessInfo
  txBytes : Nat
  rxBytes : Nat
  lastSeen : Instant
  txHistory : History
  rxHistory : History
  isBlocked : Bool
  connections : List ConnectionEntry

structure InterfaceStats where
  txBytesTotal : Nat
  rxBytesTotal : Nat
  currentBandwidthBytesPerSec : Nat
  peakBandwidthBytesPerSec : Nat
  txHistory : History
  rxHistory : History

def statsKey (conn : ResolvedConnection) : ConnectionKey :=
  ⟨conn.pid, conn.tid, conn.localAddr, conn.remoteAddr, conn.protocol⟩

def reverseKey (conn : ResolvedConnection) : ConnectionKey :=
  ⟨conn.pid, conn.tid, conn.remoteAddr, conn.localAddr, conn.protocol⟩

def connThread (conn : ResolvedConnection) : ThreadKey := ⟨conn.pid, conn.tid⟩

def connectionBytes (connectionStats : HashMap ConnectionKey ConnectionStats) (conn : ResolvedConnection) :
    Nat × Nat :=
  match connectionStats.lookup (statsKey conn) with
  | some stats => (stats.txBytes, stats.rxBytes)
  | none =>
    match connectionStats.lookup (reverseKey conn) with
    | some stats => (stats.rxBytes, stats.txBytes)
    | none => (0, 0)

def connectionEntry (connectionStats : HashMap ConnectionKey ConnectionStats) (conn : ResolvedConnection) :
    ConnectionEntry where
  localAddr := conn.localAddr
  remoteAddr := conn.remoteAddr
  protocol := conn.protocol
  state := conn.state
  pid := conn.pid
  tid := conn.tid
  process := conn.process
  threadName := conn.threadName
  username := conn.username
  txBytes := (connectionBytes connectionStats conn).1
  rxBytes := (connectionBytes connectionStats conn).2

def pushConnection (connectionStats : HashMap ConnectionKey ConnectionStats)
    (connByThread : HashMap ThreadKey (List ConnectionEntry)) (conn : ResolvedConnection) :
    HashMap ThreadKey (List ConnectionEntry) :=
  connByThread.insert (connThread conn)
    ((connByThread.lookup (connThread conn)).getD [] ++ [connectionEntry connectionStats conn])

def processRow (blocked : Finset Nat) (key : ThreadKey) (stats : ThreadStats) (connections : List ConnectionEntry) :
    ProcessRow where
  info := stats.info
  txBytes := stats.txBytesTotal
  rxBytes := stats.rxBytesTotal
  lastSeen := stats.lastSeen
  txHistory := stats.txHistory
  rxHistory := stats.rxHistory
  isBlocked := decide (key.pid ∈ blocked)
  connections := connections

/-- The loop over the threads, which takes the connections of each out of the map. -/
def collectRows (blocked : Finset Nat) :
    List ((_ : ThreadKey) × ThreadStats) → HashMap ThreadKey (List ConnectionEntry) → List ProcessRow
  | [], _ => []
  | ⟨key, stats⟩ :: threads, connByThread =>
    processRow blocked key stats ((connByThread.lookup key).getD []) ::
      collectRows blocked threads (connByThread.erase key)

def rowOrder (a b : ProcessRow) : Bool :=
  decide (a.info.pid < b.info.pid ∨ (a.info.pid = b.info.pid ∧ a.info.tid ≤ b.info.tid))

/-- `threads` is the order in which the loop meets the threads. -/
def publishSnapshots (threads : List ((_ : ThreadKey) × ThreadStats)) (connectionCache : List ResolvedConnection)
    (blocked : Finset Nat) (state : State) : List ProcessRow × InterfaceStats :=
  let connByThread := connectionCache.foldl (pushConnection state.connectionStats) ∅
  let rows := (collectRows blocked threads connByThread).mergeSort rowOrder
  (rows, {
    txBytesTotal := state.ifTxTotal
    rxBytesTotal := state.ifRxTotal
    currentBandwidthBytesPerSec := saturatingAdd (state.ifTxHistory.getD 0 0) (state.ifRxHistory.getD 0 0)
    peakBandwidthBytesPerSec := state.peakBw
    txHistory := state.ifTxHistory
    rxHistory := state.ifRxHistory })

theorem lookup_pushConnections (connectionStats : HashMap ConnectionKey ConnectionStats)
    (connectionCache : List ResolvedConnection) (connByThread : HashMap ThreadKey (List ConnectionEntry))
    (key : ThreadKey) :
    ((connectionCache.foldl (pushConnection connectionStats) connByThread).lookup key).getD [] =
      (connByThread.lookup key).getD [] ++
        (connectionCache.filter fun conn => connThread conn = key).map (connectionEntry connectionStats) := by
  induction connectionCache generalizing connByThread with
  | nil => simp
  | cons conn rest ih =>
    rw [List.foldl_cons, ih, pushConnection]
    by_cases same : connThread conn = key
    · rw [← same, AList.lookup_insert]
      simp
    · rw [AList.lookup_insert_ne (Ne.symm same), List.filter_cons_of_neg (by simpa using same)]

/-- Taking the connections of a thread out of the map does not touch those of the others. -/
theorem collectRows_eq {blocked : Finset Nat} {threads : List ((_ : ThreadKey) × ThreadStats)}
    (distinct : threads.NodupKeys) (connByThread : HashMap ThreadKey (List ConnectionEntry)) :
    collectRows blocked threads connByThread = threads.map fun thread =>
      processRow blocked thread.1 thread.2 ((connByThread.lookup thread.1).getD []) := by
  induction threads generalizing connByThread with
  | nil => rfl
  | cons thread threads ih =>
    obtain ⟨absent, tail⟩ := List.nodupKeys_cons.mp distinct
    rw [collectRows, ih tail, List.map_cons]
    congr 1
    apply List.map_congr_left
    intro other member
    have listed := List.mem_keys_of_mem member
    have different : other.1 ≠ thread.1 := fun same => absent (same ▸ listed)
    rw [AList.lookup_erase_ne different]

/-- The published rows, one for each thread with all its cached connections. -/
theorem mem_publishSnapshots {threads : List ((_ : ThreadKey) × ThreadStats)}
    {connectionCache : List ResolvedConnection} {blocked : Finset Nat} {state : State}
    (order : threads.Perm state.statsByThread.entries) {row : ProcessRow} :
    row ∈ (publishSnapshots threads connectionCache blocked state).1 ↔ ∃ key stats,
      state.statsByThread.lookup key = some stats ∧ row = processRow blocked key stats
        ((connectionCache.filter fun conn => connThread conn = key).map (connectionEntry state.connectionStats)) := by
  have distinct : threads.NodupKeys := (List.perm_nodupKeys order).mpr state.statsByThread.nodupKeys
  rw [publishSnapshots, List.mem_mergeSort, collectRows_eq distinct]
  simp only [lookup_pushConnections, AList.lookup_empty, Option.getD_none, List.nil_append, List.mem_map, order.mem_iff]
  constructor
  · rintro ⟨⟨key, stats⟩, member, rfl⟩
    exact ⟨key, stats, HashMap.lookup_mem_entries.mpr member, rfl⟩
  · rintro ⟨key, stats, found, rfl⟩
    exact ⟨⟨key, stats⟩, HashMap.lookup_mem_entries.mp found, rfl⟩

end Netmon.Aggregator
