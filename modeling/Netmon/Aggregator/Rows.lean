import Netmon.Aggregator.Owners
import Netmon.Aggregator.Publish

/-! The published rows as a keyed list: sorted by the pid and tid that they show, one for
each thread, with every cached connection in the row of its thread. -/
namespace Netmon.Aggregator
open Library Capture Resolver

/-- What the GUI selects a row by. -/
def rowKey (row : ProcessRow) : ThreadKey := ownerKey row.info

def keyBefore (a b : ThreadKey) : Prop := a.pid < b.pid ∨ (a.pid = b.pid ∧ a.tid < b.tid)

/-- A row with the names, the totals and the histories of a thread. -/
structure ShowsThread (blocked : Finset Nat) (stats : ThreadStats) (row : ProcessRow) : Prop where
  info : row.info = stats.info
  txBytes : row.txBytes = stats.txBytesTotal
  rxBytes : row.rxBytes = stats.rxBytesTotal
  lastSeen : row.lastSeen = stats.lastSeen
  txHistory : row.txHistory = stats.txHistory
  rxHistory : row.rxHistory = stats.rxHistory
  isBlocked : row.isBlocked = true ↔ row.info.pid ∈ blocked

/-- An entry with everything that it has of a connection. -/
structure EntryOf (connectionStats : HashMap ConnectionKey ConnectionStats) (conn : ResolvedConnection)
    (entry : ConnectionEntry) : Prop where
  localAddr : entry.localAddr = conn.localAddr
  remoteAddr : entry.remoteAddr = conn.remoteAddr
  protocol : entry.protocol = conn.protocol
  state : entry.state = conn.state
  pid : entry.pid = conn.pid
  tid : entry.tid = conn.tid
  process : entry.process = conn.process
  threadName : entry.threadName = conn.threadName
  username : entry.username = conn.username
  bytes : (entry.txBytes, entry.rxBytes) = connectionBytes connectionStats conn

structure FaithfulRows (connectionCache : List ResolvedConnection) (blocked : Finset Nat) (state : State)
    (rows : List ProcessRow) : Prop where
  increasing : rows.Pairwise fun a b => keyBefore (rowKey a) (rowKey b)
  oneEach : (rows.map rowKey).Perm state.statsByThread.keys
  shows : ∀ row ∈ rows, ∃ stats, state.statsByThread.lookup (rowKey row) = some stats ∧ ShowsThread blocked stats row
  ownRow : ∀ conn ∈ connectionCache, ∀ row ∈ rows,
    (∃ entry ∈ row.connections, EntryOf state.connectionStats conn entry) ↔ rowKey row = connThread conn
  /-- The entries of a row are, one for one, those of the cached connections of its thread. -/
  asOften : ∀ row ∈ rows, List.Forall₂ (EntryOf state.connectionStats)
    (connectionCache.filter fun conn => connThread conn = rowKey row) row.connections

/-- The cached connections of a thread, as its row lists them. -/
def threadConnections (connectionStats : HashMap ConnectionKey ConnectionStats) (connectionCache : List ResolvedConnection)
    (key : ThreadKey) : List ConnectionEntry :=
  (connectionCache.filter fun conn => connThread conn = key).map (connectionEntry connectionStats)

theorem rowOrder_iff (a b : ProcessRow) : rowOrder a b = true ↔ keyBefore (rowKey a) (rowKey b) ∨ rowKey a = rowKey b := by
  simp only [rowOrder, keyBefore, rowKey, ownerKey, ThreadKey.mk.injEq, decide_eq_true_eq]
  omega

theorem rowOrder_trans (a b c : ProcessRow) (first : rowOrder a b = true) (second : rowOrder b c = true) :
    rowOrder a c = true := by
  simp only [rowOrder, decide_eq_true_eq] at *
  omega

theorem rowOrder_total (a b : ProcessRow) : (rowOrder a b || rowOrder b a) = true := by
  simp only [rowOrder, Bool.or_eq_true, decide_eq_true_eq]
  omega

/-- Sorted rows whose keys differ are in strictly increasing order. -/
theorem increasing_of_sorted {rows : List ProcessRow} (sorted : rows.Pairwise fun a b => rowOrder a b = true)
    (distinct : (rows.map rowKey).Nodup) : rows.Pairwise fun a b => keyBefore (rowKey a) (rowKey b) := by
  have different : rows.Pairwise fun a b => rowKey a ≠ rowKey b := List.pairwise_map.mp distinct
  apply (sorted.and different).imp
  rintro a b ⟨before, other⟩
  exact ((rowOrder_iff a b).mp before).resolve_right other

section Connections
variable {connectionStats : HashMap ConnectionKey ConnectionStats} {connectionCache : List ResolvedConnection}

theorem connectionEntry_entryOf (conn : ResolvedConnection) :
    EntryOf connectionStats conn (connectionEntry connectionStats conn) :=
  ⟨rfl, rfl, rfl, rfl, rfl, rfl, rfl, rfl, rfl, rfl⟩

/-- An entry shows the thread of its connection, so no other thread's row can hold it. -/
theorem EntryOf.thread {conn : ResolvedConnection} {entry : ConnectionEntry} (shows : EntryOf connectionStats conn entry) :
    connThread conn = ⟨entry.pid, entry.tid⟩ := by
  rw [connThread, shows.pid, shows.tid]

theorem threadConnections_entries (key : ThreadKey) : List.Forall₂ (EntryOf connectionStats)
    (connectionCache.filter fun conn => connThread conn = key)
    (threadConnections connectionStats connectionCache key) := by
  rw [threadConnections, List.forall₂_map_right_iff, List.forall₂_same]
  exact fun conn _ => connectionEntry_entryOf conn

theorem mem_threadConnections {conn : ResolvedConnection} (cached : conn ∈ connectionCache) (key : ThreadKey) :
    (∃ entry ∈ threadConnections connectionStats connectionCache key, EntryOf connectionStats conn entry) ↔
      key = connThread conn := by
  constructor
  · rintro ⟨entry, member, shows⟩
    obtain ⟨other, listed, rfl⟩ := List.mem_map.mp member
    have own : connThread other = key := of_decide_eq_true (List.mem_filter.mp listed).2
    exact own.symm.trans ((connectionEntry_entryOf other).thread.trans shows.thread.symm)
  · rintro rfl
    have listed : conn ∈ connectionCache.filter fun other => connThread other = connThread conn :=
      List.mem_filter.mpr ⟨cached, decide_eq_true rfl⟩
    exact ⟨_, List.mem_map_of_mem listed, connectionEntry_entryOf conn⟩

end Connections

theorem processRow_showsThread (blocked : Finset Nat) {key : ThreadKey} {stats : ThreadStats} (own : ownerKey stats.info = key)
    (connections : List ConnectionEntry) : ShowsThread blocked stats (processRow blocked key stats connections) := by
  refine ⟨rfl, rfl, rfl, rfl, rfl, rfl, ?_⟩
  rw [← own]
  exact decide_eq_true_iff

theorem publishSnapshots_perm {threads : List ((_ : ThreadKey) × ThreadStats)} {state : State}
    (order : threads.Perm state.statsByThread.entries) (connectionCache : List ResolvedConnection) (blocked : Finset Nat) :
    (publishSnapshots threads connectionCache blocked state).1.Perm (threads.map fun thread =>
      processRow blocked thread.1 thread.2 (threadConnections state.connectionStats connectionCache thread.1)) := by
  have distinct : threads.NodupKeys := (List.perm_nodupKeys order).mpr state.statsByThread.nodupKeys
  apply (List.mergeSort_perm _ rowOrder).trans
  rw [collectRows_eq distinct]
  simp only [lookup_pushConnections, AList.lookup_empty, Option.getD_none, List.nil_append]
  exact List.Perm.refl _

section Reachable
variable (now : Instant) (ops : List Op) {threads : List ((_ : ThreadKey) × ThreadStats)}
  (order : threads.Perm (run step (.initial now) ops).statsByThread.entries)
  (connectionCache : List ResolvedConnection) (blocked : Finset Nat)
include order

theorem walked_stored {thread : (_ : ThreadKey) × ThreadStats} (member : thread ∈ threads) :
    (run step (.initial now) ops).statsByThread.lookup thread.1 = some thread.2 ∧ ownerKey thread.2.info = thread.1 := by
  have stored := HashMap.lookup_mem_entries.mpr (order.mem_iff.mp member)
  exact ⟨stored, run_keyed now ops stored⟩

theorem publishSnapshots_keys :
    ((publishSnapshots threads connectionCache blocked (run step (.initial now) ops)).1.map rowKey).Perm
      (run step (.initial now) ops).statsByThread.keys := by
  have mapped := (publishSnapshots_perm order connectionCache blocked).map rowKey
  have shown : ∀ thread ∈ threads, (rowKey ∘ fun thread => processRow blocked thread.1 thread.2
      (threadConnections (run step (.initial now) ops).connectionStats connectionCache thread.1)) thread = thread.1 :=
    fun thread member => (walked_stored now ops order member).2
  rw [List.map_map, List.map_congr_left shown] at mapped
  exact mapped.trans (order.map Sigma.fst)

theorem publishSnapshots_shows {row : ProcessRow}
    (member : row ∈ (publishSnapshots threads connectionCache blocked (run step (.initial now) ops)).1) :
    ∃ stats, (run step (.initial now) ops).statsByThread.lookup (rowKey row) = some stats ∧
      row = processRow blocked (rowKey row) stats
        (threadConnections (run step (.initial now) ops).connectionStats connectionCache (rowKey row)) := by
  have published := publishSnapshots_perm order connectionCache blocked
  obtain ⟨thread, listed, rfl⟩ := List.mem_map.mp (published.mem_iff.mp member)
  obtain ⟨stored, key⟩ := walked_stored now ops order listed
  refine ⟨thread.2, ?_, ?_⟩
  · exact (congrArg (run step (.initial now) ops).statsByThread.lookup key).trans stored
  · simp only [rowKey, processRow, key]

end Reachable

/-- In every reachable state, for every order of the walk over the threads and every connection cache, the rows are a
faithful keyed list. -/
theorem rows_faithful (now : Instant) (ops : List Op) (order : HashMap.Iteration ThreadKey ThreadStats)
    (connectionCache : List ResolvedConnection) (blocked : Finset Nat) :
    let state := run step (.initial now) ops
    FaithfulRows connectionCache blocked state
      (publishSnapshots (order.entries state.statsByThread) connectionCache blocked state).1 := by
  intro state
  have walked := order.permuted state.statsByThread
  have keys := publishSnapshots_keys now ops walked connectionCache blocked
  have connections : ∀ row ∈ (publishSnapshots (order.entries state.statsByThread) connectionCache blocked state).1,
      row.connections = threadConnections state.connectionStats connectionCache (rowKey row) := by
    intro row member
    obtain ⟨stats, _, same⟩ := publishSnapshots_shows now ops walked connectionCache blocked member
    exact congrArg ProcessRow.connections same
  refine ⟨?_, keys, ?_, ?_, ?_⟩
  · apply increasing_of_sorted
    · exact List.pairwise_mergeSort rowOrder_trans rowOrder_total _
    · exact keys.nodup_iff.mpr state.statsByThread.nodupKeys
  · intro row member
    obtain ⟨stats, stored, same⟩ := publishSnapshots_shows now ops walked connectionCache blocked member
    exact ⟨stats, stored, same ▸ processRow_showsThread blocked (run_keyed now ops stored) _⟩
  · intro conn cached row member
    rw [connections row member]
    exact mem_threadConnections cached (rowKey row)
  · intro row member
    rw [connections row member]
    exact threadConnections_entries (rowKey row)

end Netmon.Aggregator
