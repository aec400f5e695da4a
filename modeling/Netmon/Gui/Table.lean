import Netmon.Aggregator.Rows
import Netmon.Gui.Rates
import Netmon.Library.StableSort

/-! The process table and the connection table. The rows come in the order of their
threads, and a click on a header sorts them anew. -/
namespace Netmon.Gui
open Library Capture Resolver Aggregator

inductive SortColumn where
  | pid
  | tid
  | process
  | thread
  | user
  | protocolMix
  | txRate
  | rxRate
  | txTotal
  | rxTotal
deriving DecidableEq, Repr

-- The counters are 32 bits wide and wrap around, as in a release build.
def countProtocol (counts : UInt32 × UInt32 × UInt32) (conn : ConnectionEntry) : UInt32 × UInt32 × UInt32 :=
  let (tcp, udp, other) := counts
  match conn.protocol with
  | .tcp => (tcp + 1, udp, other)
  | .udp => (tcp, udp + 1, other)
  | .other _ => (tcp, udp, other + 1)

def protocolMixSummary (row : ProcessRow) : Text :=
  let (tcp, udp, other) := row.connections.foldl countProtocol (0, 0, 0)
  "T:".toList ++ decimal tcp.toNat ++ " U:".toList ++ decimal udp.toNat ++ " O:".toList ++ decimal other.toNat

/-- Texts compare by code points, as the bytes of their UTF-8 do. -/
def compareRows (column : SortColumn) (a b : ProcessRow) : Ordering :=
  match column with
  | .pid => compare a.info.pid b.info.pid
  | .process => compare a.info.name b.info.name
  | .user => compare a.info.username b.info.username
  | .protocolMix => compare (protocolMixSummary a) (protocolMixSummary b)
  | .txRate => compare (twoSecondAvg a.txHistory) (twoSecondAvg b.txHistory)
  | .rxRate => compare (twoSecondAvg a.rxHistory) (twoSecondAvg b.rxHistory)
  | .txTotal => compare a.txBytes b.txBytes
  | .rxTotal => compare a.rxBytes b.rxBytes
  | .tid => compare a.info.tid b.info.tid
  | .thread => compare a.info.threadName b.info.threadName

structure Table where
  sortColumn : SortColumn
  sortAscending : Bool
  selectedThread : Option ThreadKey

inductive TableEvent where
  | header (column : SortColumn)
  | row (key : ThreadKey)
  | escape

/-- The connections of the selected thread, or of all, each with the mark of its row. -/
def collectVisibleConnections (selectedThread : Option ThreadKey) (sortedRows : List ProcessRow) :
    List (Bool × ConnectionEntry) :=
  sortedRows.flatMap fun row =>
    if selectedThread.all fun selected => selected.pid = row.info.pid ∧ selected.tid = row.info.tid then
      row.connections.map fun connection => (row.isBlocked, connection)
    else []

namespace Table

def new : Table where
  sortColumn := .pid
  sortAscending := true
  selectedThread := none

def sortedRows (table : Table) (rows : List ProcessRow) : List ProcessRow :=
  sortBy (directed (compareRows table.sortColumn) table.sortAscending) rows

def setSort (col : SortColumn) (table : Table) : Table :=
  if table.sortColumn = col then { table with sortAscending := !table.sortAscending }
  else { table with sortColumn := col, sortAscending := true }

def step (table : Table) : TableEvent → Table
  | .header column => table.setSort column
  | .row key =>
    if table.selectedThread = some key then { table with selectedThread := none }
    else { table with selectedThread := some key }
  | .escape => { table with selectedThread := none }

end Table

def headers (events : List TableEvent) : List SortColumn :=
  events.filterMap fun event =>
    match event with
    | .header column => some column
    | _ => none

/-- The clicks end with this many on one column, after the first of them. -/
def EndsWith (clicks : List SortColumn) (column : SortColumn) (again : Nat) : Prop :=
  ∃ earlier, clicks = earlier ++ List.replicate (again + 1) column ∧ earlier.getLast? ≠ some column

theorem EndsWith.same {clicks : List SortColumn} {column : SortColumn} {again : Nat}
    (ends : EndsWith clicks column again) : EndsWith (clicks ++ [column]) column (again + 1) := by
  obtain ⟨earlier, split, other⟩ := ends
  refine ⟨earlier, ?_, other⟩
  rw [split, List.append_assoc, ← List.replicate_succ']

theorem EndsWith.other {clicks : List SortColumn} {column next : SortColumn} {again : Nat}
    (ends : EndsWith clicks column again) (different : column ≠ next) : EndsWith (clicks ++ [next]) next 0 := by
  obtain ⟨earlier, split, _⟩ := ends
  refine ⟨clicks, rfl, ?_⟩
  rw [split, List.replicate_succ', ← List.append_assoc, List.getLast?_concat]
  exact fun same => different (Option.some.inj same)

/-- The table starts as if PID had been clicked. The column clicked last decides, and each further
click on it turns the direction. -/
theorem run_sort (events : List TableEvent) :
    ∃ again, EndsWith (.pid :: headers events) (run Table.step .new events).sortColumn again ∧
      (run Table.step .new events).sortAscending = (again % 2 == 0) := by
  induction events using List.reverseRecOn with
  | nil => exact ⟨0, ⟨[], rfl, by simp⟩, rfl⟩
  | append_singleton events event ih =>
    obtain ⟨again, ends, direction⟩ := ih
    rw [run_append, run_cons, run_nil, headers, List.filterMap_append, ← headers, ← List.cons_append]
    cases event with
    | header column =>
      simp only [Table.step, Table.setSort, List.filterMap_cons, List.filterMap_nil]
      split
      · rename_i same
        subst same
        refine ⟨again + 1, ends.same, ?_⟩
        simp only [direction]
        rcases Nat.mod_two_eq_zero_or_one again with even | odd
        · simp [even, Nat.add_mod]
        · simp [odd, Nat.add_mod]
      · rename_i different
        exact ⟨0, ends.other different, rfl⟩
    | row key =>
      simp only [Table.step, List.filterMap_cons, List.filterMap_nil, List.append_nil]
      split <;> exact ⟨again, ends, direction⟩
    | escape =>
      simp only [Table.step, List.filterMap_cons, List.filterMap_nil, List.append_nil]
      exact ⟨again, ends, direction⟩

instance (column : SortColumn) : Std.TransCmp (compareRows column) := by
  cases column with
  | pid => exact inferInstanceAs (Std.TransCmp (compareOn fun row : ProcessRow => row.info.pid))
  | tid => exact inferInstanceAs (Std.TransCmp (compareOn fun row : ProcessRow => row.info.tid))
  | process => exact inferInstanceAs (Std.TransCmp (compareOn fun row : ProcessRow => row.info.name))
  | thread => exact inferInstanceAs (Std.TransCmp (compareOn fun row : ProcessRow => row.info.threadName))
  | user => exact inferInstanceAs (Std.TransCmp (compareOn fun row : ProcessRow => row.info.username))
  | protocolMix => exact inferInstanceAs (Std.TransCmp (compareOn protocolMixSummary))
  | txRate => exact inferInstanceAs (Std.TransCmp (compareOn fun row : ProcessRow => twoSecondAvg row.txHistory))
  | rxRate => exact inferInstanceAs (Std.TransCmp (compareOn fun row : ProcessRow => twoSecondAvg row.rxHistory))
  | txTotal => exact inferInstanceAs (Std.TransCmp (compareOn ProcessRow.txBytes))
  | rxTotal => exact inferInstanceAs (Std.TransCmp (compareOn ProcessRow.rxBytes))

theorem keyBefore_asymm (a b : ThreadKey) (forth : keyBefore a b) : ¬keyBefore b a := by
  intro back
  simp only [keyBefore] at forth back
  omega

section Published
variable (now : Instant) (ops : List Op) (connectionCache : List ResolvedConnection) (blocked : Finset Nat)

/-- The rows published in a reachable state, for an order of the walk over the threads. -/
def publishedRows (order : HashMap.Iteration ThreadKey ThreadStats) : List ProcessRow :=
  (publishSnapshots (order.entries (run Aggregator.step (.initial now) ops).statsByThread) connectionCache blocked
    (run Aggregator.step (.initial now) ops)).1

theorem publishedRows_perm (first second : HashMap.Iteration ThreadKey ThreadStats) :
    (publishedRows now ops connectionCache blocked first).Perm (publishedRows now ops connectionCache blocked second) := by
  have walked (order : HashMap.Iteration ThreadKey ThreadStats) :=
    publishSnapshots_perm (order.permuted (run Aggregator.step (.initial now) ops).statsByThread) connectionCache blocked
  have threads := (first.permuted (run Aggregator.step (.initial now) ops).statsByThread).trans
    (second.permuted (run Aggregator.step (.initial now) ops).statsByThread).symm
  exact ((walked first).trans (threads.map _)).trans (walked second).symm

theorem publishedRows_keys (order : HashMap.Iteration ThreadKey ThreadStats) :
    ((publishedRows now ops connectionCache blocked order).map rowKey).Perm
      (run Aggregator.step (.initial now) ops).statsByThread.keys :=
  publishSnapshots_keys now ops (order.permuted _) connectionCache blocked

theorem publishedRows_increasing (order : HashMap.Iteration ThreadKey ThreadStats) :
    (publishedRows now ops connectionCache blocked order).Pairwise fun a b => keyBefore (rowKey a) (rowKey b) := by
  apply increasing_of_sorted
  · exact List.pairwise_mergeSort rowOrder_trans rowOrder_total _
  · have keys := publishedRows_keys now ops connectionCache blocked order
    exact keys.nodup_iff.mpr (run Aggregator.step (.initial now) ops).statsByThread.nodupKeys

theorem sortedRows_perm (table : Table) (order : HashMap.Iteration ThreadKey ThreadStats) :
    (table.sortedRows (publishedRows now ops connectionCache blocked order)).Perm
      (publishedRows now ops connectionCache blocked order) :=
  sortBy_perm _

theorem sortedRows_earlier (table : Table) (order : HashMap.Iteration ThreadKey ThreadStats) :
    (table.sortedRows (publishedRows now ops connectionCache blocked order)).Pairwise
      (Earlier (directed (compareRows table.sortColumn) table.sortAscending)
        fun a b => keyBefore (rowKey a) (rowKey b)) :=
  sortBy_earlier (publishedRows_increasing now ops connectionCache blocked order)

/-- After any clicks the table shows each thread once, by the column clicked last and then by pid
and tid, whatever the order of the walk over the threads was. -/
theorem table_sorted (events : List TableEvent) :
    ∃ column again shown, EndsWith (.pid :: headers events) column again ∧
      (shown.map rowKey).Perm (run Aggregator.step (.initial now) ops).statsByThread.keys ∧
      shown.Pairwise (Earlier (directed (compareRows column) (again % 2 == 0)) fun a b =>
        keyBefore (rowKey a) (rowKey b)) ∧
      ∀ order, (run Table.step .new events).sortedRows (publishedRows now ops connectionCache blocked order) = shown := by
  obtain ⟨again, ends, direction⟩ := run_sort events
  let listed : HashMap.Iteration ThreadKey ThreadStats := .plain
  refine ⟨_, again, (run Table.step .new events).sortedRows (publishedRows now ops connectionCache blocked listed),
    ends, ?_, ?_, ?_⟩
  · have keys := publishedRows_keys now ops connectionCache blocked listed
    exact ((sortedRows_perm now ops connectionCache blocked _ listed).map rowKey).trans keys
  · rw [← direction]
    exact sortedRows_earlier now ops connectionCache blocked _ listed
  · intro order
    refine eq_of_earlier (fun a b => keyBefore_asymm (rowKey a) (rowKey b)) ?_
      (sortedRows_earlier now ops connectionCache blocked _ order)
      (sortedRows_earlier now ops connectionCache blocked _ listed)
    have same := publishedRows_perm now ops connectionCache blocked order listed
    exact ((sortedRows_perm now ops connectionCache blocked _ order).trans same).trans
      (sortedRows_perm now ops connectionCache blocked _ listed).symm

/-- What the row of a thread contributes to the table, by the thread alone. -/
def connectionsOf (connectionStats : HashMap ConnectionKey ConnectionStats) (selectedThread : Option ThreadKey)
    (key : ThreadKey) : List (Bool × ConnectionEntry) :=
  ((connectionCache.filter fun conn => selectedThread.all (· = connThread conn)).filter fun conn =>
    connThread conn = key).map fun conn => (decide (conn.pid ∈ blocked), connectionEntry connectionStats conn)

theorem connectionsOf_row {connectionStats : HashMap ConnectionKey ConnectionStats} {row : ProcessRow}
    {stats : ThreadStats} (shows : row = processRow blocked (rowKey row) stats
      (threadConnections connectionStats connectionCache (rowKey row))) (selectedThread : Option ThreadKey) :
    (if selectedThread.all fun selected => selected.pid = row.info.pid ∧ selected.tid = row.info.tid then
      row.connections.map fun connection => (row.isBlocked, connection)
    else []) = connectionsOf connectionCache blocked connectionStats selectedThread (rowKey row) := by
  have flag : row.isBlocked = decide ((rowKey row).pid ∈ blocked) := congrArg ProcessRow.isBlocked shows
  have listed : row.connections = threadConnections connectionStats connectionCache (rowKey row) :=
    congrArg ProcessRow.connections shows
  have chosen : (selectedThread.all fun selected => selected.pid = row.info.pid ∧ selected.tid = row.info.tid) =
      selectedThread.all (· = rowKey row) := by
    cases selectedThread with
    | none => rfl
    | some selected =>
      obtain ⟨pid, tid⟩ := selected
      simp [rowKey, ownerKey]
  rw [chosen, flag, listed, threadConnections, connectionsOf, List.map_map, List.filter_filter]
  -- the connections of the row are of its thread, so they bear its pid and are all chosen or none
  have marks : ∀ conn ∈ connectionCache, connThread conn = rowKey row → conn.pid = (rowKey row).pid :=
    fun conn _ own => congrArg ThreadKey.pid own
  split
  · rename_i all
    have kept : (connectionCache.filter fun conn => decide (connThread conn = rowKey row) &&
        selectedThread.all (· = connThread conn)) = connectionCache.filter fun conn => connThread conn = rowKey row := by
      apply List.filter_congr
      intro conn _
      by_cases own : connThread conn = rowKey row <;> simp [own, all]
    rw [kept]
    apply List.map_congr_left
    intro conn member
    obtain ⟨cached, own⟩ := List.mem_filter.mp member
    rw [marks conn cached (of_decide_eq_true own)]
    rfl
  · rename_i other
    symm
    rw [List.map_eq_nil_iff, List.filter_eq_nil_iff]
    intro conn _ both
    rw [Bool.and_eq_true, decide_eq_true_eq] at both
    exact other (both.1 ▸ both.2)

theorem visible_perm (table : Table) (order : HashMap.Iteration ThreadKey ThreadStats) :
    (collectVisibleConnections table.selectedThread
        (table.sortedRows (publishedRows now ops connectionCache blocked order))).Perm
      ((connectionCache.filter fun conn => table.selectedThread.all (· = connThread conn) ∧
          connThread conn ∈ (run Aggregator.step (.initial now) ops).statsByThread.keys).map fun conn =>
        (decide (conn.pid ∈ blocked),
          connectionEntry (run Aggregator.step (.initial now) ops).connectionStats conn)) := by
  have rows := sortedRows_perm now ops connectionCache blocked table order
  have each : ∀ row ∈ publishedRows now ops connectionCache blocked order, (if table.selectedThread.all fun selected =>
        selected.pid = row.info.pid ∧ selected.tid = row.info.tid then
      row.connections.map fun connection => (row.isBlocked, connection)
    else []) = connectionsOf connectionCache blocked (run Aggregator.step (.initial now) ops).connectionStats
      table.selectedThread (rowKey row) := by
    intro row member
    obtain ⟨stats, _, shows⟩ := publishSnapshots_shows now ops (order.permuted _) connectionCache blocked member
    exact connectionsOf_row connectionCache blocked shows table.selectedThread
  refine (rows.flatMap_right _).trans ?_
  rw [List.flatMap_congr each, ← List.flatMap_map]
  refine ((publishedRows_keys now ops connectionCache blocked order).flatMap_right _).trans ?_
  unfold connectionsOf
  rw [← List.map_flatMap]
  refine ((flatMap_filter_perm connThread _ (run Aggregator.step (.initial now) ops).statsByThread.nodupKeys).map _).trans ?_
  rw [List.filter_filter]
  apply List.Perm.of_eq
  congr 1
  apply List.filter_congr
  intro conn _
  rw [Bool.eq_iff_iff]
  simp [and_comm, AList.keys]

end Published
end Netmon.Gui
