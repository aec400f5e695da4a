import Netmon.Aggregator.Evicted
import Netmon.Aggregator.SessionHistory

/-! The chart of the main panel. Without a selected thread it adds up the histories of the
rows, which is the traffic of the interface less that of threads evicted since. -/
namespace Netmon.Gui
open Library Capture Resolver Aggregator

def addHistory (sum history : History) : History := Vector.zipWith saturatingAdd sum history

/-- The two histories that `draw_chart` plots, before their unit is changed. -/
def chartHistories (rows : List ProcessRow) (selectedThread : Option ThreadKey) : History × History :=
  match selectedThread with
  | some selected =>
    match rows.find? (fun row => row.info.pid == selected.pid && row.info.tid == selected.tid) with
    | some row => (row.txHistory, row.rxHistory)
    | none => (emptyHistory, emptyHistory)
  | none =>
    rows.foldl (fun sums row => (addHistory sums.1 row.txHistory, addHistory sums.2 row.rxHistory))
      (emptyHistory, emptyHistory)

def side (direction : Direction) (histories : History × History) : History :=
  match direction with
  | .tx => histories.1
  | .rx => histories.2

def rowHistory (direction : Direction) (row : ProcessRow) : History := side direction (row.txHistory, row.rxHistory)

def interfaceHistory (direction : Direction) (interface : InterfaceStats) : History :=
  side direction (interface.txHistory, interface.rxHistory)

theorem getD_addHistory (sum history : History) {i : Nat} (inside : i < historySlots) :
    (addHistory sum history).getD i 0 = saturatingAdd (sum.getD i 0) (history.getD i 0) := by
  simp only [addHistory, Vector.getD, Vector.toArray_zipWith, Array.getD_eq_getD_getElem?]
  grind

theorem side_foldl (direction : Direction) (rows : List ProcessRow) (start : History × History) :
    side direction (rows.foldl (fun sums row => (addHistory sums.1 row.txHistory, addHistory sums.2 row.rxHistory)) start) =
      rows.foldl (fun sum row => addHistory sum (rowHistory direction row)) (side direction start) := by
  induction rows generalizing start with
  | nil => rfl
  | cons row rows ih =>
    rw [List.foldl_cons, List.foldl_cons, ih]
    cases direction <;> rfl

theorem getD_foldl_addHistory (direction : Direction) (rows : List ProcessRow) (start : History) {i amount : Nat}
    (inside : i < historySlots) (begun : start.getD i 0 = min (2^64 - 1) amount) :
    (rows.foldl (fun sum row => addHistory sum (rowHistory direction row)) start).getD i 0 =
      min (2^64 - 1) (amount + (rows.map fun row => (rowHistory direction row).getD i 0).sum) := by
  induction rows generalizing start amount with
  | nil => exact begun
  | cons row rows ih =>
    rw [List.foldl_cons, List.map_cons, List.sum_cons, ← Nat.add_assoc]
    apply ih
    rw [getD_addHistory _ _ inside, begun, saturatingAdd_min, Nat.add_comm]

theorem aggregate_slot (direction : Direction) (rows : List ProcessRow) {i : Nat} (inside : i < historySlots) :
    (side direction (chartHistories rows none)).getD i 0 =
      min (2^64 - 1) (rows.map fun row => (rowHistory direction row).getD i 0).sum := by
  have empty : (side direction (emptyHistory, emptyHistory)).getD i 0 = min (2^64 - 1) 0 := by
    cases direction <;> exact getD_emptyHistory i
  have slots := getD_foldl_addHistory direction rows _ inside empty
  rw [Nat.zero_add] at slots
  rw [chartHistories, side_foldl, slots]

theorem collectRows_histories (direction : Direction) (blocked : Finset Nat) (threads : List ((_ : ThreadKey) × ThreadStats))
    (connByThread : HashMap ThreadKey (List ConnectionEntry)) :
    (collectRows blocked threads connByThread).map (rowHistory direction) =
      threads.map fun thread => (thread.2.meter direction).history := by
  induction threads generalizing connByThread with
  | nil => rfl
  | cons thread threads ih =>
    rw [collectRows, List.map_cons, List.map_cons, ih]
    cases direction <;> rfl

theorem published_slot (direction : Direction) {threads : List ((_ : ThreadKey) × ThreadStats)}
    {connectionCache : List ResolvedConnection} {blocked : Finset Nat} {state : State} {shown : List ProcessRow}
    (order : threads.Perm state.statsByThread.entries)
    (sorted : shown.Perm (publishSnapshots threads connectionCache blocked state).1) (i : Nat) :
    (shown.map fun row => (rowHistory direction row).getD i 0).sum =
      HashMap.total (fun _ stats => (stats.meter direction).history.getD i 0) state.statsByThread := by
  have collected := sorted.trans (List.mergeSort_perm _ rowOrder)
  have slot (rows : List ProcessRow) : rows.map (fun row => (rowHistory direction row).getD i 0) =
      (rows.map (rowHistory direction)).map fun history => history.getD i 0 := by
    rw [List.map_map]
    rfl
  rw [(collected.map _).sum_eq, slot, collectRows_histories, List.map_map]
  exact (order.map _).sum_eq

theorem published_loop (start : LoopState) (iterations : List Iteration) (iteration : Iteration) :
    let loop := run runIteration start (iterations ++ [iteration])
    let published := publishSnapshots (iteration.order.entries loop.state.statsByThread) loop.connectionCache
      iteration.blocked loop.state
    loop.rows = published.1 ∧ loop.interface = published.2 := by
  rw [run_append]
  have published := runIteration_published (run runIteration start iterations) iteration
  exact ⟨congrArg Prod.fst published, congrArg Prod.snd published⟩

theorem interfaceHistory_loop (now : Instant) (scanNow : Int) (historyCsv : Option Text) (iterations : List Iteration)
    (direction : Direction) :
    interfaceHistory direction (run runIteration (.start now scanNow historyCsv) iterations).interface =
      ((run step (.initial now) (loopOps (.start now scanNow historyCsv) iterations)).ifMeter direction).history := by
  induction iterations using List.reverseRecOn with
  | nil => cases direction <;> rfl
  | append_singleton iterations iteration =>
    have state := loop_state (.start now scanNow historyCsv) (iterations ++ [iteration])
    obtain ⟨_, interface⟩ := published_loop (.start now scanNow historyCsv) iterations iteration
    rw [interface, state]
    cases direction <;> rfl

theorem shown_slot (now : Instant) (scanNow : Int) (historyCsv : Option Text) (iterations : List Iteration)
    (direction : Direction) (i : Nat) {shown : List ProcessRow}
    (sorted : shown.Perm (run runIteration (.start now scanNow historyCsv) iterations).rows) :
    (shown.map fun row => (rowHistory direction row).getD i 0).sum =
      HashMap.total (fun _ stats => (stats.meter direction).history.getD i 0)
        (run step (.initial now) (loopOps (.start now scanNow historyCsv) iterations)).statsByThread := by
  induction iterations using List.reverseRecOn with
  | nil =>
    have none : shown = [] := List.Perm.eq_nil sorted
    rw [none]
    rfl
  | append_singleton iterations iteration =>
    have state := loop_state (.start now scanNow historyCsv) (iterations ++ [iteration])
    obtain ⟨rows, _⟩ := published_loop (.start now scanNow historyCsv) iterations iteration
    rw [rows, state] at sorted
    exact published_slot direction (iteration.order.permuted _) sorted i

theorem chart_slot (now : Instant) (scanNow : Int) (historyCsv : Option Text) (iterations : List Iteration)
    (direction : Direction) (fits : recordedBytes direction (loopOps (.start now scanNow historyCsv) iterations) < 2^64)
    {i : Nat} (inside : i < historySlots) {shown : List ProcessRow}
    (sorted : shown.Perm (run runIteration (.start now scanNow historyCsv) iterations).rows) :
    (interfaceHistory direction (run runIteration (.start now scanNow historyCsv) iterations).interface).getD i 0 =
      (side direction (chartHistories shown none)).getD i 0 +
        ((buriedIn (.initial now) (loopOps (.start now scanNow historyCsv) iterations)).map fun stats =>
          (stats.meter direction).history.getD i 0).sum := by
  have slot := interface_slot now (loopOps (.start now scanNow historyCsv) iterations) direction fits inside
  have small : ((run step (.initial now) (loopOps (.start now scanNow historyCsv) iterations)).ifMeter
      direction).history.getD i 0 ≤ 2^64 - 1 := by
    rw [(interface_exact now _ direction).slots i inside]
    split
    · exact Nat.min_le_left _ _
    · exact Nat.zero_le _
  rw [interfaceHistory_loop, aggregate_slot direction shown inside,
    shown_slot now scanNow historyCsv iterations direction i sorted, Nat.min_eq_right (by omega)]
  exact slot

/-- While no counter is saturated, a slot of the aggregate chart is the interface's exactly when no thread that was evicted
had counted bytes in it. -/
theorem aggregate_chart_exact (now : Instant) (scanNow : Int) (historyCsv : Option Text) (iterations : List Iteration)
    (direction : Direction) (fits : recordedBytes direction (loopOps (.start now scanNow historyCsv) iterations) < 2^64)
    (i : Nat) (inside : i < historySlots) (shown : List ProcessRow)
    (sorted : shown.Perm (run runIteration (.start now scanNow historyCsv) iterations).rows) :
    (side direction (chartHistories shown none)).getD i 0 =
        (interfaceHistory direction (run runIteration (.start now scanNow historyCsv) iterations).interface).getD i 0 ↔
      ∀ stats ∈ buriedIn (.initial now) (loopOps (.start now scanNow historyCsv) iterations),
        (stats.meter direction).history.getD i 0 = 0 := by
  rw [chart_slot now scanNow historyCsv iterations direction fits inside sorted]
  rw [left_eq_add, List.sum_eq_zero_iff]
  simp only [List.mem_map, forall_exists_index, and_imp, forall_apply_eq_imp_iff₂]

theorem aggregate_chart_exact_curl :
    (side .tx (chartHistories (run runIteration (.start 0 0 none) [curlIteration]).rows none)).getD 0 0 =
        (interfaceHistory .tx (run runIteration (.start 0 0 none) [curlIteration]).interface).getD 0 0 ↔
      ∀ stats ∈ buriedIn (.initial 0) (loopOps (.start 0 0 none) [curlIteration]), (stats.meter .tx).history.getD 0 0 = 0 :=
  aggregate_chart_exact 0 0 none [curlIteration] .tx (by decide +kernel) 0 (by decide) _ (List.Perm.refl _)

/-- A minute later the thread has been evicted, and its bytes have left the chart. -/
def minuteLater : List Iteration := [curlIteration, .atTime (60 * 10^9) []]

theorem aggregate_chart_forgets :
    recordedBytes .tx (loopOps (.start 0 0 none) minuteLater) = 100 ∧
    (run runIteration (.start 0 0 none) minuteLater).rows = [] ∧
    (interfaceHistory .tx (run runIteration (.start 0 0 none) minuteLater).interface).getD 1 0 = 100 ∧
    (side .tx (chartHistories (run runIteration (.start 0 0 none) minuteLater).rows none)).getD 1 0 = 0 := by
  have gone : (run runIteration (.start 0 0 none) minuteLater).rows = [] := by
    rw [← List.length_eq_zero_iff]
    decide +kernel
  refine ⟨by decide +kernel, gone, ?_, ?_⟩
  · rw [interfaceHistory_loop, (interface_exact 0 _ .tx).slots 1 (by decide)]
    decide +kernel
  · rw [gone, aggregate_slot .tx [] (by decide)]
    rfl

end Netmon.Gui
