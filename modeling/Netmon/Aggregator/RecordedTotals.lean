import Netmon.Aggregator.Owners
import Netmon.Aggregator.SessionHistory
import Netmon.Aggregator.Subordinate

/-! The totals along the session history. They rise as long as a thread lives; one that was
evicted begins again at zero. -/
namespace Netmon.Aggregator
open Library Capture Resolver

/-- The operation evicts the thread, which has been silent for too long. -/
def Op.evictsThread (key : ThreadKey) (state : State) : Op → Bool
  | .evictStaleThreads now =>
    (state.statsByThread.lookup key).any fun stats => elapsed (now key) stats.lastSeen > processEvictionTimeout
  | _ => false

/-- The variables of an iteration at its eviction pass. -/
def Iteration.marked (iteration : Iteration) (loop : LoopState) : State :=
  markExitedThreads iteration.resolves
    (drainFlowChannel iteration.arrivals (refreshConnectionCacheIfDue iteration loop).connectionCache loop.state)

/-- At the eviction pass the thread has been idle for more than 30 seconds. -/
def Iteration.FindsIdle (key : ThreadKey) (loop : LoopState) (iteration : Iteration) : Prop :=
  ∃ stats ∈ (iteration.marked loop).statsByThread.lookup key, 30 * 10^9 < elapsed (iteration.evictNow key) stats.lastSeen

theorem findsIdle_iff (key : ThreadKey) (loop : LoopState) (iteration : Iteration) :
    iteration.FindsIdle key loop ↔
      (Op.evictStaleThreads iteration.evictNow).evictsThread key (iteration.marked loop) = true := by
  simp [Iteration.FindsIdle, Op.evictsThread, Option.any_eq_true, processEvictionTimeout]

instance (key : ThreadKey) (loop : LoopState) (iteration : Iteration) : Decidable (iteration.FindsIdle key loop) :=
  decidable_of_iff _ (findsIdle_iff key loop iteration).symm

/-- An iteration that does not find the thread idle has no operation that evicts it. -/
theorem spared_of_not_idle {key : ThreadKey} {loop : LoopState} {iteration : Iteration}
    (active : ¬iteration.FindsIdle key loop) :
    Meets step (fun state op => op.evictsThread key state = false) loop.state (iteration.ops loop) := by
  rw [findsIdle_iff, Bool.not_eq_true] at active
  rw [Iteration.ops, meets_append, ← drainFlowChannel_run]
  refine ⟨?_, rfl, active, rfl, rfl, trivial⟩
  generalize loop.state = state
  induction iteration.arrivals generalizing state with
  | nil => trivial
  | cons arrival arrivals ih => exact ⟨rfl, ih _⟩

section Total
variable (key : ThreadKey) (direction : Direction)

theorem directionBytes_attributed (record : FlowRecord) (resolved : Option ProcessInfo)
    (connectionCache : List ResolvedConnection) (now connectionNow : Instant) :
    directionBytes direction ((Op.processRecord record resolved connectionCache now connectionNow).attributed key) =
      if ownerKey (flowOwner record.key resolved connectionCache) = key ∧ record.direction = direction then
        record.byteCount.toNat
      else 0 := by
  rw [Op.attributed]
  by_cases own : ownerKey (flowOwner record.key resolved connectionCache) = key
  · by_cases label : record.direction = direction <;> simp [own, label, directionBytes, bytesOf]
  · simp [own, directionBytes, bytesOf]

theorem evictStaleThreads_threadTotal (now : ThreadKey → Instant) (state : State) :
    threadTotal direction key (evictStaleThreads now state) = threadTotal direction key state ∨
      (threadTotal direction key (evictStaleThreads now state) = 0 ∧
        (Op.evictStaleThreads now).evictsThread key state = true) := by
  rw [threadTotal, threadTotal, evictStaleThreads, HashMap.lookup_retain, Op.evictsThread]
  cases state.statsByThread.lookup key with
  | none => exact Or.inl rfl
  | some stats =>
    by_cases active : stillActive now key stats = true
    · rw [Option.filter_some, if_pos active]
      exact Or.inl rfl
    · rw [Option.filter_some, if_neg active]
      have stale := of_decide_eq_false (Bool.not_eq_true _ ▸ active)
      exact Or.inr ⟨rfl, decide_eq_true (Nat.lt_of_not_le stale)⟩

theorem step_threadTotal {state : State} (small : threadTotal direction key state < 2^64) (op : Op) :
    threadTotal direction key (step state op) =
        min (threadTotal direction key state + directionBytes direction (op.attributed key)) (2^64 - 1) ∨
      (threadTotal direction key (step state op) = 0 ∧ op.evictsThread key state = true) := by
  have still {total : Nat} (same : total = threadTotal direction key state) :
      total = min (threadTotal direction key state + 0) (2^64 - 1) := by omega
  cases op with
  | processRecord record resolved connectionCache now connectionNow =>
    rw [directionBytes_attributed, step, processRecord_threadTotal_saturates]
    left
    split
    · rfl
    · exact still rfl
  | markExitedThreads resolves =>
    obtain ⟨f, threads, infos⟩ := markExitedThreads_infos resolves state
    refine Or.inl (still ?_)
    apply mapValues_threadTotal threads
    intro stats
    obtain ⟨info, marked⟩ := infos key stats
    rw [marked]
    cases direction <;> rfl
  | evictStaleThreads now => exact (evictStaleThreads_threadTotal key direction now state).imp still id
  | pruneConnectionStats now => exact Or.inl (still rfl)
  | rotateHistoriesIfDue checked rotated =>
    refine Or.inl (still ?_)
    rcases rotateHistoriesIfDue_cases checked rotated state with ⟨_, early⟩ | ⟨_, peakBw, rotation⟩
    · rw [step, early]
    · rw [step, rotation]
      have threads : (rotateInterfaceSecond { state with
          statsByThread := HashMap.mapValues (fun _ stats => stats.rotateSecond) state.statsByThread }).statsByThread =
            HashMap.mapValues (fun _ stats => ThreadStats.rotateSecond stats) state.statsByThread := rfl
      apply mapValues_threadTotal threads
      intro stats
      cases direction <;> rfl

theorem step_threadTotal_lt {state : State} (small : threadTotal direction key state < 2^64) (op : Op) :
    threadTotal direction key (step state op) < 2^64 := by
  rcases step_threadTotal key direction small op with raised | ⟨zero, _⟩
  · rw [raised]
    omega
  · rw [zero]
    exact Nat.two_pow_pos 64

theorem run_threadTotal_lt (now : Instant) (ops : List Op) :
    threadTotal direction key (run step (.initial now) ops) < 2^64 :=
  run_keeps step (fun state => threadTotal direction key state < 2^64)
    (fun _ op small => step_threadTotal_lt key direction small op) _ ops (Nat.two_pow_pos 64)

/-- While a thread is not evicted its total grows by the bytes of its records. -/
theorem run_threadTotal {state : State} (small : threadTotal direction key state < 2^64) {ops : List Op}
    (spared : Meets step (fun state op => op.evictsThread key state = false) state ops) :
    threadTotal direction key (run step state ops) =
      min (threadTotal direction key state + directionBytes direction (attributed key ops)) (2^64 - 1) := by
  induction ops generalizing state with
  | nil =>
    have nothing : directionBytes direction (attributed key []) = 0 := rfl
    rw [run_nil, nothing]
    omega
  | cons op ops ih =>
    obtain ⟨first, later⟩ := spared
    have split : directionBytes direction (attributed key (op :: ops)) =
        directionBytes direction (op.attributed key) + directionBytes direction (attributed key ops) := by
      rw [attributed, List.flatMap_cons, directionBytes_append, attributed]
    rw [run_cons, ih (step_threadTotal_lt key direction small op) later, split]
    rcases step_threadTotal key direction small op with raised | ⟨_, evicted⟩
    · rw [raised]
      omega
    · rw [first] at evicted
      cases evicted

end Total

def HistoryCsvRow.bytesTotal : Direction → HistoryCsvRow → Nat
  | .tx, row => row.txBytesTotal
  | .rx, row => row.rxBytesTotal

def HistoryCsvRow.threadKey (row : HistoryCsvRow) : ThreadKey := ⟨row.pid, row.tid⟩

/-- The totals of a thread, in the order of the rows. -/
def totalsOf (direction : Direction) (key : ThreadKey) (rows : List HistoryCsvRow) : List Nat :=
  (rows.filter fun row => row.threadKey = key).map (HistoryCsvRow.bytesTotal direction)

theorem totalsOf_append (direction : Direction) (key : ThreadKey) (first second : List HistoryCsvRow) :
    totalsOf direction key (first ++ second) = totalsOf direction key first ++ totalsOf direction key second := by
  simp [totalsOf]

/-- An iteration appends rows of the threads that live after it. -/
theorem runIteration_appends (loop : LoopState) (iteration : Iteration) :
    ∃ added, (runIteration loop iteration).sessionHistory = loop.sessionHistory ++ added ∧
      ∀ row ∈ added, ∃ key stats, (runIteration loop iteration).state.statsByThread.lookup key = some stats ∧
        row = historyRow iteration.timestamp stats := by
  unfold runIteration
  obtain ⟨rotated, state⟩ := iteration.rotation loop
  have walked := iteration.order.permuted state.statsByThread
  cases rotated with
  | false => exact ⟨[], (List.append_nil _).symm, by simp⟩
  | true =>
    cases loop.historyCsv with
    | none => exact ⟨[], (List.append_nil _).symm, by simp⟩
    | some file =>
      refine ⟨_, rfl, ?_⟩
      intro row member
      simp only [List.mem_map] at member
      obtain ⟨_, ⟨⟨key, stats⟩, listed, rfl⟩, rfl⟩ := member
      exact ⟨key, stats, HashMap.lookup_mem_entries.mpr (walked.mem_iff.mp listed), rfl⟩

section Loop
variable (now : Instant) (scanNow : Int) (historyCsv : Option Text)

theorem loop_reachable (iterations : List Iteration) : ∃ ops,
    (run runIteration (.start now scanNow historyCsv) iterations).state = run step (.initial now) ops :=
  ⟨_, loop_state (.start now scanNow historyCsv) iterations⟩

/-- The rows that an iteration appends for a thread show its total. -/
theorem appended_total (iterations : List Iteration) (iteration : Iteration) (key : ThreadKey) (direction : Direction) :
    let loop := run runIteration (.start now scanNow historyCsv) iterations
    ∃ added, (runIteration loop iteration).sessionHistory = loop.sessionHistory ++ added ∧
      ∀ total ∈ totalsOf direction key added, total = threadTotal direction key (runIteration loop iteration).state := by
  intro loop
  obtain ⟨added, appended, rows⟩ := runIteration_appends loop iteration
  obtain ⟨ops, reached⟩ := loop_reachable now scanNow historyCsv (iterations ++ [iteration])
  rw [run_append] at reached
  change (runIteration loop iteration).state = _ at reached
  refine ⟨added, appended, ?_⟩
  intro total member
  obtain ⟨row, listed, rfl⟩ := List.mem_map.mp member
  obtain ⟨present, own⟩ := List.mem_filter.mp listed
  obtain ⟨thread, stats, stored, rfl⟩ := rows row present
  have shown : thread = key := by
    rw [reached] at stored
    exact (run_keyed now ops stored).symm.trans (of_decide_eq_true own)
  rw [threadTotal, ← shown, stored]
  cases direction <;> rfl

theorem loop_threadTotal_lt (iterations : List Iteration) (key : ThreadKey) (direction : Direction) :
    threadTotal direction key (run runIteration (.start now scanNow historyCsv) iterations).state < 2^64 := by
  rw [loop_state]
  exact run_threadTotal_lt key direction now _

theorem spared_ops {key : ThreadKey} {loop : LoopState} {since : List Iteration}
    (active : Meets runIteration (fun loop iteration => ¬iteration.FindsIdle key loop) loop since) :
    Meets step (fun state op => op.evictsThread key state = false) loop.state (loopOps loop since) := by
  induction since generalizing loop with
  | nil => trivial
  | cons iteration since ih =>
    obtain ⟨first, later⟩ := active
    rw [loopOps, observed, meets_append, ← runIteration_state]
    exact ⟨spared_of_not_idle first, ih later⟩

theorem runIteration_threadTotal_le (iterations : List Iteration) {iteration : Iteration} {key : ThreadKey}
    (active : ¬iteration.FindsIdle key (run runIteration (.start now scanNow historyCsv) iterations)) (direction : Direction) :
    threadTotal direction key (run runIteration (.start now scanNow historyCsv) iterations).state ≤
      threadTotal direction key (runIteration (run runIteration (.start now scanNow historyCsv) iterations) iteration).state := by
  have small := loop_threadTotal_lt now scanNow historyCsv iterations key direction
  rw [runIteration_state, run_threadTotal key direction small (spared_of_not_idle active)]
  omega

/-- The rows recorded since show totals that rise to what the thread has by now. -/
def RisenSince (direction : Direction) (key : ThreadKey) (start loop : LoopState) : Prop :=
  ∃ added, loop.sessionHistory = start.sessionHistory ++ added ∧ (totalsOf direction key added).Pairwise (· ≤ ·) ∧
    ∀ total ∈ totalsOf direction key added, total ≤ threadTotal direction key loop.state

theorem RisenSince.step {direction : Direction} {key : ThreadKey} {start loop after : LoopState}
    (risen : RisenSince direction key start loop)
    (grown : threadTotal direction key loop.state ≤ threadTotal direction key after.state)
    (appends : ∃ added, after.sessionHistory = loop.sessionHistory ++ added ∧
      ∀ total ∈ totalsOf direction key added, total = threadTotal direction key after.state) :
    RisenSince direction key start after := by
  obtain ⟨recorded, whole, rising, below⟩ := risen
  obtain ⟨added, appended, totals⟩ := appends
  refine ⟨recorded ++ added, ?_, ?_, ?_⟩
  · rw [appended, whole, List.append_assoc]
  · rw [totalsOf_append, List.pairwise_append]
    refine ⟨rising, ?_, ?_⟩
    · apply List.pairwise_of_forall_mem_list
      intro first one second two
      rw [totals first one, totals second two]
    · intro first one second two
      rw [totals second two]
      exact (below first one).trans grown
  · rw [totalsOf_append]
    intro total member
    rcases List.mem_append.mp member with old | new
    · exact (below total old).trans grown
    · exact Nat.le_of_eq (totals total new)

theorem run_risenSince (before since : List Iteration) (key : ThreadKey)
    (active : Meets runIteration (fun loop iteration => ¬iteration.FindsIdle key loop)
      (run runIteration (.start now scanNow historyCsv) before) since) (direction : Direction) :
    RisenSince direction key (run runIteration (.start now scanNow historyCsv) before)
      (run runIteration (.start now scanNow historyCsv) (before ++ since)) := by
  induction since using List.reverseRecOn with
  | nil =>
    rw [List.append_nil]
    exact ⟨[], (List.append_nil _).symm, List.Pairwise.nil, by simp [totalsOf]⟩
  | append_singleton since iteration ih =>
    obtain ⟨earlier, last, _⟩ := (meets_append runIteration _ _ _ _).mp active
    rw [← run_append] at last
    rw [← List.append_assoc, run_append runIteration _ (before ++ since)]
    apply (ih earlier).step
    · exact runIteration_threadTotal_le now scanNow historyCsv (before ++ since) last direction
    · exact appended_total now scanNow historyCsv (before ++ since) iteration key direction

theorem dropped_absent {key : ThreadKey} {loop : LoopState} {iteration : Iteration} (idle : iteration.FindsIdle key loop) :
    (runIteration loop iteration).state.statsByThread.lookup key = none := by
  obtain ⟨stats, stored, silent⟩ := idle
  have evicted : (evictStaleThreads iteration.evictNow (iteration.marked loop)).statsByThread.lookup key = none := by
    have stale : stillActive iteration.evictNow key stats = false := decide_eq_false (Nat.not_le_of_lt silent)
    rw [evictStaleThreads, HashMap.lookup_retain, Option.mem_def.mp stored, Option.filter_some, stale]
    rfl
  have rotation : (runIteration loop iteration).state =
      step (pruneConnectionStats iteration.pruneNow (evictStaleThreads iteration.evictNow (iteration.marked loop)))
        (.rotateHistoriesIfDue iteration.checked iteration.rotated) := rfl
  rw [rotation, step]
  rcases rotateHistoriesIfDue_cases iteration.checked iteration.rotated
    (pruneConnectionStats iteration.pruneNow (evictStaleThreads iteration.evictNow (iteration.marked loop)))
    with ⟨_, early⟩ | ⟨_, peakBw, rotated⟩
  · rw [early]
    exact evicted
  · rw [rotated]
    change (HashMap.mapValues _ (evictStaleThreads iteration.evictNow (iteration.marked loop)).statsByThread).lookup key = none
    rw [HashMap.lookup_mapValues, evicted]
    rfl

/-- Along the rows that are recorded while no eviction pass finds a thread idle for more than 30 seconds its totals never
decrease. A thread that a pass finds idle is dropped, and the rows recorded from then on show the bytes of its records
since then. -/
theorem recorded_totals_rise (before : List Iteration) (key : ThreadKey) (direction : Direction) :
    let loop := run runIteration (.start now scanNow historyCsv) before
    (∀ since, Meets runIteration (fun loop iteration => ¬iteration.FindsIdle key loop) loop since →
      ∃ added, (run runIteration loop since).sessionHistory = loop.sessionHistory ++ added ∧
        (totalsOf direction key added).Pairwise (· ≤ ·)) ∧
    ∀ iteration, iteration.FindsIdle key loop →
      let dropped := runIteration loop iteration
      dropped.state.statsByThread.lookup key = none ∧
      ∀ since last, Meets runIteration (fun loop iteration => ¬iteration.FindsIdle key loop) dropped (since ++ [last]) →
        ∃ added, (run runIteration dropped (since ++ [last])).sessionHistory =
            (run runIteration dropped since).sessionHistory ++ added ∧
          ∀ total ∈ totalsOf direction key added,
            total = min (directionBytes direction (attributed key (loopOps dropped (since ++ [last])))) (2^64 - 1) := by
  intro loop
  refine ⟨?_, ?_⟩
  · intro since active
    obtain ⟨added, whole, rising, _⟩ := run_risenSince now scanNow historyCsv before since key active direction
    rw [run_append] at whole
    exact ⟨added, whole, rising⟩
  · intro iteration idle dropped
    have absent := dropped_absent idle
    refine ⟨absent, ?_⟩
    intro since last active
    have reached : dropped = run runIteration (.start now scanNow historyCsv) (before ++ [iteration]) := by
      rw [run_append]
      rfl
    have zero : threadTotal direction key dropped.state = 0 := by
      rw [threadTotal, absent]
      rfl
    have small : threadTotal direction key dropped.state < 2^64 := by
      rw [zero]
      exact Nat.two_pow_pos 64
    obtain ⟨added, appended, totals⟩ :=
      appended_total now scanNow historyCsv ((before ++ [iteration]) ++ since) last key direction
    rw [run_append, ← reached] at appended totals
    refine ⟨added, ?_, ?_⟩
    · rw [run_append]
      exact appended
    · intro total member
      have whole : runIteration (run runIteration dropped since) last = run runIteration dropped (since ++ [last]) := by
        rw [run_append]
        rfl
      rw [totals total member, whole, loop_state, run_threadTotal key direction small (spared_ops active), zero, Nat.zero_add]

end Loop

def curlSends (time : Instant) (byteCount : UInt32) : Iteration :=
  .atTime time [(tcpRecord clientAddr serverAddr byteCount .tx, curl)]

def openedCsv : Option Text := openHistoryCsv (some []) fun text => (text, true)

/-- The totals rise to 150 bytes, and begin again at 50 after a silence of 38 seconds. -/
theorem recorded_totals_rise_curl :
    (totalsOf .tx ⟨5, 5⟩ (run runIteration (.start 0 0 openedCsv)
      [curlSends (10^9) 100, curlSends (2 * 10^9) 50]).sessionHistory).Pairwise (· ≤ ·) ∧
    ∃ added, (run runIteration (.start 0 0 openedCsv)
        [curlSends (10^9) 100, .atTime (40 * 10^9) [], curlSends (41 * 10^9) 50]).sessionHistory =
          (run runIteration (.start 0 0 openedCsv) [curlSends (10^9) 100, .atTime (40 * 10^9) []]).sessionHistory ++ added ∧
      ∀ total ∈ totalsOf .tx ⟨5, 5⟩ added, total = 50 := by
  obtain ⟨added, whole, rising⟩ := (recorded_totals_rise 0 0 openedCsv [] ⟨5, 5⟩ .tx).1
    [curlSends (10^9) 100, curlSends (2 * 10^9) 50] (by decide +kernel)
  obtain ⟨_, restarts⟩ := (recorded_totals_rise 0 0 openedCsv [curlSends (10^9) 100] ⟨5, 5⟩ .tx).2
    (.atTime (40 * 10^9) []) (by decide +kernel)
  obtain ⟨later, appended, totals⟩ := restarts [] (curlSends (41 * 10^9) 50) (by decide +kernel)
  refine ⟨?_, later, ?_, ?_⟩
  · have all : (run runIteration (.start 0 0 openedCsv) [curlSends (10^9) 100, curlSends (2 * 10^9) 50]).sessionHistory =
        added := whole
    rw [all]
    exact rising
  · simpa only [run_cons, run_nil, List.nil_append] using appended
  · intro total member
    rw [totals total member]
    decide +kernel

/-- The thread is evicted after 38 seconds of silence, so that its next record is counted from zero. -/
theorem recorded_totals_fall :
    let iterations := [curlSends (10^9) 100, .atTime (40 * 10^9) [], curlSends (41 * 10^9) 50]
    totalsOf .tx ⟨5, 5⟩ (run runIteration (.start 0 0 openedCsv) iterations).sessionHistory = [100, 50] ∧
      ¬(totalsOf .tx ⟨5, 5⟩ (run runIteration (.start 0 0 openedCsv) iterations).sessionHistory).Pairwise (· ≤ ·) := by
  intro iterations
  have totals : totalsOf .tx ⟨5, 5⟩ (run runIteration (.start 0 0 openedCsv) iterations).sessionHistory = [100, 50] := by
    decide +kernel
  refine ⟨totals, ?_⟩
  rw [totals]
  decide

end Netmon.Aggregator
