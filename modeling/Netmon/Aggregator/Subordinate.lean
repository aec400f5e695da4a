import Netmon.Aggregator.ConnectionBytes
import Netmon.Aggregator.Loop

/-! Connections belong to threads: an iteration leaves no connection without its thread, and
the connections of a thread have not counted more than the thread has. Between an eviction and
the pruning after it there may be connections without a thread, but no record comes then. -/
namespace Netmon.Aggregator
open Library Capture Resolver

def threadTotal (direction : Direction) (thread : ThreadKey) (state : State) : Nat :=
  (state.statsByThread.lookup thread).elim 0 (ThreadStats.bytesTotal direction)

/-- The bytes of a connection, if the thread owns it. -/
def ownedBytes (direction : Direction) (thread : ThreadKey) (key : ConnectionKey) (stats : ConnectionStats) : Nat :=
  if key.thread = thread then stats.bytes direction else 0

def connectionTotal (direction : Direction) (thread : ThreadKey) (state : State) : Nat :=
  HashMap.total (ownedBytes direction thread) state.connectionStats

def Owned (state : State) : Prop := ∀ key ∈ state.connectionStats, key.thread ∈ state.statsByThread

def Bounded (state : State) : Prop :=
  ∀ thread ∈ state.statsByThread, ∀ direction, connectionTotal direction thread state ≤ threadTotal direction thread state

theorem connectionTotal_absent {direction : Direction} {thread : ThreadKey} {state : State} (owned : Owned state)
    (absent : thread ∉ state.statsByThread) : connectionTotal direction thread state = 0 := by
  apply List.sum_eq_zero
  intro bytes member
  obtain ⟨⟨key, stats⟩, listed, rfl⟩ := List.mem_map.mp member
  apply if_neg
  rintro rfl
  exact absent (owned key (List.mem_keys_of_mem listed))

section Record
variable (record : FlowRecord) (resolved : Option ProcessInfo) (connectionCache : List ResolvedConnection)
  (now connectionNow : Instant) {state : State}

theorem processRecord_owned (owned : Owned state) :
    Owned (processRecord record resolved connectionCache now connectionNow state) := by
  obtain ⟨entry, threads, _⟩ := processRecord_entry record resolved connectionCache now connectionNow state .tx
  obtain ⟨connection, connections, _⟩ := updateConnectionStats_eq state.connectionStats record
    (flowOwner record.key resolved connectionCache) record.byteCount.toNat connectionNow
  intro key member
  rw [processRecord_connectionStats, connections, AList.mem_insert] at member
  rw [threads, AList.mem_insert]
  rcases member with rfl | old
  · exact Or.inl rfl
  · exact Or.inr (owned key old)

/-- A record raises the connections of its owner by no more than its bytes. -/
theorem processRecord_connectionTotal (thread : ThreadKey) (direction : Direction) :
    connectionTotal direction thread (processRecord record resolved connectionCache now connectionNow state) ≤
      connectionTotal direction thread state +
        if ownerKey (flowOwner record.key resolved connectionCache) = thread ∧ record.direction = direction then
          record.byteCount.toNat
        else 0 := by
  obtain ⟨connection, connections, counters⟩ := updateConnectionStats_eq state.connectionStats record
    (flowOwner record.key resolved connectionCache) record.byteCount.toNat connectionNow
  rw [connectionTotal, processRecord_connectionStats, connections]
  have balance := HashMap.total_insert_add (ownedBytes direction thread) state.connectionStats
    (recordKey (flowOwner record.key resolved connectionCache) record) connection
  have raised : ownedBytes direction thread (recordKey (flowOwner record.key resolved connectionCache) record) connection ≤
      (state.connectionStats.lookup (recordKey (flowOwner record.key resolved connectionCache) record)).elim 0
          (ownedBytes direction thread (recordKey (flowOwner record.key resolved connectionCache) record)) +
        if ownerKey (flowOwner record.key resolved connectionCache) = thread ∧ record.direction = direction then
          record.byteCount.toNat
        else 0 := by
    generalize flowOwner record.key resolved connectionCache = info at counters ⊢
    by_cases same : ownerKey info = thread
    · have all : ownedBytes direction thread (recordKey info record) = ConnectionStats.bytes direction :=
        funext fun stats => if_pos same
      rw [all, counters]
      by_cases label : record.direction = direction
      · simp only [if_pos label, if_pos (And.intro same label)]
        exact Nat.min_le_left _ _
      · simp only [if_neg label]
        exact Nat.le_add_right _ _
    · have none : ownedBytes direction thread (recordKey info record) connection = 0 := if_neg same
      rw [none]
      exact Nat.zero_le _
  unfold connectionTotal
  omega

theorem processRecord_threadTotal_saturates (thread : ThreadKey) (direction : Direction) :
    threadTotal direction thread (processRecord record resolved connectionCache now connectionNow state) =
      if ownerKey (flowOwner record.key resolved connectionCache) = thread ∧ record.direction = direction then
        saturatingAdd (threadTotal direction thread state) record.byteCount.toNat
      else threadTotal direction thread state := by
  obtain ⟨entry, inserted, _, counted⟩ :=
    processRecord_entry record resolved connectionCache now connectionNow state direction
  rw [threadTotal, inserted]
  by_cases same : ownerKey (flowOwner record.key resolved connectionCache) = thread
  · subst same
    rw [AList.lookup_insert, Option.elim_some, counted]
    simp only [true_and]
    rfl
  · rw [AList.lookup_insert_ne (Ne.symm same), if_neg fun both => same both.1]
    rfl

theorem processRecord_threadTotal (thread : ThreadKey) (direction : Direction)
    (fits : threadTotal direction thread state +
      (Op.processRecord record resolved connectionCache now connectionNow).bytes direction < 2^64) :
    threadTotal direction thread (processRecord record resolved connectionCache now connectionNow state) =
      threadTotal direction thread state +
        if ownerKey (flowOwner record.key resolved connectionCache) = thread ∧ record.direction = direction then
          record.byteCount.toNat
        else 0 := by
  rw [processRecord_threadTotal_saturates]
  split
  · rename_i own
    rw [Op.bytes, if_pos own.2] at fits
    exact saturatingAdd_exact fits
  · rfl

theorem processRecord_bounded (owned : Owned state) (bounded : Bounded state)
    (fits : ∀ thread direction, threadTotal direction thread state +
      (Op.processRecord record resolved connectionCache now connectionNow).bytes direction < 2^64) :
    Bounded (processRecord record resolved connectionCache now connectionNow state) := by
  intro thread _ direction
  have before : connectionTotal direction thread state ≤ threadTotal direction thread state := by
    by_cases live : thread ∈ state.statsByThread
    · exact bounded thread live direction
    · rw [connectionTotal_absent owned live]
      exact Nat.zero_le _
  have connections := @processRecord_connectionTotal record resolved connectionCache now connectionNow state
    thread direction
  rw [processRecord_threadTotal record resolved connectionCache now connectionNow thread direction (fits thread direction)]
  omega

end Record

theorem mapValues_threadTotal {f : ThreadKey → ThreadStats → ThreadStats} {state after : State}
    (threads : after.statsByThread = HashMap.mapValues f state.statsByThread) {thread : ThreadKey} {direction : Direction}
    (same : ∀ stats, (f thread stats).bytesTotal direction = stats.bytesTotal direction) :
    threadTotal direction thread after = threadTotal direction thread state := by
  rw [threadTotal, threads, HashMap.lookup_mapValues, threadTotal]
  cases state.statsByThread.lookup thread with
  | none => rfl
  | some stats => exact same stats

theorem mapValues_bounded {f : ThreadKey → ThreadStats → ThreadStats} {state after : State} (bounded : Bounded state)
    (threads : after.statsByThread = HashMap.mapValues f state.statsByThread)
    (connections : after.connectionStats = state.connectionStats)
    (same : ∀ key stats direction, (f key stats).bytesTotal direction = stats.bytesTotal direction) : Bounded after := by
  intro thread live direction
  rw [threads, ← AList.lookup_isSome, HashMap.lookup_mapValues, Option.isSome_map, AList.lookup_isSome] at live
  rw [connectionTotal, connections, mapValues_threadTotal threads fun stats => same thread stats direction]
  exact bounded thread live direction

theorem mapValues_owned {f : ThreadKey → ThreadStats → ThreadStats} {state after : State} (owned : Owned state)
    (threads : after.statsByThread = HashMap.mapValues f state.statsByThread)
    (connections : after.connectionStats = state.connectionStats) : Owned after := by
  intro key member
  rw [connections] at member
  rw [threads, ← AList.lookup_isSome, HashMap.lookup_mapValues, Option.isSome_map, AList.lookup_isSome]
  exact owned key member

theorem evictStaleThreads_bounded (now : ThreadKey → Instant) {state : State} (bounded : Bounded state) :
    Bounded (evictStaleThreads now state) := by
  intro thread live direction
  obtain ⟨stats, kept⟩ := Option.isSome_iff_exists.mp (AList.lookup_isSome.mpr live)
  have found := (evictStaleThreads_kept kept).1
  have same : threadTotal direction thread (evictStaleThreads now state) = threadTotal direction thread state := by
    rw [threadTotal, kept, threadTotal, found]
  rw [same]
  exact bounded thread (AList.lookup_isSome.mp (by rw [found]; rfl)) direction

theorem pruneConnectionStats_bounded (now : ConnectionKey → Instant) {state : State} (bounded : Bounded state) :
    Bounded (pruneConnectionStats now state) := by
  intro thread live direction
  have parts := HashMap.total_retain (ownedBytes direction thread) (keepsConnection now state.statsByThread)
    state.connectionStats
  have kept : connectionTotal direction thread (pruneConnectionStats now state) ≤ connectionTotal direction thread state := by
    unfold connectionTotal
    rw [parts]
    exact Nat.le_add_right _ _
  exact kept.trans (bounded thread live direction)

theorem pruneConnectionStats_kept {now : ConnectionKey → Instant} {state : State} {key : ConnectionKey}
    {stats : ConnectionStats} (found : (pruneConnectionStats now state).connectionStats.lookup key = some stats) :
    elapsed (now key) stats.lastSeen ≤ processEvictionTimeout ∧ key.thread ∈ state.statsByThread := by
  rw [pruneConnectionStats, HashMap.lookup_retain, Option.filter_eq_some_iff, keepsConnection] at found
  obtain ⟨_, kept⟩ := found
  split at kept
  · cases kept
  · rename_i recent
    exact ⟨Nat.le_of_not_lt recent, AList.lookup_isSome.mp kept⟩

theorem pruneConnectionStats_owned (now : ConnectionKey → Instant) (state : State) :
    Owned (pruneConnectionStats now state) := by
  intro key member
  obtain ⟨stats, found⟩ := Option.isSome_iff_exists.mp (AList.lookup_isSome.mpr member)
  exact (pruneConnectionStats_kept found).2

def Op.evicts : Op → Bool
  | .evictStaleThreads _ => true
  | _ => false

def Op.prunes : Op → Bool
  | .pruneConnectionStats _ => true
  | _ => false

/-- Every eviction is followed by a pruning at once. -/
def Paired (ops : List Op) : Prop := ops.IsChain fun op next => op.evicts = true → next.prunes = true

theorem step_owned {state : State} (owned : Owned state) (op : Op) (stays : op.evicts = false) : Owned (step state op) := by
  cases op with
  | processRecord record resolved connectionCache now connectionNow =>
    exact processRecord_owned record resolved connectionCache now connectionNow owned
  | markExitedThreads resolves =>
    obtain ⟨f, threads, _⟩ := markExitedThreads_infos resolves state
    exact mapValues_owned owned threads rfl
  | evictStaleThreads now => cases stays
  | pruneConnectionStats now => exact pruneConnectionStats_owned now state
  | rotateHistoriesIfDue checked rotated =>
    rcases rotateHistoriesIfDue_cases checked rotated state with ⟨_, early⟩ | ⟨_, peakBw, rotation⟩
    · rw [step, early]
      exact owned
    · rw [step, rotation]
      exact mapValues_owned (f := fun _ stats => stats.rotateSecond) owned rfl rfl

theorem step_bounded {state : State} (bounded : Bounded state) (op : Op) (owned : op.prunes = false → Owned state)
    (fits : ∀ thread direction, threadTotal direction thread state + op.bytes direction < 2^64) :
    Bounded (step state op) := by
  cases op with
  | processRecord record resolved connectionCache now connectionNow =>
    exact processRecord_bounded record resolved connectionCache now connectionNow (owned rfl) bounded fits
  | markExitedThreads resolves =>
    obtain ⟨f, threads, infos⟩ := markExitedThreads_infos resolves state
    apply mapValues_bounded bounded threads rfl
    intro key stats direction
    obtain ⟨info, marked⟩ := infos key stats
    rw [marked]
    cases direction <;> rfl
  | evictStaleThreads now => exact evictStaleThreads_bounded now bounded
  | pruneConnectionStats now => exact pruneConnectionStats_bounded now bounded
  | rotateHistoriesIfDue checked rotated =>
    rcases rotateHistoriesIfDue_cases checked rotated state with ⟨_, early⟩ | ⟨_, peakBw, rotation⟩
    · rw [step, early]
      exact bounded
    · rw [step, rotation]
      refine mapValues_bounded (f := fun _ stats => stats.rotateSecond) bounded rfl rfl fun key stats direction => ?_
      cases direction <;> rfl

theorem Paired.before {ops : List Op} {op : Op} (paired : Paired (ops ++ [op])) : Paired ops :=
  (List.isChain_append.mp paired).1

/-- What is no pruning does not come right after an eviction. -/
theorem Paired.settled {ops : List Op} {op : Op} (paired : Paired (ops ++ [op])) (other : op.prunes = false) :
    ∀ previous ∈ ops.getLast?, previous.evicts = false := by
  intro previous last
  have follows := (List.isChain_append.mp paired).2.2 previous last op (by simp)
  cases evicts : previous.evicts with
  | false => rfl
  | true =>
    rw [follows evicts] at other
    cases other

theorem run_owned (now : Instant) (ops : List Op) (paired : Paired ops)
    (settled : ∀ op ∈ ops.getLast?, op.evicts = false) : Owned (run step (.initial now) ops) := by
  induction ops using List.reverseRecOn with
  | nil =>
    intro key member
    cases member
  | append_singleton ops op ih =>
    rw [run_append]
    cases prunes : op.prunes with
    | true =>
      cases op with
      | pruneConnectionStats now' => exact pruneConnectionStats_owned now' _
      | _ => cases prunes
    | false => exact step_owned (ih paired.before (paired.settled prunes)) op (settled op (by simp))

theorem threadTotal_le (now : Instant) (ops : List Op) (direction : Direction)
    (fits : recordedBytes direction ops < 2^64) (thread : ThreadKey) :
    threadTotal direction thread (run step (.initial now) ops) ≤ recordedBytes direction ops := by
  have none : (State.initial now).ifTotal direction = 0 ∧ (State.initial now).liveTotal direction = 0 := by
    cases direction <;> exact ⟨rfl, rfl⟩
  obtain ⟨_, live⟩ := run_conserves (.initial now) ops direction (by omega) (by omega)
  have below : threadTotal direction thread (run step (.initial now) ops) ≤
      (run step (.initial now) ops).liveTotal direction :=
    HashMap.elim_le_total (fun _ => ThreadStats.bytesTotal direction) _ thread
  omega

theorem run_bounded (now : Instant) (ops : List Op) (paired : Paired ops)
    (fits : ∀ direction, recordedBytes direction ops < 2^64) : Bounded (run step (.initial now) ops) := by
  induction ops using List.reverseRecOn with
  | nil =>
    intro thread live
    cases live
  | append_singleton ops op ih =>
    have split (direction : Direction) :
        recordedBytes direction (ops ++ [op]) = recordedBytes direction ops + op.bytes direction := by
      simp [recordedBytes]
    simp only [split] at fits
    have fewer (direction : Direction) : recordedBytes direction ops < 2^64 :=
      Nat.lt_of_le_of_lt (Nat.le_add_right _ _) (fits direction)
    rw [run_append]
    apply step_bounded (ih paired.before fewer) op
    · intro other
      exact run_owned now ops paired.before (paired.settled other)
    · intro thread direction
      have below := threadTotal_le now ops direction (fewer direction) thread
      have room := fits direction
      omega

theorem paired_of_settled {ops : List Op} (settled : ∀ op ∈ ops, op.evicts = false) : Paired ops := by
  induction ops with
  | nil => exact List.isChain_nil
  | cons op ops ih =>
    apply List.isChain_cons.mpr
    refine ⟨fun next _ evicts => ?_, ih fun other member => settled other (List.mem_cons_of_mem op member)⟩
    rw [settled op (by simp)] at evicts
    cases evicts

theorem iteration_paired (iteration : Iteration) (loop : LoopState) : Paired (iteration.ops loop) := by
  rw [Paired, Iteration.ops, List.isChain_append]
  refine ⟨paired_of_settled ?_, by simp [Op.evicts, Op.prunes], ?_⟩
  · intro op member
    obtain ⟨arrival, _, rfl⟩ := List.mem_map.mp member
    rfl
  · intro last member next _ evicts
    obtain ⟨arrival, _, rfl⟩ := List.mem_map.mp (List.mem_of_getLast? member)
    cases evicts

theorem iteration_settled (iteration : Iteration) (loop : LoopState) :
    ∀ last ∈ (iteration.ops loop).getLast?, last.evicts = false := by
  intro last member
  simp only [Iteration.ops, List.getLast?_append, List.getLast?_cons_cons, List.getLast?_singleton, Option.some_or,
    Option.mem_some_iff] at member
  rw [← member]
  rfl

theorem loopOps_paired (start : LoopState) (iterations : List Iteration) : Paired (loopOps start iterations) := by
  induction iterations generalizing start with
  | nil => exact List.isChain_nil
  | cons iteration iterations ih =>
    rw [loopOps, observed, Paired, List.isChain_append]
    refine ⟨iteration_paired iteration start, ih (runIteration start iteration), ?_⟩
    intro last member next _ evicts
    rw [iteration_settled iteration start last member] at evicts
    cases evicts

/-- What an iteration leaves behind: connections with their threads, and nothing too old. -/
structure Maintained (iteration : Iteration) (state : State) : Prop where
  owned : ∀ key ∈ state.connectionStats, key.thread ∈ state.statsByThread
  threads : ∀ key stats, state.statsByThread.lookup key = some stats →
    elapsed (iteration.evictNow key) stats.lastSeen ≤ processEvictionTimeout
  connections : ∀ key stats, state.connectionStats.lookup key = some stats →
    elapsed (iteration.pruneNow key) stats.lastSeen ≤ processEvictionTimeout

theorem maintained_rotated {iteration : Iteration} {state : State} (maintained : Maintained iteration state)
    (checked rotated : Instant) : Maintained iteration (rotateHistoriesIfDue checked rotated state).2 := by
  rcases rotateHistoriesIfDue_cases checked rotated state with ⟨_, early⟩ | ⟨_, peakBw, rotation⟩
  · rw [early]
    exact maintained
  · rw [rotation]
    refine ⟨mapValues_owned (f := fun _ stats => stats.rotateSecond) maintained.owned rfl rfl, ?_, maintained.connections⟩
    intro key stats found
    have moved : (HashMap.mapValues (fun _ stats => stats.rotateSecond) state.statsByThread).lookup key = some stats := found
    rw [HashMap.lookup_mapValues, Option.map_eq_some_iff] at moved
    obtain ⟨before, listed, rfl⟩ := moved
    exact maintained.threads key before listed

theorem runIteration_maintained (loop : LoopState) (iteration : Iteration) :
    Maintained iteration (runIteration loop iteration).state := by
  apply maintained_rotated
  constructor
  · exact pruneConnectionStats_owned iteration.pruneNow _
  · intro key stats found
    exact (evictStaleThreads_kept found).2
  · intro key stats found
    exact (pruneConnectionStats_kept found).1

/-- After every iteration each connection has its thread and nothing is too old, and in every state of a run, between two
operations too, the connections of a thread have counted no more than the thread. -/
theorem connections_subordinate (now : Instant) (scanNow : Int) (historyCsv : Option Text) (iterations : List Iteration) :
    (∀ done iteration, done ++ [iteration] <+: iterations →
      Maintained iteration (run runIteration (.start now scanNow historyCsv) (done ++ [iteration])).state) ∧
    ∀ ops, ops <+: loopOps (.start now scanNow historyCsv) iterations →
      recordedBytes .tx ops + recordedBytes .rx ops < 2^64 →
      ∀ thread stats, (run step (.initial now) ops).statsByThread.lookup thread = some stats →
        ∀ direction, connectionTotal direction thread (run step (.initial now) ops) ≤ stats.bytesTotal direction := by
  constructor
  · intro done iteration _
    rw [run_append]
    exact runIteration_maintained _ iteration
  · intro ops reached fits thread stats found direction
    have paired : Paired ops := by
      obtain ⟨rest, whole⟩ := reached
      have all := loopOps_paired (.start now scanNow historyCsv) iterations
      rw [← whole] at all
      exact (List.isChain_append.mp all).1
    have bounded := run_bounded now ops paired (fun direction => by cases direction <;> omega)
    have live : thread ∈ (run step (.initial now) ops).statsByThread := by
      rw [← AList.lookup_isSome, found]
      rfl
    have below := bounded thread live direction
    rwa [threadTotal, found] at below

end Netmon.Aggregator
