import Netmon.Aggregator.State

/-! Conservation of bytes over whole runs: what the interface has counted is what
the records say, and it is held by the threads that live or were evicted. -/
namespace Netmon.Aggregator
open Library Capture Resolver

def ThreadStats.bytesTotal : Direction → ThreadStats → Nat
  | .tx, stats => stats.txBytesTotal
  | .rx, stats => stats.rxBytesTotal

def State.ifTotal : Direction → State → Nat
  | .tx, state => state.ifTxTotal
  | .rx, state => state.ifRxTotal

def State.liveTotal (direction : Direction) (state : State) : Nat :=
  HashMap.total (fun _ stats => stats.bytesTotal direction) state.statsByThread

def Op.bytes (direction : Direction) : Op → Nat
  | .processRecord record .. => if record.direction = direction then record.byteCount.toNat else 0
  | _ => 0

def Op.record? : Op → Option FlowRecord
  | .processRecord record .. => some record
  | _ => none

def recordedBytes (direction : Direction) (ops : List Op) : Nat := (ops.map (Op.bytes direction)).sum

/-- The threads that an operation evicts, as they are when they are evicted. -/
def evictedBy (state : State) : Op → List ThreadStats
  | .evictStaleThreads now =>
    (HashMap.retain (fun key stats => !stillActive now key stats) state.statsByThread).entries.map (·.2)
  | _ => []

/-- The threads evicted in a run, every generation of a thread anew. -/
def evictedIn : State → List Op → List ThreadStats := observed step evictedBy

def evictedTotal (direction : Direction) (evicted : List ThreadStats) : Nat :=
  (evicted.map (ThreadStats.bytesTotal direction)).sum

theorem evictedTotal_append (direction : Direction) (first second : List ThreadStats) :
    evictedTotal direction (first ++ second) = evictedTotal direction first + evictedTotal direction second := by
  simp [evictedTotal]

theorem saturatingAdd_exact {a b : Nat} (fits : a + b < 2^64) : saturatingAdd a b = a + b := by
  rw [saturatingAdd, min_eq_left (Nat.le_sub_one_of_lt fits)]

section Record
variable (record : FlowRecord) (resolved : Option ProcessInfo) (connectionCache : List ResolvedConnection)
  (now connectionNow : Instant) (state : State) (direction : Direction)

theorem processRecord_ifTotal :
    (processRecord record resolved connectionCache now connectionNow state).ifTotal direction =
      if record.direction = direction then saturatingAdd (state.ifTotal direction) record.byteCount.toNat
      else state.ifTotal direction := by
  unfold processRecord
  cases side : record.direction <;> cases direction <;> rfl

theorem processRecord_entry : ∃ entry,
    (processRecord record resolved connectionCache now connectionNow state).statsByThread =
      state.statsByThread.insert (ownerKey (flowOwner record.key resolved connectionCache)) entry ∧
    entry.info = flowOwner record.key resolved connectionCache ∧
    entry.bytesTotal direction =
      let counted := (state.statsByThread.lookup (ownerKey (flowOwner record.key resolved connectionCache))).elim 0
        (ThreadStats.bytesTotal direction)
      if record.direction = direction then saturatingAdd counted record.byteCount.toNat else counted := by
  unfold processRecord
  simp only
  generalize flowOwner record.key resolved connectionCache = info
  cases found : state.statsByThread.lookup (ownerKey info) <;> cases side : record.direction <;>
    exact ⟨_, rfl, rfl, by cases direction <;> rfl⟩

def State.counters : Direction → State → Nat × Nat
  | .tx, state => (state.ifTxTotal, state.ifTxCurrentSecond)
  | .rx, state => (state.ifRxTotal, state.ifRxCurrentSecond)

def ThreadStats.counters : Direction → ThreadStats → Nat × Nat
  | .tx, stats => (stats.txBytesTotal, stats.txCurrentSecond)
  | .rx, stats => (stats.rxBytesTotal, stats.rxCurrentSecond)

def State.threadCounters (direction : Direction) (key : ThreadKey) (state : State) : Nat × Nat :=
  (state.statsByThread.lookup key).elim (0, 0) (ThreadStats.counters direction)

def raisedCounters (bytes : Nat) (counters : Nat × Nat) : Nat × Nat :=
  (saturatingAdd counters.1 bytes, saturatingAdd counters.2 bytes)

/-- The operation adds the bytes to the counters of one direction, those of the interface and of one
thread, and leaves all others alone. -/
structure Op.RaisesOnly (direction : Direction) (thread : ThreadKey) (bytes : Nat) (op : Op) : Prop where
  interface : ∀ (state : State) (side : Direction), (step state op).counters side =
    if side = direction then raisedCounters bytes (state.counters side) else state.counters side
  threads : ∀ (state : State) (side : Direction) (key : ThreadKey), (step state op).threadCounters side key =
    if side = direction ∧ key = thread then raisedCounters bytes (state.threadCounters side key)
    else state.threadCounters side key

theorem processRecord_raisesOnly :
    (Op.processRecord record resolved connectionCache now connectionNow).RaisesOnly record.direction
      (ownerKey (flowOwner record.key resolved connectionCache)) record.byteCount.toNat := by
  constructor
  · intro state side
    unfold step processRecord
    cases label : record.direction <;> cases side <;> simp [label, State.counters, raisedCounters]
  · intro state side key
    unfold step processRecord State.threadCounters
    simp only
    generalize flowOwner record.key resolved connectionCache = info
    by_cases same : key = ownerKey info
    · subst same
      cases found : state.statsByThread.lookup (ownerKey info) <;> cases label : record.direction <;>
        cases side <;> simp [raisedCounters, ThreadStats.counters, ThreadStats.new]
    · cases label : record.direction <;> simp only [AList.lookup_insert_ne same, same, and_false, if_false]

end Record

theorem processRecord_conserves (record : FlowRecord) (resolved : Option ProcessInfo)
    (connectionCache : List ResolvedConnection) (now connectionNow : Instant) (state : State) (direction : Direction)
    (held : state.liveTotal direction ≤ state.ifTotal direction)
    (fits : state.ifTotal direction + (Op.processRecord record resolved connectionCache now connectionNow).bytes
      direction < 2^64) :
    (processRecord record resolved connectionCache now connectionNow state).liveTotal direction =
      state.liveTotal direction +
        (Op.processRecord record resolved connectionCache now connectionNow).bytes direction := by
  obtain ⟨entry, inserted, _, counted⟩ :=
    processRecord_entry record resolved connectionCache now connectionNow state direction
  rw [State.liveTotal, inserted]
  apply HashMap.total_insert_raised
  rw [counted, Op.bytes]
  have below := HashMap.elim_le_total (fun _ stats => ThreadStats.bytesTotal direction stats) state.statsByThread
    (ownerKey (flowOwner record.key resolved connectionCache))
  simp only
  split
  · rename_i same
    rw [Op.bytes, if_pos same] at fits
    apply saturatingAdd_exact
    exact Nat.lt_of_le_of_lt (Nat.add_le_add_right (below.trans held) _) fits
  · rfl

theorem mapValues_liveTotal {f : ThreadKey → ThreadStats → ThreadStats} {state : State} {direction : Direction}
    (same : ∀ key stats, (f key stats).bytesTotal direction = stats.bytesTotal direction) :
    HashMap.total (fun _ stats => stats.bytesTotal direction) (HashMap.mapValues f state.statsByThread) =
      state.liveTotal direction := by
  rw [HashMap.total_mapValues]
  simp only [same]
  rfl

theorem markExitedThreads_infos (resolves : ThreadKey → Bool) (state : State) :
    ∃ f : ThreadKey → ThreadStats → ThreadStats,
      (markExitedThreads resolves state).statsByThread = HashMap.mapValues f state.statsByThread ∧
      ∀ key stats, ∃ info, f key stats = { stats with info } := by
  refine ⟨fun key stats =>
    if key.pid = 0 then stats
    else if !resolves key && !exitedSuffix.isSuffixOf stats.info.name then
      { stats with info := { stats.info with name := stats.info.name ++ exitedSuffix } }
    else stats, rfl, fun key stats => ?_⟩
  simp only
  split
  · exact ⟨stats.info, rfl⟩
  · split
    · exact ⟨{ stats.info with name := stats.info.name ++ exitedSuffix }, rfl⟩
    · exact ⟨stats.info, rfl⟩

theorem rotateHistoriesIfDue_cases (checked rotated : Instant) (state : State) :
    (elapsed checked state.lastRotation < rotationPeriod ∧ rotateHistoriesIfDue checked rotated state = (false, state)) ∨
    (rotationPeriod ≤ elapsed checked state.lastRotation ∧ ∃ peakBw, rotateHistoriesIfDue checked rotated state =
      (true, { rotateInterfaceSecond { state with
          statsByThread := HashMap.mapValues (fun _ stats => stats.rotateSecond) state.statsByThread } with
        peakBw
        lastRotation := rotated })) := by
  unfold rotateHistoriesIfDue
  split
  · rename_i early
    exact Or.inl ⟨early, rfl⟩
  · rename_i due
    exact Or.inr ⟨Nat.le_of_not_lt due, _, rfl⟩

theorem evictStaleThreads_kept {now : ThreadKey → Instant} {state : State} {key : ThreadKey} {stats : ThreadStats}
    (found : (evictStaleThreads now state).statsByThread.lookup key = some stats) :
    state.statsByThread.lookup key = some stats ∧ elapsed (now key) stats.lastSeen ≤ processEvictionTimeout := by
  rw [evictStaleThreads, HashMap.lookup_retain, Option.filter_eq_some_iff] at found
  exact ⟨found.1, of_decide_eq_true found.2⟩

theorem step_conserves (state : State) (op : Op) (direction : Direction)
    (held : state.liveTotal direction ≤ state.ifTotal direction)
    (fits : state.ifTotal direction + op.bytes direction < 2^64) :
    (step state op).ifTotal direction = state.ifTotal direction + op.bytes direction ∧
    (step state op).liveTotal direction + evictedTotal direction (evictedBy state op) =
      state.liveTotal direction + op.bytes direction := by
  cases op with
  | processRecord record resolved connectionCache now connectionNow =>
    refine ⟨?_, processRecord_conserves record resolved connectionCache now connectionNow state direction held fits⟩
    rw [step, processRecord_ifTotal]
    rw [Op.bytes] at fits ⊢
    split
    · rename_i same
      rw [if_pos same] at fits
      exact saturatingAdd_exact fits
    · rfl
  | markExitedThreads resolves =>
    refine ⟨by cases direction <;> rfl, ?_⟩
    obtain ⟨f, threads, infos⟩ := markExitedThreads_infos resolves state
    have same : ∀ key stats, (f key stats).bytesTotal direction = stats.bytesTotal direction := by
      intro key stats
      obtain ⟨info, marked⟩ := infos key stats
      rw [marked]
      cases direction <;> rfl
    rw [step, State.liveTotal, threads]
    exact mapValues_liveTotal same
  | evictStaleThreads now =>
    refine ⟨by cases direction <;> rfl, ?_⟩
    have parts := HashMap.total_retain (fun _ stats => ThreadStats.bytesTotal direction stats) (stillActive now)
      state.statsByThread
    rw [evictedTotal, evictedBy, List.map_map]
    exact parts.symm
  | pruneConnectionStats now => exact ⟨by cases direction <;> rfl, rfl⟩
  | rotateHistoriesIfDue checked rotated =>
    rcases rotateHistoriesIfDue_cases checked rotated state with ⟨_, early⟩ | ⟨_, peakBw, rotation⟩
    · rw [step, early]
      exact ⟨rfl, rfl⟩
    · rw [step, rotation]
      refine ⟨by cases direction <;> rfl, ?_⟩
      apply mapValues_liveTotal
      intro key stats
      cases direction <;> rfl

theorem run_conserves (start : State) (ops : List Op) (direction : Direction)
    (held : start.liveTotal direction ≤ start.ifTotal direction)
    (fits : start.ifTotal direction + recordedBytes direction ops < 2^64) :
    (run step start ops).ifTotal direction = start.ifTotal direction + recordedBytes direction ops ∧
    (run step start ops).liveTotal direction + evictedTotal direction (evictedIn start ops) =
      start.liveTotal direction + recordedBytes direction ops := by
  induction ops generalizing start with
  | nil => exact ⟨rfl, rfl⟩
  | cons op ops ih =>
    have split : recordedBytes direction (op :: ops) = op.bytes direction + recordedBytes direction ops := by
      simp [recordedBytes]
    rw [split] at fits ⊢
    obtain ⟨counted, live⟩ := step_conserves start op direction held (by omega)
    obtain ⟨countedAll, liveAll⟩ := ih (step start op) (by omega) (by omega)
    rw [run_cons, evictedIn, observed, evictedTotal_append]
    rw [evictedIn] at liveAll
    omega

/-- While fewer than 2^64 bytes are recorded, the interface total of a direction
is the sum of its records, and that of all threads, evicted ones included. -/
theorem bytes_conserved (now : Instant) (ops : List Op)
    (bound : recordedBytes .tx ops + recordedBytes .rx ops < 2^64) (direction : Direction) :
    (run step (State.initial now) ops).ifTotal direction = recordedBytes direction ops ∧
    (run step (State.initial now) ops).ifTotal direction =
      (run step (State.initial now) ops).liveTotal direction +
        evictedTotal direction (evictedIn (State.initial now) ops) := by
  have none : (State.initial now).ifTotal direction = 0 ∧ (State.initial now).liveTotal direction = 0 := by
    cases direction <;> exact ⟨rfl, rfl⟩
  have fits : recordedBytes direction ops < 2^64 := by cases direction <;> omega
  obtain ⟨counted, live⟩ := run_conserves (State.initial now) ops direction (by omega) (by omega)
  omega

def curl : ProcessInfo := ⟨5, 5, "curl".toList, "curl".toList, 1000, "user".toList⟩

def clientAddr : SocketAddr := ⟨.v4 ⟨10, 0, 0, 2⟩, 40000⟩
def serverAddr : SocketAddr := ⟨.v4 ⟨192, 0, 2, 1⟩, 443⟩

def tcpRecord (source destination : SocketAddr) (byteCount : UInt32) (direction : Direction) : FlowRecord :=
  ⟨⟨source.ip, destination.ip, source.port, destination.port, .tcp⟩, byteCount, 0, direction⟩

/-- The thread sends, is silent for a minute, is evicted and sends again. -/
def twoGenerations : List Op :=
  [.processRecord (tcpRecord clientAddr serverAddr 100 .tx) (some curl) [] 0 0,
    .evictStaleThreads fun _ => 60 * 10^9,
    .processRecord (tcpRecord clientAddr serverAddr 50 .tx) (some curl) [] (60 * 10^9) (60 * 10^9)]

theorem bytes_conserved_twoGenerations :
    (run step (State.initial 0) twoGenerations).ifTotal .tx = recordedBytes .tx twoGenerations ∧
    (run step (State.initial 0) twoGenerations).ifTotal .tx =
      (run step (State.initial 0) twoGenerations).liveTotal .tx +
        evictedTotal .tx (evictedIn (State.initial 0) twoGenerations) :=
  bytes_conserved 0 twoGenerations (by decide) .tx

end Netmon.Aggregator
