import Netmon.Aggregator.Windows

/-! The interface and the threads count the same bytes, slot by slot, once the threads that
were evicted are kept on: what they had counted is in the interface's slots and in no thread's. -/
namespace Netmon.Aggregator
open Library Capture Resolver

/-- The evicted threads after an operation, with histories that move on with the others. -/
def buriedBy (state : State) (buried : List ThreadStats) (op : Op) : List ThreadStats :=
  (match op with
  | .rotateHistoriesIfDue checked _ => if rotationDue checked state then buried.map ThreadStats.rotateSecond else buried
  | _ => buried) ++ evictedBy state op

def bury (states : State × List ThreadStats) (op : Op) : State × List ThreadStats :=
  (step states.1 op, buriedBy states.1 states.2 op)

/-- All threads evicted in a run, as they would be now. -/
def buriedIn (start : State) (ops : List Op) : List ThreadStats := (run bury (start, []) ops).2

theorem run_bury_fst (states : State × List ThreadStats) (ops : List Op) :
    (run bury states ops).1 = run step states.1 ops := by
  induction ops generalizing states with
  | nil => rfl
  | cons op ops ih => exact ih (bury states op)

section Sum
variable (read : Meter → Nat) (direction : Direction)

/-- A reading of the meters of all threads, live and evicted. -/
def summed (states : State × List ThreadStats) : Nat :=
  HashMap.total (fun _ stats => read (stats.meter direction)) states.1.statsByThread +
    (states.2.map fun stats => read (stats.meter direction)).sum

theorem summed_rotated {state after : State} (buried : List ThreadStats)
    (threads : after.statsByThread = HashMap.mapValues (fun _ stats => stats.rotateSecond) state.statsByThread) :
    summed read direction (after, buried.map ThreadStats.rotateSecond) =
      summed (fun meter => read meter.rotate) direction (state, buried) := by
  simp only [summed, threads, HashMap.total_mapValues, List.map_map, Function.comp_def, ThreadStats.rotateSecond_meter]

theorem summed_evicted (now : ThreadKey → Instant) (state : State) (buried : List ThreadStats) :
    summed read direction (bury (state, buried) (.evictStaleThreads now)) = summed read direction (state, buried) := by
  have parts := HashMap.total_retain (fun _ stats => read (ThreadStats.meter direction stats)) (stillActive now)
    state.statsByThread
  have gone : ((evictedBy state (.evictStaleThreads now)).map fun stats => read (stats.meter direction)).sum =
      HashMap.total (fun _ stats => read (stats.meter direction))
        (HashMap.retain (fun key stats => !stillActive now key stats) state.statsByThread) := by
    rw [evictedBy, List.map_map]
    rfl
  simp only [summed, bury, buriedBy, step, evictStaleThreads, List.map_append, List.sum_append, gone]
  omega

theorem summed_marked (resolves : ThreadKey → Bool) (state : State) (buried : List ThreadStats) :
    summed read direction (bury (state, buried) (.markExitedThreads resolves)) = summed read direction (state, buried) := by
  obtain ⟨f, threads, infos⟩ := markExitedThreads_infos resolves state
  have same : ∀ key stats, (f key stats).meter direction = stats.meter direction := by
    intro key stats
    obtain ⟨info, marked⟩ := infos key stats
    rw [marked, with_info_meter]
  simp only [summed, bury, buriedBy, step, evictedBy, List.append_nil, threads, HashMap.total_mapValues, same]

/-- A record raises one thread's reading, by what it raises the meter of that thread. -/
theorem summed_recorded (blank : read .zero = 0) (record : FlowRecord) (resolved : Option ProcessInfo)
    (connectionCache : List ResolvedConnection) (now connectionNow : Instant) (state : State) (buried : List ThreadStats)
    (amount : Nat)
    (raised : let meter := state.meter direction (.thread (ownerKey (flowOwner record.key resolved connectionCache)))
      read (if record.direction = direction then meter.count record.byteCount.toNat else meter) = read meter + amount) :
    summed read direction (bury (state, buried) (.processRecord record resolved connectionCache now connectionNow)) =
      summed read direction (state, buried) + amount := by
  obtain ⟨entry, inserted, meter⟩ :=
    processRecord_inserts record resolved connectionCache now connectionNow state direction
  have same (key : ThreadKey) : (state.statsByThread.lookup key).elim 0 (fun stats => read (stats.meter direction)) =
      read (state.meter direction (.thread key)) := by
    rw [State.meter]
    cases state.statsByThread.lookup key with
    | none => exact blank.symm
    | some stats => rfl
  have live : HashMap.total (fun _ stats => read (stats.meter direction))
        (state.statsByThread.insert (ownerKey (flowOwner record.key resolved connectionCache)) entry) =
      HashMap.total (fun _ stats => read (stats.meter direction)) state.statsByThread + amount := by
    apply HashMap.total_insert_raised
    rw [same, meter]
    exact raised
  simp only [summed, bury, buriedBy, step, evictedBy, List.append_nil, inserted, live]
  omega

theorem meter_le_summed (blank : read .zero = 0) (key : ThreadKey) (states : State × List ThreadStats) :
    read (states.1.meter direction (.thread key)) ≤ summed read direction states := by
  have below := HashMap.elim_le_total (fun _ stats => read (ThreadStats.meter direction stats)) states.1.statsByThread key
  rw [State.meter, summed]
  cases found : states.1.statsByThread.lookup key with
  | none =>
    rw [Option.elim_none, blank]
    exact Nat.zero_le _
  | some stats =>
    rw [found] at below
    exact below.trans (Nat.le_add_right _ _)

end Sum

/-- The interface shows the sum of all threads, and no counter can be saturated. -/
structure Balanced (direction : Direction) (states : State × List ThreadStats) : Prop where
  total : (states.1.ifMeter direction).total = summed Meter.total direction states
  currentSecond : (states.1.ifMeter direction).currentSecond = summed Meter.currentSecond direction states
  slots : ∀ i < historySlots,
    (states.1.ifMeter direction).history.getD i 0 = summed (fun meter => meter.history.getD i 0) direction states
  recent : (states.1.ifMeter direction).currentSecond ≤ (states.1.ifMeter direction).total

theorem initial_balanced (direction : Direction) (now : Instant) : Balanced direction (.initial now, []) := by
  have slot (i : Nat) : ((State.initial now).ifMeter direction).history.getD i 0 = 0 := by
    cases direction <;> exact getD_emptyHistory i
  constructor
  · cases direction <;> rfl
  · cases direction <;> rfl
  · intro i _
    exact slot i
  · cases direction <;> exact Nat.le_refl 0

section Record
variable {direction : Direction} {state : State} {buried : List ThreadStats} (record : FlowRecord)
  (resolved : Option ProcessInfo) (connectionCache : List ResolvedConnection) (now connectionNow : Instant)

theorem Balanced.counted (balanced : Balanced direction (state, buried)) (label : record.direction = direction)
    (fits : (state.ifMeter direction).total + record.byteCount.toNat < 2^64) :
    Balanced direction (bury (state, buried) (.processRecord record resolved connectionCache now connectionNow)) ∧
    ((bury (state, buried) (.processRecord record resolved connectionCache now connectionNow)).1.ifMeter direction).total =
      (state.ifMeter direction).total + record.byteCount.toNat := by
  have interface : (processRecord record resolved connectionCache now connectionNow state).ifMeter direction =
      (state.ifMeter direction).count record.byteCount.toNat := by
    have followed := processRecord_meter record resolved connectionCache now connectionNow state direction .interface
    rw [Meter.step, Series.counts, if_pos (by simpa using label)] at followed
    exact followed
  have raises (read : Meter → Nat) (blank : read .zero = 0) := summed_recorded read direction blank record resolved
    connectionCache now connectionNow state buried
  simp only [if_pos label] at raises
  have total := meter_le_summed Meter.total direction rfl
    (ownerKey (flowOwner record.key resolved connectionCache)) (state, buried)
  have currentSecond := meter_le_summed Meter.currentSecond direction rfl
    (ownerKey (flowOwner record.key resolved connectionCache)) (state, buried)
  rw [← balanced.total] at total
  rw [← balanced.currentSecond] at currentSecond
  have recent := balanced.recent
  simp only at total currentSecond recent
  have exactTotal : ((state.ifMeter direction).count record.byteCount.toNat).total =
      (state.ifMeter direction).total + record.byteCount.toNat := saturatingAdd_exact fits
  have exactSecond : ((state.ifMeter direction).count record.byteCount.toNat).currentSecond =
      (state.ifMeter direction).currentSecond + record.byteCount.toNat := saturatingAdd_exact (by omega)
  refine ⟨⟨?_, ?_, ?_, ?_⟩, (congrArg Meter.total interface).trans exactTotal⟩
  · rw [raises Meter.total rfl _ (saturatingAdd_exact (by omega)), ← balanced.total]
    exact (congrArg Meter.total interface).trans exactTotal
  · rw [raises Meter.currentSecond rfl _ (saturatingAdd_exact (by omega)), ← balanced.currentSecond]
    exact (congrArg Meter.currentSecond interface).trans exactSecond
  · intro i inside
    rw [raises (fun meter => meter.history.getD i 0) (getD_emptyHistory i) 0 rfl, Nat.add_zero, ← balanced.slots i inside]
    have slot := congrArg (fun meter : Meter => meter.history.getD i 0) interface
    exact slot
  · rw [bury, step, interface, exactTotal, exactSecond]
    omega

theorem Balanced.passed (balanced : Balanced direction (state, buried)) (label : record.direction ≠ direction) :
    Balanced direction (bury (state, buried) (.processRecord record resolved connectionCache now connectionNow)) ∧
    (processRecord record resolved connectionCache now connectionNow state).ifMeter direction =
      state.ifMeter direction := by
  have interface : (processRecord record resolved connectionCache now connectionNow state).ifMeter direction =
      state.ifMeter direction := by
    have followed := processRecord_meter record resolved connectionCache now connectionNow state direction .interface
    rw [Meter.step, Series.counts, if_neg (by simpa using label)] at followed
    exact followed
  have raises (read : Meter → Nat) (blank : read .zero = 0) := summed_recorded read direction blank record resolved
    connectionCache now connectionNow state buried 0 (by simp only [if_neg label]; rfl)
  refine ⟨⟨?_, ?_, ?_, ?_⟩, interface⟩
  · rw [raises Meter.total rfl, Nat.add_zero, ← balanced.total, bury, step, interface]
  · rw [raises Meter.currentSecond rfl, Nat.add_zero, ← balanced.currentSecond, bury, step, interface]
  · intro i inside
    rw [raises (fun meter => meter.history.getD i 0) (getD_emptyHistory i), Nat.add_zero, ← balanced.slots i inside, bury,
      step, interface]
  · rw [bury, step, interface]
    exact balanced.recent

end Record

theorem Balanced.of_same {direction : Direction} {before after : State × List ThreadStats}
    (balanced : Balanced direction before) (interface : after.1.ifMeter direction = before.1.ifMeter direction)
    (threads : ∀ read, summed read direction after = summed read direction before) : Balanced direction after where
  total := by rw [interface, threads, balanced.total]
  currentSecond := by rw [interface, threads, balanced.currentSecond]
  slots i inside := by rw [interface, threads, balanced.slots i inside]
  recent := by
    rw [interface]
    exact balanced.recent

theorem Balanced.rotated {direction : Direction} {state after : State} {buried : List ThreadStats}
    (balanced : Balanced direction (state, buried))
    (threads : after.statsByThread = HashMap.mapValues (fun _ stats => stats.rotateSecond) state.statsByThread)
    (interface : after.ifMeter direction = (state.ifMeter direction).rotate) :
    Balanced direction (after, buried.map ThreadStats.rotateSecond) where
  total := by
    rw [summed_rotated _ _ buried threads, interface]
    exact balanced.total
  currentSecond := by
    rw [summed_rotated _ _ buried threads, interface]
    simp [Meter.rotate, summed, HashMap.total]
  slots i inside := by
    rw [summed_rotated _ _ buried threads, interface]
    cases i with
    | zero =>
      simp only [Meter.rotate, rotateHistory_zero]
      exact balanced.currentSecond
    | succ i =>
      simp only [Meter.rotate, rotateHistory_succ _ _ inside]
      exact balanced.slots i (Nat.lt_of_succ_lt inside)
  recent := by
    rw [interface]
    exact Nat.zero_le _

theorem Balanced.step {direction : Direction} {states : State × List ThreadStats} (balanced : Balanced direction states)
    (op : Op) (fits : (states.1.ifMeter direction).total + op.bytes direction < 2^64) :
    Balanced direction (bury states op) ∧
    ((bury states op).1.ifMeter direction).total = (states.1.ifMeter direction).total + op.bytes direction := by
  obtain ⟨state, buried⟩ := states
  cases op with
  | processRecord record resolved connectionCache now connectionNow =>
    rw [Op.bytes] at fits ⊢
    by_cases label : record.direction = direction
    · rw [if_pos label] at fits ⊢
      exact balanced.counted record resolved connectionCache now connectionNow label fits
    · rw [if_neg label]
      obtain ⟨kept, interface⟩ := balanced.passed record resolved connectionCache now connectionNow label
      exact ⟨kept, congrArg Meter.total interface⟩
  | markExitedThreads resolves =>
    have interface : (bury (state, buried) (.markExitedThreads resolves)).1.ifMeter direction = state.ifMeter direction := by
      cases direction <;> rfl
    refine ⟨balanced.of_same interface fun read => ?_, congrArg Meter.total interface⟩
    exact summed_marked read direction resolves state buried
  | evictStaleThreads now =>
    have interface : (bury (state, buried) (.evictStaleThreads now)).1.ifMeter direction = state.ifMeter direction := by
      cases direction <;> rfl
    refine ⟨balanced.of_same interface fun read => ?_, congrArg Meter.total interface⟩
    exact summed_evicted read direction now state buried
  | pruneConnectionStats now =>
    have interface : (bury (state, buried) (.pruneConnectionStats now)).1.ifMeter direction = state.ifMeter direction := by
      cases direction <;> rfl
    refine ⟨balanced.of_same interface fun read => ?_, congrArg Meter.total interface⟩
    simp only [summed, bury, buriedBy, evictedBy, List.append_nil]
    rfl
  | rotateHistoriesIfDue checked rotated =>
    have nobody : evictedBy state (.rotateHistoriesIfDue checked rotated) = [] := rfl
    rw [bury, buriedBy, nobody, List.append_nil, Aggregator.step]
    rcases rotateHistoriesIfDue_cases checked rotated state with ⟨early, kept⟩ | ⟨due, peakBw, rotation⟩
    · have notDue : ¬rotationDue checked state := Nat.not_le_of_lt early
      rw [kept, if_neg notDue]
      exact ⟨balanced, rfl⟩
    · have isDue : rotationDue checked state := due
      rw [rotation, if_pos isDue]
      refine ⟨balanced.rotated rfl ?_, ?_⟩ <;> cases direction <;> rfl

theorem Balanced.run {direction : Direction} {states : State × List ThreadStats} (balanced : Balanced direction states)
    (ops : List Op) (fits : (states.1.ifMeter direction).total + recordedBytes direction ops < 2^64) :
    Balanced direction (run bury states ops) := by
  induction ops generalizing states with
  | nil => exact balanced
  | cons op ops ih =>
    have split : recordedBytes direction (op :: ops) = op.bytes direction + recordedBytes direction ops := by
      simp [recordedBytes]
    rw [split] at fits
    obtain ⟨kept, counted⟩ := balanced.step op (by omega)
    exact ih kept (by omega)

/-- While no counter is saturated, a slot of the interface holds the bytes of the live threads and of the evicted ones. -/
theorem interface_slot (now : Instant) (ops : List Op) (direction : Direction) (fits : recordedBytes direction ops < 2^64)
    {i : Nat} (inside : i < historySlots) :
    ((Library.run step (.initial now) ops).ifMeter direction).history.getD i 0 =
      HashMap.total (fun _ stats => (stats.meter direction).history.getD i 0)
          (Library.run step (.initial now) ops).statsByThread +
        ((buriedIn (.initial now) ops).map fun stats => (stats.meter direction).history.getD i 0).sum := by
  have start : ((State.initial now).ifMeter direction).total = 0 := by cases direction <;> rfl
  have balanced := (initial_balanced direction now).run ops (by rw [start]; omega)
  have slot := balanced.slots i inside
  rwa [summed, run_bury_fst] at slot

end Netmon.Aggregator
