import Netmon.Aggregator.ConnectionBytes
import Netmon.Library.Windows

/-! What the counters of a thread and of the interface show of the records: the total, the
bytes since the latest rotation, and one slot for each of the last rotations. -/
namespace Netmon.Aggregator
open Library Capture Resolver

theorem getD_set (history : History) {slot : Nat} (inside : slot < historySlots) (value i : Nat) :
    (history.setIfInBounds slot value).getD i 0 = if i = slot then value else history.getD i 0 := by
  simp only [Vector.getD, Vector.toArray_setIfInBounds, Array.getD_eq_getD_getElem?]
  grind

theorem getD_emptyHistory (i : Nat) : emptyHistory.getD i 0 = 0 := by
  simp only [emptyHistory, Vector.getD, Vector.toArray_replicate, Array.getD_eq_getD_getElem?, Array.getElem?_replicate]
  split <;> rfl

/-- The loop moves every slot up to `idx` by one, slot 0 keeps its value. -/
theorem getD_shiftSlots (history : History) {idx : Nat} (inside : idx < historySlots) (i : Nat) :
    (shiftSlots idx history).getD i 0 = if i ≤ idx then history.getD (i - 1) 0 else history.getD i 0 := by
  induction idx generalizing history with
  | zero =>
    rw [shiftSlots]
    split
    · rename_i first
      rw [Nat.le_zero.mp first]
    · rfl
  | succ idx ih =>
    rw [shiftSlots, ih _ (Nat.lt_of_succ_lt inside)]
    simp only [getD_set history inside]
    split
    · rw [if_neg (by omega), if_pos (by omega)]
    · by_cases last : i = idx + 1
      · subst last
        simp
      · rw [if_neg last, if_neg (by omega)]

theorem rotateHistory_zero (history : History) (currentSecond : Nat) :
    (rotateHistory history currentSecond).getD 0 0 = currentSecond := by
  rw [rotateHistory, getD_set _ (by decide), if_pos rfl]

theorem rotateHistory_succ (history : History) (currentSecond : Nat) {i : Nat} (inside : i + 1 < historySlots) :
    (rotateHistory history currentSecond).getD (i + 1) 0 = history.getD i 0 := by
  rw [rotateHistory, getD_set _ (by decide), if_neg (Nat.succ_ne_zero i), getD_shiftSlots _ (by decide),
    if_pos (Nat.le_sub_one_of_lt inside), Nat.add_sub_cancel]

/-- The counters of one direction. -/
structure Meter where
  total : Nat
  currentSecond : Nat
  history : History

def Meter.zero : Meter := ⟨0, 0, emptyHistory⟩

def Meter.count (bytes : Nat) (meter : Meter) : Meter :=
  { meter with
    total := saturatingAdd meter.total bytes
    currentSecond := saturatingAdd meter.currentSecond bytes }

def Meter.rotate (meter : Meter) : Meter :=
  { meter with
    history := rotateHistory meter.history meter.currentSecond
    currentSecond := 0 }

def ThreadStats.meter : Direction → ThreadStats → Meter
  | .tx, stats => ⟨stats.txBytesTotal, stats.txCurrentSecond, stats.txHistory⟩
  | .rx, stats => ⟨stats.rxBytesTotal, stats.rxCurrentSecond, stats.rxHistory⟩

def State.ifMeter : Direction → State → Meter
  | .tx, state => ⟨state.ifTxTotal, state.ifTxCurrentSecond, state.ifTxHistory⟩
  | .rx, state => ⟨state.ifRxTotal, state.ifRxCurrentSecond, state.ifRxHistory⟩

inductive Series where
  | thread (key : ThreadKey)
  | interface

def Series.Live (state : State) : Series → Prop
  | .thread key => key ∈ state.statsByThread
  | .interface => True

def State.meter (direction : Direction) (state : State) : Series → Meter
  | .thread key => (state.statsByThread.lookup key).elim .zero (ThreadStats.meter direction)
  | .interface => state.ifMeter direction

/-- A record with the thread that it is attributed to. -/
abbrev Attributed := ThreadKey × FlowRecord

def Series.counts (direction : Direction) (attributed : Attributed) : Series → Bool
  | .thread key => decide (attributed.1 = key) && decide (attributed.2.direction = direction)
  | .interface => decide (attributed.2.direction = direction)

def Series.weight (series : Series) (direction : Direction) (attributed : Attributed) : Nat :=
  if series.counts direction attributed then attributed.2.byteCount.toNat else 0

def rotationDue (checked : Instant) (state : State) : Prop := rotationPeriod ≤ elapsed checked state.lastRotation

instance (checked : Instant) (state : State) : Decidable (rotationDue checked state) :=
  inferInstanceAs (Decidable (_ ≤ _))

/-- What an operation adds to the log. -/
def moments (state : State) : Op → Log Attributed
  | .processRecord record resolved connectionCache _ _ =>
    [.event (ownerKey (flowOwner record.key resolved connectionCache), record)]
  | .rotateHistoriesIfDue checked _ => if rotationDue checked state then [.tick] else []
  | _ => []

/-- The log of a run, its newest moment first. -/
def logOf (start : State) (ops : List Op) : Log Attributed := (observed step moments start ops).reverse

def Meter.step (series : Series) (direction : Direction) (meter : Meter) : Moment Attributed → Meter
  | .event attributed => if series.counts direction attributed then meter.count attributed.2.byteCount.toNat else meter
  | .tick => meter.rotate

/-- A meter that shows the bytes of a log, window by window. -/
structure Meter.Shows (series : Series) (direction : Direction) (log : Log Attributed) (meter : Meter) : Prop where
  total : meter.total = min (2^64 - 1) (Log.amount (series.weight direction) log.events)
  currentSecond : meter.currentSecond = min (2^64 - 1) (Log.amount (series.weight direction) (log.window 0))
  slots : ∀ i < historySlots,
    meter.history.getD i 0 = min (2^64 - 1) (Log.amount (series.weight direction) (log.window (i + 1)))

theorem saturatingAdd_min (amount bytes : Nat) :
    saturatingAdd (min (2^64 - 1) amount) bytes = min (2^64 - 1) (bytes + amount) := by
  unfold saturatingAdd
  omega

theorem zero_shows (series : Series) (direction : Direction) : Meter.zero.Shows series direction [] where
  total := rfl
  currentSecond := rfl
  slots i _ := (getD_emptyHistory i).trans (by cases i <;> rfl)

theorem Meter.Shows.step {series : Series} {direction : Direction} {log : Log Attributed} {meter : Meter}
    (shows : meter.Shows series direction log) (moment : Moment Attributed) :
    (meter.step series direction moment).Shows series direction (moment :: log) := by
  cases moment with
  | event attributed =>
    cases counted : series.counts direction attributed with
    | true =>
      have weight : series.weight direction attributed = attributed.2.byteCount.toNat := if_pos counted
      rw [Meter.step, if_pos counted]
      constructor
      · rw [Log.events, Log.amount_cons, weight, ← saturatingAdd_min, ← shows.total]
        rfl
      · rw [Log.window, Log.amount_cons, weight, ← saturatingAdd_min, ← shows.currentSecond]
        rfl
      · exact shows.slots
    | false =>
      have uncounted : ¬series.counts direction attributed = true := ne_true_of_eq_false counted
      have weight : series.weight direction attributed = 0 := if_neg uncounted
      rw [Meter.step, if_neg uncounted]
      constructor
      · rw [Log.events, Log.amount_cons, weight, Nat.zero_add]
        exact shows.total
      · rw [Log.window, Log.amount_cons, weight, Nat.zero_add]
        exact shows.currentSecond
      · exact shows.slots
  | tick =>
    refine ⟨shows.total, rfl, ?_⟩
    intro i inside
    cases i with
    | zero => exact (rotateHistory_zero meter.history meter.currentSecond).trans shows.currentSecond
    | succ i =>
      have moved := rotateHistory_succ meter.history meter.currentSecond inside
      exact moved.trans (shows.slots i (Nat.lt_of_succ_lt inside))

theorem run_shows {series : Series} {direction : Direction} {log : Log Attributed} {meter : Meter}
    (shows : meter.Shows series direction log) (later : Log Attributed) :
    (run (Meter.step series direction) meter later).Shows series direction (later.reverse ++ log) := by
  induction later generalizing meter log with
  | nil => exact shows
  | cons moment later ih =>
    rw [List.reverse_cons, List.append_assoc]
    exact ih (shows.step moment)

theorem ThreadStats.rotateSecond_meter (direction : Direction) (stats : ThreadStats) :
    stats.rotateSecond.meter direction = (stats.meter direction).rotate := by
  cases direction <;> rfl

section Record
variable (record : FlowRecord) (resolved : Option ProcessInfo) (connectionCache : List ResolvedConnection)
  (now connectionNow : Instant) (state : State) (direction : Direction)

theorem processRecord_inserts : ∃ entry : ThreadStats,
    (processRecord record resolved connectionCache now connectionNow state).statsByThread =
      state.statsByThread.insert (ownerKey (flowOwner record.key resolved connectionCache)) entry ∧
    entry.meter direction =
      let meter := state.meter direction (.thread (ownerKey (flowOwner record.key resolved connectionCache)))
      if record.direction = direction then meter.count record.byteCount.toNat else meter := by
  unfold processRecord State.meter
  simp only
  generalize flowOwner record.key resolved connectionCache = info
  cases found : state.statsByThread.lookup (ownerKey info) <;> cases label : record.direction <;>
    exact ⟨_, rfl, by cases direction <;> rfl⟩

theorem processRecord_meter (series : Series) :
    (processRecord record resolved connectionCache now connectionNow state).meter direction series =
      (state.meter direction series).step series direction
        (.event (ownerKey (flowOwner record.key resolved connectionCache), record)) := by
  cases series with
  | interface =>
    unfold processRecord
    cases label : record.direction <;> cases direction <;> simp [Meter.step, Series.counts, label] <;> rfl
  | thread key =>
    obtain ⟨entry, inserted, meter⟩ :=
      processRecord_inserts record resolved connectionCache now connectionNow state direction
    rw [State.meter, inserted]
    by_cases same : ownerKey (flowOwner record.key resolved connectionCache) = key
    · subst same
      rw [AList.lookup_insert, Option.elim_some, meter]
      simp [Meter.step, Series.counts]
    · rw [AList.lookup_insert_ne (Ne.symm same)]
      simp [Meter.step, Series.counts, same, State.meter]

end Record

theorem mapValues_meter {f : ThreadKey → ThreadStats → ThreadStats} (change : Meter → Meter) {state : State}
    {direction : Direction} {key : ThreadKey} (each : ∀ stats, (f key stats).meter direction = change (stats.meter direction))
    (live : key ∈ HashMap.mapValues f state.statsByThread) :
    ((HashMap.mapValues f state.statsByThread).lookup key).elim .zero (ThreadStats.meter direction) =
      change (state.meter direction (.thread key)) := by
  rw [← AList.lookup_isSome, HashMap.lookup_mapValues] at live
  rw [HashMap.lookup_mapValues, State.meter]
  cases found : state.statsByThread.lookup key with
  | none =>
    rw [found] at live
    cases live
  | some stats => exact each stats

theorem with_info_meter (direction : Direction) (stats : ThreadStats) (info : ProcessInfo) :
    { stats with info }.meter direction = stats.meter direction := by
  cases direction <;> rfl

/-- Whatever an operation does, the counters of a series that is live after it are a meter that follows the log. -/
theorem step_meter (state : State) (op : Op) (direction : Direction) (series : Series) (live : series.Live (step state op)) :
    (step state op).meter direction series =
      run (Meter.step series direction) (state.meter direction series) (moments state op) := by
  cases op with
  | processRecord record resolved connectionCache now connectionNow =>
    exact processRecord_meter record resolved connectionCache now connectionNow state direction series
  | markExitedThreads resolves =>
    cases series with
    | interface => cases direction <;> rfl
    | thread key =>
      obtain ⟨f, threads, infos⟩ := markExitedThreads_infos resolves state
      rw [Series.Live, step, threads] at live
      rw [State.meter, step, threads]
      apply mapValues_meter id _ live
      intro stats
      obtain ⟨info, same⟩ := infos key stats
      rw [same, with_info_meter]
      rfl
  | evictStaleThreads now =>
    cases series with
    | interface => cases direction <;> rfl
    | thread key =>
      obtain ⟨stats, kept⟩ := Option.isSome_iff_exists.mp (AList.lookup_isSome.mpr live)
      have nothing : moments state (.evictStaleThreads now) = [] := rfl
      rw [nothing, run_nil, State.meter, kept, State.meter, (evictStaleThreads_kept kept).1]
  | pruneConnectionStats now =>
    cases series with
    | interface => cases direction <;> rfl
    | thread key => rfl
  | rotateHistoriesIfDue checked rotated =>
    rw [step] at live ⊢
    rcases rotateHistoriesIfDue_cases checked rotated state with ⟨early, kept⟩ | ⟨due, peakBw, rotation⟩
    · have notDue : ¬rotationDue checked state := Nat.not_le_of_lt early
      rw [kept, moments, if_neg notDue]
      rfl
    · have isDue : rotationDue checked state := due
      rw [moments, if_pos isDue]
      rw [rotation] at live ⊢
      cases series with
      | interface => cases direction <;> rfl
      | thread key => exact mapValues_meter Meter.rotate (ThreadStats.rotateSecond_meter direction) live

theorem run_meter (start : State) (ops : List Op) (direction : Direction) (series : Series)
    (live : Meets step (fun state op => series.Live (step state op)) start ops) :
    (run step start ops).meter direction series =
      run (Meter.step series direction) (start.meter direction series) (observed step moments start ops) := by
  induction ops generalizing start with
  | nil => rfl
  | cons op ops ih =>
    obtain ⟨first, rest⟩ := live
    rw [run_cons, ih (step start op) rest, step_meter start op direction series first, observed, run_append]

/-- The counters are exact for a log of which they have seen every moment. -/
structure Meter.Exact (series : Series) (direction : Direction) (log : Log Attributed) (meter : Meter) : Prop where
  slots : ∀ i < historySlots, meter.history.getD i 0 =
    if i < log.ticks then min (2^64 - 1) (Log.amount (series.weight direction) (log.window (i + 1))) else 0
  currentSecond : meter.currentSecond = min (2^64 - 1) (Log.amount (series.weight direction) (log.window 0))
  summed : Log.amount (series.weight direction) log.events < 2^64 → log.ticks ≤ historySlots →
    (∑ i ∈ Finset.range historySlots, meter.history.getD i 0) + meter.currentSecond = meter.total

theorem Meter.Shows.exact {series : Series} {direction : Direction} {log : Log Attributed} {meter : Meter}
    (shows : meter.Shows series direction log) : meter.Exact series direction log where
  slots i inside := by
    rw [shows.slots i inside]
    split
    · rfl
    · rename_i older
      rw [Log.window_of_ticks_lt (by omega), Log.amount_nil, Nat.min_zero]
  currentSecond := shows.currentSecond
  summed fits recent := by
    have unclipped {events : List Attributed} (less : Log.amount (series.weight direction) events ≤
        Log.amount (series.weight direction) log.events) :
        min (2^64 - 1) (Log.amount (series.weight direction) events) = Log.amount (series.weight direction) events :=
      Nat.min_eq_right (Nat.le_sub_one_of_lt (Nat.lt_of_le_of_lt less fits))
    have slots : ∀ i ∈ Finset.range historySlots, meter.history.getD i 0 =
        Log.amount (series.weight direction) (log.window (i + 1)) := by
      intro i inside
      rw [shows.slots i (Finset.mem_range.mp inside), unclipped (Log.window_le_events _ log (i + 1))]
    rw [Finset.sum_congr rfl slots, shows.currentSecond, unclipped (Log.window_le_events _ log 0),
      Log.sum_windows _ recent, shows.total, unclipped (Nat.le_refl _)]

theorem exact_of_run {start : State} {ops : List Op} {direction : Direction} {series : Series}
    (fresh : start.meter direction series = .zero)
    (live : Meets step (fun state op => series.Live (step state op)) start ops) :
    ((run step start ops).meter direction series).Exact series direction (logOf start ops) := by
  have shows := run_shows (zero_shows series direction) (observed step moments start ops)
  rw [← fresh, ← run_meter start ops direction series live, List.append_nil] at shows
  exact shows.exact

theorem interface_exact (now : Instant) (ops : List Op) (direction : Direction) :
    ((run step (.initial now) ops).ifMeter direction).Exact .interface direction (logOf (.initial now) ops) := by
  have always : Meets step (fun state op => Series.interface.Live (step state op)) (.initial now) ops :=
    meets_of_forall step (fun _ => True) (.initial now) ops fun _ _ => trivial
  exact exact_of_run (by cases direction <;> rfl) always

/-- In every run the counters of a live thread are exact since its creation, and those of the interface since the start. -/
theorem history_windows_exact (now : Instant) (ops : List Op) (direction : Direction) :
    (∀ key stats, (run step (.initial now) ops).statsByThread.lookup key = some stats →
      ∃ before since, ops = before ++ since ∧ key ∉ (run step (.initial now) before).statsByThread ∧
        Meets step (fun state op => key ∈ (step state op).statsByThread) (run step (.initial now) before) since ∧
        (stats.meter direction).Exact (.thread key) direction (logOf (run step (.initial now) before) since)) ∧
    ((run step (.initial now) ops).ifMeter direction).Exact .interface direction (logOf (.initial now) ops) := by
  constructor
  · intro key stats found
    have live : key ∈ (run step (.initial now) ops).statsByThread := by
      rw [← AList.lookup_isSome, found]
      rfl
    obtain ⟨before, since, rfl, absent, kept⟩ := exists_since step
      (fun state : State => key ∈ state.statsByThread) (.initial now) ops (AList.notMem_empty key) live
    refine ⟨before, since, rfl, absent, kept, ?_⟩
    have fresh : (run step (.initial now) before).meter direction (.thread key) = .zero := by
      rw [State.meter, AList.lookup_eq_none.mpr absent]
      rfl
    have exact := exact_of_run fresh kept
    rwa [← run_append, State.meter, found] at exact
  · exact interface_exact now ops direction

end Netmon.Aggregator
