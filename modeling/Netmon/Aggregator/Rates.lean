import Netmon.Aggregator.HistoryCsv
import Netmon.Aggregator.Peak
import Netmon.Library.Saturating

/-! What the sums of the averages and of the bandwidth add up: in runs of records and
rotations, a slot holds the bytes of one second, cut off at 2^64 - 1. -/
namespace Netmon.Aggregator
open Library Capture Resolver

def Op.Counts : Op → Prop
  | .processRecord .. => True
  | .rotateHistoriesIfDue .. => True
  | _ => False

theorem rotateHistory_empty : rotateHistory emptyHistory 0 = emptyHistory := by
  apply Vector.ext
  intro i inside
  have slot (history : History) : history[i] = history.getD i 0 := by
    simp [Vector.getD, Array.getD_eq_getD_getElem?, inside]
  rw [slot, slot, getD_emptyHistory]
  cases i with
  | zero => exact rotateHistory_zero emptyHistory 0
  | succ i => exact (rotateHistory_succ emptyHistory 0 inside).trans (getD_emptyHistory i)

theorem Meter.zero_rotate : Meter.zero.rotate = Meter.zero := by
  rw [Meter.rotate, Meter.zero, rotateHistory_empty]

section Counting
variable {direction : Direction} {series : Series}

theorem step_meter_counts (state : State) {op : Op} (counts : op.Counts) :
    (step state op).meter direction series =
      run (Meter.step series direction) (state.meter direction series) (moments state op) := by
  cases op with
  | processRecord record resolved connectionCache now connectionNow =>
    exact processRecord_meter record resolved connectionCache now connectionNow state direction series
  | rotateHistoriesIfDue checked rotated =>
    cases series with
    | interface => exact step_meter state _ direction .interface trivial
    | thread key =>
      by_cases live : key ∈ (step state (.rotateHistoriesIfDue checked rotated)).statsByThread
      · exact step_meter state _ direction (.thread key) live
      · have before : state.meter direction (.thread key) = .zero := by
          have gone := AList.lookup_eq_none.mpr live
          rw [step] at gone
          rcases rotateHistoriesIfDue_cases checked rotated state with ⟨_, kept⟩ | ⟨_, peakBw, rotation⟩
          · rw [kept] at gone
            rw [State.meter, gone]
            rfl
          · rw [rotation] at gone
            simp only [rotateInterfaceSecond, HashMap.lookup_mapValues, Option.map_eq_none_iff] at gone
            rw [State.meter, gone]
            rfl
        rw [State.meter, AList.lookup_eq_none.mpr live, before, moments]
        split
        · exact Meter.zero_rotate.symm
        · rfl
  | _ => exact counts.elim

/-- In runs of records and rotations every meter shows the whole log. -/
theorem run_shows_log (now : Instant) (ops : List Op) (counts : ∀ op ∈ ops, op.Counts) (direction : Direction)
    (series : Series) :
    ((run step (.initial now) ops).meter direction series).Shows series direction (logOf (.initial now) ops) := by
  induction ops using List.reverseRecOn with
  | nil =>
    cases series with
    | interface => cases direction <;> exact zero_shows _ _
    | thread key => exact zero_shows _ _
  | append_singleton ops op ih =>
    have earlier := ih fun other member => counts other (List.mem_append_left _ member)
    have last : op.Counts := counts op (by simp)
    have log : logOf (.initial now) (ops ++ [op]) =
        (moments (run step (.initial now) ops) op).reverse ++ logOf (.initial now) ops := by
      rw [logOf, observed_append, List.reverse_append]
      simp [observed, logOf]
    rw [run_append, log]
    exact step_meter_counts (run step (.initial now) ops) last ▸ run_shows earlier _

end Counting

/-- The bytes recorded of a series in a full second, counted back from the latest. -/
def windowBytes (series : Series) (direction : Direction) (log : Log Attributed) (i : Nat) : Nat :=
  Log.amount (series.weight direction) (log.window (i + 1))

/-- The newest slots of a history. -/
def newest (n : Nat) (history : History) : List Nat := history.toList.take n

theorem newest_eq_map (history : History) {n : Nat} (inside : n ≤ historySlots) :
    newest n history = (List.range n).map fun i => history.getD i 0 := by
  apply List.ext_getElem
  · simp [newest, inside]
  · intro i left right
    have within : i < historySlots := by
      rw [List.length_map, List.length_range] at right
      omega
    simp [newest, Vector.getD, Array.getD_eq_getD_getElem?, within]

section Windows
variable {now : Instant} {ops : List Op} (counts : ∀ op ∈ ops, op.Counts) (direction : Direction)
include counts

theorem thread_newest {key : ThreadKey} {stats : ThreadStats}
    (found : (run step (.initial now) ops).statsByThread.lookup key = some stats) {n : Nat} (inside : n ≤ historySlots) :
    (newest n (stats.meter direction).history).sum =
      cutSum (2^64 - 1) ((List.range n).map (windowBytes (.thread key) direction (logOf (.initial now) ops))) := by
  have shows := run_shows_log now ops counts direction (.thread key)
  rw [State.meter, found] at shows
  rw [newest_eq_map _ inside, cutSum, List.map_map]
  congr 1
  apply List.map_congr_left
  intro i member
  exact shows.slots i (Nat.lt_of_lt_of_le (List.mem_range.mp member) inside)

/-- Of a thread that is not there nothing has been recorded. -/
theorem windowBytes_absent {key : ThreadKey} (absent : (run step (.initial now) ops).statsByThread.lookup key = none)
    {i : Nat} (inside : i < historySlots) : windowBytes (.thread key) direction (logOf (.initial now) ops) i = 0 := by
  have shows := run_shows_log now ops counts direction (.thread key)
  rw [State.meter, absent] at shows
  have empty : emptyHistory.getD i 0 = min (2^64 - 1) _ := shows.slots i inside
  rw [getD_emptyHistory] at empty
  rw [windowBytes]
  omega

theorem interface_newest : (run step (.initial now) ops).slotSum 0 =
    cutSum (2^64 - 1) [windowBytes .interface .tx (logOf (.initial now) ops) 0,
      windowBytes .interface .rx (logOf (.initial now) ops) 0] := by
  have tx := (run_shows_log now ops counts .tx .interface).slots 0 (by decide)
  have rx := (run_shows_log now ops counts .rx .interface).slots 0 (by decide)
  exact congrArg₂ (· + ·) tx rx

end Windows

/-- A sum that does not overflow, and an average that is no larger than each of its slots. -/
structure FairAverage (slots : List Nat) (average : Nat) : Prop where
  below : slots.sum < 2^64
  bounded : ∃ slot ∈ slots, average ≤ slot

theorem FairAverage.of_below {slots : List Nat} (filled : slots ≠ []) (below : slots.sum < 2^64) :
    FairAverage slots (slots.sum % 2^64 / slots.length) := by
  rw [Nat.mod_eq_of_lt below]
  exact ⟨below, exists_average_le filled⟩

theorem twoSecondAvg_fair {history : History} (below : (newest 2 history).sum < 2^64) :
    FairAverage [history.getD 0 0, history.getD 1 0] (twoSecondAvg history) := by
  have two : newest 2 history = [history.getD 0 0, history.getD 1 0] := newest_eq_map history (by decide)
  rw [two] at below
  exact .of_below (List.cons_ne_nil _ _) below

theorem newest_length (history : History) {n : Nat} (inside : n ≤ historySlots) : (newest n history).length = n := by
  rw [newest_eq_map history inside, List.length_map, List.length_range]

theorem newest_sum_mono (history : History) {n m : Nat} (fewer : n ≤ m) :
    (newest n history).sum ≤ (newest m history).sum :=
  List.monotone_sum_take history.toList fewer

theorem tenSecondAvg_fair {history : History} (below : (newest 10 history).sum < 2^64) :
    FairAverage (newest 10 history) (tenSecondAvg history) := by
  have size := newest_length history (n := 10) (by decide)
  have filled : newest 10 history ≠ [] := List.ne_nil_of_length_pos (by omega)
  have fair := FairAverage.of_below filled below
  rw [size] at fair
  exact fair

/-- The wrapped sum of the latest full second has been compared. -/
theorem slotSum_le_peakBw (now : Instant) (ops : List Op) :
    (run step (.initial now) ops).slotSum 0 % 2^64 ≤ (run step (.initial now) ops).peakBw := by
  apply run_keeps step fun state => state.slotSum 0 % 2^64 ≤ state.peakBw
  · intro state op compared
    cases op with
    | processRecord record resolved connectionCache now connectionNow =>
      rw [step, processRecord]
      cases record.direction <;> exact compared
    | markExitedThreads resolves => exact compared
    | evictStaleThreads now => exact compared
    | pruneConnectionStats now => exact compared
    | rotateHistoriesIfDue checked rotated =>
      rw [step]
      by_cases due : rotationDue checked state
      · rw [rotation_peakBw rotated due]
        exact Nat.le_max_right _ _
      · rw [rotation_early rotated due]
        exact compared
  · rw [State.slotSum, State.initial, getD_emptyHistory]
    exact Nat.zero_le _

end Netmon.Aggregator
