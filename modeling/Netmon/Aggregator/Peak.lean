import Netmon.Aggregator.Publish
import Netmon.Aggregator.Windows

/-! The peak bandwidth is the running maximum of the interface's slot sums, and the window
that is published with it holds no larger one. -/
namespace Netmon.Aggregator
open Library Capture Resolver

def State.slotSum (state : State) (i : Nat) : Nat := state.ifTxHistory.getD i 0 + state.ifRxHistory.getD i 0

/-- What the running second has counted when a rotation ends it. -/
def endedSum (state : State) : Op → List Nat
  | .rotateHistoriesIfDue checked _ =>
    if rotationDue checked state then [state.ifTxCurrentSecond + state.ifRxCurrentSecond] else []
  | _ => []

/-- The slot sums of a run, each as it was at its rotation. -/
def endedSums (start : State) (ops : List Op) : List Nat := observed step endedSum start ops

section Rotation
variable {checked : Instant} {state : State} (rotated : Instant)

theorem rotation_early (early : ¬rotationDue checked state) : rotateHistoriesIfDue checked rotated state = (false, state) :=
  if_pos (Nat.lt_of_not_le early)

/-- The sum that a rotation ends goes into slot 0. -/
theorem rotation_slotSum_zero (due : rotationDue checked state) :
    (rotateHistoriesIfDue checked rotated state).2.slotSum 0 = state.ifTxCurrentSecond + state.ifRxCurrentSecond := by
  rw [rotateHistoriesIfDue, if_neg (Nat.not_lt_of_le due)]
  have tx := rotateHistory_zero state.ifTxHistory state.ifTxCurrentSecond
  have rx := rotateHistory_zero state.ifRxHistory state.ifRxCurrentSecond
  exact congrArg₂ (· + ·) tx rx

theorem rotation_slotSum_succ (due : rotationDue checked state) {i : Nat} (inside : i + 1 < historySlots) :
    (rotateHistoriesIfDue checked rotated state).2.slotSum (i + 1) = state.slotSum i := by
  rw [rotateHistoriesIfDue, if_neg (Nat.not_lt_of_le due)]
  have tx := rotateHistory_succ state.ifTxHistory state.ifTxCurrentSecond inside
  have rx := rotateHistory_succ state.ifRxHistory state.ifRxCurrentSecond inside
  exact congrArg₂ (· + ·) tx rx

/-- The new sum is compared after it has wrapped around. -/
theorem rotation_peakBw (due : rotationDue checked state) :
    (rotateHistoriesIfDue checked rotated state).2.peakBw =
      max state.peakBw ((rotateHistoriesIfDue checked rotated state).2.slotSum 0 % 2^64) := by
  have larger (sum peak : Nat) : (if sum > peak then sum else peak) = max peak sum := by
    split <;> omega
  rw [rotateHistoriesIfDue, if_neg (Nat.not_lt_of_le due)]
  simp only [State.slotSum, rotateInterfaceSecond]
  apply larger

end Rotation

/-- The peak is the largest of the sums, and no slot of the window holds more. -/
structure Peaked (sums : List Nat) (state : State) : Prop where
  peak : state.peakBw = sums.foldl max 0
  slots : ∀ i < historySlots, state.slotSum i ≤ state.peakBw

theorem Peaked.same {sums : List Nat} {state after : State} (peaked : Peaked sums state)
    (peak : after.peakBw = state.peakBw) (tx : after.ifTxHistory = state.ifTxHistory)
    (rx : after.ifRxHistory = state.ifRxHistory) : Peaked (sums ++ []) after := by
  rw [List.append_nil]
  refine ⟨peak.trans peaked.peak, fun i inside => ?_⟩
  rw [State.slotSum, tx, rx, peak]
  exact peaked.slots i inside

theorem Peaked.step {sums : List Nat} {state : State} (peaked : Peaked sums state) (op : Op)
    (below : ∀ sum ∈ endedSum state op, sum < 2^64) : Peaked (sums ++ endedSum state op) (step state op) := by
  cases op with
  | processRecord record resolved connectionCache now connectionNow =>
    apply peaked.same
    all_goals
      rw [Aggregator.step, processRecord]
      cases record.direction <;> rfl
  | markExitedThreads resolves => exact peaked.same rfl rfl rfl
  | evictStaleThreads now => exact peaked.same rfl rfl rfl
  | pruneConnectionStats now => exact peaked.same rfl rfl rfl
  | rotateHistoriesIfDue checked rotated =>
    rw [Aggregator.step]
    by_cases due : rotationDue checked state
    · rw [endedSum, if_pos due] at below ⊢
      have fits := below _ (List.mem_singleton_self _)
      have newest := rotation_slotSum_zero rotated due
      have peak := rotation_peakBw rotated due
      rw [newest, Nat.mod_eq_of_lt fits] at peak
      refine ⟨?_, ?_⟩
      · rw [peak, List.foldl_append, ← peaked.peak]
        rfl
      · intro i inside
        rw [peak]
        cases i with
        | zero =>
          rw [newest]
          exact Nat.le_max_right _ _
        | succ i =>
          rw [rotation_slotSum_succ rotated due inside]
          exact (peaked.slots i (Nat.lt_of_succ_lt inside)).trans (Nat.le_max_left _ _)
    · rw [rotation_early rotated due, endedSum, if_neg due]
      exact peaked.same rfl rfl rfl

theorem Peaked.run {sums : List Nat} {state : State} (peaked : Peaked sums state) (ops : List Op)
    (below : ∀ sum ∈ endedSums state ops, sum < 2^64) :
    Peaked (sums ++ endedSums state ops) (run Aggregator.step state ops) := by
  induction ops generalizing state sums with
  | nil =>
    rw [endedSums, observed, List.append_nil]
    exact peaked
  | cons op ops ih =>
    rw [endedSums, observed, ← List.append_assoc]
    rw [endedSums, observed, List.forall_mem_append] at below
    exact ih (peaked.step op below.1) below.2

theorem initial_peaked (now : Instant) : Peaked [] (.initial now) := by
  refine ⟨rfl, fun i _ => ?_⟩
  rw [State.slotSum, State.initial, getD_emptyHistory]

/-- No operation lowers the peak. -/
theorem step_peakBw_le (state : State) (op : Op) : state.peakBw ≤ (step state op).peakBw := by
  cases op with
  | processRecord record resolved connectionCache now connectionNow =>
    rw [step, processRecord]
    cases record.direction <;> exact Nat.le_refl _
  | markExitedThreads resolves => exact Nat.le_refl _
  | evictStaleThreads now => exact Nat.le_refl _
  | pruneConnectionStats now => exact Nat.le_refl _
  | rotateHistoriesIfDue checked rotated =>
    rw [step]
    by_cases due : rotationDue checked state
    · rw [rotation_peakBw rotated due]
      exact Nat.le_max_left _ _
    · rw [rotation_early rotated due]

theorem run_peakBw_le (start : State) (ops : List Op) : start.peakBw ≤ (run step start ops).peakBw := by
  apply run_keeps step fun state => start.peakBw ≤ state.peakBw
  · intro state op above
    exact above.trans (step_peakBw_le state op)
  · exact Nat.le_refl _

/-- While no slot sum reaches 2^64, the published peak is the maximum of the sums of all rotations, at least that of every
published slot and the published current bandwidth, and at least every peak published before. -/
theorem peak_is_running_maximum (now : Instant) (ops : List Op)
    (below : ∀ sum ∈ endedSums (.initial now) ops, sum < 2^64)
    (threads : List ((_ : ThreadKey) × ThreadStats)) (connectionCache : List ResolvedConnection) (blocked : Finset Nat) :
    let published := (publishSnapshots threads connectionCache blocked (run step (.initial now) ops)).2
    published.peakBandwidthBytesPerSec = (endedSums (.initial now) ops).foldl max 0 ∧
      (∀ i < historySlots, published.txHistory.getD i 0 + published.rxHistory.getD i 0 ≤
        published.peakBandwidthBytesPerSec) ∧
      published.currentBandwidthBytesPerSec ≤ published.peakBandwidthBytesPerSec ∧
      ∀ earlier, earlier <+: ops → ∀ threads connectionCache blocked,
        (publishSnapshots threads connectionCache blocked (run step (.initial now) earlier)).2.peakBandwidthBytesPerSec ≤
          published.peakBandwidthBytesPerSec := by
  intro published
  have peaked := (initial_peaked now).run ops below
  refine ⟨peaked.peak, peaked.slots, ?_, ?_⟩
  · exact (Nat.min_le_left _ _).trans (peaked.slots 0 (by decide))
  · rintro earlier ⟨later, rfl⟩ threads connectionCache blocked
    have risen := run_peakBw_le (run step (.initial now) earlier) later
    rwa [← run_append] at risen

/-- Two seconds with traffic, the first of them the busier. -/
def twoSeconds : List Op :=
  [.processRecord (tcpRecord clientAddr serverAddr 100 .tx) (some curl) [] 0 0, .rotateHistoriesIfDue (10^9) (10^9),
    .processRecord (tcpRecord serverAddr clientAddr 60 .rx) (some curl) [] (10^9) (10^9),
    .rotateHistoriesIfDue (2 * 10^9) (2 * 10^9)]

theorem peak_is_running_maximum_two :
    let published := (publishSnapshots [] [] ∅ (run step (.initial 0) twoSeconds)).2
    published.peakBandwidthBytesPerSec = (endedSums (.initial 0) twoSeconds).foldl max 0 ∧
      (∀ i < historySlots, published.txHistory.getD i 0 + published.rxHistory.getD i 0 ≤
        published.peakBandwidthBytesPerSec) ∧
      published.currentBandwidthBytesPerSec ≤ published.peakBandwidthBytesPerSec ∧
      ∀ earlier, earlier <+: twoSeconds → ∀ threads connectionCache blocked,
        (publishSnapshots threads connectionCache blocked (run step (.initial 0) earlier)).2.peakBandwidthBytesPerSec ≤
          published.peakBandwidthBytesPerSec :=
  peak_is_running_maximum 0 twoSeconds (by decide +kernel) [] [] ∅

end Netmon.Aggregator
