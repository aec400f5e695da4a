import Netmon.Aggregator.Rates
import Netmon.Gui.Chart

/-! The averages and the bandwidth that a state leads to, in the history file and on the
screen: when none of their sums overflows. -/
namespace Netmon.Gui
open Library Capture Resolver Aggregator

def shortRateWindowSeconds : Nat := 2

-- The sum wraps around, as in a release build.
def twoSecondAvg (history : History) : Nat :=
  (history.toList.take shortRateWindowSeconds).sum % 2^64 / shortRateWindowSeconds

/-- No sum of a state overflows, an average is at most the largest of its slots, and the published peak is at least the
published bandwidth. -/
structure RatesTruthful (state : State) : Prop where
  twoSeconds : ∀ key stats, state.statsByThread.lookup key = some stats → ∀ direction,
    FairAverage [(stats.meter direction).history.getD 0 0, (stats.meter direction).history.getD 1 0]
      (Aggregator.twoSecondAvg (stats.meter direction).history)
  tenSeconds : ∀ key stats, state.statsByThread.lookup key = some stats → ∀ direction,
    FairAverage (newest 10 (stats.meter direction).history) (tenSecondAvg (stats.meter direction).history)
  shown : ∀ threads, threads.Perm state.statsByThread.entries → ∀ connectionCache blocked,
    ∀ row ∈ (publishSnapshots threads connectionCache blocked state).1, ∀ direction,
      FairAverage (newest shortRateWindowSeconds (rowHistory direction row)) (twoSecondAvg (rowHistory direction row))
  bandwidth : state.slotSum 0 < 2^64
  peak : ∀ threads connectionCache blocked,
    let published := (publishSnapshots threads connectionCache blocked state).2
    published.currentBandwidthBytesPerSec ≤ published.peakBandwidthBytesPerSec

/-- Of each thread, the bytes of the ten latest full seconds are below 2^64 in sum or all of one second, and of the
interface those of the latest full second are below 2^64 in sum or all of one direction. -/
structure RecordsInRange (log : Log Attributed) : Prop where
  threads : ∀ key direction,
    SumsWithin (2^64 - 1) ((List.range 10).map (windowBytes (.thread key) direction log))
  interface : SumsWithin (2^64 - 1) [windowBytes .interface .tx log 0, windowBytes .interface .rx log 0]

theorem shown_fair {history : History} (below : (newest 10 history).sum < 2^64) :
    FairAverage (newest shortRateWindowSeconds history) (twoSecondAvg history) := by
  have size : (newest shortRateWindowSeconds history).length = 2 := newest_length history (by decide)
  have filled : newest shortRateWindowSeconds history ≠ [] := List.ne_nil_of_length_pos (by omega)
  have fewer := newest_sum_mono history (show shortRateWindowSeconds ≤ 10 by decide)
  have fair := FairAverage.of_below filled (Nat.lt_of_le_of_lt fewer below)
  rw [size] at fair
  exact fair

theorem rowHistory_processRow (blocked : Finset Nat) (key : ThreadKey) (stats : ThreadStats)
    (connections : List ConnectionEntry) (direction : Direction) :
    rowHistory direction (processRow blocked key stats connections) = (stats.meter direction).history := by
  cases direction <;> rfl

theorem published_bandwidth (threads : List ((_ : ThreadKey) × ThreadStats)) (connectionCache : List ResolvedConnection)
    (blocked : Finset Nat) (state : State) :
    (publishSnapshots threads connectionCache blocked state).2.currentBandwidthBytesPerSec =
        min (state.slotSum 0) (2^64 - 1) ∧
      (publishSnapshots threads connectionCache blocked state).2.peakBandwidthBytesPerSec = state.peakBw :=
  ⟨rfl, rfl⟩

/-- All rates of a reachable state are decided by the sums of ten slots of its threads and by that of the bandwidth. -/
theorem ratesTruthful_of_sums (now : Instant) (ops : List Op)
    (sums : ∀ key stats, (run step (.initial now) ops).statsByThread.lookup key = some stats → ∀ direction,
      (newest 10 (stats.meter direction).history).sum < 2^64)
    (bandwidth : (run step (.initial now) ops).slotSum 0 < 2^64) : RatesTruthful (run step (.initial now) ops) where
  twoSeconds key stats found direction := by
    apply twoSecondAvg_fair
    have fewer := newest_sum_mono (stats.meter direction).history (show 2 ≤ 10 by decide)
    exact Nat.lt_of_le_of_lt fewer (sums key stats found direction)
  tenSeconds key stats found direction := tenSecondAvg_fair (sums key stats found direction)
  shown threads order connectionCache blocked row member direction := by
    obtain ⟨key, stats, found, rfl⟩ := (mem_publishSnapshots order).mp member
    rw [rowHistory_processRow]
    exact shown_fair (sums key stats found direction)
  bandwidth := bandwidth
  peak threads connectionCache blocked := by
    have compared := slotSum_le_peakBw now ops
    rw [Nat.mod_eq_of_lt bandwidth] at compared
    obtain ⟨current, published⟩ := published_bandwidth threads connectionCache blocked (run step (.initial now) ops)
    intro snapshot
    rw [current, published]
    exact (Nat.min_le_left _ _).trans compared

/-- After any records and rotations, the rates are truthful exactly when the records of the latest seconds are in range. -/
theorem rates_truthful_iff (now : Instant) (ops : List Op) (counts : ∀ op ∈ ops, op.Counts) :
    RatesTruthful (run step (.initial now) ops) ↔ RecordsInRange (logOf (.initial now) ops) := by
  have bandwidth : (run step (.initial now) ops).slotSum 0 < 2^64 ↔
      SumsWithin (2^64 - 1) [windowBytes .interface .tx (logOf (.initial now) ops) 0,
        windowBytes .interface .rx (logOf (.initial now) ops) 0] := by
    rw [interface_newest counts, ← cutSum_le_iff (by decide)]
    omega
  have sum {key stats} (found : (run step (.initial now) ops).statsByThread.lookup key = some stats) (direction) :
      (newest 10 (stats.meter direction).history).sum < 2^64 ↔
        SumsWithin (2^64 - 1)
          ((List.range 10).map (windowBytes (.thread key) direction (logOf (.initial now) ops))) := by
    rw [thread_newest counts direction found (by decide), ← cutSum_le_iff (by decide)]
    omega
  constructor
  · intro truthful
    refine ⟨fun key direction => ?_, bandwidth.mp truthful.bandwidth⟩
    cases found : (run step (.initial now) ops).statsByThread.lookup key with
    | some stats => exact (sum found direction).mp (truthful.tenSeconds key stats found direction).below
    | none =>
      -- Nothing is recorded of a thread that is not there.
      have silent : (List.range 10).map (windowBytes (.thread key) direction (logOf (.initial now) ops)) =
          (List.range 10).map fun _ => 0 := by
        apply List.map_congr_left
        intro i member
        have inside : i < historySlots := Nat.lt_of_lt_of_le (List.mem_range.mp member) (by decide)
        exact windowBytes_absent counts direction found inside
      rw [silent]
      exact Or.inl (by decide)
  · intro range
    apply ratesTruthful_of_sums now ops
    · intro key stats found direction
      exact (sum found direction).mpr (range.threads key direction)
    · exact bandwidth.mpr range.interface

theorem rates_truthful_iff_two :
    RatesTruthful (run step (.initial 0) twoSeconds) ↔ RecordsInRange (logOf (.initial 0) twoSeconds) :=
  rates_truthful_iff 0 twoSeconds (by simp [twoSeconds, Op.Counts])

def sends (bytes : UInt32) : Op := .processRecord (tcpRecord clientAddr serverAddr bytes .tx) (some curl) [] 0 0

def receivesByte : Op := .processRecord (tcpRecord serverAddr clientAddr 1 .rx) (some curl) [] 0 0

/-- A second in which one thread sends many times and receives a byte. -/
def flood (n : Nat) (bytes : UInt32) : List Op :=
  List.replicate n (sends bytes) ++ [receivesByte, .rotateHistoriesIfDue (10^9) (10^9)]

/-- A state in the first second, after a number of bytes sent. -/
structure Sent (amount : Nat) (state : State) : Prop where
  tx : state.ifTxCurrentSecond = min (2^64 - 1) amount
  rx : state.ifRxCurrentSecond = 0
  peakBw : state.peakBw = 0
  lastRotation : state.lastRotation = 0

theorem Sent.sends {amount : Nat} {state : State} (sent : Sent amount state) (bytes : UInt32) :
    Sent (bytes.toNat + amount) (step state (sends bytes)) where
  tx := by
    rw [← saturatingAdd_min, ← sent.tx]
    rfl
  rx := sent.rx
  peakBw := sent.peakBw
  lastRotation := sent.lastRotation

theorem Sent.replicate {amount : Nat} {state : State} (sent : Sent amount state) (n : Nat) (bytes : UInt32) :
    Sent (n * bytes.toNat + amount) (run step state (List.replicate n (Gui.sends bytes))) := by
  induction n generalizing amount state with
  | zero => simpa using sent
  | succ n ih =>
    have more := ih (sent.sends bytes)
    rw [List.replicate_succ, run_cons]
    rwa [Nat.succ_mul, Nat.add_assoc]

theorem flood_sum (n : Nat) (bytes : UInt32) :
    (run step (.initial 0) (flood n bytes)).slotSum 0 = min (2^64 - 1) (n * bytes.toNat) + 1 ∧
      (run step (.initial 0) (flood n bytes)).peakBw = (min (2^64 - 1) (n * bytes.toNat) + 1) % 2^64 := by
  have start : Sent 0 (.initial 0) := ⟨rfl, rfl, rfl, rfl⟩
  have sent := start.replicate n bytes
  rw [Nat.add_zero] at sent
  rw [flood, run_append, run_cons, run_cons, run_nil]
  generalize run step (.initial 0) (List.replicate n (sends bytes)) = state at sent ⊢
  have due : rotationDue (10^9) (step state receivesByte) := by
    change rotationPeriod ≤ elapsed (10^9) state.lastRotation
    rw [sent.lastRotation]
    decide
  have received : (step state receivesByte).ifRxCurrentSecond = 1 := congrArg (saturatingAdd · 1) sent.rx
  have sum := rotation_slotSum_zero (10^9) due
  have peak := rotation_peakBw (10^9) due
  have kept : (step state receivesByte).peakBw = 0 := sent.peakBw
  have total : (step state receivesByte).ifTxCurrentSecond = min (2^64 - 1) (n * bytes.toNat) := sent.tx
  rw [total, received] at sum
  rw [sum, kept, Nat.zero_max] at peak
  exact ⟨sum, peak⟩

theorem flood_counts (n : Nat) (bytes : UInt32) : ∀ op ∈ flood n bytes, op.Counts := by
  intro op member
  rcases List.mem_append.mp member with sent | last
  · rw [List.eq_of_mem_replicate sent]
    trivial
  · rcases List.mem_pair.mp last with rfl | rfl <;> trivial

theorem untruthful_of_sum {state : State} (sum : state.slotSum 0 = 2^64) : ¬RatesTruthful state := by
  intro truthful
  exact Nat.ne_of_lt truthful.bandwidth sum

/-- 2^32 + 1 of the largest records add up to 2^64 - 1, and the byte received makes the sum of the bandwidth 2^64: the peak
stays 0, below a published bandwidth of 2^64 - 1. -/
theorem rates_flood :
    (∀ op ∈ flood (2^32 + 1) 4294967295, op.Counts) ∧
    (run step (.initial 0) (flood (2^32 + 1) 4294967295)).slotSum 0 = 2^64 ∧
    (publishSnapshots [] [] ∅ (run step (.initial 0) (flood (2^32 + 1) 4294967295))).2.peakBandwidthBytesPerSec = 0 ∧
    (publishSnapshots [] [] ∅ (run step (.initial 0) (flood (2^32 + 1) 4294967295))).2.currentBandwidthBytesPerSec =
      2^64 - 1 ∧
    ¬RatesTruthful (run step (.initial 0) (flood (2^32 + 1) 4294967295)) := by
  have whole : min (2^64 - 1) ((2^32 + 1) * (4294967295 : UInt32).toNat) + 1 = 2^64 := by decide
  obtain ⟨sum, peak⟩ := flood_sum (2^32 + 1) 4294967295
  rw [whole] at sum
  rw [whole, Nat.mod_self] at peak
  obtain ⟨current, published⟩ := published_bandwidth [] [] ∅ (run step (.initial 0) (flood (2^32 + 1) 4294967295))
  rw [sum] at current
  rw [peak] at published
  exact ⟨flood_counts _ _, sum, published, current, untruthful_of_sum sum⟩

end Netmon.Gui
