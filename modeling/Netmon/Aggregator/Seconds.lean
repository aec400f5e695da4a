import Netmon.Aggregator.Loop
import Netmon.Aggregator.Conservation

/-! How rotations keep up with the clock. The timer is armed again at the time of the rotation,
so every delay of an iteration is added to the second that follows. -/
namespace Netmon.Aggregator
open Library Capture Resolver

/-- No reading of the clock is before an earlier one. -/
def Ordered : Instant → List Iteration → Prop
  | _, [] => True
  | past, iteration :: iterations =>
    past ≤ iteration.checked ∧ iteration.checked ≤ iteration.rotated ∧ Ordered iteration.rotated iterations

def lastReading (now : Instant) (iterations : List Iteration) : Instant :=
  iterations.foldl (fun _ iteration => iteration.rotated) now

def wholeSeconds (now time : Instant) : Nat := elapsed time now / rotationPeriod

/-- The time that the window of a rotation covers. -/
def closedPeriod (loop : LoopState) (iteration : Iteration) : List Nat :=
  if (iteration.rotation loop).1 then [elapsed iteration.rotated loop.state.lastRotation] else []

/-- The time that each rotation of a run covers, one entry a rotation. -/
def periods (start : LoopState) (iterations : List Iteration) : List Nat :=
  observed runIteration closedPeriod start iterations

/-- The test of an iteration is in the same whole second since the start as the one before, or exactly on the next
second, and the timer is then armed again at that time. -/
def Timely (now past : Instant) (iteration : Iteration) : Prop :=
  wholeSeconds now iteration.checked = wholeSeconds now past ∨
    (iteration.checked = now + (wholeSeconds now past + 1) * rotationPeriod ∧ iteration.rotated = iteration.checked)

def Punctual (now : Instant) : Instant → List Iteration → Prop
  | _, [] => True
  | past, iteration :: iterations => Timely now past iteration ∧ Punctual now iteration.checked iterations

def lastTest (now : Instant) (iterations : List Iteration) : Instant :=
  iterations.foldl (fun _ iteration => iteration.checked) now

theorem punctual_append (now past : Instant) (done : List Iteration) (iteration : Iteration) :
    Punctual now past (done ++ [iteration]) ↔ Punctual now past done ∧ Timely now (lastTest past done) iteration := by
  induction done generalizing past with
  | nil => simp [Punctual, lastTest]
  | cons first done ih => simp [Punctual, lastTest, ih, and_assoc]

theorem quotient_within {now timer time n : Nat} (armed : timer = now + n * rotationPeriod) (passed : timer ≤ time)
    (early : time - timer < rotationPeriod) : (time - now) / rotationPeriod = n := by
  rw [Nat.div_eq_iff (by decide)]
  omega

theorem quotient_beyond {now timer time n : Nat} (armed : timer = now + n * rotationPeriod)
    (due : rotationPeriod ≤ time - timer) : n < (time - now) / rotationPeriod := by
  rw [Nat.lt_iff_add_one_le, Nat.le_div_iff_mul_le (by decide)]
  have positive : 0 < rotationPeriod := by decide
  have split : (n + 1) * rotationPeriod = n * rotationPeriod + rotationPeriod := Nat.succ_mul n rotationPeriod
  omega

theorem exact_second {timer checked rotated : Nat} (reads : checked ≤ rotated) (due : rotationPeriod ≤ checked - timer)
    (covered : rotated - timer = rotationPeriod) :
    checked = timer + rotationPeriod ∧ rotated = timer + rotationPeriod := by
  have positive : 0 < rotationPeriod := by decide
  omega

theorem ordered_append (now : Instant) (done : List Iteration) (iteration : Iteration) :
    Ordered now (done ++ [iteration]) ↔
      Ordered now done ∧ lastReading now done ≤ iteration.checked ∧ iteration.checked ≤ iteration.rotated := by
  induction done generalizing now with
  | nil => simp [Ordered, lastReading]
  | cons first done ih => simp [Ordered, lastReading, ih, and_assoc]

theorem ordered_of_append {now : Instant} {done rest : List Iteration} (ordered : Ordered now (done ++ rest)) :
    Ordered now done := by
  induction done generalizing now with
  | nil => trivial
  | cons iteration done ih => exact ⟨ordered.1, ordered.2.1, ih ordered.2.2⟩

theorem processRecord_lastRotation (record : FlowRecord) (resolved : Option ProcessInfo)
    (connectionCache : List ResolvedConnection) (now connectionNow : Instant) (state : State) :
    (processRecord record resolved connectionCache now connectionNow state).lastRotation = state.lastRotation := by
  unfold processRecord
  cases record.direction <;> rfl

theorem drainFlowChannel_lastRotation (arrivals : List Arrival) (connectionCache : List ResolvedConnection) (state : State) :
    (drainFlowChannel arrivals connectionCache state).lastRotation = state.lastRotation := by
  induction arrivals generalizing state with
  | nil => rfl
  | cons arrival arrivals ih => exact (ih _).trans (processRecord_lastRotation ..)

theorem maintained_lastRotation (iteration : Iteration) (loop : LoopState) :
    (iteration.maintained loop).lastRotation = loop.state.lastRotation :=
  drainFlowChannel_lastRotation iteration.arrivals _ loop.state

theorem rotation_cases (iteration : Iteration) (loop : LoopState) :
    ((iteration.rotation loop).1 = false ∧ elapsed iteration.checked loop.state.lastRotation < rotationPeriod ∧
      (runIteration loop iteration).state.lastRotation = loop.state.lastRotation) ∨
    ((iteration.rotation loop).1 = true ∧ rotationPeriod ≤ elapsed iteration.checked loop.state.lastRotation ∧
      (runIteration loop iteration).state.lastRotation = iteration.rotated) := by
  have state : (runIteration loop iteration).state = (iteration.rotation loop).2 := rfl
  rw [state, Iteration.rotation, ← maintained_lastRotation iteration loop]
  rcases rotateHistoriesIfDue_cases iteration.checked iteration.rotated (iteration.maintained loop) with
    ⟨early, kept⟩ | ⟨due, peakBw, rotation⟩
  · rw [kept]
    exact Or.inl ⟨rfl, early, rfl⟩
  · rw [rotation]
    exact Or.inr ⟨rfl, due, rfl⟩

theorem periods_append (start : LoopState) (done : List Iteration) (iteration : Iteration) :
    periods start (done ++ [iteration]) =
      periods start done ++ closedPeriod (run runIteration start done) iteration := by
  rw [periods, observed_append, observed, observed, List.append_nil]
  rfl

/-- After a run the timer stands at the last whole second, and no iteration since has passed the next one. -/
structure OnTime (now : Instant) (start : LoopState) (done : List Iteration) : Prop where
  armed : (run runIteration start done).state.lastRotation = now + (periods start done).length * rotationPeriod
  passed : (run runIteration start done).state.lastRotation ≤ lastReading now done
  counted : (periods start done).length = wholeSeconds now (lastTest now done)
  exact : ∀ period ∈ periods start done, period = rotationPeriod

section Step
variable {now : Instant} {start : LoopState} {done : List Iteration} (onTime : OnTime now start done) {iteration : Iteration}
  (later : lastReading now done ≤ iteration.checked) (reads : iteration.checked ≤ iteration.rotated)
include onTime later reads

/-- An iteration that does not rotate keeps the time when its test is in the same second as the last. -/
theorem OnTime.stay (kept : (iteration.rotation (run runIteration start done)).1 = false)
    (timer : (runIteration (run runIteration start done) iteration).state.lastRotation =
      (run runIteration start done).state.lastRotation)
    (early : elapsed iteration.checked (run runIteration start done).state.lastRotation < rotationPeriod) :
    OnTime now start (done ++ [iteration]) := by
  have same : periods start (done ++ [iteration]) = periods start done := by
    rw [periods_append, closedPeriod, kept]
    exact List.append_nil _
  have last : lastReading now (done ++ [iteration]) = iteration.rotated := by simp [lastReading]
  have test : lastTest now (done ++ [iteration]) = iteration.checked := by simp [lastTest]
  refine ⟨?_, ?_, ?_, ?_⟩
  · rw [run_append, same]
    exact timer.trans onTime.armed
  · rw [run_append, last]
    exact timer.le.trans (onTime.passed.trans (later.trans reads))
  · rw [same, test]
    exact (quotient_within onTime.armed (onTime.passed.trans later) early).symm
  · rw [same]
    exact onTime.exact

omit later reads in
/-- One that rotates exactly on the next second, with the timer armed at it, keeps the time too. -/
theorem OnTime.tick (rotates : (iteration.rotation (run runIteration start done)).1 = true)
    (timer : (runIteration (run runIteration start done) iteration).state.lastRotation = iteration.rotated)
    (checked : iteration.checked = (run runIteration start done).state.lastRotation + rotationPeriod)
    (rotated : iteration.rotated = (run runIteration start done).state.lastRotation + rotationPeriod) :
    OnTime now start (done ++ [iteration]) := by
  have positive : 0 < rotationPeriod := by decide
  have last : lastReading now (done ++ [iteration]) = iteration.rotated := by simp [lastReading]
  have test : lastTest now (done ++ [iteration]) = iteration.checked := by simp [lastTest]
  have same : periods start (done ++ [iteration]) = periods start done ++ [rotationPeriod] := by
    rw [periods_append, closedPeriod, if_pos rotates, rotated, elapsed, Nat.add_sub_cancel_left]
  have next : (periods start done).length * rotationPeriod + rotationPeriod =
      (periods start (done ++ [iteration])).length * rotationPeriod := by
    rw [same, List.length_append, List.length_singleton, Nat.succ_mul]
  refine ⟨?_, ?_, ?_, ?_⟩
  · have rearmed : iteration.rotated = now + (periods start (done ++ [iteration])).length * rotationPeriod := by
      rw [rotated, onTime.armed, ← next, Nat.add_assoc]
    rw [run_append]
    exact timer.trans rearmed
  · rw [run_append, last]
    exact timer.le
  · have passed : elapsed iteration.checked now = (periods start (done ++ [iteration])).length * rotationPeriod := by
      rw [elapsed, checked, onTime.armed, Nat.add_assoc, Nat.add_sub_cancel_left, next]
    rw [test, wholeSeconds, passed, Nat.mul_div_cancel _ positive]
  · rw [same]
    intro period member
    rcases List.mem_append.mp member with old | new
    · exact onTime.exact period old
    · exact List.mem_singleton.mp new

theorem OnTime.step (timely : Timely now (lastTest now done) iteration) : OnTime now start (done ++ [iteration]) := by
  have armed := onTime.armed
  rw [Timely, ← onTime.counted] at timely
  rcases rotation_cases iteration (run runIteration start done) with ⟨kept, early, timer⟩ | ⟨rotates, due, timer⟩
  · exact onTime.stay later reads kept timer early
  · rcases timely with same | ⟨checked, rotated⟩
    · exact absurd same (Nat.ne_of_gt (quotient_beyond armed due))
    · rw [Nat.succ_mul, ← Nat.add_assoc, ← armed] at checked
      exact onTime.tick rotates timer checked (rotated.trans checked)

omit later in
/-- An iteration after which the rotations still count the seconds was timely. -/
theorem OnTime.timely (counted : (periods start (done ++ [iteration])).length = wholeSeconds now iteration.checked)
    (exact : ∀ period ∈ periods start (done ++ [iteration]), period = rotationPeriod) :
    Timely now (lastTest now done) iteration := by
  have armed := onTime.armed
  rw [Timely, ← onTime.counted]
  rw [periods_append, closedPeriod] at counted exact
  rcases rotation_cases iteration (run runIteration start done) with ⟨kept, _, _⟩ | ⟨rotates, due, _⟩
  · rw [kept] at counted
    exact Or.inl (counted.symm.trans (congrArg List.length (List.append_nil _)))
  · rw [if_pos rotates] at exact
    have covered := exact _ (List.mem_append_right _ (List.mem_singleton.mpr rfl))
    obtain ⟨checked, rotated⟩ := exact_second reads due covered
    refine Or.inr ⟨?_, rotated.trans checked.symm⟩
    rw [checked, armed, Nat.succ_mul, Nat.add_assoc]

end Step

theorem run_onTime (now : Instant) (scanNow : Int) (historyCsv : Option Text) (done : List Iteration)
    (ordered : Ordered now done) (punctual : Punctual now now done) : OnTime now (.start now scanNow historyCsv) done := by
  induction done using List.reverseRecOn with
  | nil =>
    refine ⟨?_, Nat.le_refl now, ?_, ?_⟩
    · rw [periods, observed, List.length_nil, Nat.zero_mul]
      rfl
    · have begin : elapsed now now = 0 := Nat.sub_self now
      rw [lastTest, List.foldl_nil, wholeSeconds, begin, Nat.zero_div]
      rfl
    · intro period member
      cases member
  | append_singleton done iteration ih =>
    rw [ordered_append] at ordered
    rw [punctual_append] at punctual
    exact (ih ordered.1 punctual.1).step ordered.2.1 ordered.2.2 punctual.2

theorem punctual_of_append {now past : Instant} {done rest : List Iteration} (punctual : Punctual now past (done ++ rest)) :
    Punctual now past done := by
  induction done generalizing past with
  | nil => trivial
  | cons iteration done ih => exact ⟨punctual.1, ih punctual.2⟩

/-- After every iteration the rotations are as many as the whole seconds that are over, each for one second, exactly when
every test of the clock is in the second of the one before or exactly on the next, where the timer is armed again. -/
theorem seconds_exact (now : Instant) (scanNow : Int) (historyCsv : Option Text) (iterations : List Iteration)
    (ordered : Ordered now iterations) :
    (∀ done iteration, done ++ [iteration] <+: iterations →
      (periods (.start now scanNow historyCsv) (done ++ [iteration])).length = wholeSeconds now iteration.checked ∧
      ∀ period ∈ periods (.start now scanNow historyCsv) (done ++ [iteration]), period = rotationPeriod) ↔
      Punctual now now iterations := by
  constructor
  · intro kept
    induction iterations using List.reverseRecOn with
    | nil => trivial
    | append_singleton iterations iteration ih =>
      rw [ordered_append] at ordered
      have before := ih ordered.1 fun done other early => kept done other (early.trans (List.prefix_append _ _))
      obtain ⟨counted, exact⟩ := kept iterations iteration (List.prefix_refl _)
      have onTime := run_onTime now scanNow historyCsv iterations ordered.1 before
      exact (punctual_append now now iterations iteration).mpr
        ⟨before, onTime.timely ordered.2.2 counted exact⟩
  · rintro punctual done iteration ⟨rest, rfl⟩
    have onTime := run_onTime now scanNow historyCsv (done ++ [iteration]) (ordered_of_append ordered)
      (punctual_of_append punctual)
    have test : lastTest now (done ++ [iteration]) = iteration.checked := by simp [lastTest]
    exact ⟨test ▸ onTime.counted, onTime.exact⟩

/-- The second test is within the second that the first one has begun. -/
theorem seconds_exact_punctual :
    (∀ done iteration, done ++ [iteration] <+: [.atTime (10^9) [], .atTime (15 * 10^8) []] →
      (periods (.start 0 0 none) (done ++ [iteration])).length = wholeSeconds 0 iteration.checked ∧
      ∀ period ∈ periods (.start 0 0 none) (done ++ [iteration]), period = rotationPeriod) ↔
      Punctual 0 0 [.atTime (10^9) [], .atTime (15 * 10^8) []] :=
  seconds_exact 0 0 none [.atTime (10^9) [], .atTime (15 * 10^8) []] ⟨by decide, by decide, by decide, by decide, trivial⟩

/-- The first second is noticed a tenth late, and the second one is missed. -/
def tenthLate : List Iteration := [.atTime (11 * 10^8) [], .atTime (205 * 10^7) []]

theorem seconds_drift :
    Ordered 0 tenthLate ∧ periods (.start 0 0 none) tenthLate = [11 * 10^8] ∧ wholeSeconds 0 (205 * 10^7) = 2 ∧
    ¬∀ done iteration, done ++ [iteration] <+: tenthLate →
      (periods (.start 0 0 none) (done ++ [iteration])).length = wholeSeconds 0 iteration.checked ∧
      ∀ period ∈ periods (.start 0 0 none) (done ++ [iteration]), period = rotationPeriod := by
  have covered : periods (.start 0 0 none) tenthLate = [11 * 10^8] := by decide +kernel
  refine ⟨⟨by decide, by decide, by decide, by decide, trivial⟩, covered, by decide, fun kept => ?_⟩
  have late := (kept [.atTime (11 * 10^8) []] (.atTime (205 * 10^7) []) (List.prefix_refl _)).1
  have length : (periods (.start 0 0 none) tenthLate).length = 1 := congrArg List.length covered
  exact absurd (length.symm.trans late) (by decide)

end Netmon.Aggregator
