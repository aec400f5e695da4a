import Netmon.Aggregator.ConnectionBytes
import Netmon.Gui.PipelineLedger

/-! What the GUI can see of the aggregator while all the threads act: the snapshots of
whole iterations, in their order, with the totals of the records received in them. -/
namespace Netmon.Aggregator
open Library Capture Resolver

section Totals
variable {direction : Direction}

def counterMax : Nat := 2^64 - 1

def InterfaceStats.total : Direction → InterfaceStats → Nat
  | .tx, interface => interface.txBytesTotal
  | .rx, interface => interface.rxBytesTotal

theorem step_ifTotal {state : State} (bounded : state.ifTotal direction ≤ counterMax) (op : Op) :
    (step state op).ifTotal direction = min (state.ifTotal direction + op.bytes direction) counterMax := by
  have same : state.ifTotal direction = min (state.ifTotal direction + 0) counterMax := (min_eq_left bounded).symm
  cases op with
  | processRecord record resolved connectionCache now connectionNow =>
    rw [step, processRecord_ifTotal, Op.bytes]
    split
    · rfl
    · exact same
  | markExitedThreads resolves => cases direction <;> exact same
  | evictStaleThreads now => cases direction <;> exact same
  | pruneConnectionStats now => cases direction <;> exact same
  | rotateHistoriesIfDue checked rotated =>
    rw [step]
    rcases rotateHistoriesIfDue_cases checked rotated state with ⟨_, kept⟩ | ⟨_, peakBw, changed⟩
    · rw [kept]
      exact same
    · rw [changed]
      cases direction <;> exact same

theorem run_ifTotal {start : State} (bounded : start.ifTotal direction ≤ counterMax) (ops : List Op) :
    (run step start ops).ifTotal direction = min (start.ifTotal direction + recordedBytes direction ops) counterMax := by
  induction ops generalizing start with
  | nil => exact (min_eq_left bounded).symm
  | cons op ops ih =>
    have first := step_ifTotal bounded op
    have split : recordedBytes direction (op :: ops) = op.bytes direction + recordedBytes direction ops := by
      simp [recordedBytes]
    rw [run_cons, ih (by rw [first]; exact min_le_right _ _), first, split]
    omega

theorem ops_records (loop : LoopState) (iteration : Iteration) :
    (iteration.ops loop).filterMap Op.record? = iteration.records := by
  rw [Iteration.ops, List.filterMap_append, List.filterMap_map]
  have arrived : iteration.arrivals.filterMap (some ∘ fun arrival : Arrival => arrival.record) = iteration.records :=
    congrFun List.filterMap_eq_map' _
  exact (List.append_nil _).trans arrived

theorem loopOps_records (start : LoopState) (iterations : List Iteration) :
    (loopOps start iterations).filterMap Op.record? = iterations.flatMap Iteration.records := by
  induction iterations generalizing start with
  | nil => rfl
  | cons iteration iterations ih =>
    unfold loopOps at ih ⊢
    rw [observed, List.filterMap_append, ops_records, ih, List.flatMap_cons]

/-- What is published of the interface are the totals that the iterations have counted. -/
theorem run_interface (now : Instant) (scanNow : Int) (historyCsv : Option Text) (iterations : List Iteration) :
    (run runIteration (LoopState.start now scanNow historyCsv) iterations).interface.total direction =
      min (directionBytes direction (iterations.flatMap Iteration.records)) counterMax := by
  have published : (run runIteration (LoopState.start now scanNow historyCsv) iterations).interface.total direction =
      (run runIteration (LoopState.start now scanNow historyCsv) iterations).state.ifTotal direction := by
    induction iterations using List.reverseRecOn with
    | nil => cases direction <;> rfl
    | append_singleton iterations iteration _ =>
      rw [run_append]
      cases direction <;> rfl
  have zero : (LoopState.start now scanNow historyCsv).state.ifTotal direction = 0 := by cases direction <;> rfl
  rw [published, loop_state, run_ifTotal (by rw [zero]; exact Nat.zero_le _), zero, Nat.zero_add, recordedBytes_eq,
    loopOps_records]

end Totals
end Netmon.Aggregator

namespace Netmon.Gui
open Library Capture Aggregator
namespace Pipeline

section Reached
variable {pipeline : Pipeline} {start : LoopState} {done : List Iteration} {current : Iteration}

theorem step_aggregator (pipeline : Pipeline) (event : PipelineEvent) : (∃ found, event = .work (.aggregate found)) ∨
    (pipeline.step event).aggregator = pipeline.aggregator ∧ pipeline.received event = [] := by
  cases event with
  | operate operation =>
    refine Or.inr ⟨?_, rfl⟩
    unfold step
    simp only
    split <;> rfl
  | drop =>
    refine Or.inr ⟨?_, rfl⟩
    unfold step
    simp only
    split <;> rfl
  | work turn =>
    cases turn with
    | aggregate found => exact Or.inl ⟨found, rfl⟩
    | capture session answer =>
      refine Or.inr ⟨?_, rfl⟩
      unfold step work capture
      simp only
      split <;> rfl

theorem step_reached (reached : pipeline.aggregator.Reached start done current) (event : PipelineEvent) :
    ∃ done' current', (pipeline.step event).aggregator.Reached start done' current' ∧
      ((pipeline.step event).aggregator.begun done' current').flatMap Iteration.records =
        (pipeline.aggregator.begun done current).flatMap Iteration.records ++ pipeline.received event ∧
      done <+: done' ∧ pipeline.aggregator.shown done current <+: (pipeline.step event).aggregator.shown done' current' := by
  obtain ⟨found, rfl⟩ | ⟨kept, nothing⟩ := pipeline.step_aggregator event
  · obtain ⟨done', current', after, records, longer, longer', _⟩ := advance_reached (fun _ _ => True) (fun _ => True)
      reached
    exact ⟨done', current', after, records, longer, longer'⟩
  · rw [kept, nothing, List.append_nil]
    exact ⟨done, current, reached, rfl, List.prefix_rfl, List.prefix_rfl⟩

end Reached

section Runs
variable (devices : List Text) (start : LoopState) (events : List PipelineEvent)

/-- The iterations that are done and those whose rows are shown, at each moment of a run. -/
structure History (done shown : Nat → List Iteration) : Prop where
  reached : ∀ n ≤ events.length, ∃ current, let aggregator := (run step (new devices start) (events.take n)).aggregator
    aggregator.Reached start (done n) current ∧ shown n = aggregator.shown (done n) current ∧
      (aggregator.begun (done n) current).flatMap Iteration.records =
        observed step received (new devices start) (events.take n)
  grows : ∀ m n, m ≤ n → n ≤ events.length → done m <+: done n ∧ shown m <+: shown n

theorem exists_history : ∃ done shown, History devices start events done shown := by
  induction events using List.reverseRecOn with
  | nil =>
    refine ⟨fun _ => [], fun _ => [], ?_, ?_⟩
    · intro n _
      have none : ([] : List PipelineEvent).take n = [] := List.take_nil
      rw [none]
      exact ⟨.atTime 0 [], ⟨rfl, rfl⟩, rfl, rfl⟩
    · intro m n _ _
      exact ⟨List.prefix_rfl, List.prefix_rfl⟩
  | append_singleton events event ih =>
    obtain ⟨done, shown, reached, grows⟩ := ih
    obtain ⟨current, now, showing, records⟩ := reached events.length (Nat.le_refl _)
    rw [List.take_length] at now showing records
    obtain ⟨done', current', after, received', longer, longer'⟩ := step_reached now event
    let next := (run step (new devices start) events).step event
    refine ⟨fun n => if n ≤ events.length then done n else done',
      fun n => if n ≤ events.length then shown n else next.aggregator.shown done' current', ?_, ?_⟩
    · intro n within
      by_cases earlier : n ≤ events.length
      · rw [if_pos earlier, if_pos earlier, List.take_append_of_le_length earlier]
        exact reached n earlier
      · rw [if_neg earlier, if_neg earlier, List.take_of_length_le (by simp at within ⊢; omega), run_append,
          observed_append, ← records]
        exact ⟨current', after, rfl, by simpa [observed] using received'⟩
    · intro m n order within
      by_cases earlier : n ≤ events.length
      · have first := grows m n order earlier
        simpa [earlier, order.trans earlier] using first
      · by_cases before : m ≤ events.length
        · obtain ⟨doneGrows, shownGrows⟩ := grows m events.length before (Nat.le_refl _)
          rw [if_pos before, if_pos before, if_neg earlier, if_neg earlier]
          exact ⟨doneGrows.trans longer, shownGrows.trans (showing ▸ longer')⟩
        · rw [if_neg before, if_neg before, if_neg earlier, if_neg earlier]
          exact ⟨List.prefix_rfl, List.prefix_rfl⟩

theorem begun_shown (thread : AggregatorThread) (done : List Iteration) (current : Iteration) :
    thread.shown done current <+: thread.begun done current ∧ done <+: thread.shown done current ∧
      (thread.shown done current).length ≤ done.length + 1 := by
  unfold AggregatorThread.shown AggregatorThread.begun
  cases thread.phase with
  | publishing =>
    simp only [if_true]
    exact ⟨List.prefix_rfl, List.prefix_append _ _, by simp⟩
  | draining | maintaining =>
    simp only [reduceCtorEq, if_false]
    exact ⟨List.prefix_append _ _, List.prefix_rfl, Nat.le_succ _⟩
  | spawned | looping | exited =>
    simp only [reduceCtorEq, if_false]
    exact ⟨List.prefix_rfl, List.prefix_rfl, Nat.le_succ _⟩

/-- In every run the aggregator thread is, with all that it publishes, where a number of whole iterations and the part
of the next one that it has done have brought it, and the records of these iterations are those it has received. -/
theorem aggregator_refines : ∃ done current,
    (run step (new devices start) events).aggregator.Reached start done current ∧
      ((run step (new devices start) events).aggregator.begun done current).flatMap Iteration.records =
        observed step received (new devices start) events := by
  obtain ⟨done, shown, reached, _⟩ := exists_history devices start events
  obtain ⟨current, now, _, records⟩ := reached events.length (Nat.le_refl _)
  rw [List.take_length] at now records
  exact ⟨done events.length, current, now, records⟩

theorem prefix_take {α : Type} {first all : List α} (before : first <+: all) : all.take first.length = first :=
  (List.prefix_iff_eq_take.mp before).symm

theorem flatMap_prefix {α β : Type} (f : α → List β) {first all : List α} (before : first <+: all) :
    first.flatMap f <+: all.flatMap f := by
  obtain ⟨rest, rfl⟩ := before
  rw [List.flatMap_append]
  exact List.prefix_append _ _

/-- There is one sequence of iterations whose snapshots the GUI reads, whenever it reads. The rows are never those of
an earlier iteration than the interface and at most one iteration ahead of it, neither goes back, and the totals of
the interface are those of records that the aggregator has received. -/
theorem snapshots_ordered (now : Instant) (scanNow : Int) (historyCsv : Option Text) :
    let start := LoopState.start now scanNow historyCsv
    let loop (n : Nat) := (run step (new devices start) (events.take n)).aggregator.loop
    ∃ (iterations : List Iteration) (done shown : Nat → Nat),
      (∀ n ≤ events.length,
        (loop n).rows = (run runIteration start (iterations.take (shown n))).rows ∧
        (loop n).interface = (run runIteration start (iterations.take (done n))).interface ∧
        done n ≤ shown n ∧ shown n ≤ done n + 1 ∧
        (∀ direction, (loop n).interface.total direction =
          min (directionBytes direction ((iterations.take (done n)).flatMap Iteration.records)) counterMax) ∧
        (iterations.take (shown n)).flatMap Iteration.records <+:
          observed step received (new devices start) (events.take n)) ∧
      ∀ m n, m ≤ n → n ≤ events.length → done m ≤ done n ∧ shown m ≤ shown n := by
  intro start loop
  obtain ⟨done, shown, reached, grows⟩ := exists_history devices start events
  refine ⟨shown events.length, fun n => (done n).length, fun n => (shown n).length, ?_, ?_⟩
  · intro n within
    obtain ⟨current, here, showing, records⟩ := reached n within
    obtain ⟨begins, follows, ahead⟩ := begun_shown (run step (new devices start) (events.take n)).aggregator (done n)
      current
    rw [← showing] at begins follows ahead
    have shownTake := prefix_take (grows n events.length within (Nat.le_refl _)).2
    have doneTake := prefix_take (follows.trans (grows n events.length within (Nat.le_refl _)).2)
    obtain ⟨rows, interface⟩ := here.published
    rw [← showing] at rows
    simp only [shownTake, doneTake]
    refine ⟨rows, interface, follows.length_le, ahead, ?_, ?_⟩
    · intro direction
      exact (congrArg _ interface).trans (run_interface now scanNow historyCsv (done n))
    · rw [← records]
      exact flatMap_prefix _ begins
  · intro m n order within
    obtain ⟨doneGrows, shownGrows⟩ := grows m n order within
    exact ⟨doneGrows.length_le, shownGrows.length_le⟩

end Runs
end Pipeline
end Netmon.Gui
