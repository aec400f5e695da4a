import Netmon.Aggregator.Loop

/-! The aggregator thread one action at a time, so that the capture threads and the GUI
can act in between. -/
namespace Netmon.Aggregator
open Library Capture Resolver

inductive AggregatorPhase where
  /-- The resolver is not made yet. -/
  | spawned
  /-- At the head of the loop. -/
  | looping
  /-- The channel is read, with a timeout the first time. -/
  | draining
  | maintaining
  /-- The rows are published, the interface is not. -/
  | publishing
  | exited
deriving DecidableEq, Repr

structure AggregatorThread where
  phase : AggregatorPhase
  loop : LoopState

/-- What an action finds outside the program. -/
structure Findings where
  resolver : Except Text Unit
  /-- The answer of `resolve_flow_owner`, and the clock while the record is applied. -/
  resolved : Option ProcessInfo
  now : Instant
  connectionNow : Instant
  /-- All else that an iteration finds; the records come from the channel. -/
  iteration : Iteration

structure AggregatorTrace where
  received : List FlowRecord
  statuses : List Text

def AggregatorTrace.silent : AggregatorTrace := ⟨[], []⟩

def LoopState.applyRecord (record : FlowRecord) (found : Findings) (loop : LoopState) : LoopState :=
  { loop with
    state := processRecord record found.resolved loop.connectionCache found.now found.connectionNow loop.state }

/-- From the mark of the exited threads to the rows. -/
def LoopState.maintain (iteration : Iteration) (loop : LoopState) : LoopState :=
  let state := evictStaleThreads iteration.evictNow (markExitedThreads iteration.resolves loop.state)
  let (rotated, state) := rotateHistoriesIfDue iteration.checked iteration.rotated
    (pruneConnectionStats iteration.pruneNow state)
  let threads := iteration.order.entries state.statsByThread
  let (historyCsv, sessionHistory) :=
    match rotated, loop.historyCsv with
    | true, some file =>
      let (file, sessionHistory) := appendHistoryCsv iteration.timestamp iteration.written (threads.map (·.2)) file
        loop.sessionHistory
      (some file, sessionHistory)
    | _, historyCsv => (historyCsv, loop.sessionHistory)
  let (rows, _) := publishSnapshots threads loop.connectionCache iteration.blocked state
  { loop with state, historyCsv, sessionHistory, rows }

def LoopState.publishInterface (loop : LoopState) : LoopState :=
  { loop with interface := (publishSnapshots [] loop.connectionCache ∅ loop.state).2 }

/-- The thread after its next action, `front` being the record at the front of the channel. -/
def AggregatorThread.advance (running : Bool) (front : Option FlowRecord) (found : Findings)
    (thread : AggregatorThread) : AggregatorThread × AggregatorTrace :=
  match thread.phase with
  | .spawned =>
    match found.resolver with
    | .ok () => ({ thread with phase := .looping }, .silent)
    | .error error =>
      ({ thread with phase := .exited }, ⟨[], ["Resolver initialization failed: ".toList ++ error]⟩)
  | .looping =>
    if running then (⟨.draining, refreshConnectionCacheIfDue found.iteration thread.loop⟩, .silent)
    else ({ thread with phase := .exited }, .silent)
  | .draining =>
    match front with
    | some record => ({ thread with loop := thread.loop.applyRecord record found }, ⟨[record], []⟩)
    | none => ({ thread with phase := .maintaining }, .silent)
  | .maintaining => (⟨.publishing, thread.loop.maintain found.iteration⟩, .silent)
  | .publishing => (⟨.looping, thread.loop.publishInterface⟩, .silent)
  | .exited => (thread, .silent)

def Iteration.records (iteration : Iteration) : List FlowRecord := iteration.arrivals.map (·.record)

/-- The variables in the middle of an iteration, when the channel has been read. -/
def Iteration.drained (iteration : Iteration) (before : LoopState) : LoopState :=
  let refreshed := refreshConnectionCacheIfDue iteration before
  { refreshed with state := drainFlowChannel iteration.arrivals refreshed.connectionCache before.state }

/-- The thread has done the iterations, and the current one as far as its phase says. -/
def AggregatorThread.Reached (start : LoopState) (done : List Iteration) (current : Iteration)
    (thread : AggregatorThread) : Prop :=
  let before := run runIteration start done
  match thread.phase with
  | .spawned => done = [] ∧ thread.loop = start
  | .looping | .exited => thread.loop = before
  | .draining | .maintaining => thread.loop = current.drained before
  | .publishing => thread.loop = { runIteration before current with interface := before.interface }

/-- The iterations that have received records. -/
def AggregatorThread.begun (done : List Iteration) (current : Iteration) (thread : AggregatorThread) : List Iteration :=
  match thread.phase with
  | .draining | .maintaining | .publishing => done ++ [current]
  | .spawned | .looping | .exited => done

/-- The iterations whose rows are published. -/
def AggregatorThread.shown (done : List Iteration) (current : Iteration) (thread : AggregatorThread) : List Iteration :=
  if thread.phase = .publishing then done ++ [current] else done

/-- What holds of the resolver's answers: to the question whose a flow is, and to that for the connections. -/
structure Iteration.Satisfies (owned : FlowKey → Option ProcessInfo → Prop) (listed : List ResolvedConnection → Prop)
    (iteration : Iteration) : Prop where
  arrivals : ∀ arrival ∈ iteration.arrivals, owned arrival.record.key arrival.resolved
  connections : listed iteration.connections

/-- The same of the answers that the next action uses. -/
def Findings.Satisfies (owned : FlowKey → Option ProcessInfo → Prop) (listed : List ResolvedConnection → Prop)
    (running : Bool) (front : Option FlowRecord) (phase : AggregatorPhase) (found : Findings) : Prop :=
  match phase, front with
  | .looping, _ => running = true → listed found.iteration.connections
  | .draining, some record => owned record.key found.resolved
  | _, _ => True

section Advance
variable {start before loop : LoopState} {done : List Iteration} {current : Iteration} {thread : AggregatorThread}
  {running : Bool} {front : Option FlowRecord} {found : Findings}

theorem drained_arrival (record : FlowRecord) :
    ({ current with
      arrivals := current.arrivals ++ [⟨record, found.resolved, found.now, found.connectionNow⟩] } : Iteration).drained
      before = (current.drained before).applyRecord record found := by
  simp only [Iteration.drained, LoopState.applyRecord, drainFlowChannel, List.foldl_append, List.foldl_cons,
    List.foldl_nil]
  rfl

/-- An iteration whose first half was done as the current one, and whose second half is done now. -/
def Iteration.continued (current iteration : Iteration) : Iteration :=
  { iteration with
    scanChecked := current.scanChecked
    scanned := current.scanned
    connections := current.connections
    arrivals := current.arrivals }

/-- Everything but the cached connections, and the time of the scan. -/
structure LoopState.SameButCache (before after : LoopState) : Prop where
  state : after.state = before.state
  historyCsv : after.historyCsv = before.historyCsv
  sessionHistory : after.sessionHistory = before.sessionHistory
  rows : after.rows = before.rows
  interface : after.interface = before.interface

theorem refreshed_kept : before.SameButCache (refreshConnectionCacheIfDue current before) := by
  unfold refreshConnectionCacheIfDue
  split <;> exact ⟨rfl, rfl, rfl, rfl, rfl⟩

theorem maintain_drained (iteration : Iteration) : (current.drained before).maintain iteration =
    { runIteration before (current.continued iteration) with interface := before.interface } := by
  have cache : refreshConnectionCacheIfDue (current.continued iteration) before =
      refreshConnectionCacheIfDue current before := rfl
  have kept : before.SameButCache (refreshConnectionCacheIfDue current before) := refreshed_kept
  obtain ⟨_, historyCsv, sessionHistory, _, interface⟩ := kept
  simp only [LoopState.maintain, Iteration.drained, runIteration, Iteration.rotation, Iteration.maintained, cache,
    historyCsv, sessionHistory, interface]
  rfl

theorem publishInterface_eq : LoopState.publishInterface { runIteration before current with interface := loop.interface } =
    runIteration before current := rfl

section Satisfies
variable {owned : FlowKey → Option ProcessInfo → Prop} {listed : List ResolvedConnection → Prop}

theorem satisfies_concat (earlier : ∀ iteration ∈ done, iteration.Satisfies owned listed)
    (last : current.Satisfies owned listed) : ∀ iteration ∈ done ++ [current], iteration.Satisfies owned listed :=
  List.forall_mem_append.mpr ⟨earlier, List.forall_mem_singleton.mpr last⟩

theorem satisfies_last (all : ∀ iteration ∈ done ++ [current], iteration.Satisfies owned listed) :
    (∀ iteration ∈ done, iteration.Satisfies owned listed) ∧ current.Satisfies owned listed := by
  obtain ⟨earlier, last⟩ := List.forall_mem_append.mp all
  exact ⟨earlier, last current (List.mem_singleton.mpr rfl)⟩

end Satisfies

/-- An action goes on with the iteration under way, ends it or begins the next one. -/
theorem advance_reached (owned : FlowKey → Option ProcessInfo → Prop) (listed : List ResolvedConnection → Prop)
    (reached : thread.Reached start done current) : ∃ done' current',
    (thread.advance running front found).1.Reached start done' current' ∧
    ((thread.advance running front found).1.begun done' current').flatMap Iteration.records =
      (thread.begun done current).flatMap Iteration.records ++ (thread.advance running front found).2.received ∧
    done <+: done' ∧ thread.shown done current <+: (thread.advance running front found).1.shown done' current' ∧
    (found.Satisfies owned listed running front thread.phase →
      (∀ iteration ∈ thread.begun done current, iteration.Satisfies owned listed) →
      ∀ iteration ∈ (thread.advance running front found).1.begun done' current', iteration.Satisfies owned listed) := by
  obtain ⟨phase, loop⟩ := thread
  cases phase with
  | spawned =>
    obtain ⟨rfl, rfl⟩ : done = [] ∧ loop = start := reached
    cases resolver : found.resolver with
    | ok =>
      simp only [AggregatorThread.advance, resolver]
      exact ⟨[], current, rfl, rfl, List.prefix_rfl, List.prefix_rfl, fun _ kept => kept⟩
    | error error =>
      simp only [AggregatorThread.advance, resolver]
      exact ⟨[], current, rfl, rfl, List.prefix_rfl, List.prefix_rfl, fun _ kept => kept⟩
  | looping =>
    have loop : loop = run runIteration start done := reached
    cases running with
    | true =>
      refine ⟨done, { found.iteration with arrivals := [] }, ?_, ?_, List.prefix_rfl, List.prefix_rfl, ?_⟩
      · simp only [AggregatorThread.advance, loop]
        unfold AggregatorThread.Reached Iteration.drained refreshConnectionCacheIfDue
        simp only [if_true]
        split <;> rfl
      · simp [AggregatorThread.advance, AggregatorThread.begun, AggregatorTrace.silent, Iteration.records]
      · intro answered kept
        have begins : ({ found.iteration with arrivals := [] } : Iteration).Satisfies owned listed :=
          ⟨List.forall_mem_nil _, answered rfl⟩
        exact satisfies_concat kept begins
    | false =>
      exact ⟨done, current, loop, (List.append_nil _).symm, List.prefix_rfl, List.prefix_rfl, fun _ kept => kept⟩
  | draining =>
    have loop : loop = current.drained (run runIteration start done) := reached
    cases front with
    | some record =>
      refine ⟨done, { current with
        arrivals := current.arrivals ++ [⟨record, found.resolved, found.now, found.connectionNow⟩] },
        ?_, ?_, List.prefix_rfl, List.prefix_rfl, ?_⟩
      · simp only [AggregatorThread.advance, AggregatorThread.Reached]
        rw [loop, drained_arrival]
      · simp [AggregatorThread.advance, AggregatorThread.begun, Iteration.records]
      · intro answered kept
        obtain ⟨earlier, arrivals, connections⟩ := satisfies_last kept
        have longer : ({ current with
            arrivals := current.arrivals ++ [⟨record, found.resolved, found.now, found.connectionNow⟩] } :
              Iteration).Satisfies owned listed :=
          ⟨List.forall_mem_append.mpr ⟨arrivals, List.forall_mem_singleton.mpr answered⟩, connections⟩
        exact satisfies_concat earlier longer
    | none =>
      exact ⟨done, current, loop, (List.append_nil _).symm, List.prefix_rfl, List.prefix_rfl, fun _ kept => kept⟩
  | maintaining =>
    have loop : loop = current.drained (run runIteration start done) := reached
    refine ⟨done, current.continued found.iteration, ?_, ?_, List.prefix_rfl, ?_, ?_⟩
    · simp only [AggregatorThread.advance, AggregatorThread.Reached]
      rw [loop, maintain_drained]
    · simp [AggregatorThread.advance, AggregatorThread.begun, AggregatorTrace.silent, Iteration.records,
        Iteration.continued]
    · exact List.prefix_append _ _
    · intro _ kept
      obtain ⟨earlier, arrivals, connections⟩ := satisfies_last kept
      have continued : (current.continued found.iteration).Satisfies owned listed := ⟨arrivals, connections⟩
      exact satisfies_concat earlier continued
  | publishing =>
    have loop : loop = { runIteration (run runIteration start done) current with
        interface := (run runIteration start done).interface } := reached
    refine ⟨done ++ [current], current, ?_, (List.append_nil _).symm, List.prefix_append _ _, List.prefix_rfl,
      fun _ kept => kept⟩
    simp only [AggregatorThread.advance, AggregatorThread.Reached]
    rw [loop, publishInterface_eq, run_append]
    rfl
  | exited =>
    exact ⟨done, current, reached, (List.append_nil _).symm, List.prefix_rfl, List.prefix_rfl, fun _ kept => kept⟩

/-- The rows that the GUI can read are those of the last iteration that has published them; so is the interface. -/
theorem AggregatorThread.Reached.published (reached : thread.Reached start done current) :
    thread.loop.rows = (run runIteration start (thread.shown done current)).rows ∧
      thread.loop.interface = (run runIteration start done).interface := by
  obtain ⟨phase, loop⟩ := thread
  cases phase with
  | spawned =>
    obtain ⟨rfl, rfl⟩ : done = [] ∧ loop = start := reached
    exact ⟨rfl, rfl⟩
  | looping | exited =>
    have loop : loop = run runIteration start done := reached
    subst loop
    exact ⟨rfl, rfl⟩
  | draining | maintaining =>
    have loop : loop = current.drained (run runIteration start done) := reached
    subst loop
    exact ⟨refreshed_kept.rows, refreshed_kept.interface⟩
  | publishing =>
    have loop : loop = { runIteration (run runIteration start done) current with
        interface := (run runIteration start done).interface } := reached
    subst loop
    refine ⟨?_, rfl⟩
    rw [AggregatorThread.shown, if_pos rfl, run_append]
    rfl

end Advance
end Netmon.Aggregator
