import Netmon.Aggregator.AskingThread
import Netmon.Gui.PipelineSnapshots

/-! The whole program with its resolver: the app, the capture threads, and an aggregator
thread that makes a resolver and puts its questions to it. A call of the resolver may also
panic or never return. -/
namespace Netmon.Gui
open Library Capture Resolver Aggregator

structure System where
  pipeline : Pipeline
  /-- None until the aggregator has made it. -/
  resolver : Option ResolverCache
  /-- Why a call of the resolver has not returned. -/
  halted : Option Halt

inductive SystemAction where
  | operate (operation : Operation)
  | capture (session : Nat) (answer : Answer)
  | aggregate (around : Surroundings)
  | drop

namespace System

def launch (devices : List Text) (start : LoopState) : System := ⟨.new devices start, none, none⟩

section Actions
variable (system : System)

def answer (around : Surroundings) : Except Halt (Findings × Option ResolverCache) :=
  around.answer system.pipeline.appRunning system.pipeline.flow.front? system.pipeline.aggregator system.resolver

/-- A thread that panics lets go of the receiving end of the channel, one that waits for ever keeps it. -/
def halt (halt : Halt) : System :=
  match halt with
  | .panic panic =>
    { system with
      pipeline := { system.pipeline with monitor := { system.pipeline.monitor with receiving := false } }
      halted := some (.panic panic) }
  | halt => { system with halted := some halt }

def aggregate (around : Surroundings) : System :=
  match system.halted, system.answer around with
  | some _, _ => system
  | none, .ok (found, resolver) => { system with pipeline := system.pipeline.aggregate found, resolver }
  | none, .error halt => system.halt halt

def step : SystemAction → System
  | .operate operation => { system with pipeline := system.pipeline.step (.operate operation) }
  | .capture session answer => { system with pipeline := system.pipeline.step (.work (.capture session answer)) }
  | .aggregate around => system.aggregate around
  | .drop => { system with pipeline := system.pipeline.step .drop }

/-- The action with its answers, if they came. -/
def events : SystemAction → List PipelineEvent
  | .operate operation => [.operate operation]
  | .capture session answer => [.work (.capture session answer)]
  | .aggregate around =>
    match system.halted, system.answer around with
    | none, .ok (found, _) => [.work (.aggregate found)]
    | _, _ => []
  | .drop => [.drop]

/-- Packets that are read and parsed to a record, of which session. -/
def captured (action : SystemAction) : List (Nat × Delivery) :=
  observed Pipeline.step Pipeline.captured system.pipeline (system.events action)

/-- Packets whose records get into the channel. -/
def delivered (action : SystemAction) : List (Nat × Delivery) :=
  observed Pipeline.step Pipeline.delivered system.pipeline (system.events action)

def received (action : SystemAction) : List FlowRecord :=
  observed Pipeline.step Pipeline.received system.pipeline (system.events action)

end Actions

section Returning
variable {system : System}

theorem returned_before {action : SystemAction} (returned : (system.step action).halted = none) : system.halted = none := by
  cases halted : system.halted with
  | none => rfl
  | some halt =>
    have same : (system.step action).halted = some halt := by
      cases action with
      | operate operation => exact halted
      | capture session answer => exact halted
      | drop => exact halted
      | aggregate around => simp only [step, aggregate, halted]
    rw [same] at returned
    cases returned

theorem step_pipeline {action : SystemAction} (returned : (system.step action).halted = none) :
    (system.step action).pipeline = run Pipeline.step system.pipeline (system.events action) := by
  have before := returned_before returned
  cases action with
  | operate operation => rfl
  | capture session answer => rfl
  | drop => rfl
  | aggregate around =>
    cases answered : system.answer around with
    | ok answers => simp only [step, aggregate, events, before, answered, run_cons, run_nil, Pipeline.step, Pipeline.work]
    | error halt =>
      simp only [step, aggregate, before, answered] at returned
      cases halt with
      | error error => cases returned
      | panic panic => cases returned
      | blocked => cases returned

/-- Where every call of the resolver has returned, the app and the threads have run as with the answers that it gave. -/
theorem run_pipeline (start : System) (actions : List SystemAction) (returned : (run step start actions).halted = none) :
    (run step start actions).pipeline = run Pipeline.step start.pipeline (observed step events start actions) := by
  induction actions using List.reverseRecOn with
  | nil => rfl
  | append_singleton actions action ih =>
    rw [run_append] at returned
    rw [run_append, observed_append, run_append, ← ih (returned_before returned), run_cons, run_nil,
      step_pipeline returned]
    simp only [observed, List.append_nil]

/-- What is seen of them is seen of the pipeline. -/
theorem run_seen {ω : Type} (observe : Pipeline → PipelineEvent → List ω) (start : System) (actions : List SystemAction)
    (returned : (run step start actions).halted = none) :
    observed Pipeline.step observe start.pipeline (observed step events start actions) =
      observed step (fun system action => observed Pipeline.step observe system.pipeline (system.events action)) start
        actions := by
  induction actions using List.reverseRecOn with
  | nil => rfl
  | append_singleton actions action ih =>
    rw [run_append] at returned
    have before := returned_before returned
    rw [observed_append, observed_append, observed_append, ih before, ← run_pipeline start actions before]
    simp only [observed, List.append_nil]

end Returning

end System

def SystemAction.OnHost (host : Host) (created : Int) : SystemAction → Prop
  | .aggregate around => around.OnHost host created
  | _ => True

namespace System

/-- No call has failed, and the aggregator is where iterations with the host's answers have brought it. -/
structure Attuned (host : Host) (created : Int) (start : LoopState) (records : List FlowRecord)
    (done : List Iteration) (current : Iteration) (system : System) : Prop where
  returned : system.halted = none
  ready : ∀ cache, system.resolver = some cache → Ready host created cache
  made : system.resolver = none → system.pipeline.aggregator.phase = .spawned
  reached : system.pipeline.aggregator.Reached start done current
  tally : (system.pipeline.aggregator.begun done current).flatMap Iteration.records = records
  answered : ∀ iteration ∈ system.pipeline.aggregator.begun done current, iteration.OnHost host

section Attuned
variable {host : Host} {created : Int} {start : LoopState} {records : List FlowRecord}
  {done : List Iteration} {current : Iteration} {system : System}

theorem Attuned.others (attuned : Attuned host created start records done current system)
    {event : PipelineEvent} (other : ∀ found, event ≠ .work (.aggregate found)) :
    (system.pipeline.step event).aggregator = system.pipeline.aggregator ∧
      Attuned host created start (records ++ system.pipeline.received event) done current
        { system with pipeline := system.pipeline.step event } := by
  obtain ⟨found, same⟩ | ⟨kept, nothing⟩ := system.pipeline.step_aggregator event
  · exact absurd same (other found)
  · rw [nothing, List.append_nil]
    refine ⟨kept, attuned.returned, attuned.ready, ?_, ?_, ?_, ?_⟩
    · rw [kept]
      exact attuned.made
    · rw [kept]
      exact attuned.reached
    · rw [kept]
      exact attuned.tally
    · rw [kept]
      exact attuned.answered

theorem Attuned.aggregate (attuned : Attuned host created start records done current system)
    {around : Surroundings} (seen : around.OnHost host created) (cached : RowsOf host start.connectionCache)
    (clear : ∀ record ∈ system.pipeline.flow.queue, Clear host record.key) :
    ∃ found done' current', found.resolver = .ok () ∧ system.events (.aggregate around) = [.work (.aggregate found)] ∧
      (system.aggregate around).pipeline = system.pipeline.aggregate found ∧
      Attuned host created start (records ++ system.pipeline.received (.work (.aggregate found))) done' current'
        (system.aggregate around) ∧
      system.pipeline.aggregator.shown done current <+: (system.aggregate around).pipeline.aggregator.shown done' current' := by
  have front : ∀ record, system.pipeline.flow.front? = some record → Clear host record.key := by
    intro record waiting
    apply clear
    rw [Channel.front?_rest waiting]
    exact List.mem_cons_self ..
  obtain ⟨found, cache, answered, ⟨made, satisfied⟩, ready⟩ := Surroundings.answer_answered seen
    (Surroundings.reached_cached attuned.reached attuned.answered cached) front attuned.ready attuned.made
  have answer : system.answer around = .ok (found, some cache) := answered
  have stepped : system.aggregate around =
      { system with pipeline := system.pipeline.aggregate found, resolver := some cache } := by
    simp only [System.aggregate, attuned.returned, answer]
  obtain ⟨done', current', after, tally, _, longer, kept⟩ := advance_reached
    (fun flow answer => answer = holderOf host flow) (RowsOf host) attuned.reached
  rw [stepped]
  refine ⟨found, done', current', made, ?_, rfl, ⟨attuned.returned, ?_, ?_, after, ?_, kept satisfied attuned.answered⟩,
    longer⟩
  · simp only [events, attuned.returned, answer]
  · intro other same
    cases same
    exact ready
  · intro none
    cases none
  · rw [← attuned.tally]
    exact tally

/-- An action keeps the system attuned to the host, and takes no snapshot back. -/
theorem Attuned.step (attuned : Attuned host created start records done current system) {action : SystemAction}
    (seen : action.OnHost host created) (cached : RowsOf host start.connectionCache)
    (clear : ∀ record ∈ system.pipeline.flow.queue, Clear host record.key) : ∃ done' current',
    Attuned host created start (records ++ system.received action) done' current' (system.step action) ∧
      system.pipeline.aggregator.shown done current <+: (system.step action).pipeline.aggregator.shown done' current' := by
  have others {event : PipelineEvent} (other : ∀ found, event ≠ .work (.aggregate found)) : ∃ done' current',
      Attuned host created start (records ++ (system.pipeline.received event ++ [])) done' current'
        { system with pipeline := system.pipeline.step event } ∧
      system.pipeline.aggregator.shown done current <+:
        (system.pipeline.step event).aggregator.shown done' current' := by
    obtain ⟨kept, after⟩ := attuned.others other
    rw [List.append_nil, kept]
    exact ⟨done, current, after, List.prefix_rfl⟩
  unfold received
  cases action with
  | operate operation => exact others fun found same => by cases same
  | capture session answer => exact others fun found same => by cases same
  | drop => exact others fun found same => by cases same
  | aggregate around =>
    obtain ⟨found, done', current', _, answered, _, after, longer⟩ := attuned.aggregate seen cached clear
    rw [answered, observed, observed, List.append_nil]
    exact ⟨done', current', after, longer⟩

theorem run_queue (devices : List Text) (start : LoopState) (actions : List SystemAction)
    (returned : (run step (launch devices start) actions).halted = none) :
    (observed step delivered (launch devices start) actions).map (·.2.record) =
      observed step received (launch devices start) actions ++ (run step (launch devices start) actions).pipeline.flow.queue := by
  have sent := run_seen Pipeline.delivered (launch devices start) actions returned
  have taken := run_seen Pipeline.received (launch devices start) actions returned
  have queue := Pipeline.run_delivered devices start (observed step events (launch devices start) actions)
  rw [run_pipeline _ _ returned]
  unfold delivered received
  rw [← sent, ← taken]
  exact queue

theorem queued_clear (devices : List Text) (actions : List SystemAction)
    (returned : (run step (launch devices start) actions).halted = none)
    (clear : ∀ sent ∈ observed step delivered (launch devices start) actions, Clear host sent.2.record.key) :
    ∀ record ∈ (run step (launch devices start) actions).pipeline.flow.queue, Clear host record.key := by
  intro record queued
  have sent : record ∈ (observed step delivered (launch devices start) actions).map (·.2.record) := by
    rw [run_queue devices start actions returned]
    exact List.mem_append_right _ queued
  obtain ⟨delivery, among, rfl⟩ := List.mem_map.mp sent
  exact clear delivery among

/-- While the host stays as it is no call fails, and every iteration has the host's answers to the records that it
receives. -/
theorem run_attuned (devices : List Text) (actions : List SystemAction)
    (seen : ∀ action ∈ actions, action.OnHost host created) (cached : RowsOf host start.connectionCache)
    (clear : ∀ sent ∈ observed step delivered (launch devices start) actions, Clear host sent.2.record.key) :
    ∃ done current, Attuned host created start (observed step received (launch devices start) actions) done current
      (run step (launch devices start) actions) := by
  induction actions using List.reverseRecOn with
  | nil =>
    refine ⟨[], .atTime 0 [], rfl, ?_, fun _ => rfl, ⟨rfl, rfl⟩, rfl, List.forall_mem_nil _⟩
    intro cache none
    cases none
  | append_singleton actions action ih =>
    obtain ⟨earlier, last⟩ := List.forall_mem_append.mp seen
    rw [observed_append] at clear
    obtain ⟨before, _⟩ := List.forall_mem_append.mp clear
    obtain ⟨done, current, attuned⟩ := ih earlier before
    have queued := queued_clear devices actions attuned.returned before
    obtain ⟨done', current', after, _⟩ := attuned.step (last action (List.mem_singleton.mpr rfl)) cached queued
    rw [observed_append, run_append, observed, observed, List.append_nil]
    exact ⟨done', current', after⟩

end Attuned
end System
end Netmon.Gui
