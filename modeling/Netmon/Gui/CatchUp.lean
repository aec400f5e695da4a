import Netmon.Gui.Wire

/-! The process table catches up. While the app runs and nothing more is sent, a few more
actions of the aggregator than there are records in the channel bring every packet into the rows. -/
namespace Netmon.Gui
open Library Capture Resolver Aggregator
namespace Pipeline

/-- Actions of the aggregator before its rows count all that is queued. -/
def behind (phase : AggregatorPhase) (queued : Nat) : Nat :=
  match phase with
  | .draining => queued + 2
  | .maintaining => if queued = 0 then 1 else queued + 5
  | .spawned | .publishing => if queued = 0 then 0 else queued + 4
  | .looping => if queued = 0 then 0 else queued + 3
  | .exited => 0

def lag (pipeline : Pipeline) : Nat := behind pipeline.aggregator.phase pipeline.flow.queue.length

/-- The app has not been dropped, and the aggregator has not ended. -/
structure Lively (pipeline : Pipeline) : Prop where
  running : pipeline.appRunning = true
  going : pipeline.aggregator.phase ≠ .exited

theorem behind_le (phase : AggregatorPhase) (queued : Nat) : behind phase queued ≤ queued + 5 := by
  cases phase with
  | draining => exact Nat.add_le_add_left (by omega) queued
  | exited => exact Nat.zero_le _
  | spawned | looping | maintaining | publishing =>
    simp only [behind]
    split <;> omega

section Step
variable {thread : AggregatorThread} {found : Findings} {queue : List FlowRecord} {pipeline : Pipeline}

/-- While the rows are behind, an action of the aggregator brings them nearer. -/
theorem advance_behind (going : thread.phase ≠ .exited) (made : found.resolver = .ok ()) :
    let next := thread.advance true queue.head? found
    next.1.phase ≠ .exited ∧ (behind thread.phase queue.length ≠ 0 →
      behind next.1.phase (if next.2.received = [] then queue else queue.tail).length < behind thread.phase queue.length) := by
  obtain ⟨phase, loop⟩ := thread
  cases queue with
  | nil =>
    cases phase with
    | exited => exact absurd rfl going
    | spawned | looping | draining | maintaining | publishing =>
      simp [AggregatorThread.advance, AggregatorTrace.silent, made, behind]
  | cons record rest =>
    cases phase with
    | exited => exact absurd rfl going
    | spawned | looping | draining | maintaining | publishing =>
      simp [AggregatorThread.advance, AggregatorTrace.silent, made, behind]

theorem aggregate_lag (lively : pipeline.Lively) (made : found.resolver = .ok ()) :
    (pipeline.aggregate found).Lively ∧ (pipeline.lag ≠ 0 → (pipeline.aggregate found).lag < pipeline.lag) := by
  obtain ⟨running, going⟩ := lively
  have next := @advance_behind _ _ pipeline.flow.queue going made
  have flow : (pipeline.aggregate found).flow.queue =
      if (pipeline.aggregator.advance pipeline.appRunning pipeline.flow.front? found).2.received = [] then
        pipeline.flow.queue
      else pipeline.flow.queue.tail := by
    unfold aggregate
    simp only
    split <;> rfl
  rw [running] at flow
  unfold lag
  rw [flow]
  have phase : (pipeline.aggregate found).aggregator.phase =
      (pipeline.aggregator.advance true pipeline.flow.queue.head? found).1.phase := by
    unfold aggregate
    rw [running]
    rfl
  rw [phase]
  exact ⟨⟨running, by rw [phase]; exact next.1⟩, next.2⟩

theorem step_appRunning (pipeline : Pipeline) (event : PipelineEvent) (stays : event ≠ .drop) :
    (pipeline.step event).appRunning = pipeline.appRunning := by
  cases event with
  | operate operation =>
    unfold step
    simp only
    split <;> rfl
  | drop => exact absurd rfl stays
  | work turn =>
    cases turn with
    | aggregate found => rfl
    | capture session answer =>
      unfold step work capture
      simp only
      split <;> rfl

theorem Lively.others (lively : pipeline.Lively) (event : PipelineEvent)
    (other : ∀ found, event ≠ .work (.aggregate found)) (stays : event ≠ .drop) : (pipeline.step event).Lively := by
  obtain ⟨found, same⟩ | ⟨kept, _⟩ := pipeline.step_aggregator event
  · exact absurd same (other found)
  · refine ⟨(pipeline.step_appRunning event stays).trans lively.running, ?_⟩
    rw [kept]
    exact lively.going

end Step
end Pipeline

def SystemAction.aggregates : SystemAction → Bool
  | .aggregate _ => true
  | _ => false

namespace System

section Action
variable {system : System} {action : SystemAction}

theorem step_queue (returned : (system.step action).halted = none) :
    system.pipeline.flow.queue ++ (system.delivered action).map (·.2.record) =
      system.received action ++ (system.step action).pipeline.flow.queue := by
  rw [step_pipeline returned, delivered, received, observed_map]
  exact Library.run_fifo Pipeline.step_fifo system.pipeline (system.events action)

theorem step_others (other : action.aggregates = false) :
    (system.step action).pipeline.aggregator = system.pipeline.aggregator ∧ system.received action = [] := by
  have same {event : PipelineEvent} (different : ∀ found, event ≠ .work (.aggregate found)) :
      (system.pipeline.step event).aggregator = system.pipeline.aggregator ∧ system.pipeline.received event ++ [] = [] := by
    obtain ⟨found, equal⟩ | ⟨kept, nothing⟩ := system.pipeline.step_aggregator event
    · exact absurd equal (different found)
    · exact ⟨kept, by rw [nothing, List.append_nil]⟩
  cases action with
  | operate operation => exact same fun found equal => by cases equal
  | capture session answer => exact same fun found equal => by cases equal
  | drop => exact same fun found equal => by cases equal
  | aggregate around => cases other

variable {host : Host} {created : Int} {start : LoopState} {records : List FlowRecord}
  {done : List Iteration} {current : Iteration}

theorem Attuned.lively (attuned : Attuned host created start records done current system)
    (seen : action.OnHost host created) (cached : RowsOf host start.connectionCache)
    (clear : ∀ record ∈ system.pipeline.flow.queue, Clear host record.key) (stays : action ≠ .drop)
    (lively : system.pipeline.Lively) : (system.step action).pipeline.Lively ∧
      (action.aggregates = true → system.pipeline.lag ≠ 0 → (system.step action).pipeline.lag < system.pipeline.lag) := by
  cases action with
  | operate operation =>
    refine ⟨lively.others (.operate operation) ?_ ?_, ?_⟩
    · intro found same
      cases same
    · intro same
      cases same
    · intro kind
      cases kind
  | capture session answer =>
    refine ⟨lively.others (.work (.capture session answer)) ?_ ?_, ?_⟩
    · intro found same
      cases same
    · intro same
      cases same
    · intro kind
      cases kind
  | drop => exact absurd rfl stays
  | aggregate around =>
    obtain ⟨found, _, _, made, _, same, _⟩ := attuned.aggregate seen cached clear
    have later : (system.step (.aggregate around)).pipeline = system.pipeline.aggregate found := same
    obtain ⟨still, nearer⟩ := Pipeline.aggregate_lag lively made
    rw [later]
    exact ⟨still, fun _ => nearer⟩

/-- The rows count all that has been sent. -/
def Settled (done : List Iteration) (current : Iteration) (records : List FlowRecord) (system : System) : Prop :=
  system.pipeline.flow.queue = [] ∧
    (system.pipeline.aggregator.shown done current).flatMap Iteration.records = records

theorem Attuned.settled (attuned : Attuned host created start records done current system)
    (lively : system.pipeline.Lively) (level : system.pipeline.lag = 0) : Settled done current records system := by
  have tally := attuned.tally
  have going := lively.going
  unfold Pipeline.lag Pipeline.behind at level
  unfold Settled AggregatorThread.shown
  unfold AggregatorThread.begun at tally
  cases phase : system.pipeline.aggregator.phase with
  | exited => exact absurd phase going
  | draining =>
    simp only [phase] at level
    omega
  | maintaining =>
    simp only [phase] at level
    split at level <;> omega
  | spawned | looping | publishing =>
    simp only [phase] at level tally
    refine ⟨?_, ?_⟩
    · split at level
      · exact List.eq_nil_of_length_eq_zero ‹_›
      · omega
    · simpa using tally

/-- With nothing in the channel and nothing sent the rows go on counting all. -/
theorem Settled.step (settled : Settled done current records system) {done' : List Iteration} {current' : Iteration}
    (after : Attuned host created start (records ++ system.received action) done' current' (system.step action))
    (longer : system.pipeline.aggregator.shown done current <+:
      (system.step action).pipeline.aggregator.shown done' current')
    (quiet : system.delivered action = []) : Settled done' current' (records ++ system.received action) (system.step action) := by
  obtain ⟨empty, counted⟩ := settled
  have queue := step_queue after.returned
  rw [empty, quiet] at queue
  obtain ⟨nothing, still⟩ := List.append_eq_nil_iff.mp queue.symm
  refine ⟨still, ?_⟩
  obtain ⟨begins, _, _⟩ := Pipeline.begun_shown (system.step action).pipeline.aggregator done' current'
  have upper := Pipeline.flatMap_prefix Iteration.records begins
  have lower := Pipeline.flatMap_prefix Iteration.records longer
  rw [after.tally, nothing, List.append_nil] at upper
  rw [counted] at lower
  rw [nothing, List.append_nil]
  exact upper.eq_of_length_le lower.length_le

theorem Attuned.settles (attuned : Attuned host created start records done current system)
    (lively : system.pipeline.Lively) (cached : RowsOf host start.connectionCache) {later : List SystemAction}
    (seen : ∀ action ∈ later, action.OnHost host created) (stays : ∀ action ∈ later, action ≠ .drop)
    (clear : ∀ record ∈ system.pipeline.flow.queue, Clear host record.key)
    (quiet : observed System.step delivered system later = [])
    (enough : Settled done current records system ∨ system.pipeline.lag ≤ later.countP SystemAction.aggregates) :
    ∃ done' current',
      Attuned host created start (records ++ system.pipeline.flow.queue) done' current'
        (run System.step system later) ∧
      ((run System.step system later).pipeline.aggregator.shown done' current').flatMap Iteration.records =
        records ++ system.pipeline.flow.queue := by
  induction later generalizing system records done current with
  | nil =>
    have settled : Settled done current records system := by
      obtain settled | level := enough
      · exact settled
      · exact attuned.settled lively (Nat.le_zero.mp level)
    obtain ⟨empty, counted⟩ := settled
    rw [empty, List.append_nil]
    exact ⟨done, current, attuned, counted⟩
  | cons action later ih =>
    obtain ⟨first, others⟩ := List.forall_mem_cons.mp seen
    obtain ⟨stay, opens⟩ := List.forall_mem_cons.mp stays
    obtain ⟨silent, silence⟩ := List.append_eq_nil_iff.mp quiet
    obtain ⟨done', current', after, longer⟩ := attuned.step first cached clear
    obtain ⟨still, nearer⟩ := attuned.lively first cached clear stay lively
    have queue := step_queue after.returned
    rw [silent, List.map_nil, List.append_nil] at queue
    have next : Settled done' current' (records ++ system.received action) (system.step action) ∨
        (system.step action).pipeline.lag ≤ later.countP SystemAction.aggregates := by
      by_cases level : system.pipeline.lag = 0
      · exact Or.inl ((attuned.settled lively level).step after longer silent)
      obtain settled | budget := enough
      · exact Or.inl (settled.step after longer silent)
      · rw [List.countP_cons] at budget
        cases kind : action.aggregates with
        | true =>
          have fallen := nearer kind level
          rw [kind] at budget
          simp only [if_true] at budget
          exact Or.inr (by omega)
        | false =>
          obtain ⟨kept, nothing⟩ := @step_others system action kind
          rw [nothing, List.nil_append] at queue
          rw [kind] at budget
          refine Or.inr ?_
          unfold Pipeline.lag at budget ⊢
          rw [kept, ← queue]
          simpa using budget
    have fewer : ∀ record ∈ (system.step action).pipeline.flow.queue, Clear host record.key := by
      intro record queued
      apply clear
      rw [queue]
      exact List.mem_append_right _ queued
    obtain ⟨final, last, ended, counted⟩ := ih after still others opens fewer silence next
    rw [List.append_assoc, ← queue] at ended counted
    exact ⟨final, last, ended, counted⟩

theorem run_lively (devices : List Text) (actions : List SystemAction)
    (seen : ∀ action ∈ actions, action.OnHost host created) (stays : ∀ action ∈ actions, action ≠ .drop)
    (cached : RowsOf host start.connectionCache)
    (clear : ∀ sent ∈ observed System.step delivered (launch devices start) actions, Clear host sent.2.record.key) :
    (run System.step (launch devices start) actions).pipeline.Lively := by
  induction actions using List.reverseRecOn with
  | nil => exact ⟨rfl, fun same => by cases same⟩
  | append_singleton actions action ih =>
    obtain ⟨earlier, last⟩ := List.forall_mem_append.mp seen
    obtain ⟨opened, opens⟩ := List.forall_mem_append.mp stays
    rw [observed_append] at clear
    obtain ⟨before, _⟩ := List.forall_mem_append.mp clear
    obtain ⟨done, current, attuned⟩ := run_attuned devices actions earlier cached before
    have queued := queued_clear devices actions attuned.returned before
    rw [run_append]
    exact (attuned.lively (last action (List.mem_singleton.mpr rfl)) cached queued
      (opens action (List.mem_singleton.mpr rfl)) (ih earlier opened before)).1

end Action

/-- While the app is open and nothing more is sent, as many actions of the aggregator as there are records in the channel,
and five more, bring every packet that was sent into the rows, whatever the others do meanwhile. -/
theorem rows_catch_up (devices : List Text) (host : Host) (created : Int) (now : Instant) (scanNow : Int)
    (historyCsv : Option Text) (actions later : List SystemAction)
    (seen : ∀ action ∈ actions ++ later, action.OnHost host created)
    (stays : ∀ action ∈ actions ++ later, action ≠ .drop)
    (quiet : observed step delivered (run step (launch devices (.start now scanNow historyCsv)) actions) later = [])
    (enough : (run step (launch devices (.start now scanNow historyCsv)) actions).pipeline.flow.queue.length + 5 ≤
      later.countP SystemAction.aggregates)
    (clear : ∀ delivery ∈ sent devices (.start now scanNow historyCsv) actions, Clear host delivery.record.key)
    (small : ((sent devices (.start now scanNow historyCsv) actions).map fun delivery => delivery.packetLen.toNat).sum < 2^64) :
    let start := LoopState.start now scanNow historyCsv
    let system := run step (launch devices start) (actions ++ later)
    ∃ done current, system.pipeline.aggregator.Reached start done current ∧
      let iterations := system.pipeline.aggregator.shown done current
      iterations.flatMap Iteration.records = (sent devices start actions).map Delivery.record ∧
      CountedBy host now scanNow historyCsv iterations (sent devices start actions) system.pipeline.aggregator.loop.rows := by
  intro start system
  obtain ⟨earlier, afterwards⟩ := List.forall_mem_append.mp seen
  obtain ⟨opened, opens⟩ := List.forall_mem_append.mp stays
  have cached : RowsOf host start.connectionCache := List.forall_mem_nil _
  have each : ∀ pair ∈ observed step delivered (launch devices start) actions, Clear host pair.2.record.key :=
    fun pair member => clear pair.2 (List.mem_map_of_mem member)
  obtain ⟨done, current, attuned⟩ := run_attuned devices actions earlier cached each
  have lively := run_lively devices actions earlier opened cached each
  have queued := queued_clear devices actions attuned.returned each
  have budget : (run step (launch devices start) actions).pipeline.lag ≤ later.countP SystemAction.aggregates :=
    Nat.le_trans (Pipeline.behind_le _ _) enough
  obtain ⟨done', current', ended, counted⟩ :=
    attuned.settles lively cached afterwards opens queued quiet (Or.inr budget)
  rw [← run_append, ← sent_queue attuned.returned] at counted
  rw [← run_append] at ended
  exact ⟨done', current', ended.reached, counted, ended.counts counted (sent_accepted attuned.returned) small⟩

theorem dnsActions_stay : ∀ action ∈ dnsActions, action ≠ .drop := by
  intro action member dropped
  subst dropped
  obtain captures | aggregates := List.mem_append.mp member
  · obtain first | later := List.mem_cons.mp captures
    · cases first
    · cases List.eq_of_mem_replicate later
  · cases List.eq_of_mem_replicate aggregates

/-- The question is counted after one iteration of the aggregator. -/
theorem rows_catch_up_dns :
    let rows := (run step (launch ["eth0".toList] (.start 0 0 none)) dnsActions).pipeline.aggregator.loop.rows
    ∃ dropped, shownBytes ⟨7, 8⟩ rows + dropped = 60 := by
  have question : sent ["eth0".toList] (.start 0 0 none) dnsCaptures = [dnsDelivery] :=
    congrArg (List.map Prod.snd) dnsCaptures_delivered
  have one : (run step (launch ["eth0".toList] (.start 0 0 none)) dnsCaptures).pipeline.flow.queue.length = 1 := by
    decide +kernel
  have clear : ∀ delivery ∈ sent ["eth0".toList] (.start 0 0 none) dnsCaptures, Clear sampleHost delivery.record.key := by
    rw [question]
    exact List.forall_mem_singleton.mpr dnsDelivery_clear
  obtain ⟨_, _, _, _, counts⟩ :=
    rows_catch_up ["eth0".toList] sampleHost 0 0 0 none dnsCaptures (List.replicate 6 (.aggregate dnsAround))
      dnsActions_onHost dnsActions_stay (delivered_aggregates _ dnsAround 6) (by rw [one]; decide) clear
      (by rw [question]; decide)
  have shown := counts.totals ⟨7, 8⟩
  rw [question, dnsDelivery_bytes, ← dnsActions] at shown
  exact ⟨_, shown⟩

end System
end Netmon.Gui
