import Netmon.Aggregator.HostTraffic

/-! The aggregator thread one action at a time, with the resolver that it makes and then asks. -/
namespace Netmon.Aggregator
open Library Capture Resolver

/-- What an action finds outside, the answers still to come from the resolver. -/
structure Surroundings where
  passwd : Except Text (List (Option Text))
  created : Int
  /-- What the question for the owner of a record finds, and the clock while the record is applied. -/
  owning : Outside
  order : HashMap.Iteration Nat SocketEntry
  now : Instant
  connectionNow : Instant
  refreshing : Outside
  listing : Outside
  exitWalk : HashMap.Iteration ThreadKey ThreadStats
  exiting : ThreadKey → Outside
  exitOrder : ThreadKey → HashMap.Iteration Nat ProcessInfo
  /-- All else that an iteration finds. -/
  frame : Iteration

namespace Surroundings
section Asking
variable (around : Surroundings) (running : Bool) (front : Option FlowRecord) (thread : AggregatorThread)

def turn : Turn where
  frame := around.frame
  refreshing := around.refreshing
  listing := around.listing
  received := []
  exitWalk := around.exitWalk
  exiting := around.exiting
  exitOrder := around.exitOrder

/-- What an action finds that asks for nothing. -/
def found : Findings := ⟨.ok (), none, around.now, around.connectionNow, around.frame⟩

/-- The questions of the next action. -/
def ask : Resolving Findings :=
  match thread.phase, front with
  | .looping, _ =>
    if running then do
      let connections ← around.turn.askConnections thread.loop
      return { around.found with iteration := { around.frame with connections } }
    else return around.found
  | .draining, some record => do
    let arrival ← Turn.askOwner ⟨record, around.owning, around.order, around.now, around.connectionNow⟩
    return { around.found with resolved := arrival.resolved }
  | .maintaining, _ => do
    let exits ← (around.exitWalk.keys thread.loop.state.statsByThread).mapM around.turn.askExit
    return { around.found with iteration := { around.frame with resolves := fun key => (exits.lookup key).getD true } }
  | _, _ => return around.found

/-- What the next action finds, and the resolver after it. The first action makes the resolver. -/
def answer (resolver : Option ResolverCache) : Except Halt (Findings × Option ResolverCache) :=
  match thread.phase, resolver with
  | .spawned, _ =>
    match ResolverCache.new around.passwd around.created with
    | .ok cache => .ok (around.found, some cache)
    | .error error => .ok ({ around.found with resolver := .error error.display }, none)
  | _, none => .ok (around.found, none)
  | _, some cache =>
    match around.ask running front thread cache with
    | .ok found next => .ok (found, some next)
    | .error halt _ => .error halt

end Asking

structure OnHost (host : Host) (created : Int) (around : Surroundings) : Prop where
  passwd : around.passwd = .ok ((lines (passwdText host.passwd)).map some)
  made : around.created = created
  owning : Finds host created around.owning
  refreshing : Finds host created around.refreshing
  listing : Finds host created around.listing
  exiting : ∀ key, Finds host created (around.exiting key)

/-- The answers are those of the host. -/
def Answered (host : Host) (running : Bool) (front : Option FlowRecord) (phase : AggregatorPhase)
    (found : Findings) : Prop :=
  found.Satisfies (fun flow answer => answer = holderOf host flow) (RowsOf host) running front phase

section OnHost
variable {host : Host} {created : Int} {around : Surroundings} {running : Bool}
  {front : Option FlowRecord} {thread : AggregatorThread}

theorem OnHost.turn (seen : around.OnHost host created) : around.turn.OnHost host created :=
  ⟨seen.refreshing, seen.listing, List.forall_mem_nil _, seen.exiting⟩

theorem ask_answered (seen : around.OnHost host created) (cached : RowsOf host thread.loop.connectionCache)
    (clear : ∀ record, front = some record → Clear host record.key) :
    Triple (Ready host created) (around.ask running front thread)
      (fun found cache => (found.resolver = .ok () ∧ Answered host running front thread.phase found) ∧
        Ready host created cache) (fun _ _ => False) := by
  have silent (phase : AggregatorPhase) (nothing : Answered host running front phase around.found) :
      Triple (Ready host created) (pure around.found : Resolving Findings)
        (fun found cache => (found.resolver = .ok () ∧ Answered host running front phase found) ∧
          Ready host created cache) (fun _ _ => False) := Triple.pure _ fun _ ready => ⟨⟨rfl, nothing⟩, ready⟩
  obtain ⟨phase, loop⟩ := thread
  cases phase with
  | looping =>
    cases running with
    | true =>
      refine Triple.bind (askConnections_ready seen.turn cached) fun connections => ?_
      intro cache listed
      exact ⟨⟨rfl, fun _ => listed.1⟩, listed.2⟩
    | false => exact silent .looping fun running => by cases running
  | draining =>
    cases front with
    | none => exact silent .draining trivial
    | some record =>
      refine Triple.bind (askOwner_ready seen.owning (clear record rfl)) fun arrival => ?_
      intro cache owned
      obtain ⟨⟨same, resolved⟩, ready⟩ := owned
      have asked : arrival.record.key = record.key := congrArg FlowRecord.key same
      rw [asked] at resolved
      exact ⟨⟨rfl, resolved⟩, ready⟩
  | maintaining =>
    refine Triple.bind (Triple.mapM _ fun key _ => askExit_ready seen.turn key) fun exits => ?_
    intro cache exited
    exact ⟨⟨rfl, trivial⟩, exited.2⟩
  | spawned => exact silent .spawned trivial
  | publishing => exact silent .publishing trivial
  | exited => exact silent .exited trivial

theorem answer_some {cache : ResolverCache} (going : thread.phase ≠ .spawned) :
    around.answer running front thread (some cache) =
      match around.ask running front thread cache with
      | .ok found next => .ok (found, some next)
      | .error halt _ => .error halt := by
  obtain ⟨phase, loop⟩ := thread
  cases phase with
  | spawned => exact absurd rfl going
  | looping | draining | maintaining | publishing | exited => rfl

/-- Every action gets its answers, and has a resolver from then on. -/
theorem answer_answered {resolver : Option ResolverCache} (seen : around.OnHost host created)
    (cached : RowsOf host thread.loop.connectionCache)
    (clear : ∀ record, front = some record → Clear host record.key)
    (ready : ∀ cache, resolver = some cache → Ready host created cache)
    (made : resolver = none → thread.phase = .spawned) :
    ∃ found cache, around.answer running front thread resolver = .ok (found, some cache) ∧
      (found.resolver = .ok () ∧ Answered host running front thread.phase found) ∧
      Ready host created cache := by
  by_cases first : thread.phase = .spawned
  · refine ⟨around.found, .empty host.uidMap created, ?_, ⟨rfl, ?_⟩, new_ready host created⟩
    · simp only [answer, first]
      rw [seen.passwd, seen.made, new_passwd]
    · rw [first]
      trivial
  · cases resolver with
    | none => exact absurd (made rfl) first
    | some cache =>
      have asked := @ask_answered _ _ _ running _ _ seen cached clear cache (ready cache rfl)
      rw [answer_some first]
      cases result : around.ask running front thread cache with
      | error halt next =>
        rw [result] at asked
        exact asked.elim
      | ok found next =>
        rw [result] at asked
        exact ⟨found, next, rfl, asked⟩

/-- The connections that the thread has cached are rows of the host. -/
theorem reached_cached {start : LoopState} {done : List Iteration} {current : Iteration}
    (reached : thread.Reached start done current)
    (answered : ∀ iteration ∈ thread.begun done current, iteration.OnHost host)
    (cached : RowsOf host start.connectionCache) : RowsOf host thread.loop.connectionCache := by
  obtain ⟨phase, loop⟩ := thread
  cases phase with
  | spawned =>
    obtain ⟨_, rfl⟩ : done = [] ∧ loop = start := reached
    exact cached
  | looping | exited =>
    have loop : loop = run runIteration start done := reached
    rw [loop]
    exact (credits_loop answered cached).2
  | draining | maintaining =>
    have loop : loop = current.drained (run runIteration start done) := reached
    obtain ⟨earlier, last⟩ := satisfies_last answered
    rw [loop]
    exact refreshed_rowsOf last (credits_loop earlier cached).2
  | publishing =>
    have loop : loop = { runIteration (run runIteration start done) current with
        interface := (run runIteration start done).interface } := reached
    obtain ⟨earlier, last⟩ := satisfies_last answered
    rw [loop]
    exact refreshed_rowsOf last (credits_loop earlier cached).2

end OnHost
end Surroundings
end Netmon.Aggregator
