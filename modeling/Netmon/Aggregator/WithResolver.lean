import Netmon.Aggregator.Thread
import Netmon.Resolver.Cache

/-! The aggregator with the resolver that it asks: the answers of an iteration are those of
one resolver, whose cache goes from call to call and from iteration to iteration. -/
namespace Netmon.Aggregator
open Library Capture Resolver

/-- A record from the channel, and what the question for its owner finds. -/
structure Received where
  record : FlowRecord
  outside : Outside
  order : HashMap.Iteration Nat SocketEntry
  now : Instant
  connectionNow : Instant

structure Turn where
  /-- All else that an iteration finds; the answers come from the resolver. -/
  frame : Iteration
  refreshing : Outside
  listing : Outside
  received : List Received
  /-- The walk of `mark_exited_threads`, and what its question for a thread finds. -/
  exitWalk : HashMap.Iteration ThreadKey ThreadStats
  exiting : ThreadKey → Outside
  exitOrder : ThreadKey → HashMap.Iteration Nat ProcessInfo

structure Program where
  loop : LoopState
  resolver : ResolverCache

def Program.start (passwd : Except Text (List (Option Text))) (created : Int) (now : Instant) (scanNow : Int)
    (historyCsv : Option Text) : Except ResolverError Program := do
  return ⟨.start now scanNow historyCsv, ← ResolverCache.new passwd created⟩

namespace Turn

def scanDue (turn : Turn) (loop : LoopState) : Bool :=
  max (turn.frame.scanChecked - loop.lastProcScan) 0 ≥ resolverScanInterval

def askConnections (turn : Turn) (loop : LoopState) : Resolving (List ResolvedConnection) :=
  if turn.scanDue loop then do
    ignoreError (refreshIfNeeded turn.refreshing)
    listConnections turn.listing
  else return loop.connectionCache

def askOwner (received : Received) : Resolving Arrival := do
  let resolved ← resolveFlowOwner received.outside received.order received.record.key
  return ⟨received.record, resolved, received.now, received.connectionNow⟩

/-- A thread without a process is not asked for. -/
def askExit (turn : Turn) (key : ThreadKey) : Resolving (ThreadKey × Bool) :=
  if key.pid = 0 then return (key, true)
  else do
    let found ← processByPid (turn.exiting key) (turn.exitOrder key) key.pid
    return (key, found.isSome)

def ask (turn : Turn) (loop : LoopState) : Resolving Iteration := do
  let connections ← turn.askConnections loop
  let arrivals ← turn.received.mapM askOwner
  let asked : Iteration := { turn.frame with connections, arrivals }
  let exits ← (turn.exitWalk.keys (asked.drained loop).state.statsByThread).mapM turn.askExit
  return { asked with resolves := fun key => (exits.lookup key).getD true }

end Turn

/-- One iteration of the loop; a panic of the resolver, or a read that blocks, ends the thread. -/
def Program.turn (program : Program) (turn : Turn) : Option Program :=
  match turn.ask program.loop program.resolver with
  | .ok iteration resolver => some ⟨runIteration program.loop iteration, resolver⟩
  | .error .. => none

def Program.run (program : Program) (turns : List Turn) : Option Program := turns.foldlM Program.turn program

end Netmon.Aggregator
