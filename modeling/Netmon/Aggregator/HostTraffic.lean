import Netmon.Aggregator.Accounts
import Netmon.Aggregator.Attribution
import Netmon.Aggregator.Rows
import Netmon.Aggregator.WithResolver
import Netmon.Resolver.OneShot

/-! From a host to the process table. While the host stays as it is, every thread has counted
the records that run over the sockets that it holds, and its row bears its names. -/
namespace Netmon.Aggregator
open Library Capture Resolver

instance (flow : FlowKey) (socket : KernelSocket) : Decidable (RunsOver flow socket) :=
  inferInstanceAs (Decidable (socket.transport.protocol = flow.protocol ∧
    ((socket.localAddr = ⟨flow.srcIp, flow.srcPort⟩ ∧ socket.remoteAddr = ⟨flow.dstIp, flow.dstPort⟩) ∨
      (socket.localAddr = ⟨flow.dstIp, flow.dstPort⟩ ∧ socket.remoteAddr = ⟨flow.srcIp, flow.srcPort⟩))))

/-- The last holder of the socket that a flow runs over. -/
def holderOf (host : Host) (flow : FlowKey) : Option ProcessInfo :=
  (host.sockets.find? fun socket => RunsOver flow socket).map fun socket => host.info socket.inode

/-- Whose traffic a flow is. -/
def trafficOf (host : Host) (flow : FlowKey) : ProcessInfo := (holderOf host flow).getD unknownProcess

/-- No two sockets carry the flow, and no other socket has the inode of the one that does. -/
def Clear (host : Host) (flow : FlowKey) : Prop :=
  ∀ socket ∈ host.sockets, RunsOver flow socket →
    ∀ other ∈ host.sockets, RunsOver flow other ∨ other.inode = socket.inode → other = socket

/-- A call of the resolver finds the host, and comes after the resolver was made. -/
structure Finds (host : Host) (created : Int) (outside : Outside) : Prop where
  view : HostView host outside
  clock : created ≤ outside.checked

structure Turn.OnHost (host : Host) (created : Int) (turn : Turn) : Prop where
  refreshing : Finds host created turn.refreshing
  listing : Finds host created turn.listing
  received : ∀ received ∈ turn.received, Finds host created received.outside ∧ Clear host received.record.key
  exiting : ∀ key, Finds host created (turn.exiting key)

/-- The cache is as it was made, or reflects the host. -/
structure Ready (host : Host) (created : Int) (cache : ResolverCache) : Prop where
  users : cache.uidMap = host.uidMap
  age : Reflects host cache ∨ cache.lastRefresh = created - 5 * 10^9

/-- The rows of a connection cache are rows of the host. -/
def RowsOf (host : Host) (connections : List ResolvedConnection) : Prop :=
  ∀ row ∈ connections, ∃ socket ∈ host.sockets, row = host.row socket

section Resolver
variable {host : Host} {created : Int} {outside : Outside}

theorem Ready.of_reflects {cache : ResolverCache} (reflects : Reflects host cache) :
    Ready host created cache := ⟨reflects.users, Or.inl reflects⟩

theorem refresh_ready (finds : Finds host created outside) :
    Triple (Ready host created) (ignoreError (refreshIfNeeded outside)) (fun _ => Reflects host)
      (fun _ _ => False) := by
  intro cache ready
  have fresh : isFresh cache outside.checked = true → Reflects host cache := by
    intro young
    obtain reflects | made := ready.age
    · exact reflects
    · have clock := finds.clock
      rw [isFresh_iff, made, resolverRefreshPeriod] at young
      omega
  obtain ⟨next, refreshed, reflects⟩ := refreshIfNeeded_reflects finds.view ready.users fresh
  rw [refreshed]
  exact reflects

theorem reflects_owner {cache : ResolverCache} (reflects : Reflects host cache) {flow : FlowKey}
    (clear : Clear host flow) (order : HashMap.Iteration Nat SocketEntry) :
    ownerAmong cache.inodeToProcess flow (order.values cache.socketEntries) = holderOf host flow := by
  rw [holderOf]
  cases found : host.sockets.find? fun socket => RunsOver flow socket with
  | none =>
    apply reflects.uncarried order flow
    intro socket member carries
    exact List.find?_eq_none.mp found socket member (decide_eq_true carries)
  | some socket =>
    have member := List.mem_of_find?_eq_some found
    have carries : RunsOver flow socket := by simpa using List.find?_some found
    exact reflects.carried order flow member carries (clear socket member carries)

theorem resolveFlowOwner_ready (finds : Finds host created outside) (order : HashMap.Iteration Nat SocketEntry)
    {flow : FlowKey} (clear : Clear host flow) :
    Triple (Ready host created) (resolveFlowOwner outside order flow)
      (fun answer cache => answer = holderOf host flow ∧ Ready host created cache) (fun _ _ => False) := by
  refine Triple.bind (refresh_ready finds) fun _ => ?_
  intro cache reflects
  exact ⟨reflects_owner reflects clear order, .of_reflects reflects⟩

theorem processByPid_ready (finds : Finds host created outside) (order : HashMap.Iteration Nat ProcessInfo)
    (pid : Nat) :
    Triple (Ready host created) (processByPid outside order pid)
      (fun _ cache => Ready host created cache) (fun _ _ => False) := by
  refine Triple.bind (refresh_ready finds) fun _ => ?_
  intro cache reflects
  exact .of_reflects reflects

theorem reflects_rows {cache : ResolverCache} (reflects : Reflects host cache) :
    RowsOf host cache.connections := by
  intro row member
  obtain ⟨order, listed, _, rows⟩ := reflects.sockets
  obtain ⟨socket, kept, rfl⟩ := List.mem_map.mp (rows.mem_iff.mp member)
  exact ⟨socket, listed.mem_iff.mp (List.pwFilter_subset order kept), rfl⟩

theorem listConnections_ready (finds : Finds host created outside) :
    Triple (Ready host created) (listConnections outside)
      (fun connections cache => RowsOf host connections ∧ Ready host created cache) (fun _ _ => False) := by
  refine Triple.bind (refresh_ready finds) fun _ => ?_
  intro cache reflects
  exact ⟨reflects_rows reflects, .of_reflects reflects⟩

end Resolver

section Attribution
variable {host : Host}

theorem rowMatches_row (flow : FlowKey) (socket : KernelSocket) :
    rowMatches flow (host.row socket) = true ↔ RunsOver flow socket := by
  have address (addr : SocketAddr) (ip : IpAddr) (port : UInt16) : addr = ⟨ip, port⟩ ↔ addr.ip = ip ∧ addr.port = port := by
    cases addr
    simp
  simp only [rowMatches, forwardMatch, reverseMatch, Host.row, RunsOver, address, Bool.and_eq_true, Bool.or_eq_true, beq_iff_eq,
    and_assoc]

theorem flowOwner_traffic {connectionCache : List ResolvedConnection} (cached : RowsOf host connectionCache)
    (flow : FlowKey) : flowOwner flow (holderOf host flow) connectionCache = trafficOf host flow := by
  rw [flowOwner, trafficOf]
  cases holder : holderOf host flow with
  | some info => rfl
  | none =>
    have uncarried : connectionCache.find? (rowMatches flow) = none := by
      rw [List.find?_eq_none]
      intro row member matched
      obtain ⟨socket, listed, rfl⟩ := cached row member
      have carries := (rowMatches_row flow socket).mp matched
      rw [holderOf, Option.map_eq_none_iff, List.find?_eq_none] at holder
      exact holder socket listed (decide_eq_true carries)
    rw [lookupProcessFromConnections_eq, uncarried]
    rfl

end Attribution

/-- What an operation credits to whom. -/
def Op.credit? : Op → Option (FlowRecord × ProcessInfo)
  | .processRecord record resolved connectionCache .. => some (record, flowOwner record.key resolved connectionCache)
  | _ => none

def credits (ops : List Op) : List (FlowRecord × ProcessInfo) := ops.filterMap Op.credit?

theorem attributed_credits (key : ThreadKey) (ops : List Op) :
    attributed key ops = ((credits ops).filter fun credit => ownerKey credit.2 = key).map Prod.fst := by
  induction ops with
  | nil => rfl
  | cons op ops ih =>
    rw [attributed] at ih
    rw [attributed, List.flatMap_cons, ih]
    cases op with
    | processRecord record resolved connectionCache now connectionNow =>
      have credited : credits (.processRecord record resolved connectionCache now connectionNow :: ops) =
          (record, flowOwner record.key resolved connectionCache) :: credits ops := rfl
      rw [credited, Op.attributed]
      by_cases own : ownerKey (flowOwner record.key resolved connectionCache) = key
      · rw [if_pos own, List.filter_cons_of_pos (by simpa using own)]
        rfl
      · rw [if_neg own, List.filter_cons_of_neg (by simpa using own)]
        rfl
    | _ => rfl

theorem owners_credits (ops : List Op) : ops.filterMap Op.owner? = (credits ops).map Prod.snd := by
  rw [credits, List.map_filterMap]
  congr 1
  funext op
  cases op <;> rfl

/-- The answers are those of the host, to every record. -/
def Iteration.OnHost (host : Host) (iteration : Iteration) : Prop :=
  iteration.Satisfies (fun flow answer => answer = holderOf host flow) (RowsOf host)

section Iteration
variable {host : Host} {created : Int} {turn : Turn} {loop : LoopState}

theorem askConnections_ready (seen : turn.OnHost host created) (cached : RowsOf host loop.connectionCache) :
    Triple (Ready host created) (turn.askConnections loop)
      (fun connections cache => RowsOf host connections ∧ Ready host created cache) (fun _ _ => False) := by
  unfold Turn.askConnections
  split
  · refine Triple.bind (refresh_ready seen.refreshing) fun _ => ?_
    intro cache reflects
    exact listConnections_ready seen.listing cache (.of_reflects reflects)
  · exact Triple.pure _ fun _ ready => ⟨cached, ready⟩

theorem askOwner_ready {received : Received} (finds : Finds host created received.outside)
    (clear : Clear host received.record.key) :
    Triple (Ready host created) (Turn.askOwner received)
      (fun arrival cache => (arrival.record = received.record ∧ arrival.resolved = holderOf host arrival.record.key) ∧
        Ready host created cache) (fun _ _ => False) := by
  refine Triple.bind (resolveFlowOwner_ready finds received.order clear) fun resolved => ?_
  intro cache answered
  exact ⟨⟨rfl, answered.1⟩, answered.2⟩

theorem askExit_ready (seen : turn.OnHost host created) (key : ThreadKey) :
    Triple (Ready host created) (turn.askExit key) (fun _ cache => True ∧ Ready host created cache)
      (fun _ _ => False) := by
  unfold Turn.askExit
  split
  · exact Triple.pure _ fun _ ready => ⟨trivial, ready⟩
  · refine Triple.bind (processByPid_ready (seen.exiting key) (turn.exitOrder key) key.pid) fun found => ?_
    intro cache ready
    exact ⟨trivial, ready⟩

theorem arrivals_answered {received : List Received} {arrivals : List Arrival}
    (answers : List.Forall₂ (fun received arrival => arrival.record = received.record ∧
      arrival.resolved = holderOf host arrival.record.key) received arrivals) :
    arrivals.map Arrival.record = received.map Received.record ∧
      ∀ arrival ∈ arrivals, arrival.resolved = holderOf host arrival.record.key := by
  induction answers with
  | nil => exact ⟨rfl, List.forall_mem_nil _⟩
  | cons answer rest ih =>
    obtain ⟨record, resolved⟩ := answer
    obtain ⟨records, answered⟩ := ih
    rw [List.map_cons, List.map_cons, record, records]
    exact ⟨rfl, List.forall_mem_cons.mpr ⟨resolved, answered⟩⟩

theorem ask_answered (seen : turn.OnHost host created) (cached : RowsOf host loop.connectionCache) :
    Triple (Ready host created) (turn.ask loop)
      (fun iteration cache => (iteration.records = turn.received.map Received.record ∧ iteration.OnHost host) ∧
        Ready host created cache) (fun _ _ => False) := by
  refine Triple.bind (askConnections_ready seen cached) fun connections => ?_
  intro cache listed
  obtain ⟨rows, ready⟩ := listed
  have owners : ∀ received ∈ turn.received, Triple (Ready host created) (Turn.askOwner received)
      (fun arrival cache => (arrival.record = received.record ∧ arrival.resolved = holderOf host arrival.record.key) ∧
        Ready host created cache) (fun _ _ => False) := by
    intro received member
    obtain ⟨finds, clear⟩ := seen.received received member
    exact askOwner_ready finds clear
  refine Triple.bind (Triple.mapM turn.received owners) (fun arrivals => ?_) cache ready
  intro next owned
  obtain ⟨answers, still⟩ := owned
  obtain ⟨records, answered⟩ := arrivals_answered answers
  refine Triple.bind (Triple.mapM _ fun key _ => askExit_ready seen key) (fun exits => ?_) next still
  intro final exited
  exact ⟨⟨records, answered, rows⟩, exited.2⟩

theorem credits_arrivals {arrivals : List Arrival}
    (answered : ∀ arrival ∈ arrivals, arrival.resolved = holderOf host arrival.record.key)
    {connectionCache : List ResolvedConnection} (cached : RowsOf host connectionCache) :
    credits (arrivals.map fun arrival =>
        .processRecord arrival.record arrival.resolved connectionCache arrival.now arrival.connectionNow) =
      arrivals.map fun arrival => (arrival.record, trafficOf host arrival.record.key) := by
  induction arrivals with
  | nil => rfl
  | cons arrival arrivals ih =>
    obtain ⟨resolved, rest⟩ := List.forall_mem_cons.mp answered
    have later := ih rest
    rw [credits] at later
    rw [List.map_cons, credits, List.filterMap_cons, later, List.map_cons, Op.credit?, resolved, flowOwner_traffic cached]

theorem refreshed_rowsOf {iteration : Iteration} (answered : iteration.OnHost host)
    (cached : RowsOf host loop.connectionCache) :
    RowsOf host (refreshConnectionCacheIfDue iteration loop).connectionCache := by
  unfold refreshConnectionCacheIfDue
  split
  · exact answered.connections
  · exact cached

/-- An iteration credits every record to the last holder of its socket. -/
theorem credits_ops {iteration : Iteration} (answered : iteration.OnHost host)
    (cached : RowsOf host loop.connectionCache) :
    credits (iteration.ops loop) = iteration.records.map fun record => (record, trafficOf host record.key) := by
  have counted := credits_arrivals answered.arrivals (refreshed_rowsOf answered cached)
  rw [credits] at counted
  rw [Iteration.ops, credits, List.filterMap_append, counted, Iteration.records, List.map_map]
  exact List.append_nil _

theorem credits_loop {start : LoopState} {iterations : List Iteration}
    (answered : ∀ iteration ∈ iterations, iteration.OnHost host) (cached : RowsOf host start.connectionCache) :
    credits (loopOps start iterations) =
        (iterations.flatMap Iteration.records).map (fun record => (record, trafficOf host record.key)) ∧
      RowsOf host (run runIteration start iterations).connectionCache := by
  induction iterations generalizing start with
  | nil => exact ⟨rfl, cached⟩
  | cons iteration iterations ih =>
    obtain ⟨first, later⟩ := List.forall_mem_cons.mp answered
    have here := credits_ops first cached
    obtain ⟨rest, still⟩ := @ih (runIteration start iteration) later (refreshed_rowsOf first cached)
    rw [credits] at here
    rw [credits, loopOps] at rest
    refine ⟨?_, still⟩
    rw [loopOps, observed, credits, List.filterMap_append, here, rest, List.flatMap_cons, List.map_append]

end Iteration

def recordsOf (turns : List Turn) : List FlowRecord := turns.flatMap fun turn => turn.received.map Received.record

/-- The records of the traffic of a thread. -/
def trafficRecords (host : Host) (key : ThreadKey) (turns : List Turn) : List FlowRecord :=
  (recordsOf turns).filter fun record => ownerKey (trafficOf host record.key) = key

/-- Those of the records that are traffic of a thread. -/
def ownRecords (host : Host) (key : ThreadKey) (records : List FlowRecord) : List FlowRecord :=
  records.filter fun record => ownerKey (trafficOf host record.key) = key

theorem directionBytes_filter_le (direction : Direction) (keep : FlowRecord → Bool) (records : List FlowRecord) :
    directionBytes direction (records.filter keep) ≤ directionBytes direction records := by
  have fewer : ((records.filter keep).filter fun record => decide (record.direction = direction)).Sublist
      (records.filter fun record => decide (record.direction = direction)) := List.filter_sublist.filter _
  exact (fewer.map _).sum_le_sum fun _ _ => Nat.zero_le _

section Run
variable {host : Host} {created : Int} {turns : List Turn}

theorem run_onHost {program : Program} (seen : ∀ turn ∈ turns, turn.OnHost host created)
    (ready : Ready host created program.resolver) (cached : RowsOf host program.loop.connectionCache) :
    ∃ final iterations, program.run turns = some final ∧ final.loop = run runIteration program.loop iterations ∧
      iterations.flatMap Iteration.records = recordsOf turns ∧ ∀ iteration ∈ iterations, iteration.OnHost host := by
  induction turns generalizing program with
  | nil => exact ⟨program, [], rfl, rfl, rfl, List.forall_mem_nil _⟩
  | cons turn turns ih =>
    obtain ⟨first, later⟩ := List.forall_mem_cons.mp seen
    have asked := ask_answered first cached program.resolver ready
    cases answer : turn.ask program.loop program.resolver with
    | error halt next =>
      rw [answer] at asked
      exact asked.elim
    | ok iteration resolver =>
      rw [answer] at asked
      obtain ⟨⟨records, answered⟩, still⟩ := asked
      have stepped : program.turn turn = some ⟨runIteration program.loop iteration, resolver⟩ := by
        rw [Program.turn, answer]
      obtain ⟨final, iterations, ran, same, received, all⟩ :=
        @ih ⟨runIteration program.loop iteration, resolver⟩ later still (refreshed_rowsOf answered cached)
      refine ⟨final, iteration :: iterations, ?_, same, ?_, List.forall_mem_cons.mpr ⟨answered, all⟩⟩
      · rw [Program.run, List.foldlM_cons, stepped]
        exact ran
      · rw [List.flatMap_cons, records, received, recordsOf, recordsOf, List.flatMap_cons]

/-- The published rows are those of the final variables. -/
theorem rows_published (start : LoopState) (iterations : List Iteration) (unpublished : start.rows = []) :
    (run runIteration start iterations).rows = [] ∧ iterations = [] ∨
      ∃ (order : HashMap.Iteration ThreadKey ThreadStats) (connectionCache : List ResolvedConnection)
        (blocked : Finset Nat),
        (run runIteration start iterations).rows =
          (publishSnapshots (order.entries (run runIteration start iterations).state.statsByThread) connectionCache blocked
            (run runIteration start iterations).state).1 := by
  obtain rfl | ⟨earlier, last, rfl⟩ := List.eq_nil_or_concat iterations
  · exact Or.inl ⟨unpublished, rfl⟩
  · have stepped : run runIteration start (earlier.concat last) = runIteration (run runIteration start earlier) last := by
      rw [List.concat_eq_append, run_append]
      rfl
    refine Or.inr ⟨last.order, (run runIteration start (earlier.concat last)).connectionCache, last.blocked, ?_⟩
    rw [stepped]
    exact congrArg Prod.fst (runIteration_published (run runIteration start earlier) last)

end Run

section Credited
variable {host : Host} {records : List FlowRecord}

theorem latestOwner_traffic {ops : List Op}
    (credited : credits ops = records.map fun record => (record, trafficOf host record.key)) (key : ThreadKey) :
    latestOwner key ops = (ownRecords host key records).getLast?.map fun record => trafficOf host record.key := by
  rw [latestOwner, owners_credits, credited, List.map_map, List.filter_map, List.getLast?_map, ownRecords]
  rfl

theorem attributed_traffic {ops : List Op}
    (credited : credits ops = records.map fun record => (record, trafficOf host record.key)) (key : ThreadKey) :
    attributed key ops = ownRecords host key records := by
  rw [attributed_credits, credited, List.filter_map, List.map_map, ownRecords]
  exact List.map_id _

theorem traffic_totals {ops : List Op}
    (credited : credits ops = records.map fun record => (record, trafficOf host record.key)) (now : Instant)
    (key : ThreadKey) (direction : Direction) (small : directionBytes direction records < 2^64) :
    threadTotal direction key (run step (.initial now) ops) + droppedIn direction key (.initial now) ops =
      directionBytes direction (ownRecords host key records) := by
  have counted := attributed_traffic credited key
  have part : directionBytes direction (ownRecords host key records) ≤ directionBytes direction records :=
    directionBytes_filter_le direction _ _
  have none : threadTotal direction key (.initial now) = 0 := rfl
  have account := run_account direction key (.initial now) ops
    (by rw [none, counted]; exact Nat.lt_of_le_of_lt (Nat.zero_add _ ▸ part) small)
  rw [none, counted, Nat.zero_add] at account
  exact account

theorem traffic_rows {now : Instant} {scanNow : Int} {historyCsv : Option Text} {iterations : List Iteration}
    (credited : credits (loopOps (.start now scanNow historyCsv) iterations) =
      records.map fun record => (record, trafficOf host record.key)) :
    ∀ row ∈ (run runIteration (.start now scanNow historyCsv) iterations).rows,
      row.txBytes = threadTotal .tx (rowKey row) (run runIteration (.start now scanNow historyCsv) iterations).state ∧
        row.rxBytes = threadTotal .rx (rowKey row) (run runIteration (.start now scanNow historyCsv) iterations).state ∧
        ∃ record, (ownRecords host (rowKey row) records).getLast? = some record ∧
          ShowsOwner (trafficOf host record.key) row.info := by
  intro row member
  obtain ⟨none, _⟩ | ⟨order, connectionCache, blocked, rows⟩ :=
    rows_published (.start now scanNow historyCsv) iterations rfl
  · rw [none] at member
    cases member
  have state : (run runIteration (.start now scanNow historyCsv) iterations).state =
      run step (.initial now) (loopOps (.start now scanNow historyCsv) iterations) := loop_state _ iterations
  rw [rows, state] at member
  rw [state]
  obtain ⟨stats, stored, shown⟩ :=
    publishSnapshots_shows now _ (order.permuted _) connectionCache blocked member
  obtain ⟨owner, latest, shows⟩ := run_named now _ (rowKey row) stats stored
  rw [latestOwner_traffic credited, Option.map_eq_some_iff] at latest
  obtain ⟨record, last, rfl⟩ := latest
  have total (direction : Direction) : threadTotal direction (rowKey row)
      (run step (.initial now) (loopOps (.start now scanNow historyCsv) iterations)) = stats.bytesTotal direction := by
    rw [threadTotal, stored]
    rfl
  have fields : row.info = stats.info ∧ row.txBytes = stats.txBytesTotal ∧ row.rxBytes = stats.rxBytesTotal := by
    rw [shown]
    exact ⟨rfl, rfl, rfl⟩
  obtain ⟨info, sent, received⟩ := fields
  refine ⟨sent.trans (total .tx).symm, received.trans (total .rx).symm, record, last, ?_⟩
  rw [info]
  exact shows

/-- What the rows of a thread show as sent. -/
def shownBytes (key : ThreadKey) (rows : List ProcessRow) : Nat :=
  ((rows.filter fun row => rowKey row = key).map ProcessRow.txBytes).sum

theorem shownBytes_total {rows : List ProcessRow} {state : State} (keys : (rows.map rowKey).Perm state.statsByThread.keys)
    (totals : ∀ row ∈ rows, row.txBytes = threadTotal .tx (rowKey row) state) (key : ThreadKey) :
    shownBytes key rows = threadTotal .tx key state := by
  have same : (rows.filter fun row => rowKey row = key).map ProcessRow.txBytes =
      List.replicate (state.statsByThread.keys.count key) (threadTotal .tx key state) := by
    apply List.eq_replicate_iff.mpr
    constructor
    · rw [List.length_map, ← List.countP_eq_length_filter, ← keys.count_eq, List.count, List.countP_map]
      apply List.countP_congr
      intro row _
      simp
    · intro bytes member
      obtain ⟨row, listed, rfl⟩ := List.mem_map.mp member
      obtain ⟨inside, own⟩ := List.mem_filter.mp listed
      rw [totals row inside, of_decide_eq_true own]
  rw [shownBytes, same, List.sum_replicate_nat]
  by_cases stored : key ∈ state.statsByThread.keys
  · have once : state.statsByThread.keys.count key = 1 := List.count_eq_one_of_mem state.statsByThread.nodupKeys stored
    rw [once, Nat.one_mul]
  · have unknown : state.statsByThread.lookup key = none := AList.lookup_eq_none.mpr stored
    have never : state.statsByThread.keys.count key = 0 := List.count_eq_zero_of_not_mem stored
    rw [never, Nat.zero_mul, threadTotal, unknown]
    rfl

/-- The published rows of a thread show what it has counted. -/
theorem published_total {now : Instant} {scanNow : Int} {historyCsv : Option Text} {iterations : List Iteration}
    (credited : credits (loopOps (.start now scanNow historyCsv) iterations) =
      records.map fun record => (record, trafficOf host record.key)) (key : ThreadKey) :
    shownBytes key (run runIteration (.start now scanNow historyCsv) iterations).rows =
      threadTotal .tx key (run runIteration (.start now scanNow historyCsv) iterations).state := by
  obtain ⟨none, rfl⟩ | ⟨order, connectionCache, blocked, rows⟩ :=
    rows_published (.start now scanNow historyCsv) iterations rfl
  · rw [none]
    rfl
  · have state : (run runIteration (.start now scanNow historyCsv) iterations).state =
        run step (.initial now) (loopOps (.start now scanNow historyCsv) iterations) := loop_state _ iterations
    apply shownBytes_total
    · rw [rows, state]
      exact publishSnapshots_keys now _ (order.permuted _) connectionCache blocked
    · intro row member
      exact (traffic_rows credited row member).1

end Credited

theorem new_ready (host : Host) (created : Int) :
    Ready host created (.empty host.uidMap created) := ⟨rfl, Or.inr rfl⟩

theorem start_onHost {host : Host} {created : Int} (now : Instant) (scanNow : Int)
    (historyCsv : Option Text) {turns : List Turn} (seen : ∀ turn ∈ turns, turn.OnHost host created) :
    ∃ final iterations, Program.run ⟨.start now scanNow historyCsv, .empty host.uidMap created⟩ turns = some final ∧
      final.loop = run runIteration (.start now scanNow historyCsv) iterations ∧
      credits (loopOps (.start now scanNow historyCsv) iterations) =
        (recordsOf turns).map fun record => (record, trafficOf host record.key) := by
  have nothing : RowsOf host (LoopState.start now scanNow historyCsv).connectionCache := List.forall_mem_nil _
  let program : Program := ⟨.start now scanNow historyCsv, .empty host.uidMap created⟩
  obtain ⟨final, iterations, ran, same, records, answered⟩ :=
    @run_onHost _ _ _ program seen (new_ready host created) nothing
  rw [← records]
  exact ⟨final, iterations, ran, same, (credits_loop answered nothing).1⟩

/-- While the host stays as it is, the thread never stops, every thread's total is the traffic of its
sockets but for what its evicted generations counted, and its row shows that total and its names. -/
theorem traffic_of_host (host : Host) (created : Int) (now : Instant) (scanNow : Int)
    (historyCsv : Option Text) (turns : List Turn) (seen : ∀ turn ∈ turns, turn.OnHost host created)
    (small : ∀ direction, directionBytes direction (recordsOf turns) < 2^64) :
    ∃ program final iterations,
      Program.start (.ok ((lines (passwdText host.passwd)).map some)) created now scanNow historyCsv = .ok program ∧
      program.run turns = some final ∧ final.loop = run runIteration program.loop iterations ∧
      (∀ key direction, threadTotal direction key final.loop.state +
          droppedIn direction key (.initial now) (loopOps program.loop iterations) =
        directionBytes direction (trafficRecords host key turns)) ∧
      ∀ row ∈ final.loop.rows, row.txBytes = threadTotal .tx (rowKey row) final.loop.state ∧
        row.rxBytes = threadTotal .rx (rowKey row) final.loop.state ∧
        ∃ record, (trafficRecords host (rowKey row) turns).getLast? = some record ∧
          ShowsOwner (trafficOf host record.key) row.info := by
  obtain ⟨final, iterations, ran, same, credited⟩ := start_onHost now scanNow historyCsv seen
  refine ⟨⟨.start now scanNow historyCsv, .empty host.uidMap created⟩, final, iterations, ?_, ran, same, ?_, ?_⟩
  · rw [Program.start, new_passwd]
    rfl
  · intro key direction
    rw [same, loop_state]
    exact traffic_totals credited now key direction (small direction)
  · rw [same]
    exact traffic_rows credited

/-- One turn, in which the server asks the name server. -/
def dnsTurn : Turn where
  frame := .atTime (5 * 10^9) []
  refreshing := sampleOutside
  listing := sampleOutside
  received := [⟨⟨dnsFlow, 60, 0, .tx⟩, sampleOutside, .plain, 5 * 10^9, 5 * 10^9⟩]
  exitWalk := .plain
  exiting _ := sampleOutside
  exitOrder _ := .plain

theorem dnsTurn_onHost : dnsTurn.OnHost sampleHost 0 := by
  have finds : Finds sampleHost 0 sampleOutside := ⟨sampleHost_view, by decide⟩
  refine ⟨finds, finds, ?_, fun _ => finds⟩
  intro received member
  obtain rfl := List.mem_singleton.mp member
  refine ⟨finds, ?_⟩
  intro socket listed carries
  obtain rfl := dnsFlow_only socket listed (Or.inl carries)
  exact dnsFlow_only

theorem traffic_of_host_dns :
    ∃ program final iterations,
      Program.start (.ok ((lines (passwdText sampleHost.passwd)).map some)) 0 0 0 none = .ok program ∧
      program.run [dnsTurn] = some final ∧
      threadTotal .tx ⟨7, 8⟩ final.loop.state +
        droppedIn .tx ⟨7, 8⟩ (.initial 0) (loopOps program.loop iterations) = 60 := by
  have seen : ∀ turn ∈ [dnsTurn], turn.OnHost sampleHost 0 := List.forall_mem_singleton.mpr dnsTurn_onHost
  have small (direction : Direction) : directionBytes direction (recordsOf [dnsTurn]) < 2^64 := by
    cases direction <;> decide
  obtain ⟨program, final, iterations, started, ran, _, totals, _⟩ :=
    traffic_of_host sampleHost 0 0 0 none [dnsTurn] seen small
  have sixty : directionBytes .tx (trafficRecords sampleHost ⟨7, 8⟩ [dnsTurn]) = 60 := by decide +kernel
  exact ⟨program, final, iterations, started, ran, (totals ⟨7, 8⟩ .tx).trans sixty⟩

end Netmon.Aggregator
