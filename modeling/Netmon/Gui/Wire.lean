import Netmon.Capture.Vlan
import Netmon.Gui.System

/-! From the wire to the process table: the packets that capture threads read, of whatever
sockets of the host, and the rows that the aggregator shows for the threads that hold them. -/
namespace Netmon.Gui
open Library Capture Resolver Aggregator

/-- The bytes of the packets, in either direction, of the sockets that a thread holds. -/
def wireBytes (host : Host) (key : ThreadKey) (deliveries : List Delivery) : Nat :=
  ((deliveries.filter fun delivery => ownerKey (trafficOf host delivery.record.key) = key).map
    fun delivery => delivery.packetLen.toNat).sum

section Received
variable {received : List Delivery}

theorem sent_bytes (accepted : ∀ delivery ∈ received, delivery.Accepted []) :
    directionBytes .tx (received.map Delivery.record) = (received.map fun delivery => delivery.packetLen.toNat).sum := by
  have all : (received.map Delivery.record).filter (fun record => decide (record.direction = .tx)) =
      received.map Delivery.record := by
    rw [List.filter_eq_self]
    intro record member
    obtain ⟨delivery, inside, rfl⟩ := List.mem_map.mp member
    exact decide_eq_true (accepted delivery inside).record.2
  rw [directionBytes, all, bytesOf, List.map_map]
  congr 1
  apply List.map_congr_left
  intro delivery member
  exact congrArg UInt32.toNat (accepted delivery member).record.1

theorem received_bytes (accepted : ∀ delivery ∈ received, delivery.Accepted []) :
    directionBytes .rx (received.map Delivery.record) = 0 := by
  have none : (received.map Delivery.record).filter (fun record => decide (record.direction = .rx)) = [] := by
    rw [List.filter_eq_nil_iff]
    intro record member
    obtain ⟨delivery, inside, rfl⟩ := List.mem_map.mp member
    have label : delivery.record.direction = .tx := (accepted delivery inside).record.2
    simp [label]
  rw [directionBytes, none]
  rfl

theorem ownRecords_received (host : Host) (key : ThreadKey) : ownRecords host key (received.map Delivery.record) =
    (received.filter fun delivery => ownerKey (trafficOf host delivery.record.key) = key).map Delivery.record := by
  rw [ownRecords, List.filter_map]
  rfl

end Received

section Counted
variable {host : Host} {now : Instant} {scanNow : Int} {historyCsv : Option Text} {iterations : List Iteration}
  {counted : List Delivery}

/-- The row of a thread with packets: it received none of them, and has the names of the thread that holds the socket of
its last one. -/
def ShowsLast (host : Host) (counted : List Delivery) (row : ProcessRow) : Prop :=
  row.rxBytes = 0 ∧
    ∃ delivery, (counted.filter fun delivery => ownerKey (trafficOf host delivery.record.key) = rowKey row).getLast? =
        some delivery ∧ Carries delivery.packetBytes delivery.record.key ∧
      ShowsOwner (trafficOf host delivery.record.key) row.info

/-- The rows are those of the iterations, and count the packets: each for the thread that holds its socket, in either
direction as sent. -/
structure CountedBy (host : Host) (now : Instant) (scanNow : Int) (historyCsv : Option Text) (iterations : List Iteration)
    (counted : List Delivery) (rows : List ProcessRow) : Prop where
  published : rows = (run runIteration (.start now scanNow historyCsv) iterations).rows
  totals : ∀ key, shownBytes key rows + droppedIn .tx key (.initial now) (loopOps (.start now scanNow historyCsv) iterations) =
    wireBytes host key counted
  each : ∀ row ∈ rows, ShowsLast host counted row

theorem counted_shown (credited : credits (loopOps (.start now scanNow historyCsv) iterations) =
      (counted.map Delivery.record).map fun record => (record, trafficOf host record.key))
    (accepted : ∀ delivery ∈ counted, delivery.Accepted [])
    (small : (counted.map fun delivery => delivery.packetLen.toNat).sum < 2^64) (key : ThreadKey) :
    shownBytes key (run runIteration (.start now scanNow historyCsv) iterations).rows +
      droppedIn .tx key (.initial now) (loopOps (.start now scanNow historyCsv) iterations) = wireBytes host key counted := by
  have total := traffic_totals credited now key .tx (by rw [sent_bytes accepted]; exact small)
  have kept : ∀ delivery ∈ counted.filter (fun delivery => ownerKey (trafficOf host delivery.record.key) = key),
      delivery.Accepted [] := fun delivery member => accepted delivery (List.mem_of_mem_filter member)
  rw [ownRecords_received, sent_bytes kept] at total
  rw [published_total credited, loop_state]
  exact total

theorem counted_rows (credited : credits (loopOps (.start now scanNow historyCsv) iterations) =
      (counted.map Delivery.record).map fun record => (record, trafficOf host record.key))
    (accepted : ∀ delivery ∈ counted, delivery.Accepted []) :
    ∀ row ∈ (run runIteration (.start now scanNow historyCsv) iterations).rows, ShowsLast host counted row := by
  intro row member
  obtain ⟨_, rx, record, last, names⟩ := traffic_rows credited row member
  constructor
  · have quiet := received_bytes accepted
    have total := traffic_totals credited now (rowKey row) .rx (by omega)
    have part : directionBytes .rx (ownRecords host (rowKey row) (counted.map Delivery.record)) ≤
        directionBytes .rx (counted.map Delivery.record) := directionBytes_filter_le .rx _ _
    have state : (run runIteration (.start now scanNow historyCsv) iterations).state =
        run Aggregator.step (.initial now) (loopOps (.start now scanNow historyCsv) iterations) := loop_state _ iterations
    rw [state] at rx
    omega
  · rw [ownRecords_received, List.getLast?_map, Option.map_eq_some_iff] at last
    obtain ⟨delivery, latest, rfl⟩ := last
    obtain ⟨_, read⟩ := accepted delivery (List.mem_of_mem_filter (List.mem_of_getLast? latest))
    exact ⟨delivery, latest, ((parsePacket_iff _ _ _ _ _).mp read).1, names⟩

end Counted

namespace System

/-- The packets whose records got into the channel, in that order. -/
def sent (devices : List Text) (start : LoopState) (actions : List SystemAction) : List Delivery :=
  (observed step delivered (launch devices start) actions).map Prod.snd

section Sent
variable {devices : List Text} {start : LoopState} {actions : List SystemAction}
  (returned : (run step (launch devices start) actions).halted = none)
include returned

theorem sent_accepted : ∀ delivery ∈ sent devices start actions, delivery.Accepted [] := by
  intro delivery member
  obtain ⟨pair, among, rfl⟩ := List.mem_map.mp member
  have same := run_seen Pipeline.delivered (launch devices start) actions returned
  unfold System.delivered at among
  rw [← same] at among
  exact Pipeline.run_accepted devices start _ pair among

theorem sent_queue : (sent devices start actions).map Delivery.record =
    observed step received (launch devices start) actions ++
      (run step (launch devices start) actions).pipeline.flow.queue := by
  rw [sent, List.map_map]
  exact run_queue devices start actions returned

theorem run_held (session : Nat) : ∃ held, ofSession session (observed step captured (launch devices start) actions) =
    ofSession session (observed step delivered (launch devices start) actions) ++ held ∧ held.length ≤ 1 := by
  obtain ⟨held, all, few, _⟩ :=
    Pipeline.run_held devices start (observed step events (launch devices start) actions) session
  have read := run_seen Pipeline.captured (launch devices start) actions returned
  have delivered := run_seen Pipeline.delivered (launch devices start) actions returned
  refine ⟨held, ?_, few⟩
  unfold System.captured System.delivered
  rw [← read, ← delivered]
  exact all

end Sent

/-- The rows count the packets whose records the iterations behind them have received. -/
theorem Attuned.counts {host : Host} {created : Int} {now : Instant} {scanNow : Int}
    {historyCsv : Option Text} {records : List FlowRecord} {done : List Iteration} {current : Iteration} {system : System}
    {counted : List Delivery}
    (attuned : Attuned host created (.start now scanNow historyCsv) records done current system)
    (same : (system.pipeline.aggregator.shown done current).flatMap Iteration.records = counted.map Delivery.record)
    (accepted : ∀ delivery ∈ counted, delivery.Accepted [])
    (small : (counted.map fun delivery => delivery.packetLen.toNat).sum < 2^64) :
    CountedBy host now scanNow historyCsv (system.pipeline.aggregator.shown done current) counted
      system.pipeline.aggregator.loop.rows := by
  have cached : RowsOf host (LoopState.start now scanNow historyCsv).connectionCache := List.forall_mem_nil _
  obtain ⟨begins, _, _⟩ := Pipeline.begun_shown system.pipeline.aggregator done current
  have credited : credits (loopOps (.start now scanNow historyCsv) (system.pipeline.aggregator.shown done current)) =
      (counted.map Delivery.record).map fun record => (record, trafficOf host record.key) := by
    rw [← same]
    exact (credits_loop (fun iteration member => attuned.answered iteration (begins.subset member)) cached).1
  have showing : system.pipeline.aggregator.loop.rows =
      (run runIteration (.start now scanNow historyCsv) (system.pipeline.aggregator.shown done current)).rows :=
    attuned.reached.published.1
  rw [showing]
  exact ⟨rfl, counted_shown credited accepted small, counted_rows credited accepted⟩

/-- In whatever order the app and the threads act, no call of the resolver fails, the packets that the sessions have read
are in the channel's order but for one a session, and the rows count those of a first part of them: each for the thread
that holds its socket, in either direction as sent, with the names of that thread. The part lacks those in the queue alone
when the aggregator has ended an iteration. -/
theorem wire_to_rows (devices : List Text) (host : Host) (created : Int) (now : Instant) (scanNow : Int)
    (historyCsv : Option Text) (actions : List SystemAction) (seen : ∀ action ∈ actions, action.OnHost host created)
    (clear : ∀ delivery ∈ sent devices (.start now scanNow historyCsv) actions, Clear host delivery.record.key)
    (small : ((sent devices (.start now scanNow historyCsv) actions).map fun delivery => delivery.packetLen.toNat).sum < 2^64) :
    let start := LoopState.start now scanNow historyCsv
    let system := run step (launch devices start) actions
    system.halted = none ∧
    (∀ session, ∃ held, ofSession session (observed step captured (launch devices start) actions) =
      ofSession session (observed step delivered (launch devices start) actions) ++ held ∧ held.length ≤ 1) ∧
    ∃ done current counted, system.pipeline.aggregator.Reached start done current ∧
      counted <+: sent devices start actions ∧
      (system.pipeline.aggregator.phase = .looping →
        (sent devices start actions).map Delivery.record = counted.map Delivery.record ++ system.pipeline.flow.queue) ∧
      let iterations := system.pipeline.aggregator.shown done current
      iterations.flatMap Iteration.records = counted.map Delivery.record ∧
      CountedBy host now scanNow historyCsv iterations counted system.pipeline.aggregator.loop.rows := by
  intro start system
  have cached : RowsOf host start.connectionCache := List.forall_mem_nil _
  have each : ∀ pair ∈ observed step delivered (launch devices start) actions, Clear host pair.2.record.key :=
    fun pair member => clear pair.2 (List.mem_map_of_mem member)
  obtain ⟨done, current, attuned⟩ := run_attuned devices actions seen cached each
  have accepted := sent_accepted attuned.returned
  have queue := sent_queue attuned.returned
  let shown := system.pipeline.aggregator.shown done current
  obtain ⟨begins, _, _⟩ := Pipeline.begun_shown system.pipeline.aggregator done current
  have first : shown.flatMap Iteration.records <+: (sent devices start actions).map Delivery.record := by
    rw [queue, ← attuned.tally]
    exact (Pipeline.flatMap_prefix _ begins).trans (List.prefix_append _ _)
  -- The packets behind the records of the iterations that are shown.
  let counted := (sent devices start actions).take (shown.flatMap Iteration.records).length
  have part : counted <+: sent devices start actions := List.take_prefix _ _
  have same : shown.flatMap Iteration.records = counted.map Delivery.record := by
    rw [List.map_take]
    exact List.prefix_iff_eq_take.mp first
  have fits : (counted.map fun delivery => delivery.packetLen.toNat).sum < 2^64 :=
    Nat.lt_of_le_of_lt ((part.sublist.map _).sum_le_sum fun _ _ => Nat.zero_le _) small
  refine ⟨attuned.returned, run_held attuned.returned, done, current, counted, attuned.reached, part, ?_, same,
    attuned.counts same (fun delivery member => accepted delivery (part.subset member)) fits⟩
  intro looping
  have ended : system.pipeline.aggregator.begun done current = shown := by
    change system.pipeline.aggregator.begun done current = system.pipeline.aggregator.shown done current
    rw [AggregatorThread.begun, AggregatorThread.shown, looping]
    rfl
  rw [queue, ← same, ← ended, attuned.tally]

theorem delivered_aggregate (system : System) (around : Surroundings) : system.delivered (.aggregate around) = [] := by
  unfold delivered events
  simp only
  split <;> rfl

theorem delivered_aggregates (system : System) (around : Surroundings) (n : Nat) :
    observed step delivered system (List.replicate n (.aggregate around)) = [] := by
  induction n generalizing system with
  | zero => rfl
  | succ n ih => rw [List.replicate_succ, observed, delivered_aggregate, ih, List.append_nil]

/-- The server's question to the name server, on the wire. -/
def dnsFrame : Frame :=
  { queryFrame with
    network := .v4 { queryHeader with src := ⟨0, 0, 0, 0⟩, dst := ⟨127, 0, 0, 53⟩ }
    srcPort := 0 }

def dnsDelivery : Delivery := ⟨dnsFrame.encode, 60, ⟨dnsFlow, 60, 0, .tx⟩⟩

/-- A session that reads the question and sends its record. -/
def dnsCaptures : List SystemAction :=
  .operate (.startCapture ⟨"/root".toList, 0, fun _ => .ok (), none⟩) ::
    List.replicate 5 (.capture 0 ⟨fun _ => .ok (), .packet dnsFrame.encode 60 0⟩)

def dnsAround : Surroundings where
  passwd := .ok ((lines (passwdText sampleHost.passwd)).map some)
  created := 0
  owning := sampleOutside
  order := .plain
  now := 5 * 10^9
  connectionNow := 5 * 10^9
  refreshing := sampleOutside
  listing := sampleOutside
  exitWalk := .plain
  exiting _ := sampleOutside
  exitOrder _ := .plain
  frame := .atTime (5 * 10^9) []

/-- A whole iteration of the aggregator, from its start. -/
def dnsActions : List SystemAction := dnsCaptures ++ List.replicate 6 (.aggregate dnsAround)

theorem dnsActions_onHost : ∀ action ∈ dnsActions, action.OnHost sampleHost 0 := by
  have finds : Finds sampleHost 0 sampleOutside := ⟨sampleHost_view, by decide⟩
  intro action member
  obtain captures | aggregates := List.mem_append.mp member
  · obtain rfl | later := List.mem_cons.mp captures
    · trivial
    · obtain rfl := List.eq_of_mem_replicate later
      trivial
  · obtain rfl := List.eq_of_mem_replicate aggregates
    exact ⟨rfl, rfl, finds, finds, finds, fun _ => finds⟩

theorem dnsDelivery_clear : Clear sampleHost dnsDelivery.record.key := by
  intro socket listed carries
  obtain rfl := dnsFlow_only socket listed (Or.inl carries)
  exact dnsFlow_only

theorem dnsDelivery_bytes : wireBytes sampleHost ⟨7, 8⟩ [dnsDelivery] = 60 := by decide +kernel

theorem dnsCaptures_delivered :
    observed step delivered (launch ["eth0".toList] (.start 0 0 none)) dnsCaptures = [(0, dnsDelivery)] := by decide +kernel

theorem wire_to_rows_dns :
    let system := run step (launch ["eth0".toList] (.start 0 0 none)) dnsActions
    system.halted = none ∧ ∃ dropped, shownBytes ⟨7, 8⟩ system.pipeline.aggregator.loop.rows + dropped = 60 := by
  have question : sent ["eth0".toList] (.start 0 0 none) dnsActions = [dnsDelivery] := by
    rw [sent, dnsActions, observed_append, dnsCaptures_delivered, delivered_aggregates]
    rfl
  have clear : ∀ delivery ∈ sent ["eth0".toList] (.start 0 0 none) dnsActions,
      Clear sampleHost delivery.record.key := by
    rw [question]
    exact List.forall_mem_singleton.mpr dnsDelivery_clear
  have ended : (run step (launch ["eth0".toList] (.start 0 0 none)) dnsActions).pipeline.aggregator.phase = .looping ∧
      (run step (launch ["eth0".toList] (.start 0 0 none)) dnsActions).pipeline.flow.queue = [] := by decide +kernel
  obtain ⟨returned, _, done, current, counted, _, part, all, _, counts⟩ :=
    wire_to_rows ["eth0".toList] sampleHost 0 0 0 none dnsActions dnsActions_onHost clear
      (by rw [question]; decide)
  have every := all ended.1
  rw [question, ended.2, List.append_nil] at every
  rw [question] at part
  have same : counted = [dnsDelivery] := part.eq_of_length (by simpa using (congrArg List.length every).symm)
  have shown := counts.totals ⟨7, 8⟩
  rw [same, dnsDelivery_bytes] at shown
  exact ⟨returned, _, shown⟩

end System
end Netmon.Gui
