import Netmon.Aggregator.State
import Netmon.Resolver.PidMapOrder
import Netmon.Resolver.Sources

/-! The owner of a flow, by the resolver's sockets and by the aggregator's copy of
its connections: when the order of a walk shows, when the two ways agree, and
which sockets lead to their thread. -/
namespace Netmon.Aggregator
open Library Capture Resolver

def socketMatches (flow : FlowKey) (entry : SocketEntry) : Bool := entry.protocol == flow.protocol && flowMatches flow entry

def rowMatches (flow : FlowKey) (conn : ResolvedConnection) : Bool :=
  conn.protocol == flow.protocol && (forwardMatch flow conn || reverseMatch flow conn)

def rowInfo (conn : ResolvedConnection) : ProcessInfo where
  pid := conn.pid
  tid := conn.tid
  name := conn.process
  threadName := conn.threadName
  uid := conn.uid
  username := conn.username

theorem ownerAmong_eq {inodeToProcess : HashMap Nat ProcessInfo} {flow : FlowKey} {entries : List SocketEntry}
    (known : ∀ entry ∈ entries, ∃ info, inodeToProcess.lookup entry.inode = some info) :
    ownerAmong inodeToProcess flow entries =
      (entries.find? (socketMatches flow)).bind fun entry => inodeToProcess.lookup entry.inode := by
  induction entries with
  | nil => rfl
  | cons entry entries ih =>
    have tail := ih fun other member => known other (List.mem_cons_of_mem entry member)
    obtain ⟨info, found⟩ := known entry (by simp)
    rw [ownerAmong, tail, found]
    by_cases kind : entry.protocol = flow.protocol
    · cases hit : flowMatches flow entry with
      | true => simp [kind, hit, socketMatches, found]
      | false => simp [kind, hit, socketMatches]
    · simp [kind, socketMatches]

theorem lookupProcessFromConnections_eq (flow : FlowKey) (rows : List ResolvedConnection) :
    lookupProcessFromConnections flow rows = (rows.find? (rowMatches flow)).bind fun row => some (rowInfo row) := by
  induction rows with
  | nil => rfl
  | cons row rows ih =>
    rw [lookupProcessFromConnections, ih]
    by_cases kind : row.protocol = flow.protocol
    · by_cases forward : forwardMatch flow row = true
      · simp [kind, forward, rowMatches, rowInfo]
      · by_cases reverse : reverseMatch flow row = true
        · simp [kind, forward, reverse, rowMatches, rowInfo]
        · simp [kind, forward, reverse, rowMatches]
    · simp [kind, rowMatches]

theorem rowMatches_connectionOf (scan : InodePidMap) (uidMap : UidMap) (flow : FlowKey) (entry : SocketEntry) :
    rowMatches flow (connectionOf scan uidMap entry) = socketMatches flow entry := rfl

/-- The cache that a call walks over, after its attempt at a refresh. -/
def Walks (outside : Outside) (before cache : ResolverCache) : Prop :=
  ignoreError (refreshIfNeeded outside) before = .ok () cache

theorem resolveFlowOwner_eq {outside : Outside} {before cache : ResolverCache} (walks : Walks outside before cache)
    (order : HashMap.Iteration Nat SocketEntry) (flow : FlowKey) :
    resolveFlowOwner outside order flow before =
      .ok (ownerAmong cache.inodeToProcess flow (order.values cache.socketEntries)) cache := by
  simp only [resolveFlowOwner, bind, EStateM.bind]
  rw [walks]
  rfl

theorem walked_owner {cache : ResolverCache} (coherent : Coherent cache) (order : HashMap.Iteration Nat SocketEntry)
    (flow : FlowKey) :
    ownerAmong cache.inodeToProcess flow (order.values cache.socketEntries) =
      ((order.values cache.socketEntries).find? (socketMatches flow)).bind fun entry =>
        cache.inodeToProcess.lookup entry.inode := by
  apply ownerAmong_eq
  intro entry member
  exact coherent.known (((order.values_perm cache.socketEntries).mem_iff).mp member)

/-- All cached sockets that match the flow have one owner, in both collections. -/
structure SingleOwner (cache : ResolverCache) (flow : FlowKey) : Prop where
  sockets : ∀ first ∈ HashMap.values cache.socketEntries, ∀ second ∈ HashMap.values cache.socketEntries,
    socketMatches flow first = true → socketMatches flow second = true →
      cache.inodeToProcess.lookup first.inode = cache.inodeToProcess.lookup second.inode
  rows : ∀ first ∈ cache.connections, ∀ second ∈ cache.connections,
    rowMatches flow first = true → rowMatches flow second = true → rowInfo first = rowInfo second

theorem attribution_order_independent (cache : ResolverCache) (coherent : Coherent cache) (outside : Outside)
    (before : ResolverCache) (walks : Walks outside before cache) (flow : FlowKey) :
    ((∀ first second : HashMap.Iteration Nat SocketEntry,
        resolveFlowOwner outside first flow before = resolveFlowOwner outside second flow before) ∧
      ∀ rows : List ResolvedConnection, rows.Perm cache.connections →
        lookupProcessFromConnections flow rows = lookupProcessFromConnections flow cache.connections) ↔
      SingleOwner cache flow := by
  have sockets := HashMap.Iteration.firstHit_independent (socketMatches flow)
    (fun entry => cache.inodeToProcess.lookup entry.inode) cache.socketEntries
  have rows := HashMap.firstHit_order_independent (rowMatches flow) (fun row => some (rowInfo row)) cache.connections
  simp only [Option.some.injEq] at rows
  simp only [resolveFlowOwner_eq walks, walked_owner coherent, lookupProcessFromConnections_eq,
    EStateM.Result.ok.injEq, and_true]
  rw [sockets, rows]
  exact ⟨fun both => ⟨both.1, both.2⟩, fun single => ⟨single.sockets, single.rows⟩⟩

/-- Both ends of a connection over the loopback interface, a client's and a server's. -/
def loopbackSockets : List KernelSocket :=
  [(40000, 80, 1), (80, 40000, 2)].map fun (localPort, remotePort, inode) =>
    { transport := .tcp
      addresses := .v4 ⟨127, 0, 0, 1⟩ ⟨127, 0, 0, 1⟩
      localPort := localPort
      remotePort := remotePort
      state := 1
      uid := 1000
      inode := inode }

def loopbackProc : ProcTree where
  readDir path :=
    if path = procDir then some [some "10".toList, some "20".toList]
    else if path = "/proc/10/fd".toList ∨ path = "/proc/20/fd".toList then some [some "3".toList]
    else none
  readLink path := some (if path = "/proc/10/fd/3".toList then "socket:[1]".toList else "socket:[2]".toList)
  read path :=
    if path = "/proc/10/comm".toList then some "curl\n".toList
    else if path = "/proc/20/comm".toList then some "nginx\n".toList
    else some "Uid:\t1000\t1000\t1000\t1000\n".toList

def tableOf (sockets : List KernelSocket) : SocketsByInode := HashMap.insertAll (writes id sockets) ∅

/-- A host without the netlink family. -/
def outsideOf (sockets : List KernelSocket) (proc : ProcTree) : Outside where
  host := .little
  netlink := .error "Protocol not supported (os error 93)".toList
  procNet := plainRead sockets
  proc := proc
  keyOrder := .plain
  valueOrder := .plain
  checked := 0
  refreshed := 0

def cacheOf (sockets : List KernelSocket) (proc : ProcTree) : ResolverCache :=
  (ResolverCache.empty ∅ 0).installed (outsideOf sockets proc) (tableOf sockets)

theorem tableOf_keyed (sockets : List KernelSocket) : Keyed (tableOf sockets) := by
  intro inode entry stored
  rw [tableOf, HashMap.lookup_insertAll, AList.lookup_empty, Option.or_none] at stored
  obtain ⟨socket, _, rfl, rfl⟩ := mem_writes_entry.mp (HashMap.mem_of_lastWrite stored)
  rfl

theorem cacheOf_coherent (sockets : List KernelSocket) (proc : ProcTree) : Coherent (cacheOf sockets proc) :=
  installed_coherent _ _ (tableOf_keyed sockets)

theorem cacheOf_derived (sockets : List KernelSocket) (proc : ProcTree) :
    DerivedFrom ∅ ⟨tableOf sockets, buildInodePidMap proc⟩ (cacheOf sockets proc) :=
  installed_derivedFrom (ResolverCache.empty ∅ 0) (outsideOf sockets proc) (tableOf sockets)

theorem walks_of_fresh {outside : Outside} {cache : ResolverCache} (fresh : isFresh cache outside.checked = true) :
    Walks outside cache cache := by
  simp only [Walks, ignoreError, refreshIfNeeded, bind_get, fresh]
  rfl

theorem cacheOf_walks (sockets : List KernelSocket) (proc : ProcTree) :
    Walks (outsideOf sockets proc) (cacheOf sockets proc) (cacheOf sockets proc) :=
  walks_of_fresh (rfl : isFresh _ 0 = true)

abbrev loopbackCache : ResolverCache := cacheOf loopbackSockets loopbackProc

def loopbackFlow : FlowKey := ⟨.v4 ⟨127, 0, 0, 1⟩, .v4 ⟨127, 0, 0, 1⟩, 40000, 80, .tcp⟩

theorem attribution_order_independent_loopback :
    ((∀ first second : HashMap.Iteration Nat SocketEntry,
        resolveFlowOwner (outsideOf loopbackSockets loopbackProc) first loopbackFlow loopbackCache =
          resolveFlowOwner (outsideOf loopbackSockets loopbackProc) second loopbackFlow loopbackCache) ∧
      ∀ rows : List ResolvedConnection, rows.Perm loopbackCache.connections →
        lookupProcessFromConnections loopbackFlow rows =
          lookupProcessFromConnections loopbackFlow loopbackCache.connections) ↔
      SingleOwner loopbackCache loopbackFlow :=
  attribution_order_independent loopbackCache (cacheOf_coherent loopbackSockets loopbackProc) _ loopbackCache
    (cacheOf_walks loopbackSockets loopbackProc) loopbackFlow

theorem loopback_order_dependent :
    Coherent loopbackCache ∧ ∃ client server : ProcessInfo, client.pid = 10 ∧ server.pid = 20 ∧
      resolveFlowOwner (outsideOf loopbackSockets loopbackProc) .reversed loopbackFlow loopbackCache =
        .ok (some client) loopbackCache ∧
      resolveFlowOwner (outsideOf loopbackSockets loopbackProc) .plain loopbackFlow loopbackCache =
        .ok (some server) loopbackCache ∧
      lookupProcessFromConnections loopbackFlow loopbackCache.connections.reverse = some client ∧
      lookupProcessFromConnections loopbackFlow loopbackCache.connections = some server := by
  refine ⟨cacheOf_coherent loopbackSockets loopbackProc, ⟨10, 10, "curl".toList, "curl".toList, 1000, unknownLabel⟩,
    ⟨20, 20, "nginx".toList, "nginx".toList, 1000, unknownLabel⟩, rfl, rfl, ?_, ?_, by decide +kernel, by decide +kernel⟩
  · exact (resolveFlowOwner_eq (cacheOf_walks _ _) .reversed loopbackFlow).trans rfl
  · exact (resolveFlowOwner_eq (cacheOf_walks _ _) .plain loopbackFlow).trans rfl

theorem processInfoOf_eq_rowInfo_iff (scan : InodePidMap) (uidMap : UidMap) (entry : SocketEntry) :
    processInfoOf scan uidMap entry.inode = rowInfo (connectionOf scan uidMap entry) ↔
      (scan.lookup entry.inode).isSome ∨ (entry.uid = 0 ∧ usernameOf uidMap 0 = unknownLabel) := by
  cases found : scan.lookup entry.inode with
  | some owner => simp [processInfoOf, rowInfo, connectionOf, found]
  | none =>
    simp only [processInfoOf, rowInfo, connectionOf, found, Option.getD_none, Option.isSome_none, Bool.false_eq_true,
      false_or, ProcessInfo.mk.injEq, true_and]
    constructor
    · rintro ⟨uid, username⟩
      rw [← uid] at username
      exact ⟨uid.symm, username.symm⟩
    · rintro ⟨uid, username⟩
      rw [uid]
      exact ⟨rfl, username.symm⟩

theorem derived_known {uidMap : UidMap} {snapshot : Snapshot} {cache : ResolverCache}
    (derived : DerivedFrom uidMap snapshot cache) (keyed : Keyed snapshot.sockets) {entry : SocketEntry}
    (member : entry ∈ HashMap.values cache.socketEntries) :
    cache.inodeToProcess.lookup entry.inode = some (processInfoOf snapshot.scan uidMap entry.inode) := by
  rw [derived.sockets] at member
  obtain ⟨inode, stored⟩ := HashMap.mem_values.mp member
  apply derived.owners
  rw [keyed inode entry stored, ← AList.lookup_isSome, stored]
  rfl

/-- For a flow that one cached socket matches, the two ways give one owner exactly when
a scanned thread owns the socket, or both say nothing: uid 0 without a name. -/
theorem attribution_ways_agree {uidMap : UidMap} {snapshot : Snapshot} {cache : ResolverCache}
    (derived : DerivedFrom uidMap snapshot cache) (keyed : Keyed snapshot.sockets) (outside : Outside)
    (before : ResolverCache) (walks : Walks outside before cache) (order : HashMap.Iteration Nat SocketEntry)
    (flow : FlowKey) (entry : SocketEntry) (cached : entry ∈ HashMap.values cache.socketEntries)
    (hit : socketMatches flow entry = true)
    (only : ∀ other ∈ HashMap.values cache.socketEntries, socketMatches flow other = true → other = entry) :
    (∃ info, resolveFlowOwner outside order flow before = .ok (some info) cache ∧
      lookupProcessFromConnections flow cache.connections = some info) ↔
      (snapshot.scan.lookup entry.inode).isSome ∨ (entry.uid = 0 ∧ usernameOf uidMap 0 = unknownLabel) := by
  have walked := order.values_perm cache.socketEntries
  have resolved : ownerAmong cache.inodeToProcess flow (order.values cache.socketEntries) =
      some (processInfoOf snapshot.scan uidMap entry.inode) := by
    rw [ownerAmong_eq fun other member => ⟨_, derived_known derived keyed (walked.mem_iff.mp member)⟩,
      HashMap.firstHit_eq (walked.mem_iff.mpr cached) hit]
    · exact derived_known derived keyed cached
    · intro other member hits
      rw [only other (walked.mem_iff.mp member) hits]
  have listed : lookupProcessFromConnections flow cache.connections =
      some (rowInfo (connectionOf snapshot.scan uidMap entry)) := by
    obtain ⟨rowOrder, permuted, rows⟩ := derived.rows
    rw [← derived.sockets] at permuted
    rw [lookupProcessFromConnections_eq, rows, HashMap.firstHit_eq (List.mem_map_of_mem (permuted.mem_iff.mpr cached))]
    · exact hit
    · intro row member hits
      obtain ⟨other, otherListed, rfl⟩ := List.mem_map.mp member
      rw [only other (permuted.mem_iff.mp otherListed) hits]
  rw [← processInfoOf_eq_rowInfo_iff, resolveFlowOwner_eq walks, resolved, listed]
  constructor
  · rintro ⟨info, first, second⟩
    cases first
    exact (Option.some.inj second).symm
  · intro same
    exact ⟨_, rfl, by rw [same]⟩

/-- A connection of uid 1000 whose process the scan could not see. -/
def orphanSocket : KernelSocket where
  transport := .tcp
  addresses := .v4 ⟨10, 0, 0, 1⟩ ⟨93, 184, 216, 34⟩
  localPort := 50000
  remotePort := 443
  state := 1
  uid := 1000
  inode := 5

abbrev orphanCache : ResolverCache := cacheOf [orphanSocket] loopbackProc

def orphanFlow : FlowKey := ⟨.v4 ⟨10, 0, 0, 1⟩, .v4 ⟨93, 184, 216, 34⟩, 50000, 443, .tcp⟩

theorem values_cacheOf_singleton (socket : KernelSocket) (proc : ProcTree) :
    HashMap.values (cacheOf [socket] proc).socketEntries = [socket.entry] := rfl

theorem attribution_ways_agree_orphan :
    (∃ info, resolveFlowOwner (outsideOf [orphanSocket] loopbackProc) .plain orphanFlow orphanCache =
        .ok (some info) orphanCache ∧ lookupProcessFromConnections orphanFlow orphanCache.connections = some info) ↔
      ((buildInodePidMap loopbackProc).lookup orphanSocket.entry.inode).isSome ∨
        (orphanSocket.entry.uid = 0 ∧ usernameOf ∅ 0 = unknownLabel) :=
  attribution_ways_agree (cacheOf_derived [orphanSocket] loopbackProc) (tableOf_keyed [orphanSocket]) _ orphanCache
    (cacheOf_walks [orphanSocket] loopbackProc) .plain orphanFlow orphanSocket.entry
    (by simp [values_cacheOf_singleton]) (by decide) (by simp [values_cacheOf_singleton])

theorem orphan_ways_differ :
    ∃ resolved listed : ProcessInfo,
      resolveFlowOwner (outsideOf [orphanSocket] loopbackProc) .plain orphanFlow orphanCache =
        .ok (some resolved) orphanCache ∧
      lookupProcessFromConnections orphanFlow orphanCache.connections = some listed ∧
      HashMap.values orphanCache.socketEntries = [orphanSocket.entry] ∧ resolved.uid = 0 ∧ listed.uid = 1000 := by
  refine ⟨unknownProcess, { unknownProcess with uid := 1000 }, ?_, by decide +kernel, rfl, rfl, rfl⟩
  exact (resolveFlowOwner_eq (cacheOf_walks _ _) .plain orphanFlow).trans rfl

/-- The socket is connected, and has the two endpoints of the flow in either direction. -/
def HasEnds (flow : FlowKey) (entry : SocketEntry) : Prop :=
  let source : SocketAddr := ⟨flow.srcIp, flow.srcPort⟩
  let destination : SocketAddr := ⟨flow.dstIp, flow.dstPort⟩
  entry.protocol = flow.protocol ∧ ((entry.localAddr = source ∧ entry.remoteAddr = destination) ∨
    (entry.localAddr = destination ∧ entry.remoteAddr = source))

theorem socketMatches_iff (flow : FlowKey) (entry : SocketEntry) : socketMatches flow entry = true ↔ HasEnds flow entry := by
  obtain ⟨inode, ⟨localIp, localPort⟩, ⟨remoteIp, remotePort⟩, state, uid, protocol⟩ := entry
  simp [socketMatches, flowMatches, HasEnds, and_assoc]

theorem processRecord_info (record : FlowRecord) (resolved : Option ProcessInfo) (connectionCache : List ResolvedConnection)
    (now connectionNow : Instant) (state : State) :
    let info := flowOwner record.key resolved connectionCache
    ((processRecord record resolved connectionCache now connectionNow state).statsByThread.lookup (ownerKey info)).map
      (·.info) = some info := by
  simp only [processRecord]
  split <;> simp

/-- A connected socket of a scanned thread leads its flow to that thread, when no socket
of another thread has the same two endpoints. -/
theorem connected_flow_attributed {uidMap : UidMap} {snapshot : Snapshot} {cache : ResolverCache}
    (derived : DerivedFrom uidMap snapshot cache) (keyed : Keyed snapshot.sockets) (outside : Outside)
    (before : ResolverCache) (walks : Walks outside before cache) (order : HashMap.Iteration Nat SocketEntry)
    (record : FlowRecord) (entry : SocketEntry) (cached : entry ∈ HashMap.values cache.socketEntries)
    (ends : HasEnds record.key entry) (owner : InodePidEntry) (owned : snapshot.scan.lookup entry.inode = some owner)
    (single : ∀ other ∈ HashMap.values cache.socketEntries, HasEnds record.key other →
      snapshot.scan.lookup other.inode = some owner)
    (connectionCache : List ResolvedConnection) (now connectionNow : Instant) (state : State) :
    ∃ info : ProcessInfo, info.pid = owner.pid ∧ info.tid = owner.tid ∧ info.name = owner.processName ∧
      info.threadName = owner.threadName ∧
      resolveFlowOwner outside order record.key before = .ok (some info) cache ∧
      ((processRecord record (some info) connectionCache now connectionNow state).statsByThread.lookup
        ⟨owner.pid, owner.tid⟩).map (·.info) = some info := by
  have walked := order.values_perm cache.socketEntries
  have shown {other : SocketEntry} (scanned : snapshot.scan.lookup other.inode = some owner) :
      processInfoOf snapshot.scan uidMap other.inode =
        ⟨owner.pid, owner.tid, owner.processName, owner.threadName, owner.uid, usernameOf uidMap owner.uid⟩ := by
    rw [processInfoOf, scanned]
  have resolved : ownerAmong cache.inodeToProcess record.key (order.values cache.socketEntries) =
      some (processInfoOf snapshot.scan uidMap entry.inode) := by
    rw [ownerAmong_eq fun other member => ⟨_, derived_known derived keyed (walked.mem_iff.mp member)⟩,
      HashMap.firstHit_eq (walked.mem_iff.mpr cached) ((socketMatches_iff record.key entry).mpr ends)]
    · exact derived_known derived keyed cached
    · intro other member hits
      have present := walked.mem_iff.mp member
      have scanned := single other present ((socketMatches_iff record.key other).mp hits)
      rw [derived_known derived keyed present, derived_known derived keyed cached, shown scanned, shown owned]
  rw [shown owned] at resolved
  refine ⟨⟨owner.pid, owner.tid, owner.processName, owner.threadName, owner.uid, usernameOf uidMap owner.uid⟩,
    rfl, rfl, rfl, rfl, ?_, ?_⟩
  · rw [resolveFlowOwner_eq walks, resolved]
  · exact processRecord_info record (some ⟨owner.pid, owner.tid, owner.processName, owner.threadName, owner.uid,
      usernameOf uidMap owner.uid⟩) connectionCache now connectionNow state

def ownedSocket : KernelSocket := { orphanSocket with inode := 1 }

def ownedRecord : FlowRecord := ⟨orphanFlow, 60, 0, .tx⟩

theorem connected_flow_attributed_owned :
    ∃ info : ProcessInfo, info.pid = 10 ∧ info.tid = 10 ∧ info.name = "curl".toList ∧ info.threadName = "curl".toList ∧
      resolveFlowOwner (outsideOf [ownedSocket] loopbackProc) .plain ownedRecord.key (cacheOf [ownedSocket] loopbackProc) =
        .ok (some info) (cacheOf [ownedSocket] loopbackProc) ∧
      ((processRecord ownedRecord (some info) [] 0 0 (State.initial 0)).statsByThread.lookup ⟨10, 10⟩).map (·.info) =
        some info :=
  connected_flow_attributed (cacheOf_derived [ownedSocket] loopbackProc) (tableOf_keyed [ownedSocket]) _ _
    (cacheOf_walks [ownedSocket] loopbackProc) .plain ownedRecord ownedSocket.entry
    (by simp [values_cacheOf_singleton]) ((socketMatches_iff _ _).mp (by decide))
    ⟨10, 10, "curl".toList, "curl".toList, 1000⟩ (by decide +kernel)
    (by
      intro other member _
      rw [values_cacheOf_singleton, List.mem_singleton] at member
      subst member
      decide +kernel) [] 0 0 (State.initial 0)

/-- Some cached socket has the protocol and the two endpoints of the flow. -/
def HasSocket (cache : ResolverCache) (flow : FlowKey) : Prop := ∃ entry ∈ HashMap.values cache.socketEntries, HasEnds flow entry

theorem walked_owner_found {cache : ResolverCache} (coherent : Coherent cache) (order : HashMap.Iteration Nat SocketEntry)
    (flow : FlowKey) {info : ProcessInfo}
    (found : ownerAmong cache.inodeToProcess flow (order.values cache.socketEntries) = some info) :
    ∃ entry ∈ HashMap.values cache.socketEntries, HasEnds flow entry ∧ cache.inodeToProcess.lookup entry.inode = some info := by
  rw [walked_owner coherent] at found
  obtain ⟨entry, hit, owned⟩ := Option.bind_eq_some_iff.mp found
  refine ⟨entry, ?_, ?_, owned⟩
  · exact (order.values_perm cache.socketEntries).mem_iff.mp (List.mem_of_find?_eq_some hit)
  · exact (socketMatches_iff flow entry).mp (List.find?_some hit)

theorem walked_owner_isSome {cache : ResolverCache} (coherent : Coherent cache) (order : HashMap.Iteration Nat SocketEntry)
    (flow : FlowKey) :
    (ownerAmong cache.inodeToProcess flow (order.values cache.socketEntries)).isSome = true ↔ HasSocket cache flow := by
  constructor
  · intro found
    obtain ⟨info, found⟩ := Option.isSome_iff_exists.mp found
    obtain ⟨entry, cached, ends, _⟩ := walked_owner_found coherent order flow found
    exact ⟨entry, cached, ends⟩
  · rintro ⟨entry, cached, ends⟩
    have walked := (order.values_perm cache.socketEntries).mem_iff.mpr cached
    rw [walked_owner coherent]
    cases hit : (order.values cache.socketEntries).find? (socketMatches flow) with
    | none => exact absurd ((socketMatches_iff flow entry).mpr ends) (List.find?_eq_none.mp hit entry walked)
    | some first =>
      have listed := (order.values_perm cache.socketEntries).mem_iff.mp (List.mem_of_find?_eq_some hit)
      obtain ⟨info, owned⟩ := coherent.known listed
      rw [Option.bind_some, owned]
      rfl

/-- In every reachable cache a call without a refresh answers exactly when a cached socket has the two endpoints, with the
owner of such a socket; the connections of the aggregator are consulted only when none has. -/
theorem flow_owner_exact (uidMap : UidMap) (start : Int) (calls : List Call) (outside : Outside)
    (order : HashMap.Iteration Nat SocketEntry) (flow : FlowKey)
    (fresh : isFresh (run Resolver.step (.empty uidMap start) calls) outside.checked = true) :
    let cache := run Resolver.step (.empty uidMap start) calls
    ∃ resolved, resolveFlowOwner outside order flow cache = .ok resolved cache ∧
      (resolved.isSome = true ↔ HasSocket cache flow) ∧
      (∀ info, resolved = some info → ∃ entry ∈ HashMap.values cache.socketEntries,
        HasEnds flow entry ∧ cache.inodeToProcess.lookup entry.inode = some info) ∧
      (HasSocket cache flow → ∀ record : FlowRecord, record.key = flow → ∀ first second : List ResolvedConnection,
        processRecord record resolved first = processRecord record resolved second) := by
  intro cache
  have coherent : Coherent cache := (run_coherent uidMap start calls).1
  refine ⟨_, resolveFlowOwner_eq (walks_of_fresh fresh) order flow, walked_owner_isSome coherent order flow,
    fun info found => walked_owner_found coherent order flow found, ?_⟩
  rintro matched record rfl first second
  obtain ⟨info, found⟩ := Option.isSome_iff_exists.mp ((walked_owner_isSome coherent order record.key).mpr matched)
  rw [found]
  rfl

def ownedCalls : List Call := [.refresh (outsideOf [ownedSocket] loopbackProc)]

theorem flow_owner_exact_owned :
    let cache := run Resolver.step (.empty ∅ 0) ownedCalls
    ∃ resolved, resolveFlowOwner (outsideOf [] loopbackProc) .plain ownedRecord.key cache = .ok resolved cache ∧
      (resolved.isSome = true ↔ HasSocket cache ownedRecord.key) ∧
      (∀ info, resolved = some info → ∃ entry ∈ HashMap.values cache.socketEntries,
        HasEnds ownedRecord.key entry ∧ cache.inodeToProcess.lookup entry.inode = some info) ∧
      (HasSocket cache ownedRecord.key → ∀ record : FlowRecord, record.key = ownedRecord.key →
        ∀ first second : List ResolvedConnection,
          processRecord record resolved first = processRecord record resolved second) :=
  flow_owner_exact ∅ 0 ownedCalls (outsideOf [] loopbackProc) .plain ownedRecord.key (by decide +kernel)

def isUnspecified : IpAddr → Bool
  | .v4 address => address = ⟨0, 0, 0, 0⟩
  | .v6 address => address.octets = List.replicate 16 0

/-- An IPv4-mapped IPv6 address stands for the IPv4 address. -/
def canonical : IpAddr → IpAddr
  | .v4 address => .v4 address
  | .v6 address =>
    if address.octets.take 12 = List.replicate 10 0 ++ [255, 255] then
      .v4 ⟨octet address.octets 12, octet address.octets 13, octet address.octets 14, octet address.octets 15⟩
    else .v6 address

/-- The kernel hands packets of the flow to the socket, unless a more specific one takes them. -/
structure Demultiplexes (entry : SocketEntry) (record : FlowRecord) : Prop where
  protocol : entry.protocol = record.key.protocol
  port : entry.localAddr.port = (localEnd record).port
  address : isUnspecified entry.localAddr.ip = true ∨ canonical entry.localAddr.ip = canonical (localEnd record).ip
  remote : (isUnspecified entry.remoteAddr.ip = true ∧ entry.remoteAddr.port = 0) ∨
    (canonical entry.remoteAddr.ip = canonical (remoteEnd record).ip ∧ entry.remoteAddr.port = (remoteEnd record).port)

def queryRecord : FlowRecord := ⟨⟨.v4 ⟨127, 0, 0, 1⟩, .v4 ⟨127, 0, 0, 53⟩, 40000, 53, .udp⟩, 70, 0, .rx⟩

theorem unconnected_flow_unattributed :
    ∃ (cache : ResolverCache) (entry : SocketEntry) (owner : InodePidEntry),
      refresh (outsideOf sampleSockets threadedServer) (.empty ∅ 0) = .ok () cache ∧
      entry ∈ HashMap.values cache.socketEntries ∧ Demultiplexes entry queryRecord ∧
      (∀ other ∈ HashMap.values cache.socketEntries, Demultiplexes other queryRecord → other = entry) ∧
      (buildInodePidMap threadedServer).lookup entry.inode = some owner ∧ owner.pid = 7 ∧
      resolveFlowOwner (outsideOf sampleSockets threadedServer) .plain queryRecord.key cache = .ok none cache ∧
      flowOwner queryRecord.key none cache.connections = unknownProcess := by
  have shows : (outsideOf sampleSockets threadedServer).Shows sampleSockets :=
    ⟨by simp [outsideOf, querySockets], ⟨plainProcNet sampleSockets⟩⟩
  obtain ⟨order, listed, inodes⟩ := socketInodes_shown shows
  have distinct : (sampleSockets.map KernelSocket.inode).Nodup := by decide
  let found := HashMap.insertAll (writes SocketEntry.asFallback order) ∅
  let cache := (ResolverCache.empty ∅ 0).installed (outsideOf sampleSockets threadedServer) found
  have lookup (inode : Nat) : found.lookup inode = HashMap.lastWrite inode (writes SocketEntry.asFallback sampleSockets) := by
    rw [HashMap.lookup_insertAll, AList.lookup_empty, Option.or_none, lastWrite_of_distinct _ distinct listed]
  have entries {entry : SocketEntry} (member : entry ∈ HashMap.values found) :
      entry ∈ sampleSockets.map fun socket => socket.entry.asFallback := by
    obtain ⟨inode, stored⟩ := HashMap.mem_values.mp member
    rw [lookup] at stored
    obtain ⟨socket, present, _, rfl⟩ := mem_writes_entry.mp (HashMap.mem_of_lastWrite stored)
    exact List.mem_map_of_mem present
  have unmatched : ∀ entry ∈ sampleSockets.map fun socket => socket.entry.asFallback,
      socketMatches queryRecord.key entry = false := by
    decide
  have keyed : Keyed found := socketInodes_keyed inodes
  have walks : Walks (outsideOf sampleSockets threadedServer) cache cache := walks_of_fresh (rfl : isFresh _ 0 = true)
  refine ⟨cache, dnsSocket.entry.asFallback, ⟨7, 8, "server".toList, "worker".toList, 1000⟩, ?_, ?_, ?_, ?_,
    threadedServer_owner, rfl, ?_, ?_⟩
  · rw [refresh, inodes]
  · apply HashMap.mem_values.mpr
    refine ⟨77, (lookup 77).trans ?_⟩
    rfl
  · exact ⟨rfl, rfl, Or.inr rfl, Or.inl ⟨rfl, rfl⟩⟩
  · intro other member demultiplexed
    have cases := entries member
    simp only [sampleSockets, List.map_cons, List.map_nil, List.mem_cons, List.not_mem_nil, or_false] at cases
    rcases cases with rfl | rfl
    · rfl
    · cases demultiplexed.protocol
  · rw [resolveFlowOwner_eq walks, walked_owner (installed_coherent _ _ keyed)]
    have nothing : (HashMap.Iteration.plain.values found).find? (socketMatches queryRecord.key) = none := by
      rw [List.find?_eq_none]
      intro entry member
      simp [unmatched entry (entries member)]
    rw [show cache.socketEntries = found from rfl, nothing]
    rfl
  · have nothing : cache.connections.find? (rowMatches queryRecord.key) = none := by
      rw [List.find?_eq_none]
      intro row member
      obtain ⟨entry, valued, rfl⟩ := List.mem_map.mp member
      rw [rowMatches_connectionOf, unmatched entry (entries valued)]
      simp
    rw [flowOwner, lookupProcessFromConnections_eq, nothing]
    rfl

end Netmon.Aggregator
