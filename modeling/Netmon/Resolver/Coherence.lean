import Netmon.Resolver.Cache

/-! Coherence of the resolver's cache: its three collections come from one refresh
and agree on every socket, over every run of calls, and a failed refresh leaves
them as they are. -/
namespace Netmon.Resolver
open Library

def Keyed (found : SocketsByInode) : Prop :=
  ∀ inode entry, found.lookup inode = some entry → entry.inode = inode

theorem Keyed.insert {found : SocketsByInode} (keyed : Keyed found) (entry : SocketEntry) :
    Keyed (found.insert entry.inode entry) := by
  intro inode stored located
  by_cases same : inode = entry.inode
  · subst same
    rw [AList.lookup_insert] at located
    cases located
    rfl
  · rw [AList.lookup_insert_ne same] at located
    exact keyed inode stored located

theorem Keyed.empty : Keyed ∅ := by
  intro inode entry located
  cases located

section Host
variable (host : Endian)

theorem parseKernelError_keeps (payload : Bytes) : Keeps Keyed (parseKernelError host payload) := by
  unfold parseKernelError
  split
  · exact Keeps.throw _
  · split
    · exact Keeps.pure _
    · split
      · exact Keeps.throw _
      · exact Keeps.pure _

theorem orStop_keeps {α : Type} (result : Except NetlinkError α) : Keeps Keyed (orStop result) := by
  cases result with
  | ok value => exact Keeps.pure value
  | error error => exact Keeps.throw _

theorem recordMessage_keeps {header : RawNlmsghdr} {payload : Bytes} {protocolKind : Protocol} {rest : Query Bool}
    (later : Keeps Keyed rest) :
    Keeps Keyed (if header.nlmsgType = sockDiagByFamilyType then do
      let entry ← orStop (parseInetDiagMessage host payload protocolKind)
      modify (AList.insert entry.inode entry)
      rest
    else rest) := by
  split
  · apply Keeps.bind (orStop_keeps _)
    intro entry
    exact Keeps.bind (Keeps.modify fun found keyed => keyed.insert entry) fun _ => later
  · exact later

theorem parseMessagesFrom_keeps (responseBytes : Bytes) (protocolKind : Protocol) (offset : Nat) :
    Keeps Keyed (parseMessagesFrom host responseBytes protocolKind offset) := by
  induction offset using parseMessagesFrom.induct host responseBytes protocolKind with
  | case1 offset present unread =>
    rw [parseMessagesFrom, dif_pos present, unread]
    exact Keeps.throw _
  | case2 offset present header read empty =>
    rw [parseMessagesFrom, dif_pos present, read]
    simp only [dif_pos empty]
    exact Keeps.throw _
  | case3 offset present header read filled messageLen outside =>
    rw [parseMessagesFrom, dif_pos present, read]
    simp only [dif_neg filled]
    rw [if_pos outside]
    exact Keeps.throw _
  | case4 offset present header read filled messageLen inside payloadOffset payloadLen payload sliced ih =>
    rw [parseMessagesFrom, dif_pos present, read]
    simp only [dif_neg filled]
    rw [if_neg inside]
    simp only [payloadOffset, payloadLen, messageLen] at sliced
    rw [sliced]
    apply Keeps.bind (Keeps.pure payload)
    intro payload
    split
    · exact Keeps.pure true
    · rename_i goesOn
      split
      · apply Keeps.bind (parseKernelError_keeps host payload)
        intro kernelError
        exact Keeps.bind (Keeps.throw _) fun _ => recordMessage_keeps host (ih goesOn)
      · exact recordMessage_keeps host (ih goesOn)
  | case5 offset present header read filled messageLen inside payloadOffset payloadLen panic sliced ih =>
    rw [parseMessagesFrom, dif_pos present, read]
    simp only [dif_neg filled]
    rw [if_neg inside]
    simp only [payloadOffset, payloadLen, messageLen] at sliced
    rw [sliced]
    exact Keeps.throw (Stop.panic panic)
  | case6 offset ended =>
    rw [parseMessagesFrom, dif_neg ended]
    exact Keeps.pure false

theorem receiveUntilDone_keeps (protocolKind : Protocol) (recvBuffer : RecvBuffer) (incoming : List (Except Text Bytes)) :
    Keeps Keyed (receiveUntilDone host protocolKind recvBuffer incoming) := by
  induction incoming generalizing recvBuffer with
  | nil => exact Keeps.throw _
  | cons received incoming ih =>
    cases received with
    | error error => exact Keeps.throw _
    | ok datagram =>
      have goesOn (responseBytes : Bytes) : Keeps Keyed (do
          if ← parseResponseMessages host responseBytes protocolKind then return incoming
          receiveUntilDone host protocolKind (recvBuffer.advanced datagram) incoming) := by
        apply Keeps.bind (parseMessagesFrom_keeps host responseBytes protocolKind 0)
        intro done
        split
        · exact Keeps.pure incoming
        · exact ih (recvBuffer.advanced datagram)
      rw [receiveUntilDone]
      split
      · exact Keeps.throw _
      · dsimp only
        split
        · exact Keeps.bind (Keeps.pure _) goesOn
        · exact Keeps.bind (Keeps.throw _) goesOn

theorem queryFamilyProtocol_keeps (socket : NetlinkSocket) (family protocol : UInt8) (protocolKind : Protocol) :
    Keeps Keyed (queryFamilyProtocol host socket family protocol protocolKind) := by
  simp only [queryFamilyProtocol]
  split
  · exact Keeps.throw _
  · split
    · exact Keeps.throw _
    · exact Keeps.bind (receiveUntilDone_keeps host protocolKind _ _) fun _ => Keeps.pure _

theorem querySockets_keyed {opened : Except Text NetlinkSocket} {found : SocketsByInode}
    (queried : querySockets host opened = .ok found) : Keyed found := by
  unfold querySockets at queried
  split at queried
  · cases queried
  · rename_i socket
    have keeps : Keeps Keyed (queryFamilies host socket) :=
      Keeps.bind (queryFamilyProtocol_keeps host _ _ _ _) fun _ =>
        Keeps.bind (queryFamilyProtocol_keeps host _ _ _ _) fun _ =>
          Keeps.bind (queryFamilyProtocol_keeps host _ _ _ _) fun _ => queryFamilyProtocol_keeps host _ _ _ _
    exact keeps.collected Keyed.empty queried

end Host

theorem readProcFile_keeps (read : Text → Except Text Text) (filePath : Text) (protocol : Protocol) (isIpv4 : Bool) :
    Keeps Keyed (readProcFile read filePath protocol isIpv4) := by
  unfold readProcFile
  split
  · exact Keeps.throw _
  · apply Keeps.forM
    intro line
    unfold recordRow
    split
    · exact Keeps.throw _
    · exact Keeps.modify fun found keyed => keyed.insert _

theorem readProcNet_keyed {read : Text → Except Text Text} {found : SocketsByInode} (tabulated : readProcNet read = .ok found) :
    Keyed found := by
  have keeps : Keeps Keyed (readProcFiles read) :=
    Keeps.bind (readProcFile_keeps read _ _ _) fun _ =>
      Keeps.bind (readProcFile_keeps read _ _ _) fun _ =>
        Keeps.bind (readProcFile_keeps read _ _ _) fun _ => readProcFile_keeps read _ _ _
  exact keeps.collected Keyed.empty tabulated

theorem socketInodes_keyed {outside : Outside} {inodes : SocketsByInode} (listed : socketInodes outside = .ok inodes) :
    Keyed inodes := by
  unfold socketInodes at listed
  split at listed
  · rename_i queried
    cases listed
    exact querySockets_keyed outside.host queried
  · cases listed
  · cases listed
  · split at listed
    · rename_i tabulated
      cases listed
      exact readProcNet_keyed tabulated
    · cases listed
    · cases listed

/-- A connection row shows its socket entry and the threads' names at that inode. -/
structure RowOf (cache : ResolverCache) (entry : SocketEntry) (row : ResolvedConnection) : Prop where
  localAddr : row.localAddr = entry.localAddr
  remoteAddr : row.remoteAddr = entry.remoteAddr
  protocol : row.protocol = entry.protocol
  state : row.state = entry.state
  inode : row.inode = entry.inode
  owner : ∃ info, cache.inodeToProcess.lookup entry.inode = some info ∧ row.pid = info.pid ∧ row.tid = info.tid ∧
    row.process = info.name ∧ row.threadName = info.threadName

structure Coherent (cache : ResolverCache) : Prop where
  keys : ∀ inode, inode ∈ cache.inodeToProcess ↔ inode ∈ cache.socketEntries
  ownInode : Keyed cache.socketEntries
  /-- One row for each entry, in the order of some walk over the table. -/
  rows : ∃ order : List SocketEntry, order.Perm (HashMap.values cache.socketEntries) ∧
    List.Forall₂ (RowOf cache) order cache.connections

theorem Coherent.known {cache : ResolverCache} (coherent : Coherent cache) {entry : SocketEntry}
    (member : entry ∈ HashMap.values cache.socketEntries) :
    ∃ info, cache.inodeToProcess.lookup entry.inode = some info := by
  obtain ⟨inode, stored⟩ := HashMap.mem_values.mp member
  have present : inode ∈ cache.socketEntries := by
    rw [← AList.lookup_isSome, stored]
    rfl
  have joined := (coherent.keys inode).mpr present
  rw [coherent.ownInode inode entry stored]
  exact Option.isSome_iff_exists.mp (AList.lookup_isSome.mpr joined)

/-- The sockets and the scan of a refresh. -/
structure Snapshot where
  sockets : SocketsByInode
  scan : InodePidMap

structure DerivedFrom (uidMap : UidMap) (snapshot : Snapshot) (cache : ResolverCache) : Prop where
  users : cache.uidMap = uidMap
  sockets : cache.socketEntries = snapshot.sockets
  owners : ∀ inode ∈ snapshot.sockets,
    cache.inodeToProcess.lookup inode = some (processInfoOf snapshot.scan uidMap inode)
  rows : ∃ order : List SocketEntry, order.Perm (HashMap.values snapshot.sockets) ∧
    cache.connections = order.map (connectionOf snapshot.scan uidMap)

theorem connectionOf_owner (scan : InodePidMap) (uidMap : UidMap) (entry : SocketEntry) :
    let row := connectionOf scan uidMap entry
    let info := processInfoOf scan uidMap entry.inode
    row.pid = info.pid ∧ row.tid = info.tid ∧ row.process = info.name ∧ row.threadName = info.threadName := by
  simp only [connectionOf, processInfoOf]
  cases scan.lookup entry.inode with
  | none => exact ⟨rfl, rfl, rfl, rfl⟩
  | some owner => exact ⟨rfl, rfl, rfl, rfl⟩

theorem lookup_buildInodeProcessMap (scan : InodePidMap) (uidMap : UidMap) (order : HashMap.Iteration Nat SocketEntry)
    (sockets : SocketsByInode) (inode : Nat) :
    (buildInodeProcessMap scan uidMap order sockets).lookup inode =
      if inode ∈ sockets then some (processInfoOf scan uidMap inode) else none := by
  rw [buildInodeProcessMap, HashMap.lookup_foldl_insert]
  simp only [order.mem_keys sockets inode, AList.lookup_empty]

theorem installed_derivedFrom (cache : ResolverCache) (outside : Outside) (inodes : SocketsByInode) :
    DerivedFrom cache.uidMap ⟨inodes, buildInodePidMap outside.proc⟩ (cache.installed outside inodes) where
  users := rfl
  sockets := rfl
  owners inode member := by
    rw [ResolverCache.installed, lookup_buildInodeProcessMap, if_pos member]
  rows := ⟨outside.valueOrder.values inodes, outside.valueOrder.values_perm inodes, rfl⟩

theorem installed_coherent (cache : ResolverCache) (outside : Outside) {inodes : SocketsByInode} (keyed : Keyed inodes) :
    Coherent (cache.installed outside inodes) where
  keys inode := by
    have found := lookup_buildInodeProcessMap (buildInodePidMap outside.proc) cache.uidMap outside.keyOrder inodes inode
    have listed : inode ∈ buildInodeProcessMap (buildInodePidMap outside.proc) cache.uidMap outside.keyOrder inodes ↔
        inode ∈ inodes := by
      rw [← AList.lookup_isSome, found]
      split <;> simp_all
    exact listed
  ownInode := keyed
  rows := by
    refine ⟨outside.valueOrder.values inodes, outside.valueOrder.values_perm inodes, ?_⟩
    rw [ResolverCache.installed, buildConnections, List.forall₂_map_right_iff, List.forall₂_same]
    intro entry member
    obtain ⟨inode, stored⟩ := HashMap.mem_values.mp ((outside.valueOrder.values_perm inodes).mem_iff.mp member)
    have present : entry.inode ∈ inodes := by
      rw [keyed inode entry stored, ← AList.lookup_isSome, stored]
      rfl
    refine ⟨rfl, rfl, rfl, rfl, rfl, processInfoOf (buildInodePidMap outside.proc) cache.uidMap entry.inode, ?_, ?_⟩
    · rw [lookup_buildInodeProcessMap, if_pos present]
    · exact connectionOf_owner _ _ _

def Call.attempts (cache : ResolverCache) : Call → Bool
  | .refresh _ => true
  | call => !isFresh cache call.outside.checked

/-- The refresh that a call makes, when it succeeds. -/
def Call.refreshed (cache : ResolverCache) (call : Call) : List Snapshot :=
  if call.attempts cache then
    match socketInodes call.outside with
    | .ok inodes => [⟨inodes, buildInodePidMap call.outside.proc⟩]
    | .error _ => []
  else []

theorem refresh_error {outside : Outside} {cache next : ResolverCache} {halt : Halt}
    (failed : refresh outside cache = .error halt next) : next = cache := by
  unfold refresh at failed
  split at failed
  · cases failed
    rfl
  · cases failed

theorem finalState_refresh (outside : Outside) (cache : ResolverCache) :
    finalState (refresh outside) cache =
      match socketInodes outside with
      | .ok inodes => cache.installed outside inodes
      | .error _ => cache := by
  unfold finalState refresh
  cases socketInodes outside <;> rfl

theorem finalState_refreshIfNeeded (outside : Outside) (cache : ResolverCache) :
    finalState (refreshIfNeeded outside) cache =
      if isFresh cache outside.checked then cache else finalState (refresh outside) cache := by
  unfold refreshIfNeeded finalState
  rw [bind_get]
  cases isFresh cache outside.checked <;> rfl

theorem finalState_ignoreError (action : Resolving Unit) (cache : ResolverCache) :
    finalState (ignoreError action) cache = finalState action cache := by
  unfold finalState ignoreError
  cases action cache with
  | ok value next => rfl
  | error halt next => cases halt <;> rfl

/-- Every call is an attempt at a refresh or leaves the cache as it is. -/
theorem step_eq (cache : ResolverCache) (call : Call) :
    step cache call = if call.attempts cache then finalState (refresh call.outside) cache else cache := by
  have needed (outside : Outside) : finalState (refreshIfNeeded outside) cache =
      if (!isFresh cache outside.checked) then finalState (refresh outside) cache else cache := by
    rw [finalState_refreshIfNeeded]
    cases isFresh cache outside.checked <;> rfl
  have answered {α : Type} (outside : Outside) (answer : ResolverCache → α) :
      finalState (do ignoreError (refreshIfNeeded outside); return answer (← get)) cache =
        finalState (refreshIfNeeded outside) cache := by
    rw [finalState_bind, ← finalState_ignoreError]
    unfold finalState
    cases ignoreError (refreshIfNeeded outside) cache <;> rfl
  cases call with
  | refresh outside => rfl
  | refreshIfNeeded outside => exact needed outside
  | resolveFlowOwner outside order flow => exact (answered outside _).trans (needed outside)
  | listConnections outside => exact (answered outside _).trans (needed outside)
  | processByPid outside order pid => exact (answered outside _).trans (needed outside)

theorem step_cases (cache : ResolverCache) (call : Call) :
    (step cache call = cache ∧ call.refreshed cache = []) ∨
      ∃ inodes, socketInodes call.outside = .ok inodes ∧ step cache call = cache.installed call.outside inodes ∧
        call.refreshed cache = [⟨inodes, buildInodePidMap call.outside.proc⟩] := by
  rw [step_eq, Call.refreshed]
  split
  · rw [finalState_refresh]
    cases listed : socketInodes call.outside with
    | error halt => exact Or.inl ⟨rfl, rfl⟩
    | ok inodes => exact Or.inr ⟨inodes, rfl, rfl, rfl⟩
  · exact Or.inl ⟨rfl, rfl⟩

/-- What the last successful refresh, if there was one, determines. -/
structure Traced (uidMap : UidMap) (start : Int) (last : Option Snapshot) (cache : ResolverCache) : Prop where
  coherent : Coherent cache
  derived : ∀ snapshot, last = some snapshot → DerivedFrom uidMap snapshot cache
  untouched : last = none → cache = .empty uidMap start

theorem Traced.users {uidMap : UidMap} {start : Int} {last : Option Snapshot} {cache : ResolverCache}
    (traced : Traced uidMap start last cache) : cache.uidMap = uidMap := by
  cases last with
  | none => rw [traced.untouched rfl]; rfl
  | some snapshot => exact (traced.derived snapshot rfl).users

theorem empty_coherent (uidMap : UidMap) (start : Int) : Coherent (.empty uidMap start) where
  keys inode := by simp [ResolverCache.empty]
  ownInode := Keyed.empty
  rows := ⟨[], List.Perm.refl [], List.Forall₂.nil⟩

theorem Traced.step {uidMap : UidMap} {start : Int} {last : Option Snapshot} {cache : ResolverCache}
    (traced : Traced uidMap start last cache) (call : Call) :
    Traced uidMap start ((call.refreshed cache).getLast?.or last) (step cache call) := by
  rcases step_cases cache call with ⟨kept, nothing⟩ | ⟨inodes, listed, installed, once⟩
  · rw [kept, nothing]
    exact traced
  · rw [installed, once]
    refine ⟨installed_coherent cache call.outside (socketInodes_keyed listed), ?_, ?_⟩
    · intro snapshot same
      cases same
      have derived := installed_derivedFrom cache call.outside inodes
      rwa [traced.users] at derived
    · intro never
      cases never

theorem Traced.run {uidMap : UidMap} {start : Int} {last : Option Snapshot} {cache : ResolverCache}
    (traced : Traced uidMap start last cache) (calls : List Call) :
    Traced uidMap start ((observed Resolver.step (fun cache call => call.refreshed cache) cache calls).getLast?.or last)
      (Library.run Resolver.step cache calls) := by
  induction calls generalizing cache last with
  | nil => exact traced
  | cons call calls ih =>
    have tail := ih (traced.step call)
    rw [observed, List.getLast?_append, Option.or_assoc]
    exact tail

/-- After every sequence of calls the collections agree and come from the last
successful refresh, and a refresh that fails in that state changes no field. -/
theorem run_coherent (uidMap : UidMap) (start : Int) (calls : List Call) :
    let cache := run step (.empty uidMap start) calls
    let refreshes := observed step (fun cache call => call.refreshed cache) (.empty uidMap start) calls
    Coherent cache ∧
      (∀ snapshot, refreshes.getLast? = some snapshot → DerivedFrom uidMap snapshot cache) ∧
      (refreshes = [] → cache = .empty uidMap start) ∧
      ∀ outside halt next, refresh outside cache = .error halt next → next = cache := by
  intro cache refreshes
  have initial : Traced uidMap start none (.empty uidMap start) := by
    refine ⟨empty_coherent uidMap start, ?_, fun _ => rfl⟩
    intro snapshot never
    cases never
  have traced := initial.run calls
  rw [Option.or_none] at traced
  refine ⟨traced.coherent, traced.derived, ?_, fun _ _ _ => refresh_error⟩
  intro nothing
  apply traced.untouched
  exact List.getLast?_eq_none_iff.mpr nothing

end Netmon.Resolver
