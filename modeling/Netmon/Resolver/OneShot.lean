import Netmon.Resolver.Host
import Netmon.Resolver.Scans

/-! The two calls that make a resolver of their own: the connections of one process, and the
owner of one flow. -/
namespace Netmon.Resolver
open Library Capture

def answered {α : Type} (action : Resolving α) (cache : ResolverCache) : Except Halt α :=
  match action cache with
  | .ok answer _ => .ok answer
  | .error halt _ => .error halt

section Calls
variable (passwd : Except Text (List (Option Text))) (created : Int)

def resolve (needed owning : Outside) (order : HashMap.Iteration Nat SocketEntry) (flow : FlowKey) :
    Except Halt (Option ProcessInfo) :=
  match ResolverCache.new passwd created with
  | .error _ => .ok none
  | .ok resolver =>
    answered (do ignoreError (refreshIfNeeded needed); resolveFlowOwner owning order flow) resolver

def scanConnectionsForPid (needed listing : Outside) (pid : Nat) : Except Halt (List ResolvedConnection) :=
  match ResolverCache.new passwd created with
  | .error _ => .ok []
  | .ok resolver => do
    let connections ← answered (do ignoreError (refreshIfNeeded needed); listConnections listing) resolver
    return connections.filter fun connection => connection.pid == pid

end Calls

section Seen
variable {host : Host}

theorem ignoreError_refreshIfNeeded (outside : Outside) (cache : ResolverCache) :
    ignoreError (refreshIfNeeded outside) cache =
      if isFresh cache outside.checked then .ok () cache else ignoreError (refresh outside) cache := by
  simp only [ignoreError, refreshIfNeeded, bind_get]
  cases isFresh cache outside.checked <;> rfl

theorem refreshIfNeeded_reflects {outside : Outside} (view : HostView host outside) {cache : ResolverCache}
    (users : cache.uidMap = host.uidMap) (fresh : isFresh cache outside.checked = true → Reflects host cache) :
    ∃ next, ignoreError (refreshIfNeeded outside) cache = .ok () next ∧ Reflects host next := by
  rw [ignoreError_refreshIfNeeded]
  split
  · rename_i young
    exact ⟨cache, rfl, fresh young⟩
  · obtain ⟨next, refreshed, reflects⟩ := refresh_reflects view users
    refine ⟨next, ?_, reflects⟩
    rw [ignoreError, refreshed]

theorem stale_new (uidMap : UidMap) {created checked : Int} (clock : created ≤ checked) :
    isFresh (.empty uidMap created) checked = false := by
  have old : (ResolverCache.empty uidMap created).lastRefresh = created - 5 * 10^9 := rfl
  rw [← Bool.not_eq_true, isFresh_iff, old, resolverRefreshPeriod]
  omega

/-- A new resolver that is refreshed and then asked sees the host. -/
theorem asked_reflects {α : Type} {created : Int} {needed asked : Outside} (clock : created ≤ needed.checked)
    (first : HostView host needed) (second : HostView host asked) (answer : ResolverCache → α) :
    ∃ cache, Reflects host cache ∧
      answered (do ignoreError (refreshIfNeeded needed); ignoreError (refreshIfNeeded asked); return answer (← get))
        (.empty host.uidMap created) = .ok (answer cache) := by
  obtain ⟨middle, refreshed, reflects⟩ := @refreshIfNeeded_reflects _ _ first (.empty host.uidMap created) rfl
    (fun fresh => absurd fresh (ne_true_of_eq_false (stale_new host.uidMap clock)))
  obtain ⟨final, again, shown⟩ := refreshIfNeeded_reflects second reflects.users (fun _ => reflects)
  refine ⟨final, shown, ?_⟩
  simp only [answered, bind, EStateM.bind, refreshed, again]
  rfl

end Seen

theorem filter_pwFilter {α κ : Type} [DecidableEq κ] (key : α → κ) (keep : α → Bool) (items : List α)
    (ofKey : ∀ a b, key a = key b → keep a = keep b) (distinct : ((items.filter keep).map key).Nodup) :
    (items.pwFilter fun a b => key a ≠ key b).filter keep = items.filter keep := by
  induction items with
  | nil => rfl
  | cons item items ih =>
    cases kept : keep item with
    | true =>
      rw [List.filter_cons_of_pos kept, List.map_cons, List.nodup_cons] at distinct
      obtain ⟨fresh, rest⟩ := distinct
      have alone : ∀ other ∈ items.pwFilter fun a b => key a ≠ key b, key item ≠ key other := by
        intro other member same
        have listed : other ∈ items := List.pwFilter_subset items member
        rw [ofKey item other same] at kept
        exact fresh (same ▸ List.mem_map_of_mem (List.mem_filter.mpr ⟨listed, kept⟩))
      rw [List.pwFilter_cons_of_pos alone, List.filter_cons_of_pos kept, List.filter_cons_of_pos kept, ih rest]
    | false =>
      have dropped : ¬keep item = true := ne_true_of_eq_false kept
      rw [List.filter_cons_of_neg dropped] at distinct ⊢
      by_cases alone : ∀ other ∈ items.pwFilter fun a b => key a ≠ key b, key item ≠ key other
      · rw [List.pwFilter_cons_of_pos alone, List.filter_cons_of_neg dropped, ih distinct]
      · rw [List.pwFilter_cons_of_neg alone, ih distinct]

def Host.heldBy (host : Host) (pid : Nat) (socket : KernelSocket) : Bool :=
  (host.holder socket.inode).any fun holder => holder.pid == pid

theorem row_pid (host : Host) {pid : Nat} (process : 0 < pid) (socket : KernelSocket) :
    ((host.row socket).pid == pid) = host.heldBy pid socket := by
  have named : (host.row socket).pid = ((host.holder socket.inode).elim 0 InodePidEntry.pid) := by
    simp only [Host.row, Host.owner]
    cases host.holder socket.inode <;> rfl
  rw [named, Host.heldBy]
  cases host.holder socket.inode with
  | none =>
    have other : (0 == pid) = false := by simpa using (Nat.ne_of_gt process).symm
    simpa using other
  | some holder => rfl

theorem Reflects.scanned {host : Host} {cache : ResolverCache} (reflects : Reflects host cache)
    {pid : Nat} (process : 0 < pid)
    (single : ((host.sockets.filter (host.heldBy pid)).map KernelSocket.inode).Nodup) :
    (cache.connections.filter fun connection => connection.pid == pid).Perm
      ((host.sockets.filter (host.heldBy pid)).map (host.row)) := by
  obtain ⟨order, listed, _, rows⟩ := reflects.sockets
  have held := listed.filter (host.heldBy pid)
  have distinct : ((order.filter (host.heldBy pid)).map KernelSocket.inode).Nodup :=
    (held.map KernelSocket.inode).nodup_iff.mpr single
  have ofInode (a b : KernelSocket) (same : a.inode = b.inode) : host.heldBy pid a = host.heldBy pid b := by
    rw [Host.heldBy, Host.heldBy, same]
  have pids : (fun connection : ResolvedConnection => connection.pid == pid) ∘ host.row = host.heldBy pid :=
    funext (row_pid host process)
  have found := rows.filter fun connection => connection.pid == pid
  rw [List.filter_map, pids, latest, filter_pwFilter _ _ order ofInode distinct] at found
  exact found.trans (held.map _)

/-- The scan for a process lists the sockets whose last holder it is, each of them once. -/
theorem scan_lists_process (host : Host) (created : Int) (needed listing : Outside)
    (clock : created ≤ needed.checked) (first : HostView host needed) (second : HostView host listing)
    (pid : Nat) (process : 0 < pid)
    (single : ((host.sockets.filter (host.heldBy pid)).map KernelSocket.inode).Nodup) :
    ∃ found, scanConnectionsForPid (.ok ((lines (passwdText host.passwd)).map some)) created needed listing pid = .ok found ∧
      found.Perm ((host.sockets.filter (host.heldBy pid)).map (host.row)) := by
  obtain ⟨cache, reflects, listed⟩ := asked_reflects clock first second ResolverCache.connections
  refine ⟨cache.connections.filter fun connection => connection.pid == pid, ?_, reflects.scanned process single⟩
  rw [scanConnectionsForPid, new_passwd]
  change (do
    let connections ← answered (do ignoreError (refreshIfNeeded needed); listConnections listing) _
    return connections.filter fun connection : ResolvedConnection => connection.pid == pid) = _
  simp only [listConnections, listed]
  rfl

theorem scan_lists_process_server :
    ∃ found, scanConnectionsForPid (.ok ((lines (passwdText sampleHost.passwd)).map some)) 0 sampleOutside sampleOutside 7 =
        .ok found ∧
      found.Perm ((sampleHost.sockets.filter (sampleHost.heldBy 7)).map sampleHost.row) :=
  scan_lists_process sampleHost 0 sampleOutside sampleOutside (by decide) sampleHost_view sampleHost_view 7
    (by decide) (by decide +kernel)

/-- The flow runs between the endpoints of the socket, in one direction or the other. -/
def RunsOver (flow : FlowKey) (socket : KernelSocket) : Prop :=
  socket.transport.protocol = flow.protocol ∧
    ((socket.localAddr = ⟨flow.srcIp, flow.srcPort⟩ ∧ socket.remoteAddr = ⟨flow.dstIp, flow.dstPort⟩) ∨
      (socket.localAddr = ⟨flow.dstIp, flow.dstPort⟩ ∧ socket.remoteAddr = ⟨flow.srcIp, flow.srcPort⟩))

theorem flowMatches_iff (flow : FlowKey) (socket : KernelSocket) :
    RunsOver flow socket ↔ socket.entry.asFallback.protocol = flow.protocol ∧
      flowMatches flow socket.entry.asFallback = true := by
  have protocol : socket.entry.asFallback.protocol = socket.transport.protocol := rfl
  have localAddr : socket.entry.asFallback.localAddr = socket.localAddr := rfl
  have remoteAddr : socket.entry.asFallback.remoteAddr = socket.remoteAddr := rfl
  have address (addr : SocketAddr) (ip : IpAddr) (port : UInt16) : addr = ⟨ip, port⟩ ↔ addr.ip = ip ∧ addr.port = port := by
    cases addr
    simp
  simp only [RunsOver, flowMatches, protocol, localAddr, remoteAddr, address, Bool.or_eq_true, Bool.and_eq_true, beq_iff_eq,
    and_assoc]

section Walk
variable {inodeToProcess : HashMap Nat ProcessInfo} {flow : FlowKey}

theorem ownerAmong_skip {entry : SocketEntry} (other : ¬(entry.protocol = flow.protocol ∧ flowMatches flow entry = true))
    (entries : List SocketEntry) :
    ownerAmong inodeToProcess flow (entry :: entries) = ownerAmong inodeToProcess flow entries := by
  rw [ownerAmong]
  by_cases kind : entry.protocol = flow.protocol
  · have unmatched : flowMatches flow entry = false := by simpa [kind] using other
    simp [kind, unmatched]
  · simp [kind]

theorem ownerAmong_unmatched {entries : List SocketEntry}
    (unmatched : ∀ entry ∈ entries, ¬(entry.protocol = flow.protocol ∧ flowMatches flow entry = true)) :
    ownerAmong inodeToProcess flow entries = none := by
  induction entries with
  | nil => rfl
  | cons entry entries ih =>
    obtain ⟨other, later⟩ := List.forall_mem_cons.mp unmatched
    rw [ownerAmong_skip other, ih later]

theorem ownerAmong_matched {entries : List SocketEntry} {target : SocketEntry} {info : ProcessInfo}
    (member : target ∈ entries) (matched : target.protocol = flow.protocol ∧ flowMatches flow target = true)
    (owned : ∀ entry ∈ entries, entry.protocol = flow.protocol ∧ flowMatches flow entry = true →
      inodeToProcess.lookup entry.inode = some info) :
    ownerAmong inodeToProcess flow entries = some info := by
  induction entries with
  | nil => cases member
  | cons entry entries ih =>
    obtain ⟨first, later⟩ := List.forall_mem_cons.mp owned
    by_cases hit : entry.protocol = flow.protocol ∧ flowMatches flow entry = true
    · rw [ownerAmong, first hit]
      simp [hit]
    · have behind : target ∈ entries := by
        obtain rfl | behind := List.mem_cons.mp member
        · exact absurd matched hit
        · exact behind
      rw [ownerAmong_skip hit, ih behind later]

end Walk

theorem mem_latest {sockets : List KernelSocket} {socket : KernelSocket} (member : socket ∈ sockets)
    (alone : ∀ other ∈ sockets, other.inode = socket.inode → other = socket) : socket ∈ latest sockets := by
  by_contra absent
  have fresh : ∀ other ∈ latest sockets, socket.inode ≠ other.inode := by
    intro other kept same
    exact absent (alone other (List.pwFilter_subset sockets kept) same.symm ▸ kept)
  have apart (a b c : KernelSocket) (different : a.inode ≠ c.inode) : a.inode ≠ b.inode ∨ b.inode ≠ c.inode := by
    by_cases same : a.inode = b.inode
    · exact Or.inr fun equal => different (same.trans equal)
    · exact Or.inl same
  exact (List.forall_mem_pwFilter (fun {a b c} => apart a b c) socket sockets).mp fresh socket member rfl

section Owner
variable {host : Host} {cache : ResolverCache} (order : HashMap.Iteration Nat SocketEntry) (flow : FlowKey)

theorem Reflects.walked (reflects : Reflects host cache) :
    ∃ listed : List KernelSocket, listed.Perm host.sockets ∧
      ∀ entry, entry ∈ order.values cache.socketEntries ↔ ∃ socket ∈ latest listed, socket.entry.asFallback = entry := by
  obtain ⟨listed, permuted, values, _⟩ := reflects.sockets
  refine ⟨listed, permuted, ?_⟩
  intro entry
  rw [((order.values_perm cache.socketEntries).trans values).mem_iff, List.mem_map]

theorem Reflects.uncarried (reflects : Reflects host cache) (none : ∀ socket ∈ host.sockets, ¬RunsOver flow socket) :
    ownerAmong cache.inodeToProcess flow (order.values cache.socketEntries) = .none := by
  obtain ⟨listed, permuted, walked⟩ := reflects.walked order
  apply ownerAmong_unmatched
  intro entry member matched
  obtain ⟨socket, kept, rfl⟩ := (walked entry).mp member
  exact none socket (permuted.mem_iff.mp (List.pwFilter_subset listed kept)) ((flowMatches_iff flow socket).mpr matched)

theorem Reflects.carried (reflects : Reflects host cache) {socket : KernelSocket} (member : socket ∈ host.sockets)
    (carries : RunsOver flow socket)
    (only : ∀ other ∈ host.sockets, RunsOver flow other ∨ other.inode = socket.inode → other = socket) :
    ownerAmong cache.inodeToProcess flow (order.values cache.socketEntries) = some (host.info socket.inode) := by
  obtain ⟨listed, permuted, walked⟩ := reflects.walked order
  have kept : socket ∈ latest listed :=
    mem_latest (permuted.mem_iff.mpr member) fun other inside same => only other (permuted.mem_iff.mp inside) (Or.inr same)
  apply ownerAmong_matched ((walked _).mpr ⟨socket, kept, rfl⟩) ((flowMatches_iff flow socket).mp carries)
  intro entry inside matched
  obtain ⟨other, present, rfl⟩ := (walked entry).mp inside
  have listedOther : other ∈ host.sockets := permuted.mem_iff.mp (List.pwFilter_subset listed present)
  obtain rfl := only other listedOther (Or.inl ((flowMatches_iff flow other).mpr matched))
  exact reflects.owners other listedOther

end Owner

/-- A flow is attributed to the last holder of the one socket that it runs over, and to nobody
where it runs over none. -/
theorem resolve_names_holder (host : Host) (created : Int) (needed owning : Outside)
    (clock : created ≤ needed.checked) (first : HostView host needed) (second : HostView host owning)
    (order : HashMap.Iteration Nat SocketEntry) (flow : FlowKey) :
    ((∀ socket ∈ host.sockets, ¬RunsOver flow socket) →
      resolve (.ok ((lines (passwdText host.passwd)).map some)) created needed owning order flow = .ok none) ∧
    ∀ socket ∈ host.sockets, RunsOver flow socket →
      (∀ other ∈ host.sockets, RunsOver flow other ∨ other.inode = socket.inode → other = socket) →
      resolve (.ok ((lines (passwdText host.passwd)).map some)) created needed owning order flow =
        .ok (some (host.info socket.inode)) := by
  obtain ⟨cache, reflects, asked⟩ := asked_reflects clock first second fun cache =>
    ownerAmong cache.inodeToProcess flow (order.values cache.socketEntries)
  have answer : resolve (.ok ((lines (passwdText host.passwd)).map some)) created needed owning order flow =
      .ok (ownerAmong cache.inodeToProcess flow (order.values cache.socketEntries)) := by
    rw [resolve, new_passwd]
    exact asked
  rw [answer]
  refine ⟨?_, ?_⟩
  · intro none
    rw [reflects.uncarried order flow none]
  · intro socket member carries only
    rw [reflects.carried order flow member carries only]

def dnsFlow : FlowKey where
  srcIp := .v4 ⟨0, 0, 0, 0⟩
  dstIp := .v4 ⟨127, 0, 0, 53⟩
  srcPort := 0
  dstPort := 53
  protocol := .udp

theorem dnsFlow_only : ∀ other ∈ sampleHost.sockets,
    RunsOver dnsFlow other ∨ other.inode = dnsSocket.inode → other = dnsSocket := by
  intro other member either
  obtain rfl | rfl : other = dnsSocket ∨ other = sshSocket := by
    simpa [sampleHost, sampleSockets] using member
  · rfl
  · obtain crossed | same := either
    · cases crossed.1
    · cases same

theorem resolve_names_holder_dns :
    resolve (.ok ((lines (passwdText sampleHost.passwd)).map some)) 0 sampleOutside sampleOutside .plain dnsFlow =
      .ok (some ⟨7, 8, "server".toList, "worker".toList, 1000, "ada".toList⟩) := by
  have carries : RunsOver dnsFlow dnsSocket := ⟨rfl, Or.inr ⟨rfl, rfl⟩⟩
  have named := (resolve_names_holder sampleHost 0 sampleOutside sampleOutside (by decide) sampleHost_view
    sampleHost_view .plain dnsFlow).2 dnsSocket List.mem_cons_self carries dnsFlow_only
  have info : sampleHost.info dnsSocket.inode = ⟨7, 8, "server".toList, "worker".toList, 1000, "ada".toList⟩ := by
    decide +kernel
  rw [named, info]

end Netmon.Resolver
