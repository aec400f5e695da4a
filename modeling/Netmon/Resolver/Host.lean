import Netmon.Resolver.Passwd
import Netmon.Resolver.ProcessTree
import Netmon.Resolver.Sources

/-! A whole host: its processes, its sockets and its accounts. What the resolver reads from
`/proc` and from the account file is one row for every socket, under the thread that holds it. -/
namespace Netmon.Resolver
open Library Capture

structure Host where
  processes : List KernelProcess
  sockets : List KernelSocket
  passwd : List PasswdLine

/-- The outside shows the host. -/
structure HostView (host : Host) (outside : Outside) : Prop where
  sockets : outside.Shows host.sockets
  processes : ProcView outside.proc host.processes

namespace Host
variable (host : Host)

/-- The last thread that holds a socket. -/
def holder (inode : UInt64) : Option InodePidEntry := HashMap.lastWrite inode.toNat (holdings host.processes)

/-- The name of the last account with a uid. -/
def username (uid : Nat) : Text := (HashMap.lastWrite uid (userNames host.passwd)).getD unknownLabel

/-- Whom the row of a socket names: a socket without a holder has the placeholder for a uid. -/
def owner (socket : KernelSocket) : InodePidEntry :=
  (host.holder socket.inode).getD ⟨0, 0, unknownLabel, unknownLabel, unknownUid⟩

def row (socket : KernelSocket) : ResolvedConnection where
  localAddr := socket.localAddr
  remoteAddr := socket.remoteAddr
  protocol := socket.transport.protocol
  state := socket.entry.asFallback.state
  inode := socket.inode.toNat
  pid := (host.owner socket).pid
  tid := (host.owner socket).tid
  process := (host.owner socket).processName
  threadName := (host.owner socket).threadName
  uid := (host.owner socket).uid
  username := host.username (host.owner socket).uid

/-- Whom a flow over a socket is attributed to. -/
def info (inode : UInt64) : ProcessInfo :=
  match host.holder inode with
  | some holder => ⟨holder.pid, holder.tid, holder.processName, holder.threadName, holder.uid, host.username holder.uid⟩
  | none => ⟨0, 0, unknownLabel, unknownLabel, 0, unknownLabel⟩

def uidMap : UidMap := HashMap.insertAll (userNames host.passwd) ∅

end Host

/-- Of the sockets with one inode only the last stays in the table. -/
def latest (sockets : List KernelSocket) : List KernelSocket := sockets.pwFilter fun a b => a.inode ≠ b.inode

/-- What a cache holds after a refresh on the host. -/
structure Reflects (host : Host) (cache : ResolverCache) : Prop where
  users : cache.uidMap = host.uidMap
  sockets : ∃ order : List KernelSocket, order.Perm host.sockets ∧
    (HashMap.values cache.socketEntries).Perm ((latest order).map fun socket => socket.entry.asFallback) ∧
    cache.connections.Perm ((latest order).map (host.row))
  owners : ∀ socket ∈ host.sockets, cache.inodeToProcess.lookup socket.inode.toNat = some (host.info socket.inode)

theorem lookup_holdings {host : Host} {outside : Outside} (view : HostView host outside)
    (inode : UInt64) : (buildInodePidMap outside.proc).lookup inode.toNat = host.holder inode := by
  rw [buildInodePidMap_view view.processes, HashMap.lookup_insertAll, AList.lookup_empty, Option.or_none, Host.holder]

theorem usernameOf_uidMap (host : Host) (uid : Nat) : usernameOf host.uidMap uid = host.username uid := by
  rw [usernameOf, Host.uidMap, HashMap.lookup_insertAll, AList.lookup_empty, Option.or_none, Host.username]

theorem connectionOf_row {host : Host} {outside : Outside} (view : HostView host outside)
    (socket : KernelSocket) :
    connectionOf (buildInodePidMap outside.proc) host.uidMap socket.entry.asFallback = host.row socket := by
  have inode : socket.entry.asFallback.inode = socket.inode.toNat := rfl
  have holder : (buildInodePidMap outside.proc).lookup socket.entry.asFallback.inode = host.holder socket.inode := by
    rw [inode]
    exact lookup_holdings view socket.inode
  simp only [connectionOf, holder, inode, usernameOf_uidMap]
  rfl

theorem processInfoOf_info {host : Host} {outside : Outside} (view : HostView host outside)
    (inode : UInt64) :
    processInfoOf (buildInodePidMap outside.proc) host.uidMap inode.toNat = host.info inode := by
  have holder := lookup_holdings view inode
  simp only [processInfoOf, holder, usernameOf_uidMap]
  rfl

theorem latest_values (order : List KernelSocket) :
    (HashMap.values (HashMap.insertAll (writes SocketEntry.asFallback order) ∅)).Perm
      ((latest order).map fun socket => socket.entry.asFallback) := by
  have same : (fun a b : KernelSocket => a.inode ≠ b.inode) = fun a b => a.inode.toNat ≠ b.inode.toNat := by
    funext a b
    rw [ne_eq, ne_eq, UInt64.toNat_inj]
  have values := HashMap.values_insertAll_perm (fun socket : KernelSocket => socket.inode.toNat)
    (fun socket => socket.entry.asFallback) order
  have kept : (order.pwFilter fun a b : KernelSocket => a.inode.toNat ≠ b.inode.toNat) = latest order := by
    rw [latest]
    congr 1
    exact same.symm
  rw [kept] at values
  exact values

theorem refresh_reflects {host : Host} {outside : Outside} (view : HostView host outside)
    {cache : ResolverCache} (users : cache.uidMap = host.uidMap) :
    ∃ next, refresh outside cache = .ok () next ∧ Reflects host next := by
  obtain ⟨order, listed, inodes⟩ := socketInodes_shown view.sockets
  refine ⟨cache.installed outside (HashMap.insertAll (writes SocketEntry.asFallback order) ∅), ?_, users, ?_, ?_⟩
  · rw [refresh, inodes]
  · refine ⟨order, listed, latest_values order, ?_⟩
    have walked := (outside.valueOrder.values_perm _).trans (latest_values order)
    have rows := walked.map (connectionOf (buildInodePidMap outside.proc) host.uidMap)
    rw [List.map_map] at rows
    have each : connectionOf (buildInodePidMap outside.proc) host.uidMap ∘ (fun socket => socket.entry.asFallback) =
        host.row := funext fun socket => connectionOf_row view socket
    rw [each] at rows
    rw [ResolverCache.installed, users]
    exact rows
  · intro socket member
    have present : socket.inode.toNat ∈ HashMap.insertAll (writes SocketEntry.asFallback order) ∅ := by
      rw [← AList.lookup_isSome, HashMap.lookup_insertAll, AList.lookup_empty, Option.or_none]
      obtain ⟨entry, last⟩ := HashMap.exists_lastWrite
        (mem_writes_entry.mpr ⟨socket, listed.mem_iff.mpr member, rfl, rfl⟩)
      rw [last]
      rfl
    rw [ResolverCache.installed, users]
    simp only [lookup_buildInodeProcessMap, if_pos present, processInfoOf_info view]

theorem latest_of_distinct {sockets : List KernelSocket} (distinct : (sockets.map KernelSocket.inode).Nodup) :
    latest sockets = sockets :=
  List.pwFilter_eq_self.mpr (List.pairwise_map.mp distinct)

theorem Reflects.rows_of_distinct {host : Host} {cache : ResolverCache}
    (reflects : Reflects host cache) (distinct : (host.sockets.map KernelSocket.inode).Nodup) :
    cache.connections.Perm (host.sockets.map (host.row)) := by
  obtain ⟨order, listed, _, rows⟩ := reflects.sockets
  have ordered : (order.map KernelSocket.inode).Nodup := (listed.map KernelSocket.inode).nodup_iff.mpr distinct
  rw [latest_of_distinct ordered] at rows
  exact rows.trans (listed.map _)

theorem run_users (uidMap : UidMap) (created : Int) (calls : List Call) :
    (run step (.empty uidMap created) calls).uidMap = uidMap := by
  have initial : Traced uidMap created none (.empty uidMap created) := by
    refine ⟨empty_coherent uidMap created, ?_, fun _ => rfl⟩
    intro snapshot never
    cases never
  exact (initial.run calls).users

theorem new_passwd (host : Host) (created : Int) :
    ResolverCache.new (.ok ((lines (passwdText host.passwd)).map some)) created = .ok (.empty host.uidMap created) := by
  rw [ResolverCache.new, loadUidMap_passwdText]
  rfl

/-- After any calls a refresh leaves one row for every socket of the host, under its last holder;
of sockets with one inode the last stays. -/
theorem connections_of_host (host : Host) (outside : Outside) (view : HostView host outside)
    (created : Int) (calls : List Call) :
    ∃ cache, ResolverCache.new (.ok ((lines (passwdText host.passwd)).map some)) created = .ok cache ∧
      (∃ order : List KernelSocket, order.Perm host.sockets ∧
        (step (run step cache calls) (.refresh outside)).connections.Perm ((latest order).map (host.row))) ∧
      ((host.sockets.map KernelSocket.inode).Nodup →
        (step (run step cache calls) (.refresh outside)).connections.Perm (host.sockets.map (host.row))) := by
  refine ⟨.empty host.uidMap created, new_passwd host created, ?_⟩
  obtain ⟨next, refreshed, reflects⟩ := refresh_reflects view (run_users host.uidMap created calls)
  have stepped : step (run step (.empty host.uidMap created) calls) (.refresh outside) = next := by
    rw [step, finalState, refreshed]
  rw [stepped]
  obtain ⟨order, listed, _, rows⟩ := reflects.sockets
  exact ⟨⟨order, listed, rows⟩, reflects.rows_of_distinct⟩

/-- The server of two threads, beside a name server's socket and root's connection. -/
def serverProcess : KernelProcess where
  pid := 7
  comm := "server".toList
  realUid := 1000
  effectiveUid := 1000
  savedUid := 1000
  fsUid := 1000
  threads := [⟨7, "server".toList, true, [.socket 77]⟩, ⟨8, "worker".toList, true, [.socket 77]⟩]

theorem plainAccount (name home : Text) (plain : ∀ field ∈ [name, home], ∀ c ∈ field, c ≠ ':' ∧ c ≠ '\n' ∧ c ≠ '\r') :
    ∀ field ∈ [name, "x".toList, [], home, []], ∀ c ∈ field, c ≠ ':' ∧ c ≠ '\n' ∧ c ≠ '\r' := by
  simp only [List.forall_mem_cons] at plain ⊢
  obtain ⟨names, homes, _⟩ := plain
  exact ⟨names, by decide, by decide, homes, by decide, by simp⟩

def sampleHost : Host where
  processes := [serverProcess]
  sockets := sampleSockets
  passwd := [.account ⟨"root".toList, "x".toList, 0, 0, [], "/root".toList, [], plainAccount _ _ (by decide)⟩,
    .remark "# people".toList (by decide) (by decide),
    .account ⟨"ada".toList, "x".toList, 1000, 1000, [], "/home/ada".toList, [], plainAccount _ _ (by decide)⟩]

/-- The host without the netlink family. -/
def sampleOutside : Outside where
  host := .little
  netlink := .error "Protocol not supported (os error 93)".toList
  procNet := plainRead sampleSockets
  proc := threadedServer
  keyOrder := .plain
  valueOrder := .reversed
  checked := 5 * 10^9
  refreshed := 5 * 10^9

theorem threadedServer_view : ProcView threadedServer [serverProcess] where
  listed := by
    refine ⟨_, [7], rfl, ?_, by decide +kernel⟩
    exact .named ⟨'s', by decide⟩ (.number 7 .nil)
  shown := by
    rw [List.forall_mem_singleton]
    refine ⟨by decide +kernel, ⟨["Name:\tserver".toList], [], by decide +kernel, by simp, by decide +kernel⟩, ?_, ?_⟩
    · exact ⟨_, rfl, .number 7 (.number 8 .nil)⟩
    · simp only [serverProcess, List.forall_mem_cons]
      refine ⟨⟨by simp, fun _ => by decide +kernel, fun _ => ⟨_, rfl, by decide +kernel⟩⟩,
        ⟨by simp, fun _ => by decide +kernel, fun _ => ⟨_, rfl, by decide +kernel⟩⟩, by simp⟩

theorem sampleHost_view : HostView sampleHost sampleOutside where
  sockets := ⟨by simp [sampleOutside, querySockets], ⟨plainProcNet sampleSockets⟩⟩
  processes := threadedServer_view

/-- The host with it: the kernel sends its dumps, and the query ends with a parse error. -/
def dumpingOutside : Outside := { sampleOutside with netlink := .ok (plainSocket .little sampleSockets) }

theorem dumpingOutside_view : HostView sampleHost dumpingOutside where
  sockets := by
    have dumps := plainNetlink .little sampleSockets_dumpable
    refine ⟨?_, ⟨plainProcNet sampleSockets⟩⟩
    rw [dumpingOutside, sampleOutside, querySockets_view .little dumps (plainSocket .little sampleSockets) (fun _ => rfl) rfl]
    simp
  processes := threadedServer_view

theorem connections_of_host_server :
    ∃ cache, ResolverCache.new (.ok ((lines (passwdText sampleHost.passwd)).map some)) 0 = .ok cache ∧
      (∃ order : List KernelSocket, order.Perm sampleHost.sockets ∧
        (step (run step cache [.refreshIfNeeded sampleOutside]) (.refresh dumpingOutside)).connections.Perm
          ((latest order).map sampleHost.row)) ∧
      ((sampleHost.sockets.map KernelSocket.inode).Nodup →
        (step (run step cache [.refreshIfNeeded sampleOutside]) (.refresh dumpingOutside)).connections.Perm
          (sampleHost.sockets.map sampleHost.row)) :=
  connections_of_host sampleHost dumpingOutside dumpingOutside_view 0 [.refreshIfNeeded sampleOutside]

example : sampleHost.sockets.map (fun socket => ((sampleHost.row socket).tid, (sampleHost.row socket).username)) =
    [(8, "ada".toList), (0, "root".toList)] := by
  decide +kernel

end Netmon.Resolver
