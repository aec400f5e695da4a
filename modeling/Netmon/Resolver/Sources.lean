import Netmon.Resolver.Coherence
import Netmon.Resolver.Rendering

/-! The two renderings of the sockets of one kernel compared: which sockets each table
keeps, and what the fallback says differently. A refresh takes the files, for the query of
the dumps never gives a table. -/
namespace Netmon.Resolver
open Library

theorem mem_writes_entry {view : SocketEntry → SocketEntry} {sockets : List KernelSocket} {inode : Nat} {entry : SocketEntry} :
    (inode, entry) ∈ writes view sockets ↔ ∃ socket ∈ sockets, socket.inode.toNat = inode ∧ view socket.entry = entry := by
  simp [writes]

theorem inode_injective {sockets : List KernelSocket} (distinct : (sockets.map KernelSocket.inode).Nodup)
    {first second : KernelSocket} (one : first ∈ sockets) (two : second ∈ sockets)
    (same : first.inode.toNat = second.inode.toNat) : first = second :=
  List.inj_on_of_nodup_map distinct one two (UInt64.toNat_inj.mp same)

/-- With distinct inodes the order of the dump makes no difference. -/
theorem lastWrite_of_distinct (view : SocketEntry → SocketEntry) {sockets order : List KernelSocket}
    (distinct : (sockets.map KernelSocket.inode).Nodup) (listed : order.Perm sockets) (inode : Nat) :
    HashMap.lastWrite inode (writes view order) = HashMap.lastWrite inode (writes view sockets) := by
  apply HashMap.lastWrite_perm (listed.map _)
  intro entry entry' written written'
  obtain ⟨first, firstListed, rfl, rfl⟩ := mem_writes_entry.mp written
  obtain ⟨second, secondListed, same, rfl⟩ := mem_writes_entry.mp written'
  rw [inode_injective distinct (listed.mem_iff.mp firstListed) (listed.mem_iff.mp secondListed) same.symm]

theorem lastWrite_view (view : SocketEntry → SocketEntry) (sockets : List KernelSocket) (inode : Nat) :
    HashMap.lastWrite inode (writes view sockets) = (HashMap.lastWrite inode (writes id sockets)).map view := by
  induction sockets with
  | nil => rfl
  | cons socket sockets ih =>
    simp only [writes, List.map_cons, HashMap.lastWrite, id_eq] at ih ⊢
    rw [ih]
    cases HashMap.lastWrite inode (sockets.map fun socket => (socket.inode.toNat, socket.entry)) with
    | some entry => rfl
    | none => split <;> rfl

/-- The fallback's table is the netlink table, with its placeholder for every uid and
its one state for UDP. -/
theorem fallback_agrees (sockets : List KernelSocket) (distinct : (sockets.map KernelSocket.inode).Nodup)
    (datagrams : List Bytes) (dumps : NetlinkView .little sockets datagrams) (read : Text → Except Text Text)
    (files : ProcNetView sockets read) :
    ∃ dumped tabulated, parseDumps .little datagrams = .ok dumped ∧ readProcNet read = .ok tabulated ∧
      ∀ inode, tabulated.lookup inode = (dumped.lookup inode).map SocketEntry.asFallback := by
  obtain ⟨dumpOrder, dumpListed, decoded⟩ := parseDumps_view .little dumps
  obtain ⟨fileOrder, fileListed, parsed⟩ := readProcNet_view files
  refine ⟨_, _, decoded, parsed, ?_⟩
  intro inode
  simp only [HashMap.lookup_insertAll, AList.lookup_empty, Option.or_none]
  calc HashMap.lastWrite inode (writes SocketEntry.asFallback fileOrder)
      = HashMap.lastWrite inode (writes SocketEntry.asFallback sockets) := lastWrite_of_distinct _ distinct fileListed inode
    _ = (HashMap.lastWrite inode (writes id sockets)).map SocketEntry.asFallback := lastWrite_view _ sockets inode
    _ = (HashMap.lastWrite inode (writes id dumpOrder)).map SocketEntry.asFallback := by
      rw [lastWrite_of_distinct id distinct dumpListed inode]

/-- An unconnected UDP socket of a name server. -/
def dnsSocket : KernelSocket where
  transport := .udp
  addresses := .v4 ⟨127, 0, 0, 53⟩ ⟨0, 0, 0, 0⟩
  localPort := 53
  remotePort := 0
  state := 7
  uid := 101
  inode := 77

/-- A connection of root over IPv6. -/
def sshSocket : KernelSocket where
  transport := .tcp
  addresses := .v6 ⟨List.replicate 16 3, rfl⟩ ⟨List.replicate 16 4, rfl⟩
  localPort := 22
  remotePort := 50000
  state := 1
  uid := 0
  inode := 78

def sampleSockets : List KernelSocket := [dnsSocket, sshSocket]

theorem sampleSockets_dumpable : Dumpable sampleSockets := by decide

theorem fallback_agrees_sample :
    ∃ dumped tabulated, parseDumps .little (plainDatagrams .little sampleSockets) = .ok dumped ∧
      readProcNet (plainRead sampleSockets) = .ok tabulated ∧
      ∀ inode, tabulated.lookup inode = (dumped.lookup inode).map SocketEntry.asFallback :=
  fallback_agrees sampleSockets (by decide) _ (plainNetlink .little sampleSockets_dumpable) _ (plainProcNet sampleSockets)

theorem fallback_differs :
    Nonempty (NetlinkView .little sampleSockets (plainDatagrams .little sampleSockets)) ∧
      Nonempty (ProcNetView sampleSockets (plainRead sampleSockets)) ∧
      ∃ dumped tabulated, parseDumps .little (plainDatagrams .little sampleSockets) = .ok dumped ∧
        readProcNet (plainRead sampleSockets) = .ok tabulated ∧
        (dumped.lookup 77).map (fun entry => (entry.state, entry.uid)) = some ("CLOSE".toList, 101) ∧
        (tabulated.lookup 77).map (fun entry => (entry.state, entry.uid)) = some ("UNCONN".toList, 0) := by
  refine ⟨⟨plainNetlink .little sampleSockets_dumpable⟩, ⟨plainProcNet sampleSockets⟩, ?_⟩
  obtain ⟨dumpOrder, dumpListed, decoded⟩ := parseDumps_view .little (plainNetlink .little sampleSockets_dumpable)
  obtain ⟨fileOrder, fileListed, parsed⟩ := readProcNet_view (plainProcNet sampleSockets)
  have distinct : (sampleSockets.map KernelSocket.inode).Nodup := by decide
  refine ⟨_, _, decoded, parsed, ?_, ?_⟩
  · rw [HashMap.lookup_insertAll, lastWrite_of_distinct id distinct dumpListed]
    decide
  · rw [HashMap.lookup_insertAll, lastWrite_of_distinct _ distinct fileListed]
    decide

def SocketEntry.identity (entry : SocketEntry) : Protocol × SocketAddr × SocketAddr :=
  (entry.protocol, entry.localAddr, entry.remoteAddr)

/-- The table has an entry for the socket. -/
def Listed (found : SocketsByInode) (socket : KernelSocket) : Prop :=
  ∃ inode entry, found.lookup inode = some entry ∧ entry.identity = socket.identity

/-- The cache has a connection for the socket. -/
def Connected (cache : ResolverCache) (socket : KernelSocket) : Prop :=
  ∃ row ∈ cache.connections, (row.protocol, row.localAddr, row.remoteAddr) = socket.identity

/-- The outside shows these sockets. Its netlink attempt comes back, with whatever error. -/
structure Outside.Shows (outside : Outside) (sockets : List KernelSocket) : Prop where
  returns : querySockets outside.host outside.netlink ≠ .error .blocked
  files : Nonempty (ProcNetView sockets outside.procNet)

theorem socketInodes_shown {sockets : List KernelSocket} {outside : Outside} (shows : outside.Shows sockets) :
    ∃ order : List KernelSocket, order.Perm sockets ∧
      socketInodes outside = .ok (HashMap.insertAll (writes SocketEntry.asFallback order) ∅) := by
  obtain ⟨returns, ⟨files⟩⟩ := shows
  obtain ⟨order, listed, parsed⟩ := readProcNet_view files
  refine ⟨order, listed, ?_⟩
  rcases querySockets_fails outside.host outside.netlink with stuck | ⟨error, failed⟩
  · exact absurd stuck returns
  · rw [socketInodes, failed, parsed]

theorem writes_listed_iff {view : SocketEntry → SocketEntry} (faithful : ∀ entry, (view entry).identity = entry.identity)
    {sockets order : List KernelSocket} (distinct : (sockets.map KernelSocket.identity).Nodup)
    (listed : order.Perm sockets) :
    (∀ socket ∈ sockets, Listed (HashMap.insertAll (writes view order) ∅) socket) ↔
      (sockets.map KernelSocket.inode).Nodup := by
  have lookup (inode : Nat) : (HashMap.insertAll (writes view order) ∅).lookup inode =
      HashMap.lastWrite inode (writes view order) := by
    rw [HashMap.lookup_insertAll, AList.lookup_empty, Option.or_none]
  have identified (socket : KernelSocket) : (view socket.entry).identity = socket.identity := faithful socket.entry
  constructor
  · intro all
    -- a listed socket is the one its inode leads to
    have own {socket : KernelSocket} (member : socket ∈ sockets) :
        HashMap.lastWrite socket.inode.toNat (writes view order) = some (view socket.entry) := by
      obtain ⟨inode, entry, stored, same⟩ := all socket member
      rw [lookup] at stored
      obtain ⟨other, otherListed, rfl, rfl⟩ := mem_writes_entry.mp (HashMap.mem_of_lastWrite stored)
      rw [identified] at same
      obtain rfl := List.inj_on_of_nodup_map distinct (listed.mem_iff.mp otherListed) member same
      exact stored
    apply List.Nodup.map_on _ (List.Nodup.of_map _ distinct)
    intro first one second two same
    have firstOwn := own one
    rw [same, own two] at firstOwn
    have equal := congrArg SocketEntry.identity (Option.some.inj firstOwn)
    rw [identified, identified] at equal
    exact (List.inj_on_of_nodup_map distinct two one equal).symm
  · intro inodes socket member
    refine ⟨socket.inode.toNat, view socket.entry, ?_, identified socket⟩
    rw [lookup]
    apply HashMap.lastWrite_of_agree
    · exact mem_writes_entry.mpr ⟨socket, listed.mem_iff.mpr member, rfl, rfl⟩
    · intro entry written
      obtain ⟨other, otherListed, same, rfl⟩ := mem_writes_entry.mp written
      rw [inode_injective inodes (listed.mem_iff.mp otherListed) member same]

theorem installed_connected_iff (cache : ResolverCache) (outside : Outside) (inodes : SocketsByInode)
    (socket : KernelSocket) : Connected (cache.installed outside inodes) socket ↔ Listed inodes socket := by
  have walked := outside.valueOrder.values_perm inodes
  constructor
  · rintro ⟨row, member, same⟩
    obtain ⟨entry, valued, rfl⟩ := List.mem_map.mp member
    obtain ⟨inode, stored⟩ := HashMap.mem_values.mp (walked.mem_iff.mp valued)
    exact ⟨inode, entry, stored, same⟩
  · rintro ⟨inode, entry, stored, same⟩
    refine ⟨connectionOf (buildInodePidMap outside.proc) cache.uidMap entry, ?_, same⟩
    exact List.mem_map_of_mem (walked.mem_iff.mpr (HashMap.mem_values.mpr ⟨inode, stored⟩))

theorem asFallback_identity (entry : SocketEntry) : entry.asFallback.identity = entry.identity := rfl

theorem refresh_connected_iff {sockets : List KernelSocket} (distinct : (sockets.map KernelSocket.identity).Nodup)
    (outside : Outside) (shows : outside.Shows sockets) (cache : ResolverCache) :
    (∀ socket ∈ sockets, Connected (finalState (refresh outside) cache) socket) ↔
      (sockets.map KernelSocket.inode).Nodup := by
  obtain ⟨order, listed, found⟩ := socketInodes_shown shows
  rw [finalState_refresh, found]
  simp only [installed_connected_iff]
  exact writes_listed_iff asFallback_identity distinct listed

/-- The table of the dumps, the table of the files and the connections after a refresh show every socket
exactly when no two sockets have one inode. -/
theorem sockets_all_listed (sockets : List KernelSocket) (distinct : (sockets.map KernelSocket.identity).Nodup)
    (host : Endian) (datagrams : List Bytes) (dumps : NetlinkView host sockets datagrams) (read : Text → Except Text Text)
    (files : ProcNetView sockets read) :
    ((∃ dumped, parseDumps host datagrams = .ok dumped ∧ ∀ socket ∈ sockets, Listed dumped socket) ∧
      (∃ tabulated, readProcNet read = .ok tabulated ∧ ∀ socket ∈ sockets, Listed tabulated socket) ∧
      ∀ outside : Outside, outside.Shows sockets → ∀ cache, ∀ socket ∈ sockets,
        Connected (finalState (refresh outside) cache) socket) ↔
      (sockets.map KernelSocket.inode).Nodup := by
  obtain ⟨dumpOrder, dumpListed, decoded⟩ := parseDumps_view host dumps
  obtain ⟨fileOrder, fileListed, parsed⟩ := readProcNet_view files
  constructor
  · rintro ⟨⟨dumped, same, all⟩, _⟩
    rw [decoded] at same
    cases same
    exact (writes_listed_iff (fun _ => rfl) distinct dumpListed).mp all
  · intro inodes
    refine ⟨⟨_, decoded, ?_⟩, ⟨_, parsed, ?_⟩, ?_⟩
    · exact (writes_listed_iff (fun _ => rfl) distinct dumpListed).mpr inodes
    · exact (writes_listed_iff asFallback_identity distinct fileListed).mpr inodes
    · intro outside shows cache
      exact (refresh_connected_iff distinct outside shows cache).mpr inodes

theorem sockets_all_listed_sample :
    ((∃ dumped, parseDumps .little (plainDatagrams .little sampleSockets) = .ok dumped ∧
        ∀ socket ∈ sampleSockets, Listed dumped socket) ∧
      (∃ tabulated, readProcNet (plainRead sampleSockets) = .ok tabulated ∧ ∀ socket ∈ sampleSockets, Listed tabulated socket) ∧
      ∀ outside : Outside, outside.Shows sampleSockets → ∀ cache, ∀ socket ∈ sampleSockets,
        Connected (finalState (refresh outside) cache) socket) ↔
      (sampleSockets.map KernelSocket.inode).Nodup :=
  sockets_all_listed sampleSockets (by decide) .little _ (plainNetlink .little sampleSockets_dumpable) _
    (plainProcNet sampleSockets)

/-- Two finished connections of a web client, which the kernel lists with inode 0. -/
def timeWaitSockets : List KernelSocket :=
  [40000, 40001].map fun port =>
    { transport := .tcp
      addresses := .v4 ⟨10, 0, 0, 1⟩ ⟨93, 184, 216, 34⟩
      localPort := port
      remotePort := 443
      state := 6
      uid := 0
      inode := 0 }

theorem timeWaitSockets_lost :
    (timeWaitSockets.map KernelSocket.identity).Nodup ∧
      Nonempty (NetlinkView .little timeWaitSockets (plainDatagrams .little timeWaitSockets)) ∧
      Nonempty (ProcNetView timeWaitSockets (plainRead timeWaitSockets)) ∧
      (∃ dumped, parseDumps .little (plainDatagrams .little timeWaitSockets) = .ok dumped ∧
        ¬∀ socket ∈ timeWaitSockets, Listed dumped socket) ∧
      ∃ tabulated, readProcNet (plainRead timeWaitSockets) = .ok tabulated ∧
        ¬∀ socket ∈ timeWaitSockets, Listed tabulated socket := by
  have distinct : (timeWaitSockets.map KernelSocket.identity).Nodup := by decide
  have shared : ¬(timeWaitSockets.map KernelSocket.inode).Nodup := by decide
  have dumpable : Dumpable timeWaitSockets := by decide
  obtain ⟨dumpOrder, dumpListed, decoded⟩ := parseDumps_view .little (plainNetlink .little dumpable)
  obtain ⟨fileOrder, fileListed, parsed⟩ := readProcNet_view (plainProcNet timeWaitSockets)
  refine ⟨distinct, ⟨plainNetlink .little dumpable⟩, ⟨plainProcNet timeWaitSockets⟩, ⟨_, decoded, ?_⟩, ⟨_, parsed, ?_⟩⟩
  · intro all
    exact shared ((writes_listed_iff (fun _ => rfl) distinct dumpListed).mp all)
  · intro all
    exact shared ((writes_listed_iff asFallback_identity distinct fileListed).mp all)

end Netmon.Resolver
