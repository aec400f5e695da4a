import Netmon.Resolver.Sources

/-! One file of `/proc/net` as a table: every inode has the last row that lists it, and the
inodes that no row lists keep what they had. -/
namespace Netmon.Resolver
open Library

/-- The state that a row shows; one of UDP is not looked at. -/
def KernelSocket.stateName (socket : KernelSocket) : Text :=
  match socket.transport with
  | .tcp => tcpStateToStr socket.state
  | .udp => "UNCONN".toList

def KernelSocket.row (socket : KernelSocket) : SocketEntry where
  inode := socket.inode.toNat
  localAddr := socket.localAddr
  remoteAddr := socket.remoteAddr
  state := socket.stateName
  uid := 0
  protocol := socket.transport.protocol

theorem entry_asFallback (socket : KernelSocket) : socket.entry.asFallback = socket.row := by
  obtain ⟨transport, addresses, localPort, remotePort, state, uid, inode⟩ := socket
  cases transport <;> rfl

theorem lastWrite_unlisted (view : SocketEntry → SocketEntry) {sockets : List KernelSocket} {inode : Nat}
    (unlisted : ∀ socket ∈ sockets, socket.inode.toNat ≠ inode) : HashMap.lastWrite inode (writes view sockets) = none := by
  cases last : HashMap.lastWrite inode (writes view sockets) with
  | none => rfl
  | some entry =>
    obtain ⟨socket, listed, same, _⟩ := mem_writes_entry.mp (HashMap.mem_of_lastWrite last)
    exact absurd same (unlisted socket listed)

theorem lastWrite_listed (view : SocketEntry → SocketEntry) (before : List KernelSocket) {socket : KernelSocket}
    {after : List KernelSocket} (last : ∀ later ∈ after, later.inode ≠ socket.inode) :
    HashMap.lastWrite socket.inode.toNat (writes view (before ++ socket :: after)) = some (view socket.entry) := by
  have none : HashMap.lastWrite socket.inode.toNat (writes view after) = none := by
    apply lastWrite_unlisted
    intro later member same
    exact last later member (UInt64.toNat_inj.mp same)
  rw [writes, List.map_append, HashMap.lastWrite_append, List.map_cons, HashMap.lastWrite]
  rw [writes] at none
  rw [none, if_pos rfl]
  rfl

/-- A file of one protocol and family is read without an error; an inode that it lists has the row that lists it last,
and the others are left as they are. -/
theorem procFile_round_trip (read : Text → Except Text Text) (filePath header : Text)
    (rows : List ((socket : KernelSocket) × KernelRow socket)) (transport : Transport) (isIpv4 : Bool)
    (found : SocketsByInode) (single : '\n' ∉ header) (reads : read filePath = .ok (fileContent header rows))
    (kind : ∀ row ∈ rows, row.1.transport = transport ∧ row.1.addresses.isIpv4 = isIpv4) :
    ∃ table, readProcFile read filePath transport.protocol isIpv4 found = .ok () table ∧
      (∀ before socket after, rows.map (·.1) = before ++ socket :: after →
        (∀ later ∈ after, later.inode ≠ socket.inode) → table.lookup socket.inode.toNat = some socket.row) ∧
      ∀ inode, (∀ row ∈ rows, row.1.inode.toNat ≠ inode) → table.lookup inode = found.lookup inode := by
  have protocols : ∀ row ∈ rows, row.1.transport.protocol = transport.protocol ∧ row.1.addresses.isIpv4 = isIpv4 :=
    fun row member => ⟨congrArg Transport.protocol (kind row member).1, (kind row member).2⟩
  refine ⟨_, readProcFile_fileContent filePath single reads transport.protocol isIpv4 found protocols, ?_, ?_⟩
  · intro before socket after listed last
    rw [HashMap.lookup_insertAll, listed, lastWrite_listed SocketEntry.asFallback before last, entry_asFallback]
    rfl
  · intro inode unlisted
    rw [HashMap.lookup_insertAll, lastWrite_unlisted SocketEntry.asFallback]
    · rfl
    · intro socket member
      obtain ⟨row, listed, rfl⟩ := List.mem_map.mp member
      exact unlisted row listed

/-- Two connections of one inode. -/
def reusedInode : List KernelSocket :=
  [⟨.tcp, .v4 ⟨10, 0, 0, 2⟩ ⟨192, 0, 2, 1⟩, 40000, 443, 1, 1000, 77⟩, ⟨.tcp, .v4 ⟨10, 0, 0, 2⟩ ⟨192, 0, 2, 9⟩, 40001, 80, 2, 1000, 77⟩]

theorem procFile_round_trip_reused :
    ∃ table, readProcFile (plainRead reusedInode) "/proc/net/tcp".toList Transport.tcp.protocol true ∅ = .ok () table ∧
      (∀ before socket after, (plainRows reusedInode).map (·.1) = before ++ socket :: after →
        (∀ later ∈ after, later.inode ≠ socket.inode) → table.lookup socket.inode.toNat = some socket.row) ∧
      ∀ inode, (∀ row ∈ plainRows reusedInode, row.1.inode.toNat ≠ inode) →
        table.lookup inode = (∅ : SocketsByInode).lookup inode := by
  apply procFile_round_trip (plainRead reusedInode) "/proc/net/tcp".toList plainHeader (plainRows reusedInode) .tcp true ∅
  · decide
  · rfl
  · intro row member
    obtain ⟨socket, listed, rfl⟩ := List.mem_map.mp member
    have kinds : ∀ socket ∈ reusedInode, socket.transport = .tcp ∧ socket.addresses.isIpv4 = true := by decide
    exact kinds socket listed

end Netmon.Resolver
