import Netmon.Resolver.NetlinkDump
import Netmon.Resolver.ProcFallback

/-! The sockets of the kernel and their two renderings: the four netlink dumps and
the four files of `/proc/net` of a little-endian host. Each source reads back
every socket of its rendering, and keeps the last one of an inode. -/
namespace Netmon.Resolver
open Library

inductive Transport where
  | tcp
  | udp
deriving DecidableEq, Repr

def Transport.protocol : Transport → Protocol
  | .tcp => .tcp
  | .udp => .udp

inductive Addresses where
  | v4 (src dst : Ipv4Addr)
  | v6 (src dst : Ipv6Addr)
deriving DecidableEq, Repr

structure KernelSocket where
  transport : Transport
  addresses : Addresses
  localPort : UInt16
  remotePort : UInt16
  state : UInt8
  uid : UInt32
  inode : UInt64
deriving DecidableEq, Repr

namespace Addresses

def isIpv4 : Addresses → Bool
  | .v4 .. => true
  | .v6 .. => false

def src : Addresses → IpAddr
  | .v4 src _ => .v4 src
  | .v6 src _ => .v6 src

def dst : Addresses → IpAddr
  | .v4 _ dst => .v4 dst
  | .v6 _ dst => .v6 dst

end Addresses

namespace KernelSocket

def localAddr (socket : KernelSocket) : SocketAddr := ⟨socket.addresses.src, socket.localPort⟩

def remoteAddr (socket : KernelSocket) : SocketAddr := ⟨socket.addresses.dst, socket.remotePort⟩

/-- What the kernel tells one socket from another by. -/
def identity (socket : KernelSocket) : Protocol × SocketAddr × SocketAddr :=
  (socket.transport.protocol, socket.localAddr, socket.remoteAddr)

/-- The table entry of the socket, with every field as the kernel has it. -/
def entry (socket : KernelSocket) : SocketEntry where
  inode := socket.inode.toNat
  localAddr := socket.localAddr
  remoteAddr := socket.remoteAddr
  state := tcpStateToStr socket.state
  uid := socket.uid.toNat
  protocol := socket.transport.protocol

end KernelSocket

/-- The fallback has a placeholder for the uid, and one state for UDP. -/
def SocketEntry.asFallback (entry : SocketEntry) : SocketEntry :=
  { entry with
    uid := unknownUid
    state := if entry.protocol ≠ .tcp then "UNCONN".toList else entry.state }

def table (sockets : List KernelSocket) (transport : Transport) (isIpv4 : Bool) : List KernelSocket :=
  sockets.filter fun socket => socket.transport = transport ∧ socket.addresses.isIpv4 = isIpv4

theorem tables_perm (sockets : List KernelSocket) :
    (table sockets .tcp true ++ (table sockets .udp true ++ (table sockets .tcp false ++
      table sockets .udp false))).Perm sockets := by
  have byTransport (isIpv4 : Bool) : (table sockets .tcp isIpv4 ++ table sockets .udp isIpv4).Perm
      (sockets.filter fun socket => socket.addresses.isIpv4 = isIpv4) := by
    have parts := List.filter_append_perm (fun socket : KernelSocket => decide (socket.transport = .tcp))
      (sockets.filter fun socket => socket.addresses.isIpv4 = isIpv4)
    rw [List.filter_filter, List.filter_filter] at parts
    have other : (fun socket : KernelSocket => !decide (socket.transport = .tcp) && decide (socket.addresses.isIpv4 = isIpv4)) =
        fun socket => decide (socket.transport = .udp ∧ socket.addresses.isIpv4 = isIpv4) := by
      funext socket
      cases kind : socket.transport <;> simp
    simpa only [table, other, Bool.decide_and] using parts
  have families := List.filter_append_perm (fun socket : KernelSocket => decide (socket.addresses.isIpv4 = true)) sockets
  have other : (fun socket : KernelSocket => !decide (socket.addresses.isIpv4 = true)) =
      fun socket => decide (socket.addresses.isIpv4 = false) := by
    funext socket
    cases socket.addresses.isIpv4 <;> rfl
  rw [other] at families
  rw [← List.append_assoc]
  exact ((byTransport true).append (byTransport false)).trans families

def writes (view : SocketEntry → SocketEntry) (sockets : List KernelSocket) : List (Nat × SocketEntry) :=
  sockets.map fun socket => (socket.inode.toNat, view socket.entry)

def Endpoints.addresses : Endpoints → Addresses
  | .v4 src dst .. => .v4 src dst
  | .v6 src dst => .v6 src dst

def DiagSocket.shown (transport : Transport) (socket : DiagSocket) : KernelSocket where
  transport := transport
  addresses := socket.endpoints.addresses
  localPort := socket.srcPort
  remotePort := socket.dstPort
  state := socket.state
  uid := socket.uid
  inode := socket.inode.toUInt64

theorem DiagSocket.entry_shown (transport : Transport) (socket : DiagSocket) :
    (socket.shown transport).entry = socket.entry transport.protocol := by
  have ends : socket.endpoints.addresses.src = socket.endpoints.src ∧
      socket.endpoints.addresses.dst = socket.endpoints.dst := by
    cases socket.endpoints <;> exact ⟨rfl, rfl⟩
  simp [KernelSocket.entry, DiagSocket.shown, DiagSocket.entry, KernelSocket.localAddr, KernelSocket.remoteAddr, ends]

section Host
variable (host : Endian)

/-- One dump, listing the sockets in an order of the kernel's. -/
structure KernelDump (sockets : List KernelSocket) (transport : Transport) where
  dump : Dump
  cut : dump.Cut host
  lists : (dump.sockets.map (DiagSocket.shown transport)).Perm sockets

/-- The datagrams of the four dumps, in the order of the requests. -/
structure NetlinkView (sockets : List KernelSocket) (datagrams : List Bytes) where
  tcp : KernelDump host (table sockets .tcp true) .tcp
  udp : KernelDump host (table sockets .udp true) .udp
  tcp6 : KernelDump host (table sockets .tcp false) .tcp
  udp6 : KernelDump host (table sockets .udp false) .udp
  sent : datagrams = tcp.cut.sent host ++ (udp.cut.sent host ++ (tcp6.cut.sent host ++ udp6.cut.sent host))

/-- The table of the datagrams of four dumps, each parsed as it was sent. -/
def parseDumps (datagrams : List Bytes) : Except Stop SocketsByInode :=
  collected (do
    let datagrams ← parseDatagrams host .tcp datagrams
    let datagrams ← parseDatagrams host .udp datagrams
    let datagrams ← parseDatagrams host .tcp datagrams
    parseDatagrams host .udp datagrams) ∅

variable {host} in
def KernelDump.order {sockets : List KernelSocket} {transport : Transport} (listed : KernelDump host sockets transport) :
    List KernelSocket := listed.dump.sockets.map (DiagSocket.shown transport)

theorem parseDatagrams_kernelDump {sockets : List KernelSocket} {transport : Transport}
    (listed : KernelDump host sockets transport) (rest : List Bytes) (found : SocketsByInode) :
    parseDatagrams host transport.protocol (listed.cut.sent host ++ rest) found =
      .ok rest (HashMap.insertAll (writes id listed.order) found) := by
  rw [parseDatagrams_sent host listed.dump listed.cut rest _ found, foldl_record]
  congr 2
  simp only [writes, KernelDump.order, List.map_map, Dump.sockets, Function.comp_def, DiagSocket.entry_shown]
  rfl

theorem parseDumps_view {sockets : List KernelSocket} {datagrams : List Bytes}
    (view : NetlinkView host sockets datagrams) :
    ∃ order : List KernelSocket, order.Perm sockets ∧
      parseDumps host datagrams = .ok (HashMap.insertAll (writes id order) ∅) := by
  obtain ⟨tcp, udp, tcp6, udp6, rfl⟩ := view
  refine ⟨tcp.order ++ (udp.order ++ (tcp6.order ++ udp6.order)), ?_, ?_⟩
  · exact (tcp.lists.append (udp.lists.append (tcp6.lists.append udp6.lists))).trans (tables_perm sockets)
  · have first := parseDatagrams_kernelDump host tcp
    have second := parseDatagrams_kernelDump host udp
    have third := parseDatagrams_kernelDump host tcp6
    have fourth := parseDatagrams_kernelDump host udp6 []
    simp only [Transport.protocol, List.append_nil] at first second third fourth
    simp only [parseDumps, collected, bind, EStateM.bind, first, second, third, fourth]
    simp only [writes, List.map_append, HashMap.insertAll_append]

/-- The query of these dumps ends with a parse error at the first datagram. -/
theorem querySockets_view {sockets : List KernelSocket} {datagrams : List Bytes}
    (view : NetlinkView host sockets datagrams) (socket : NetlinkSocket) (accepted : ∀ request, socket.sendError request = none)
    (arrives : socket.incoming = datagrams.map .ok) : querySockets host (.ok socket) = .error (.error .parseError) := by
  obtain ⟨tcp, udp, tcp6, udp6, rfl⟩ := view
  obtain ⟨datagram, later, first, header, fits⟩ := tcp.cut.received_cons host
  have split : socket.incoming = .ok datagram :: (later ++
      (udp.cut.sent host ++ (tcp6.cut.sent host ++ udp6.cut.sent host)).map .ok) := by
    rw [arrives, List.map_append, ← List.cons_append, ← first]
    rfl
  have query := queryFamilyProtocol_first host socket afInetFamily ipprotoTcpProtocol .tcp (accepted _) split header fits ∅
  simp only [querySockets, collected, queryFamilies, bind, EStateM.bind, query]

end Host
end Netmon.Resolver
