import Netmon.Resolver.ProcTables

/-! A rendering for every list of sockets: dumps of one message a datagram, and
files with one blank between their columns. -/
namespace Netmon.Resolver
open Library

def plainEnvelope : Envelope := ⟨List.replicate 10 0, rfl, List.replicate 3 0, rfl⟩

theorem unusedWords_length : (List.replicate 12 (0 : UInt8)).length = 12 := rfl

theorem plainTimers_length : ([0, 0] : Bytes).length = 2 := rfl

theorem plainMiddle_length : (List.replicate 24 (0 : UInt8)).length = 24 := rfl

def Addresses.endpoints : Addresses → Endpoints
  | .v4 src dst => .v4 src dst (List.replicate 12 0) (List.replicate 12 0) unusedWords_length unusedWords_length
  | .v6 src dst => .v6 src dst

def KernelSocket.diag (socket : KernelSocket) : DiagSocket where
  endpoints := socket.addresses.endpoints
  srcPort := socket.localPort
  dstPort := socket.remotePort
  state := socket.state
  timers := [0, 0]
  timersSize := plainTimers_length
  middle := List.replicate 24 0
  middleSize := plainMiddle_length
  uid := socket.uid
  inode := socket.inode.toUInt32

/-- The inode field of a message has 32 bits. -/
def Dumpable (sockets : List KernelSocket) : Prop := ∀ socket ∈ sockets, socket.inode.toNat < 2^32

instance (sockets : List KernelSocket) : Decidable (Dumpable sockets) :=
  inferInstanceAs (Decidable (∀ socket ∈ sockets, socket.inode.toNat < 2^32))

theorem shown_diag {socket : KernelSocket} (small : socket.inode.toNat < 2^32) :
    socket.diag.shown socket.transport = socket := by
  have ends : socket.addresses.endpoints.addresses = socket.addresses := by cases socket.addresses <;> rfl
  have whole : socket.inode.toUInt32.toUInt64 = socket.inode := by
    apply UInt64.toNat_inj.mp
    rw [UInt32.toNat_toUInt64, UInt64.toNat_toUInt32, Nat.mod_eq_of_lt small]
  simp only [DiagSocket.shown, KernelSocket.diag, ends, whole]

def plainDump (sockets : List KernelSocket) : Dump where
  body := sockets.map fun socket => .diag plainEnvelope socket.diag []
  doneEnvelope := plainEnvelope
  donePayload := []

theorem plainDump_sockets (sockets : List KernelSocket) : (plainDump sockets).sockets = sockets.map KernelSocket.diag := by
  induction sockets with
  | nil => rfl
  | cons socket sockets ih => exact congrArg (socket.diag :: ·) ih

section Host
variable (host : Endian)

def plainCut (sockets : List KernelSocket) : (plainDump sockets).Cut host where
  datagrams := (plainDump sockets).stream.map fun message => [message]
  whole := by
    rw [← List.flatMap_def, List.flatMap_singleton']
  nonempty datagram member := by
    obtain ⟨message, _, rfl⟩ := List.mem_map.mp member
    simp
  fits datagram member := by
    obtain ⟨message, streamed, rfl⟩ := List.mem_map.mp member
    simp only [Dump.stream, plainDump, List.map_map, List.mem_append, List.mem_map, Function.comp_apply,
      List.mem_singleton] at streamed
    rcases streamed with ⟨socket, _, rfl⟩ | rfl
    · simp [encodeAll, StreamMessage.encode, DumpMessage.encode, Envelope.encode_length, DiagSocket.encode_length,
        nlmsgAlign, netlinkRecvBufferSize]
    · simp [encodeAll, StreamMessage.encode, Envelope.encode_length, nlmsgAlign, netlinkRecvBufferSize]

def plainKernelDump {sockets : List KernelSocket} {transport : Transport} {isIpv4 : Bool} (dumpable : Dumpable sockets) :
    KernelDump host (table sockets transport isIpv4) transport where
  dump := plainDump (table sockets transport isIpv4)
  cut := plainCut host _
  lists := by
    rw [plainDump_sockets, List.map_map]
    have shown : (table sockets transport isIpv4).map (DiagSocket.shown transport ∘ KernelSocket.diag) =
        (table sockets transport isIpv4).map id := by
      apply List.map_congr_left
      intro socket member
      obtain ⟨listed, kind⟩ := List.mem_filter.mp member
      obtain ⟨same, _⟩ := of_decide_eq_true kind
      rw [Function.comp_apply, ← same, shown_diag (dumpable socket listed), id_eq]
    rw [shown, List.map_id]

def plainDatagrams (sockets : List KernelSocket) : List Bytes :=
  (plainCut host (table sockets .tcp true)).sent host ++
    ((plainCut host (table sockets .udp true)).sent host ++
      ((plainCut host (table sockets .tcp false)).sent host ++ (plainCut host (table sockets .udp false)).sent host))

def plainNetlink {sockets : List KernelSocket} (dumpable : Dumpable sockets) :
    NetlinkView host sockets (plainDatagrams host sockets) where
  tcp := plainKernelDump host dumpable
  udp := plainKernelDump host dumpable
  tcp6 := plainKernelDump host dumpable
  udp6 := plainKernelDump host dumpable
  sent := rfl

/-- A kernel that answers the requests with these dumps. -/
def plainSocket (sockets : List KernelSocket) : NetlinkSocket where
  sendError _ := none
  incoming := (plainDatagrams host sockets).map .ok

end Host

theorem hexadecimal_isWord (width n : Nat) : IsWord (hexadecimal (width + 1) n) :=
  ⟨by simp [hexadecimal], fun _ member => (hexadecimal_solid member).1⟩

theorem procEndpoint_isWord (addr : SocketAddr) : IsWord (procEndpoint addr) := by
  refine ⟨by simp [procEndpoint], ?_⟩
  intro c member
  rcases List.mem_append.mp member with front | back
  · cases ip : addr.ip with
    | v4 address =>
      rw [ip] at front
      exact (hexadecimal_solid front).1
    | v6 address =>
      simp only [ip, procAddress, List.mem_append] at front
      rcases front with part | part | part | part <;> exact (hexadecimal_solid part).1
  · rcases List.mem_cons.mp back with rfl | digit
    · rfl
    · exact (hexadecimal_solid digit).1

def plainWords (socket : KernelSocket) : List Text :=
  ["0:".toList, procEndpoint socket.localAddr, procEndpoint socket.remoteAddr, hexadecimal 2 socket.state.toNat,
    "00000000:00000000".toList, "00:00000000".toList, "00000000".toList, decimal socket.uid.toNat, "0".toList,
    decimal socket.inode.toNat]

theorem plainWords_isWord (socket : KernelSocket) : ∀ word ∈ plainWords socket, IsWord word := by
  simp only [plainWords, List.forall_mem_cons, List.not_mem_nil, false_imp_iff, implies_true, and_true]
  exact ⟨by decide, procEndpoint_isWord _, procEndpoint_isWord _, hexadecimal_isWord 1 _, by decide, by decide, by decide,
    decimal_isWord _, by decide, decimal_isWord _⟩

/-- The words of a line, with one blank before each. -/
def blankBefore (words : List Text) : List (Text × Text) := words.map fun word => ([' '], word)

theorem blankBefore_wellSpaced {words : List Text} (solid : ∀ word ∈ words, IsWord word) :
    WellSpaced (blankBefore words) [] := by
  refine ⟨?_, ?_, by simp⟩
  · intro column member
    obtain ⟨word, listed, rfl⟩ := List.mem_map.mp member
    exact ⟨solid word listed, List.forall_mem_singleton.mpr rfl⟩
  · intro column member
    obtain ⟨word, _, rfl⟩ := List.mem_map.mp (List.mem_of_mem_tail member)
    simp

theorem not_mem_blankBefore {words : List Text} (solid : ∀ word ∈ words, IsWord word) {c : Char}
    (blank : isWhitespace c = true) (other : c ≠ ' ') : c ∉ spaced (blankBefore words) [] := by
  intro member
  rw [spaced, List.append_nil, blankBefore, List.flatMap_map] at member
  obtain ⟨word, listed, inside⟩ := List.mem_flatMap.mp member
  rcases List.mem_append.mp inside with gap | letter
  · exact other (List.mem_singleton.mp gap)
  · simp [(solid word listed).2 c letter] at blank

def plainRow (socket : KernelSocket) : KernelRow socket where
  columns := blankBefore (plainWords socket)
  trailing := []
  well := blankBefore_wellSpaced (plainWords_isWord socket)
  oneLine := ⟨not_mem_blankBefore (plainWords_isWord socket) rfl (by decide),
    not_mem_blankBefore (plainWords_isWord socket) rfl (by decide)⟩
  localColumn := rfl
  remoteColumn := rfl
  stateColumn := rfl
  inodeColumn := rfl

def plainRows (sockets : List KernelSocket) : List ((socket : KernelSocket) × KernelRow socket) :=
  sockets.map fun socket => ⟨socket, plainRow socket⟩

def plainHeader : Text := "  sl  local_address rem_address   st tx_queue rx_queue tr tm->when retrnsmt   uid  timeout inode".toList

def plainContent (sockets : List KernelSocket) : Text := fileContent plainHeader (plainRows sockets)

def plainRead (sockets : List KernelSocket) (path : Text) : Except Text Text :=
  if path = "/proc/net/tcp".toList then .ok (plainContent (table sockets .tcp true))
  else if path = "/proc/net/tcp6".toList then .ok (plainContent (table sockets .tcp false))
  else if path = "/proc/net/udp".toList then .ok (plainContent (table sockets .udp true))
  else if path = "/proc/net/udp6".toList then .ok (plainContent (table sockets .udp false))
  else .error "No such file or directory (os error 2)".toList

def plainFile (sockets : List KernelSocket) : KernelFile sockets (.ok (plainContent sockets)) where
  header := plainHeader
  single := by decide
  rows := plainRows sockets
  lists := by
    rw [plainRows, List.map_map]
    exact List.Perm.of_eq (List.map_id sockets)
  uidColumn row member := by
    obtain ⟨socket, _, rfl⟩ := List.mem_map.mp member
    rfl
  content := rfl

def plainProcNet (sockets : List KernelSocket) : ProcNetView sockets (plainRead sockets) where
  tcp := plainFile _
  tcp6 := plainFile _
  udp := plainFile _
  udp6 := plainFile _

end Netmon.Resolver
