import Netmon.Resolver.Netlink

/-! The kernel's side of a dump: sockets serialised as inet_diag messages, cut
into datagrams at message boundaries. The receive loop reads the dump back. -/
namespace Netmon.Resolver
open Library

/-! ### Serialised sockets -/

inductive Endpoints where
  /-- The address words beyond the first are not read. -/
  | v4 (src dst : Ipv4Addr) (srcUnused dstUnused : Bytes)
      (srcSize : srcUnused.length = 12) (dstSize : dstUnused.length = 12)
  | v6 (src dst : Ipv6Addr)

structure DiagSocket where
  endpoints : Endpoints
  srcPort : UInt16
  dstPort : UInt16
  state : UInt8
  timers : Bytes
  timersSize : timers.length = 2
  /-- Interface, cookie, expiry and queue lengths. -/
  middle : Bytes
  middleSize : middle.length = 24
  uid : UInt32
  inode : UInt32

namespace Endpoints

def family : Endpoints → UInt8
  | .v4 .. => 2
  | .v6 .. => 10

def srcField : Endpoints → Bytes
  | .v4 src _ unused _ _ _ => src.octets ++ unused
  | .v6 src _ => src.octets

def dstField : Endpoints → Bytes
  | .v4 _ dst _ unused _ _ => dst.octets ++ unused
  | .v6 _ dst => dst.octets

def src : Endpoints → IpAddr
  | .v4 src .. => .v4 src
  | .v6 src _ => .v6 src

def dst : Endpoints → IpAddr
  | .v4 _ dst .. => .v4 dst
  | .v6 _ dst => .v6 dst

theorem srcField_length (endpoints : Endpoints) : endpoints.srcField.length = 16 := by
  cases endpoints with
  | v4 _ _ _ _ size _ => simp [srcField, Ipv4Addr.octets, size]
  | v6 src _ => exact src.size

theorem dstField_length (endpoints : Endpoints) : endpoints.dstField.length = 16 := by
  cases endpoints with
  | v4 _ _ _ _ _ size => simp [dstField, Ipv4Addr.octets, size]
  | v6 _ dst => exact dst.size

end Endpoints

/-- The bytes of everything between a message's type and its payload, and of the
padding behind it. -/
structure Envelope where
  tail : Bytes
  tailSize : tail.length = 10
  pad : Bytes
  padSize : pad.length = 3

inductive DumpMessage where
  | diag (envelope : Envelope) (socket : DiagSocket) (attributes : Bytes)
  | other (envelope : Envelope) (type : UInt16) (payload : Bytes)
      (harmless : type ≠ 2 ∧ type ≠ 3 ∧ type ≠ 20)

section Host
variable (host : Endian)

def DiagSocket.encode (socket : DiagSocket) : Bytes :=
  [socket.endpoints.family, socket.state] ++ (socket.timers ++ (u16ToBeBytes socket.srcPort ++
    (u16ToBeBytes socket.dstPort ++ (socket.endpoints.srcField ++ (socket.endpoints.dstField ++
      (socket.middle ++ (host.bytes 4 socket.uid.toNat ++ host.bytes 4 socket.inode.toNat)))))))

def Envelope.encode (envelope : Envelope) (type : UInt16) (payload : Bytes) : Bytes :=
  let size := 16 + payload.length
  host.bytes 4 size ++ (host.bytes 2 type.toNat ++ (envelope.tail ++ (payload ++
    envelope.pad.take (nlmsgAlign size - size))))

def DumpMessage.encode : DumpMessage → Bytes
  | .diag envelope socket attributes => envelope.encode host 20 (socket.encode host ++ attributes)
  | .other envelope type payload _ => envelope.encode host type payload

def DiagSocket.entry (socket : DiagSocket) (protocolKind : Protocol) : SocketEntry :=
  { inode := socket.inode.toNat
    localAddr := ⟨socket.endpoints.src, socket.srcPort⟩
    remoteAddr := ⟨socket.endpoints.dst, socket.dstPort⟩
    state := tcpStateToStr socket.state
    uid := socket.uid.toNat
    protocol := protocolKind }

/-! ### Decoding one socket -/

theorem DiagSocket.encode_length (socket : DiagSocket) : (socket.encode host).length = 72 := by
  simp [DiagSocket.encode, socket.timersSize, socket.middleSize, Endpoints.srcField_length,
    Endpoints.dstField_length]

theorem fromBe_value (word : Bytes) : fromBe host word.length (host.value word) = beNat word := by
  rw [fromBe, Endian.bytes_value]

theorem port_value (port : UInt16) :
    UInt16.ofNat (fromBe host 2 (host.value (u16ToBeBytes port))) = port := by
  have bound := port.toNat_lt
  have word := fromBe_value host (u16ToBeBytes port)
  rw [u16ToBeBytes_length] at word
  rw [word, u16ToBeBytes, beNat_beBytes 2 _ (by omega), UInt16.ofNat_toNat]

def fieldWords (field : Bytes) : Fin 4 → Nat := fun i => host.value (window field (4 * i) 4)

theorem ipv4_words (address : Ipv4Addr) (unused : Bytes) :
    ipv4FromU32 (fromBe host 4 (fieldWords host (address.octets ++ unused) 0)) = address := by
  have first : window (address.octets ++ unused) (4 * (0 : Fin 4)) 4 = address.octets := by
    simp [window, Ipv4Addr.octets]
  have size : address.octets.length = 4 := rfl
  have word := fromBe_value host address.octets
  rw [size] at word
  have back := beBytes_beNat address.octets
  rw [size] at back
  rw [fieldWords, first, word, ipv4FromU32, back]
  rfl

theorem ipv6_words (address : Ipv6Addr) : ipv6FromBeWords host (fieldWords host address.octets) = address := by
  obtain ⟨octets, size⟩ := address
  have each (i : Fin 4) : beBytes 4 (fromBe host 4 (fieldWords host octets i)) = window octets (4 * i) 4 := by
    have inside : 4 * (i : Nat) + 4 ≤ octets.length := by omega
    have four := window_length inside
    have word := fromBe_value host (window octets (4 * i) 4)
    have back := beBytes_beNat (window octets (4 * i) 4)
    rw [four] at word back
    rw [fieldWords, word, back]
  have whole : (List.finRange 4).flatMap (fun i : Fin 4 => window octets (4 * i) 4) = octets := by
    obtain ⟨a, b, c, d, e, f, g, h, i, j, k, l, m, n, o, p, rfl⟩ :
        ∃ a b c d e f g h i j k l m n o p, octets = [a, b, c, d, e, f, g, h, i, j, k, l, m, n, o, p] := by
      match octets, size with
      | [a, b, c, d, e, f, g, h, i, j, k, l, m, n, o, p], _ =>
        exact ⟨a, b, c, d, e, f, g, h, i, j, k, l, m, n, o, p, rfl⟩
    rfl
  simp only [ipv6FromBeWords, each, whole]

theorem socketAddrFromDiag_src (endpoints : Endpoints) (port : UInt16) :
    socketAddrFromDiag host endpoints.family (fieldWords host endpoints.srcField)
      (host.value (u16ToBeBytes port)) = some ⟨endpoints.src, port⟩ := by
  cases endpoints with
  | v4 src dst srcUnused dstUnused _ _ =>
    have read := ipv4_words host src srcUnused
    simp [socketAddrFromDiag, Endpoints.family, afInetFamily, Endpoints.srcField, Endpoints.src, read, port_value]
  | v6 src dst =>
    have read := ipv6_words host src
    simp [socketAddrFromDiag, Endpoints.family, afInetFamily, afInet6Family, Endpoints.srcField, Endpoints.src,
      read, port_value]

theorem socketAddrFromDiag_dst (endpoints : Endpoints) (port : UInt16) :
    socketAddrFromDiag host endpoints.family (fieldWords host endpoints.dstField)
      (host.value (u16ToBeBytes port)) = some ⟨endpoints.dst, port⟩ := by
  cases endpoints with
  | v4 src dst srcUnused dstUnused _ _ =>
    have read := ipv4_words host dst dstUnused
    simp [socketAddrFromDiag, Endpoints.family, afInetFamily, Endpoints.dstField, Endpoints.dst, read, port_value]
  | v6 src dst =>
    have read := ipv6_words host dst
    simp [socketAddrFromDiag, Endpoints.family, afInetFamily, afInet6Family, Endpoints.dstField, Endpoints.dst,
      read, port_value]

theorem encode_windows (socket : DiagSocket) (attributes : Bytes) :
    let bytes := socket.encode host ++ attributes
    octet bytes 0 = socket.endpoints.family ∧ octet bytes 1 = socket.state ∧
      window bytes 4 2 = u16ToBeBytes socket.srcPort ∧ window bytes 6 2 = u16ToBeBytes socket.dstPort ∧
      window bytes 8 16 = socket.endpoints.srcField ∧ window bytes 24 16 = socket.endpoints.dstField ∧
      window bytes 64 4 = host.bytes 4 socket.uid.toNat ∧ window bytes 68 4 = host.bytes 4 socket.inode.toNat := by
  have src := socket.endpoints.srcField_length
  have dst := socket.endpoints.dstField_length
  have timers := socket.timersSize
  have middle := socket.middleSize
  simp only [DiagSocket.encode, List.append_assoc]
  refine ⟨rfl, rfl, ?_, ?_, ?_, ?_, ?_, ?_⟩ <;>
    simp (disch := simp [src, dst, timers, middle]) only [window_append_right, List.length_cons,
      List.length_nil, src, dst, timers, middle, u16ToBeBytes_length, Endian.bytes_length, Nat.reduceSub,
      Nat.reduceAdd, window_head]

theorem parseInetDiagMessage_encode (socket : DiagSocket) (attributes : Bytes) (protocolKind : Protocol) :
    parseInetDiagMessage host (socket.encode host ++ attributes) protocolKind = .ok (socket.entry protocolKind) := by
  have size := socket.encode_length host
  obtain ⟨family, state, srcPort, dstPort, src, dst, uid, inode⟩ := encode_windows host socket attributes
  have srcWords (i : Fin 4) : window (socket.encode host ++ attributes) (8 + 4 * i) 4 =
      window socket.endpoints.srcField (4 * i) 4 := by
    rw [← src, window_window (by omega)]
  have dstWords (i : Fin 4) : window (socket.encode host ++ attributes) (24 + 4 * i) 4 =
      window socket.endpoints.dstField (4 * i) 4 := by
    rw [← dst, window_window (by omega)]
  have read : readInetDiagMsg host (socket.encode host ++ attributes) 0 = some {
      family := socket.endpoints.family
      state := socket.state
      sport := host.value (u16ToBeBytes socket.srcPort)
      dport := host.value (u16ToBeBytes socket.dstPort)
      src := fieldWords host socket.endpoints.srcField
      dst := fieldWords host socket.endpoints.dstField
      uid := socket.uid.toNat
      inode := socket.inode.toNat } := by
    have uidBound := socket.uid.toNat_lt
    have inodeBound := socket.inode.toNat_lt
    simp only [readInetDiagMsg, inetDiagMsgSize, List.length_append, size, Nat.zero_add, family, state,
      srcPort, dstPort, uid, inode, srcWords, dstWords, host.value_bytes 4 _ uidBound, host.value_bytes 4 _ inodeBound]
    rw [if_neg (by omega)]
    rfl
  rw [parseInetDiagMessage, read]
  simp only [socketAddrFromDiag_src, socketAddrFromDiag_dst]
  rfl

/-! ### Decoding one message -/

theorem Envelope.encode_length (envelope : Envelope) (type : UInt16) (payload : Bytes) :
    (envelope.encode host type payload).length = nlmsgAlign (16 + payload.length) := by
  have tail := envelope.tailSize
  have pad := envelope.padSize
  simp only [Envelope.encode, nlmsgAlign, List.length_append, Endian.bytes_length, List.length_take, tail, pad]
  omega

theorem readNlmsghdr_encode (front back : Bytes) (envelope : Envelope) (type : UInt16) (payload : Bytes)
    (bound : 16 + payload.length < 2^32) :
    readNlmsghdr host (front ++ (envelope.encode host type payload ++ back)) front.length =
      some ⟨16 + payload.length, type.toNat⟩ := by
  have typeBound := type.toNat_lt
  have size := envelope.encode_length host type payload
  have present : ¬front.length + nlmsghdrSize > (front ++ (envelope.encode host type payload ++ back)).length := by
    simp only [List.length_append, size, nlmsgAlign, nlmsghdrSize]
    omega
  rw [readNlmsghdr, if_neg present]
  congr 2
  · rw [window_append_right (Nat.le_refl _), Nat.sub_self, Envelope.encode, List.append_assoc,
      window_head (by simp), host.value_bytes 4 _ bound]
  · rw [window_append_right (Nat.le_add_right _ _), Nat.add_sub_cancel_left, Envelope.encode, List.append_assoc,
      List.append_assoc, window_field _ _ _ (by simp) (by simp), host.value_bytes 2 _ typeBound]

theorem sliceAt_payload (front back : Bytes) (envelope : Envelope) (type : UInt16) (payload : Bytes) :
    sliceAt (front ++ (envelope.encode host type payload ++ back)) (front.length + nlmsghdrSize)
      payload.length = .ok payload := by
  have tail := envelope.tailSize
  have size := envelope.encode_length host type payload
  rw [sliceAt_ok]
  · rw [window_append_right (Nat.le_add_right _ _), Nat.add_sub_cancel_left, Envelope.encode, nlmsghdrSize]
    simp (disch := simp [tail]) only [List.append_assoc, window_append_right, Endian.bytes_length, tail,
      Nat.reduceSub, window_head]
  · simp only [List.length_append, size, nlmsgAlign, nlmsghdrSize]
    omega

/-- One round of the loop: what it does with a message, and where it goes on. -/
theorem parseMessagesFrom_message (front back : Bytes) (envelope : Envelope) (type : UInt16)
    (payload : Bytes) (protocolKind : Protocol) (bound : 16 + payload.length < 2^32) :
    let bytes := front ++ (envelope.encode host type payload ++ back)
    parseMessagesFrom host bytes protocolKind front.length = (do
      if type.toNat = nlmsgDoneType then return true
      else
        if type.toNat = nlmsgErrorType then
          throw (.error (.kernelError (← parseKernelError host payload)))
        if type.toNat = sockDiagByFamilyType then
          let entry ← orStop (parseInetDiagMessage host payload protocolKind)
          modify (AList.insert entry.inode entry)
        parseMessagesFrom host bytes protocolKind (front ++ envelope.encode host type payload).length) := by
  intro bytes
  have size := envelope.encode_length host type payload
  have length : bytes.length = front.length + (nlmsgAlign (16 + payload.length) + back.length) := by
    simp only [bytes, List.length_append, size]
  have present : front.length + nlmsghdrSize ≤ bytes.length := by
    simp only [length, nlmsgAlign, nlmsghdrSize]
    omega
  have inside : ¬front.length + (16 + payload.length) > bytes.length := by
    simp only [length, nlmsgAlign]
    omega
  have next : (front ++ envelope.encode host type payload).length =
      front.length + nlmsgAlign (16 + payload.length) := by
    rw [List.length_append, size]
  have payloadLength : 16 + payload.length - nlmsghdrSize = payload.length := by
    simp [nlmsghdrSize]
  conv_lhs => rw [parseMessagesFrom]
  rw [dif_pos present, readNlmsghdr_encode host front back envelope type payload bound]
  simp only [Nat.add_eq_zero_iff, OfNat.ofNat_ne_zero, false_and, dite_false, if_neg inside, payloadLength, bytes,
    sliceAt_payload host front back envelope type payload, pure_bind, next]

/-! ### The messages of a dump -/

def DumpMessage.record (protocolKind : Protocol) (table : SocketsByInode) : DumpMessage → SocketsByInode
  | .diag _ socket _ => table.insert socket.inode.toNat (socket.entry protocolKind)
  | .other .. => table

def DumpMessage.socket? : DumpMessage → Option DiagSocket
  | .diag _ socket _ => some socket
  | .other .. => none

inductive StreamMessage where
  | body (message : DumpMessage)
  | done (envelope : Envelope) (payload : Bytes)

def StreamMessage.encode : StreamMessage → Bytes
  | .body message => message.encode host
  | .done envelope payload => envelope.encode host 3 payload

def encodeAll (messages : List StreamMessage) : Bytes := messages.flatMap (·.encode host)

theorem parseMessagesFrom_body (front back : Bytes) (message : DumpMessage) (protocolKind : Protocol)
    (table : SocketsByInode) (bound : (message.encode host).length < 2^32) :
    parseMessagesFrom host (front ++ (message.encode host ++ back)) protocolKind front.length table =
      parseMessagesFrom host (front ++ (message.encode host ++ back)) protocolKind
        (front ++ message.encode host).length (message.record protocolKind table) := by
  cases message with
  | diag envelope socket attributes =>
    have size := envelope.encode_length host 20 (socket.encode host ++ attributes)
    have small : 16 + (socket.encode host ++ attributes).length < 2^32 := by
      simp only [DumpMessage.encode, size, nlmsgAlign] at bound
      omega
    simp only [DumpMessage.encode]
    conv_lhs => rw [parseMessagesFrom_message host front back envelope 20 _ protocolKind small]
    rw [parseInetDiagMessage_encode]
    rfl
  | other envelope type payload harmless =>
    obtain ⟨notError, notDone, notDiag⟩ := harmless
    have size := envelope.encode_length host type payload
    have small : 16 + payload.length < 2^32 := by
      simp only [DumpMessage.encode, size, nlmsgAlign] at bound
      omega
    have differs {code : UInt16} (other : type ≠ code) : type.toNat ≠ code.toNat :=
      fun same => other (UInt16.toNat_inj.mp same)
    have round := parseMessagesFrom_message host front back envelope type payload protocolKind small
    have notDoneType : type.toNat ≠ nlmsgDoneType := differs notDone
    have notErrorType : type.toNat ≠ nlmsgErrorType := differs notError
    have notDiagType : type.toNat ≠ sockDiagByFamilyType := differs notDiag
    simp only [if_neg notDoneType, if_neg notErrorType, if_neg notDiagType] at round
    exact congrFun round table

theorem parseMessagesFrom_done (front back : Bytes) (envelope : Envelope) (payload : Bytes)
    (protocolKind : Protocol) (table : SocketsByInode) (bound : (envelope.encode host 3 payload).length < 2^32) :
    parseMessagesFrom host (front ++ (envelope.encode host 3 payload ++ back)) protocolKind front.length table =
      .ok true table := by
  have size := envelope.encode_length host 3 payload
  have small : 16 + payload.length < 2^32 := by
    simp only [size, nlmsgAlign] at bound
    omega
  rw [parseMessagesFrom_message host front back envelope 3 payload protocolKind small]
  rfl

theorem parseMessagesFrom_end (bytes : Bytes) (protocolKind : Protocol) :
    parseMessagesFrom host bytes protocolKind bytes.length = return false := by
  rw [parseMessagesFrom, dif_neg]
  simp [nlmsghdrSize]

theorem parseMessagesFrom_bodies (front back : Bytes) (messages : List DumpMessage)
    (protocolKind : Protocol) (table : SocketsByInode)
    (bound : (encodeAll host (messages.map .body)).length < 2^32) :
    let bytes := front ++ (encodeAll host (messages.map .body) ++ back)
    parseMessagesFrom host bytes protocolKind front.length table =
      parseMessagesFrom host bytes protocolKind (front ++ encodeAll host (messages.map .body)).length
        (messages.foldl (DumpMessage.record protocolKind) table) := by
  induction messages generalizing front table with
  | nil => simp [encodeAll]
  | cons message messages ih =>
    have split : encodeAll host ((message :: messages).map .body) =
        message.encode host ++ encodeAll host (messages.map .body) := rfl
    rw [split, List.length_append] at bound
    have head := parseMessagesFrom_body host front (encodeAll host (messages.map .body) ++ back) message
      protocolKind table (by omega)
    have tail := ih (front ++ message.encode host) (message.record protocolKind table) (by omega)
    simp only [split, List.append_assoc, List.foldl_cons] at head tail ⊢
    rw [head, tail]

/-! ### The receive loop -/

structure Dump where
  body : List DumpMessage
  doneEnvelope : Envelope
  donePayload : Bytes

def Dump.stream (dump : Dump) : List StreamMessage :=
  dump.body.map .body ++ [.done dump.doneEnvelope dump.donePayload]

def Dump.sockets (dump : Dump) : List DiagSocket := dump.body.filterMap DumpMessage.socket?

structure Dump.Cut (dump : Dump) where
  datagrams : List (List StreamMessage)
  whole : datagrams.flatten = dump.stream
  nonempty : ∀ datagram ∈ datagrams, datagram ≠ []
  fits : ∀ datagram ∈ datagrams, (encodeAll host datagram).length ≤ netlinkRecvBufferSize

def Dump.Cut.sent {dump : Dump} (cut : dump.Cut host) : List Bytes := cut.datagrams.map (encodeAll host)

def Dump.Cut.received {dump : Dump} (cut : dump.Cut host) : List (Except Text Bytes) := (cut.sent host).map .ok

theorem encodeAll_length_header {messages : List StreamMessage} (nonempty : messages ≠ []) :
    nlmsghdrSize ≤ (encodeAll host messages).length := by
  cases messages with
  | nil => exact absurd rfl nonempty
  | cons message messages =>
    have size (envelope : Envelope) (type : UInt16) (payload : Bytes) :
        nlmsghdrSize ≤ (envelope.encode host type payload).length := by
      rw [Envelope.encode_length, nlmsgAlign, nlmsghdrSize]
      omega
    have head : nlmsghdrSize ≤ (message.encode host).length := by
      cases message with
      | body message => cases message <;> exact size _ _ _
      | done envelope payload => exact size envelope 3 payload
    rw [encodeAll, List.flatMap_cons, List.length_append]
    exact head.trans (Nat.le_add_right _ _)

theorem Dump.Cut.received_cons {dump : Dump} (cut : dump.Cut host) :
    ∃ datagram rest, cut.received host = .ok datagram :: rest ∧ nlmsghdrSize ≤ datagram.length ∧
      datagram.length ≤ netlinkRecvBufferSize := by
  obtain ⟨datagrams, whole, nonempty, fits⟩ := cut
  cases datagrams with
  | nil => simp [Dump.stream] at whole
  | cons first datagrams =>
    exact ⟨_, _, rfl, encodeAll_length_header host (nonempty first (by simp)), fits first (by simp)⟩

/-- The rounds of the receive loop, with each datagram parsed as it was sent. -/
def parseDatagrams (protocolKind : Protocol) : List Bytes → Query (List Bytes)
  | [] => throw .blocked
  | datagram :: datagrams => do
    if ← parseResponseMessages host datagram protocolKind then return datagrams
    parseDatagrams protocolKind datagrams

theorem parseResponseMessages_bodies (messages : List DumpMessage) (protocolKind : Protocol) (table : SocketsByInode)
    (short : (encodeAll host (messages.map .body)).length < 2^32) :
    parseResponseMessages host (encodeAll host (messages.map .body)) protocolKind table =
      .ok false (messages.foldl (DumpMessage.record protocolKind) table) := by
  have loop := parseMessagesFrom_bodies host [] [] messages protocolKind table short
  simp only [List.nil_append, List.append_nil, List.length_nil] at loop
  rw [parseResponseMessages, loop, parseMessagesFrom_end]
  rfl

theorem parseResponseMessages_done (messages : List DumpMessage) (envelope : Envelope) (payload : Bytes)
    (protocolKind : Protocol) (table : SocketsByInode)
    (short : (encodeAll host (messages.map .body ++ [.done envelope payload])).length < 2^32) :
    parseResponseMessages host (encodeAll host (messages.map .body ++ [.done envelope payload])) protocolKind table =
      .ok true (messages.foldl (DumpMessage.record protocolKind) table) := by
  have split : encodeAll host (messages.map .body ++ [.done envelope payload]) =
      encodeAll host (messages.map .body) ++ (envelope.encode host 3 payload ++ []) := by
    simp [encodeAll, StreamMessage.encode]
  rw [split, List.append_nil, List.length_append] at short
  have loop := parseMessagesFrom_bodies host [] (envelope.encode host 3 payload ++ []) messages protocolKind table
    (by omega)
  have ended := parseMessagesFrom_done host (encodeAll host (messages.map .body)) [] envelope payload protocolKind
    (messages.foldl (DumpMessage.record protocolKind) table) (by omega)
  simp only [List.nil_append, List.length_nil] at loop
  rw [split, parseResponseMessages, loop, ended]

/-- The parser reads the dump, however the dump is cut. -/
theorem parseDatagrams_cut (body : List DumpMessage) (envelope : Envelope) (payload : Bytes)
    (datagrams : List (List StreamMessage)) (rest : List Bytes) (protocolKind : Protocol) (table : SocketsByInode)
    (whole : datagrams.flatten = body.map .body ++ [.done envelope payload])
    (nonempty : ∀ datagram ∈ datagrams, datagram ≠ [])
    (fits : ∀ datagram ∈ datagrams, (encodeAll host datagram).length ≤ netlinkRecvBufferSize) :
    parseDatagrams host protocolKind (datagrams.map (encodeAll host) ++ rest) table =
      .ok rest (body.foldl (DumpMessage.record protocolKind) table) := by
  induction datagrams generalizing body table with
  | nil => simp at whole
  | cons datagram datagrams ih =>
    have small := fits datagram (by simp)
    have short : (encodeAll host datagram).length < 2^32 := by
      simp only [netlinkRecvBufferSize] at small
      omega
    rw [List.map_cons, List.cons_append, parseDatagrams]
    -- A datagram of body messages leaves the rest of the dump to the next rounds.
    have goesOn (here later : List DumpMessage) (hereSame : datagram = here.map .body)
        (parts : body = here ++ later) (remaining : datagrams.flatten = later.map .body ++ [.done envelope payload]) :
        (do
          if ← parseResponseMessages host (encodeAll host datagram) protocolKind then
            return datagrams.map (encodeAll host) ++ rest
          parseDatagrams host protocolKind (datagrams.map (encodeAll host) ++ rest) : Query (List Bytes)) table =
          .ok rest (body.foldl (DumpMessage.record protocolKind) table) := by
      subst hereSame parts
      have tail := ih later (here.foldl (DumpMessage.record protocolKind) table) remaining
        (fun other member => nonempty other (List.mem_cons_of_mem _ member))
        (fun other member => fits other (List.mem_cons_of_mem _ member))
      rw [List.foldl_append, ← tail]
      simp only [bind, EStateM.bind, parseResponseMessages_bodies host here protocolKind table short]
      rfl
    rw [List.flatten_cons, List.append_eq_append_iff] at whole
    rcases whole with ⟨behind, bodySplit, remaining⟩ | ⟨beyond, datagramSplit, doneSplit⟩
    · obtain ⟨here, later, parts, hereSame, laterSame⟩ := List.map_eq_append_iff.mp bodySplit
      subst laterSame
      exact goesOn here later hereSame.symm parts remaining
    · rcases List.cons_eq_append_iff.mp doneSplit with ⟨rfl, remaining⟩ | ⟨behind, rfl, nothing⟩
      · exact goesOn body [] (by simpa using datagramSplit) (by simp) (by simpa using remaining)
      · obtain ⟨rfl, last⟩ := List.append_eq_nil_iff.mp nothing.symm
        have noMore : datagrams = [] := by
          cases datagrams with
          | nil => rfl
          | cons other datagrams =>
            have empty := List.flatten_eq_nil_iff.mp last other (by simp)
            exact absurd empty (nonempty other (by simp))
        subst datagramSplit noMore
        simp only [bind, EStateM.bind, parseResponseMessages_done host body envelope payload protocolKind table short]
        rfl

def Dump.lastSocket (dump : Dump) (inode : Nat) : Option DiagSocket :=
  dump.sockets.reverse.find? fun socket => socket.inode.toNat == inode

theorem lookup_record (body : List DumpMessage) (protocolKind : Protocol) (table : SocketsByInode) (inode : Nat) :
    (body.foldl (DumpMessage.record protocolKind) table).lookup inode =
      match (body.filterMap DumpMessage.socket?).reverse.find? fun socket => socket.inode.toNat == inode with
      | some socket => some (socket.entry protocolKind)
      | none => table.lookup inode := by
  induction body using List.reverseRecOn with
  | nil => rfl
  | append_singleton body message ih =>
    rw [List.foldl_append, List.filterMap_append, List.reverse_append]
    cases message with
    | other envelope type payload harmless => simpa [DumpMessage.record, DumpMessage.socket?, List.filterMap_cons] using ih
    | diag envelope socket attributes =>
      by_cases same : socket.inode.toNat = inode
      · subst same
        simp [DumpMessage.record, DumpMessage.socket?]
      · simpa [DumpMessage.record, DumpMessage.socket?, same, AList.lookup_insert_ne (Ne.symm same)] using ih

theorem foldl_record (body : List DumpMessage) (protocolKind : Protocol) (table : SocketsByInode) :
    body.foldl (DumpMessage.record protocolKind) table = HashMap.insertAll
      ((body.filterMap DumpMessage.socket?).map fun socket => (socket.inode.toNat, socket.entry protocolKind)) table := by
  induction body generalizing table with
  | nil => rfl
  | cons message body ih =>
    rw [List.foldl_cons, ih]
    cases message <;> rfl

theorem parseDatagrams_sent (dump : Dump) (cut : dump.Cut host) (rest : List Bytes) (protocolKind : Protocol)
    (table : SocketsByInode) :
    parseDatagrams host protocolKind (cut.sent host ++ rest) table =
      .ok rest (dump.body.foldl (DumpMessage.record protocolKind) table) :=
  parseDatagrams_cut host dump.body dump.doneEnvelope dump.donePayload cut.datagrams rest protocolKind table
    cut.whole cut.nonempty cut.fits

/-- The round trip of the parser: it ends at the last message of the dump, and maps every inode to the last socket
listed with it. -/
theorem parseDatagrams_dump (dump : Dump) (cut : dump.Cut host) (rest : List Bytes) (protocolKind : Protocol)
    (table : SocketsByInode) :
    ∃ result : SocketsByInode, parseDatagrams host protocolKind (cut.sent host ++ rest) table = .ok rest result ∧
      ∀ inode, result.lookup inode =
        match dump.lastSocket inode with
        | some listed => some (listed.entry protocolKind)
        | none => table.lookup inode :=
  ⟨_, parseDatagrams_sent host dump cut rest protocolKind table, lookup_record dump.body protocolKind table⟩

/-! ### The receive buffer -/

theorem RecvBuffer.reserved_bytes (buffer : RecvBuffer) : buffer.reserved.bytes = buffer.bytes := by
  unfold reserved
  split <;> rfl

theorem RecvBuffer.advanced_bytes (buffer : RecvBuffer) (datagram : Bytes) :
    (buffer.advanced datagram).bytes = buffer.bytes ++ datagram.take buffer.reserved.room :=
  show buffer.reserved.bytes ++ _ = _ by rw [buffer.reserved_bytes]

theorem RecvBuffer.received_le (buffer : RecvBuffer) (datagram : Bytes) :
    buffer.received datagram ≤ (buffer.advanced datagram).bytes.length := by
  rw [advanced_bytes, received, List.length_append]
  exact Nat.le_add_left _ _

/-- A full vector doubles, so that a datagram of its size has room behind it. -/
theorem RecvBuffer.received_zeroed {size : Nat} {datagram : Bytes} (fits : datagram.length ≤ size) :
    (RecvBuffer.zeroed size).received datagram = datagram.length := by
  have full : (RecvBuffer.zeroed size).bytes.length = (RecvBuffer.zeroed size).capacity := List.length_replicate
  have room : datagram.length ≤ (RecvBuffer.zeroed size).reserved.room := by
    rw [RecvBuffer.room, RecvBuffer.reserved, if_pos full]
    simp only [RecvBuffer.zeroed, List.length_replicate]
    omega
  rw [RecvBuffer.received, List.take_of_length_le room]

/-- The front of the vector, which `recv` leaves as it was. -/
def RecvBuffer.Zeroed (buffer : RecvBuffer) : Prop := List.replicate nlmsghdrSize 0 <+: buffer.bytes

theorem RecvBuffer.zeroed_zeroed : (RecvBuffer.zeroed netlinkRecvBufferSize).Zeroed := by
  have large : nlmsghdrSize ≤ netlinkRecvBufferSize := by decide
  refine ⟨List.replicate (netlinkRecvBufferSize - nlmsghdrSize) 0, ?_⟩
  rw [RecvBuffer.zeroed, List.replicate_append_replicate, Nat.add_sub_cancel' large]

theorem RecvBuffer.Zeroed.advanced {buffer : RecvBuffer} (zeros : buffer.Zeroed) (datagram : Bytes) :
    (buffer.advanced datagram).Zeroed := by
  rw [RecvBuffer.Zeroed, advanced_bytes]
  exact zeros.trans (List.prefix_append _ _)

theorem parseResponseMessages_short {bytes : Bytes} (short : bytes.length < nlmsghdrSize) (protocolKind : Protocol) :
    parseResponseMessages host bytes protocolKind = return false := by
  rw [parseResponseMessages, parseMessagesFrom, dif_neg (by omega)]

theorem value_zeros : host.value (List.replicate 4 0) = 0 := by cases host <;> rfl

theorem parseResponseMessages_zeroed {bytes : Bytes} (zeros : List.replicate nlmsghdrSize 0 <+: bytes)
    (protocolKind : Protocol) : parseResponseMessages host bytes protocolKind = throw (.error .parseError) := by
  obtain ⟨back, rfl⟩ := zeros
  have present : 0 + nlmsghdrSize ≤ (List.replicate nlmsghdrSize (0 : UInt8) ++ back).length := by
    simp [nlmsghdrSize]
  have front : window (List.replicate nlmsghdrSize (0 : UInt8) ++ back) 0 4 = List.replicate 4 0 := rfl
  rw [parseResponseMessages, parseMessagesFrom, dif_pos present, readNlmsghdr, if_neg (by omega)]
  simp only [front, value_zeros, dite_true]

theorem receiveUntilDone_datagram {buffer : RecvBuffer} (zeros : buffer.Zeroed) (protocolKind : Protocol)
    (datagram : Bytes) (incoming : List (Except Text Bytes)) :
    receiveUntilDone host protocolKind buffer (.ok datagram :: incoming) =
      if buffer.received datagram = 0 ∨ nlmsghdrSize ≤ buffer.received datagram then throw (.error .parseError)
      else receiveUntilDone host protocolKind (buffer.advanced datagram) incoming := by
  have inside : 0 + buffer.received datagram ≤ (buffer.advanced datagram).bytes.length := by
    rw [Nat.zero_add]
    exact buffer.received_le datagram
  have size := window_length inside
  have front := zeros.advanced datagram
  rw [receiveUntilDone]
  by_cases empty : buffer.received datagram = 0
  · rw [if_pos empty, if_pos (Or.inl empty)]
    rfl
  · rw [if_neg empty, sliceAt_ok inside]
    by_cases header : nlmsghdrSize ≤ buffer.received datagram
    · rw [if_pos (Or.inr header)]
      have zeroed : List.replicate nlmsghdrSize 0 <+: window (buffer.advanced datagram).bytes 0 (buffer.received datagram) := by
        rw [window, List.drop_zero, List.prefix_take_iff]
        exact ⟨front, by simpa using header⟩
      simp only [pure_bind, parseResponseMessages_zeroed host zeroed]
      rfl
    · rw [if_neg (by omega)]
      simp only [pure_bind, parseResponseMessages_short host (size.trans_lt (Nat.lt_of_not_le header))]
      rfl

/-- The query does not give a table, and leaves the one it was given as it was. -/
def Fails {α : Type} (query : Query α) : Prop :=
  ∀ table, query table = .error .blocked table ∨ ∃ error, query table = .error (.error error) table

/-- No sequence of datagrams ends the loop with a table. -/
theorem receiveUntilDone_fails {buffer : RecvBuffer} (zeros : buffer.Zeroed) (protocolKind : Protocol)
    (incoming : List (Except Text Bytes)) : Fails (receiveUntilDone host protocolKind buffer incoming) := by
  induction incoming generalizing buffer with
  | nil => exact fun _ => Or.inl rfl
  | cons received incoming ih =>
    cases received with
    | error error => exact fun _ => Or.inr ⟨_, rfl⟩
    | ok datagram =>
      rw [receiveUntilDone_datagram host zeros]
      split
      · exact fun _ => Or.inr ⟨_, rfl⟩
      · exact ih (zeros.advanced datagram)

theorem queryFamilyProtocol_fails (socket : NetlinkSocket) (family protocol : UInt8) (protocolKind : Protocol) :
    Fails (queryFamilyProtocol host socket family protocol protocolKind) := by
  intro table
  have request : (buildInetDiagRequest host family protocol).isEmpty = false := by
    simp [buildInetDiagRequest]
  have loop := receiveUntilDone_fails host RecvBuffer.zeroed_zeroed protocolKind socket.incoming table
  simp only [queryFamilyProtocol, request, Bool.false_eq_true, if_false]
  cases socket.sendError (buildInetDiagRequest host family protocol) with
  | some error => exact Or.inr ⟨_, rfl⟩
  | none =>
    rcases loop with stuck | ⟨error, failed⟩
    · left
      simp only [bind, EStateM.bind, stuck]
    · right
      refine ⟨error, ?_⟩
      simp only [bind, EStateM.bind, failed]

theorem querySockets_fails (opened : Except Text NetlinkSocket) :
    querySockets host opened = .error .blocked ∨ ∃ error, querySockets host opened = .error (.error error) := by
  cases opened with
  | error error => exact Or.inr ⟨_, rfl⟩
  | ok socket =>
    rcases queryFamilyProtocol_fails host socket afInetFamily ipprotoTcpProtocol .tcp ∅ with stuck | ⟨error, failed⟩
    · left
      simp only [querySockets, collected, queryFamilies, bind, EStateM.bind, stuck]
    · right
      refine ⟨error, ?_⟩
      simp only [querySockets, collected, queryFamilies, bind, EStateM.bind, failed]

theorem queryFamilyProtocol_first (socket : NetlinkSocket) (family protocol : UInt8) (protocolKind : Protocol)
    (accepted : socket.sendError (buildInetDiagRequest host family protocol) = none) {datagram : Bytes}
    {rest : List (Except Text Bytes)} (arrives : socket.incoming = .ok datagram :: rest)
    (header : nlmsghdrSize ≤ datagram.length) (fits : datagram.length ≤ netlinkRecvBufferSize) (table : SocketsByInode) :
    queryFamilyProtocol host socket family protocol protocolKind table = .error (.error .parseError) table := by
  have request : (buildInetDiagRequest host family protocol).isEmpty = false := by
    simp [buildInetDiagRequest]
  have loop := receiveUntilDone_datagram host RecvBuffer.zeroed_zeroed protocolKind datagram rest
  rw [RecvBuffer.received_zeroed fits, if_pos (Or.inr header)] at loop
  simp only [queryFamilyProtocol, request, accepted, arrives, loop, Bool.false_eq_true, if_false]
  rfl

/-- The query reads a dump: it ends at the last message, and maps every inode to the last socket listed with it. -/
def ReadsDump (dump : Dump) (socket : NetlinkSocket) (rest : List (Except Text Bytes)) (family protocol : UInt8)
    (protocolKind : Protocol) (table : SocketsByInode) : Prop :=
  ∃ result : SocketsByInode,
    queryFamilyProtocol host socket family protocol protocolKind table = .ok { socket with incoming := rest } result ∧
    ∀ inode, result.lookup inode =
      match dump.lastSocket inode with
      | some listed => some (listed.entry protocolKind)
      | none => table.lookup inode

theorem queryFamilyProtocol_unread (dump : Dump) (socket : NetlinkSocket) (rest : List (Except Text Bytes))
    (family protocol : UInt8) (protocolKind : Protocol) (table : SocketsByInode) :
    ¬ReadsDump host dump socket rest family protocol protocolKind table := by
  rintro ⟨result, read, _⟩
  rcases queryFamilyProtocol_fails host socket family protocol protocolKind table with stuck | ⟨error, failed⟩
  · rw [stuck] at read
    cases read
  · rw [failed] at read
    cases read

/-- No dump is read, however the kernel cuts it: the query ends at the first datagram, with a parse error. -/
theorem queryFamilyProtocol_dump (dump : Dump) (cut : dump.Cut host) (socket : NetlinkSocket)
    (rest : List (Except Text Bytes)) (family protocol : UInt8) (protocolKind : Protocol)
    (table : SocketsByInode) (accepted : socket.sendError (buildInetDiagRequest host family protocol) = none)
    (arrives : socket.incoming = cut.received host ++ rest) :
    queryFamilyProtocol host socket family protocol protocolKind table = .error (.error .parseError) table ∧
      ¬ReadsDump host dump socket rest family protocol protocolKind table := by
  obtain ⟨datagram, later, first, header, fits⟩ := cut.received_cons host
  rw [first, List.cons_append] at arrives
  exact ⟨queryFamilyProtocol_first host socket family protocol protocolKind accepted arrives header fits table,
    queryFamilyProtocol_unread host dump socket rest family protocol protocolKind table⟩

end Host

def sampleDump : Dump :=
  let envelope : Envelope := ⟨[2, 0, 1, 0, 0, 0, 0, 0, 0, 0], rfl, [0, 0, 0], rfl⟩
  let timers : Bytes := [0, 0]
  let middle : Bytes := List.replicate 24 0
  let unused : Bytes := List.replicate 12 0
  { body := [
      .diag envelope ⟨.v4 ⟨10, 0, 0, 1⟩ ⟨10, 0, 0, 2⟩ unused unused rfl rfl, 8080, 443, 1, timers, rfl,
        middle, rfl, 1000, 77⟩ [5, 0, 8, 0, 0],
      .other envelope 4 [1] (by decide),
      .diag envelope ⟨.v6 ⟨List.replicate 16 1, rfl⟩ ⟨List.replicate 16 2, rfl⟩, 53, 0, 10, timers, rfl,
        middle, rfl, 0, 77⟩ []]
    doneEnvelope := envelope
    donePayload := [0, 0, 0, 0] }

def sampleCut : sampleDump.Cut .little where
  datagrams := [sampleDump.stream.take 1, sampleDump.stream.drop 1]
  whole := rfl
  nonempty := by simp [sampleDump, Dump.stream]
  fits := by
    simp [sampleDump, Dump.stream, encodeAll, StreamMessage.encode, DumpMessage.encode, Envelope.encode_length,
      DiagSocket.encode_length, nlmsgAlign, netlinkRecvBufferSize]

def sampleSocket : NetlinkSocket where
  sendError _ := none
  incoming := sampleCut.received .little ++ [.ok [0]]

theorem queryFamilyProtocol_sampleDump :
    queryFamilyProtocol .little sampleSocket 2 6 .tcp ∅ = .error (.error .parseError) ∅ ∧
      ¬ReadsDump .little sampleDump sampleSocket [.ok [0]] 2 6 .tcp ∅ :=
  queryFamilyProtocol_dump .little sampleDump sampleCut sampleSocket [.ok [0]] 2 6 .tcp ∅ rfl rfl

/-- The dump of a kernel without sockets. -/
def emptyDump : Dump := ⟨[], ⟨[2, 0, 1, 0, 0, 0, 0, 0, 0, 0], rfl, [0, 0, 0], rfl⟩, [0, 0, 0, 0]⟩

def emptyCut : emptyDump.Cut .little where
  datagrams := [emptyDump.stream]
  whole := rfl
  nonempty := by simp [emptyDump, Dump.stream]
  fits := by simp [emptyDump, Dump.stream, encodeAll, StreamMessage.encode, Envelope.encode_length, nlmsgAlign,
    netlinkRecvBufferSize]

def emptySocket : NetlinkSocket := ⟨fun _ => none, emptyCut.received .little⟩

theorem emptyDump_unread :
    emptySocket.sendError (buildInetDiagRequest .little 2 6) = none ∧ emptySocket.incoming = emptyCut.received .little ++ [] ∧
      (emptyCut.sent .little).map List.length = [20] ∧ ¬ReadsDump .little emptyDump emptySocket [] 2 6 .tcp ∅ :=
  ⟨rfl, (List.append_nil _).symm, rfl, queryFamilyProtocol_unread .little emptyDump emptySocket [] 2 6 .tcp ∅⟩

end Netmon.Resolver
