import Netmon.Library.HashMap
import Netmon.Library.Text
import Netmon.Library.Run
import Netmon.Network

/-! Socket enumeration over a SOCK_DIAG netlink socket: the request, the parser
of one received datagram and the receive loop. Header fields are in the byte
order of the host, addresses and ports in network order. -/
namespace Netmon.Resolver
open Library

structure SocketEntry where
  inode : Nat
  localAddr : SocketAddr
  remoteAddr : SocketAddr
  state : Text
  uid : Nat
  protocol : Protocol
deriving DecidableEq, Repr

abbrev SocketsByInode := HashMap Nat SocketEntry

inductive NetlinkError where
  | socketOpen (error : Text)
  | sendFailed (error : Text)
  | recvFailed (error : Text)
  | kernelError (errno : Int)
  | parseError
deriving DecidableEq, Repr

/-- Why a query ends early. A `recv` that never returns is `blocked`. -/
inductive Stop where
  | error (error : NetlinkError)
  | panic (panic : Panic)
  | blocked
deriving DecidableEq, Repr

def afInetFamily : UInt8 := 2
def afInet6Family : UInt8 := 10
def ipprotoTcpProtocol : UInt8 := 6
def ipprotoUdpProtocol : UInt8 := 17
def sockDiagByFamilyType : Nat := 20
def nlmsgDoneType : Nat := 3
def nlmsgErrorType : Nat := 2
def nlmsgFlagDumpRequest : Nat := 0x0001 ||| 0x0300
def netlinkRequestSequence : Nat := 1
def netlinkRecvBufferSize : Nat := 1024 * 1024
def requestSocketStatesAll : Nat := 2^32 - 1

/-- The sizes of `RawNlmsghdr`, `InetDiagMsgRaw` and `NetlinkErrorMessageRaw`. -/
def nlmsghdrSize : Nat := 16
def inetDiagMsgSize : Nat := 72
def netlinkErrorSize : Nat := 20

structure RawNlmsghdr where
  nlmsgLen : Nat
  nlmsgType : Nat

structure InetDiagMsgRaw where
  family : UInt8
  state : UInt8
  sport : Nat
  dport : Nat
  src : Fin 4 → Nat
  dst : Fin 4 → Nat
  uid : Nat
  inode : Nat

section Host
variable (host : Endian)

/-- `uN::from_be` of a word read in host order: its bytes in memory, read in network order. -/
def fromBe (width n : Nat) : Nat := beNat (host.bytes width n)

def readNlmsghdr (bytes : Bytes) (offset : Nat) : Option RawNlmsghdr :=
  if offset + nlmsghdrSize > bytes.length then none
  else some {
    nlmsgLen := host.value (window bytes offset 4)
    nlmsgType := host.value (window bytes (offset + 4) 2) }

def readInetDiagMsg (bytes : Bytes) (offset : Nat) : Option InetDiagMsgRaw :=
  if offset + inetDiagMsgSize > bytes.length then none
  else some {
    family := octet bytes offset
    state := octet bytes (offset + 1)
    sport := host.value (window bytes (offset + 4) 2)
    dport := host.value (window bytes (offset + 6) 2)
    src := fun i => host.value (window bytes (offset + 8 + 4 * i) 4)
    dst := fun i => host.value (window bytes (offset + 24 + 4 * i) 4)
    uid := host.value (window bytes (offset + 64) 4)
    inode := host.value (window bytes (offset + 68) 4) }

def readNetlinkError (bytes : Bytes) (offset : Nat) : Option Int :=
  if offset + netlinkErrorSize > bytes.length then none
  else
    let word := host.value (window bytes offset 4)
    some (if word < 2^31 then word else (word : Int) - 2^32)

def ipv4FromU32 (n : Nat) : Ipv4Addr :=
  let octets := beBytes 4 n
  ⟨octet octets 0, octet octets 1, octet octets 2, octet octets 3⟩

def ipv6FromBeWords (addrWords : Fin 4 → Nat) : Ipv6Addr :=
  ⟨(List.finRange 4).flatMap fun i => beBytes 4 (fromBe host 4 (addrWords i)), by simp [List.finRange_succ]⟩

def socketAddrFromDiag (family : UInt8) (addrWords : Fin 4 → Nat) (rawPort : Nat) : Option SocketAddr :=
  let port := UInt16.ofNat (fromBe host 2 rawPort)
  if family = afInetFamily then some ⟨.v4 (ipv4FromU32 (fromBe host 4 (addrWords 0))), port⟩
  else if family = afInet6Family then some ⟨.v6 (ipv6FromBeWords host addrWords), port⟩
  else none

def tcpStateToStr (state : UInt8) : Text :=
  match state with
  | 1 => "ESTABLISHED".toList
  | 2 => "SYN_SENT".toList
  | 3 => "SYN_RECV".toList
  | 4 => "FIN_WAIT1".toList
  | 5 => "FIN_WAIT2".toList
  | 6 => "TIME_WAIT".toList
  | 7 => "CLOSE".toList
  | 8 => "CLOSE_WAIT".toList
  | 9 => "LAST_ACK".toList
  | 10 => "LISTEN".toList
  | 11 => "CLOSING".toList
  | _ => "UNKNOWN".toList

/-- `(len + 3) & !3` on a 64-bit word that does not overflow. -/
def nlmsgAlign (len : Nat) : Nat := (len + 3) / 4 * 4

def parseInetDiagMessage (payload : Bytes) (protocolKind : Protocol) : Except NetlinkError SocketEntry :=
  match readInetDiagMsg host payload 0 with
  | none => .error .parseError
  | some message =>
    match socketAddrFromDiag host message.family message.src message.sport with
    | none => .error .parseError
    | some localAddr =>
      match socketAddrFromDiag host message.family message.dst message.dport with
      | none => .error .parseError
      | some remoteAddr => .ok {
          inode := message.inode
          localAddr := localAddr
          remoteAddr := remoteAddr
          state := tcpStateToStr message.state
          uid := message.uid
          protocol := protocolKind }

abbrev Query := EStateM Stop SocketsByInode

def orStop {α : Type} : Except NetlinkError α → Query α
  | .ok value => pure value
  | .error error => throw (.error error)

/-- Negating the least 32-bit integer overflows. -/
def parseKernelError (payload : Bytes) : Query Int :=
  match readNetlinkError host payload 0 with
  | none => throw (.error .parseError)
  | some error =>
    if error = 0 then pure 0
    else if error = -2^31 then throw (.panic .overflow)
    else pure (-error)

def parseMessagesFrom (responseBytes : Bytes) (protocolKind : Protocol) (offset : Nat) : Query Bool :=
  if _present : offset + nlmsghdrSize ≤ responseBytes.length then
    match readNlmsghdr host responseBytes offset with
    | none => throw (.error .parseError)
    | some header =>
      if _empty : header.nlmsgLen = 0 then throw (.error .parseError)
      else
        let messageLen := header.nlmsgLen
        if offset + messageLen > responseBytes.length then throw (.error .parseError)
        else do
          let payloadOffset := offset + nlmsghdrSize
          let payloadLen := messageLen - nlmsghdrSize
          let payload ← match sliceAt responseBytes payloadOffset payloadLen with
            | .ok payload => pure payload
            | .error panic => throw (.panic panic)
          if header.nlmsgType = nlmsgDoneType then return true
          else
            if header.nlmsgType = nlmsgErrorType then
              throw (.error (.kernelError (← parseKernelError host payload)))
            if header.nlmsgType = sockDiagByFamilyType then
              let entry ← orStop (parseInetDiagMessage host payload protocolKind)
              modify (AList.insert entry.inode entry)
            parseMessagesFrom responseBytes protocolKind (offset + nlmsgAlign messageLen)
  else return false
termination_by responseBytes.length - offset
decreasing_by
  simp only [nlmsgAlign, nlmsghdrSize] at *
  omega

def parseResponseMessages (responseBytes : Bytes) (protocolKind : Protocol) : Query Bool :=
  parseMessagesFrom host responseBytes protocolKind 0

def buildInetDiagRequest (family protocol : UInt8) : Bytes :=
  host.bytes 4 72 ++ host.bytes 2 sockDiagByFamilyType ++ host.bytes 2 nlmsgFlagDumpRequest ++
    host.bytes 4 netlinkRequestSequence ++ host.bytes 4 0 ++
    [family, protocol, 0, 0] ++ host.bytes 4 requestSocketStatesAll ++ List.replicate 48 0

/-- A connected netlink socket: the answer to `send`, and what each `recv` will return. -/
structure NetlinkSocket where
  sendError : Bytes → Option Text
  incoming : List (Except Text Bytes)

/-- A `Vec<u8>` with the room that is allocated for it. -/
structure RecvBuffer where
  bytes : Bytes
  capacity : Nat
  fits : bytes.length ≤ capacity

namespace RecvBuffer

/-- `vec![0u8; size]` -/
def zeroed (size : Nat) : RecvBuffer := ⟨List.replicate size 0, size, by simp⟩

/-- `BufMut` makes room behind a vector that is full. -/
def reserved (buffer : RecvBuffer) : RecvBuffer :=
  if buffer.bytes.length = buffer.capacity then
    ⟨buffer.bytes, max (2 * buffer.capacity) (buffer.capacity + 64), by have := buffer.fits; omega⟩
  else buffer

def room (buffer : RecvBuffer) : Nat := buffer.capacity - buffer.bytes.length

/-- The vector is a `BufMut`: the socket writes behind the bytes it holds, and cuts off what has no room. -/
def advanced (buffer : RecvBuffer) (datagram : Bytes) : RecvBuffer :=
  let written := datagram.take buffer.reserved.room
  ⟨buffer.reserved.bytes ++ written, buffer.reserved.capacity, by
    have := buffer.reserved.fits
    simp only [written, room, List.length_append, List.length_take]
    omega⟩

/-- What `recv` returns: how many bytes it wrote. -/
def received (buffer : RecvBuffer) (datagram : Bytes) : Nat := (datagram.take buffer.reserved.room).length

end RecvBuffer

/-- The receive loop, with the results of `recv` left unread. The bytes it parses are the first of the
whole vector, not those that were just written. -/
def receiveUntilDone (protocolKind : Protocol) (recvBuffer : RecvBuffer) :
    List (Except Text Bytes) → Query (List (Except Text Bytes))
  | [] => throw .blocked
  | .error error :: _ => throw (.error (.recvFailed error))
  | .ok datagram :: incoming => do
    let received := recvBuffer.received datagram
    let recvBuffer := recvBuffer.advanced datagram
    if received = 0 then throw (.error .parseError)
    let responseBytes ← match sliceAt recvBuffer.bytes 0 received with
      | .ok responseBytes => pure responseBytes
      | .error panic => throw (.panic panic)
    let done ← parseResponseMessages host responseBytes protocolKind
    if done then return incoming
    receiveUntilDone protocolKind recvBuffer incoming

def queryFamilyProtocol (socket : NetlinkSocket) (family protocol : UInt8) (protocolKind : Protocol) :
    Query NetlinkSocket := do
  let requestBytes := buildInetDiagRequest host family protocol
  if requestBytes.isEmpty then throw (.error .parseError)
  match socket.sendError requestBytes with
  | some error => throw (.error (.sendFailed error))
  | none =>
    let recvBuffer := RecvBuffer.zeroed netlinkRecvBufferSize
    return { socket with incoming := ← receiveUntilDone host protocolKind recvBuffer socket.incoming }

def queryFamilies (socket : NetlinkSocket) : Query NetlinkSocket := do
  let socket ← queryFamilyProtocol host socket afInetFamily ipprotoTcpProtocol .tcp
  let socket ← queryFamilyProtocol host socket afInetFamily ipprotoUdpProtocol .udp
  let socket ← queryFamilyProtocol host socket afInet6Family ipprotoTcpProtocol .tcp
  queryFamilyProtocol host socket afInet6Family ipprotoUdpProtocol .udp

/-- `opened` is what opening, binding and connecting the socket gives. -/
def querySockets (opened : Except Text NetlinkSocket) : Except Stop SocketsByInode :=
  match opened with
  | .error error => .error (.error (.socketOpen error))
  | .ok socket => collected (queryFamilies host socket) ∅

end Host
end Netmon.Resolver
