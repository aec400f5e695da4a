import Netmon.Resolver.Netlink

/-! Fallback enumeration of sockets: the text files of `/proc/net`, parsed into
the same table as a netlink dump. A byte index inside a character panics. -/
namespace Netmon.Resolver
open Library

inductive FallbackError where
  | fileOpen (path source : Text)
  | parseLine (file line : Text)
deriving DecidableEq, Repr

def FallbackError.message : FallbackError → Text
  | .fileOpen path source => "could not open ".toList ++ path ++ ": ".toList ++ source
  | .parseLine file line => "could not parse line in ".toList ++ file ++ ": \"".toList ++ line ++ "\"".toList

inductive FallbackStop where
  | error (error : FallbackError)
  | panic (panic : Panic)
deriving DecidableEq, Repr

def procNetMinColumns : Nat := 10
def procIpv4HexLen : Nat := 8
def procIpv6HexLen : Nat := 32
def unknownUid : Nat := 0

abbrev Parse := OptionT (Except Panic)

def given {α : Type} (answer : Option α) : Parse α := OptionT.mk (.ok answer)

def endpointParts (endpointText : Text) : Option (Text × Text) :=
  match endpointText.splitOn ':' with
  | ipHex :: portHex :: _ => some (ipHex, portHex)
  | _ => none

/-- `Ipv4Addr` of `u32::to_le_bytes`. -/
def ipv4FromLeWord (raw : Nat) : Ipv4Addr :=
  let octets := Endian.little.bytes 4 raw
  ⟨octet octets 0, octet octets 1, octet octets 2, octet octets 3⟩

def ipv6FromLeWords (a b c d : Nat) : Ipv6Addr :=
  ⟨Endian.little.bytes 4 a ++ (Endian.little.bytes 4 b ++ (Endian.little.bytes 4 c ++ Endian.little.bytes 4 d)),
    by simp⟩

def wordAt (ipHex : Text) (wordIndex : Nat) : Parse Nat :=
  match sliceBytes ipHex (wordIndex * 8) 8 with
  | none => OptionT.mk (.error .outOfBounds)
  | some wordHex => given (parseU32Hex wordHex)

def parseIpv6Words (ipHex : Text) : Parse Ipv6Addr := do
  let a ← wordAt ipHex 0
  let b ← wordAt ipHex 1
  let c ← wordAt ipHex 2
  let d ← wordAt ipHex 3
  return ipv6FromLeWords a b c d

def parseProcSocketAddr (endpointText : Text) (isIpv4 : Bool) : Parse SocketAddr := do
  let (ipHex, portHex) ← given (endpointParts endpointText)
  let port ← given (parseU16Hex portHex)
  if isIpv4 then
    if byteLength ipHex ≠ procIpv4HexLen then failure
    let raw ← given (parseU32Hex ipHex)
    return ⟨.v4 (ipv4FromLeWord raw), UInt16.ofNat port⟩
  if byteLength ipHex ≠ procIpv6HexLen then failure
  let ip ← parseIpv6Words ipHex
  return ⟨.v6 ip, UInt16.ofNat port⟩

def parseTcpState (stateHex : Text) (protocol : Protocol) : Text :=
  if protocol ≠ .tcp then "UNCONN".toList
  else
    match parseU8Hex stateHex with
    | none => "UNKNOWN".toList
    | some stateValue =>
      match stateValue with
      | 0x01 => "ESTABLISHED".toList
      | 0x02 => "SYN_SENT".toList
      | 0x03 => "SYN_RECV".toList
      | 0x04 => "FIN_WAIT1".toList
      | 0x05 => "FIN_WAIT2".toList
      | 0x06 => "TIME_WAIT".toList
      | 0x07 => "CLOSE".toList
      | 0x08 => "CLOSE_WAIT".toList
      | 0x09 => "LAST_ACK".toList
      | 0x0A => "LISTEN".toList
      | 0x0B => "CLOSING".toList
      | _ => "UNKNOWN".toList

abbrev Fallback := EStateM FallbackStop SocketsByInode

section File
variable (filePath : Text) (protocol : Protocol) (isIpv4 : Bool) (line : Text)

def orParseLine {α : Type} (parsed : Parse α) : Except FallbackStop α :=
  match parsed.run with
  | .error panic => .error (.panic panic)
  | .ok none => .error (.error (.parseLine filePath line))
  | .ok (some value) => .ok value

/-- One row below the header line. -/
def parseRow : Except FallbackStop SocketEntry := do
  let columns := splitWhitespace line
  if columns.length < procNetMinColumns then throw (.error (.parseLine filePath line))
  let localAddr ← orParseLine filePath line (parseProcSocketAddr (columns.getD 1 []) isIpv4)
  let remoteAddr ← orParseLine filePath line (parseProcSocketAddr (columns.getD 2 []) isIpv4)
  let state := parseTcpState (columns.getD 3 []) protocol
  let inode ← orParseLine filePath line (given (parseU64 (columns.getD 9 [])))
  return { inode, localAddr, remoteAddr, state, uid := unknownUid, protocol }

def recordRow : Fallback Unit :=
  match parseRow filePath protocol isIpv4 line with
  | .error stop => throw stop
  | .ok entry => modify (AList.insert entry.inode entry)

end File

def readProcFile (read : Text → Except Text Text) (filePath : Text) (protocol : Protocol) (isIpv4 : Bool) :
    Fallback Unit :=
  match read filePath with
  | .error source => throw (.error (.fileOpen filePath source))
  | .ok content => (lines content).tail.forM (recordRow filePath protocol isIpv4)

def readProcFiles (read : Text → Except Text Text) : Fallback Unit := do
  readProcFile read "/proc/net/tcp".toList .tcp true
  readProcFile read "/proc/net/tcp6".toList .tcp false
  readProcFile read "/proc/net/udp".toList .udp true
  readProcFile read "/proc/net/udp6".toList .udp false

def readProcNet (read : Text → Except Text Text) : Except FallbackStop SocketsByInode :=
  collected (readProcFiles read) ∅

end Netmon.Resolver
