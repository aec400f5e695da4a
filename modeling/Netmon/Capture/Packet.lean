import Netmon.Network

/-! Parsing of one captured Ethernet frame into a flow record. A read outside
the slice is a panic of its own, apart from a skipped frame. -/
namespace Netmon.Capture
open Library

inductive Direction where
  | tx
  | rx
deriving DecidableEq, Repr

structure FlowKey where
  srcIp : IpAddr
  dstIp : IpAddr
  srcPort : UInt16
  dstPort : UInt16
  protocol : Protocol
deriving DecidableEq, Repr

abbrev Instant := Nat

structure FlowRecord where
  key : FlowKey
  byteCount : UInt32
  timestamp : Instant
  direction : Direction
deriving DecidableEq, Repr

def ethernetHeaderLen : Nat := 14
def vlanEthernetHeaderLen : Nat := 18
def ethertypeIpv4 : UInt16 := 0x0800
def ethertypeIpv6 : UInt16 := 0x86dd
def ethertypeVlan8021q : UInt16 := 0x8100
def ethertypeVlan8021ad : UInt16 := 0x88a8
def ipv4MinHeaderLen : Nat := 20
def ipv6HeaderLen : Nat := 40
def ipProtocolTcp : UInt8 := 6
def ipProtocolUdp : UInt8 := 17

/-- `none` is a skipped frame, an error is a panic. -/
abbrev Parse := OptionT (Except Panic)

def protocolFromNum (protocolNumber : UInt8) : Protocol :=
  if protocolNumber = ipProtocolTcp then .tcp
  else if protocolNumber = ipProtocolUdp then .udp
  else .other protocolNumber

structure ParsedL4 where
  srcIp : IpAddr
  dstIp : IpAddr
  srcPort : UInt16
  dstPort : UInt16
  protocol : Protocol
deriving DecidableEq, Repr

def readU16 (packetBytes : Bytes) (offset : Nat) : Except Panic UInt16 := do
  return u16FromBeBytes (← byteAt packetBytes offset) (← byteAt packetBytes (offset + 1))

def readIpv4Address (packetBytes : Bytes) (offset : Nat) : Except Panic Ipv4Addr := do
  return ⟨← byteAt packetBytes offset, ← byteAt packetBytes (offset + 1),
    ← byteAt packetBytes (offset + 2), ← byteAt packetBytes (offset + 3)⟩

def parseIpv4 (packetBytes : Bytes) (layer3Offset : Nat) : Parse ParsedL4 := do
  if packetBytes.length < layer3Offset + ipv4MinHeaderLen then failure
  let versionIhl ← byteAt packetBytes layer3Offset
  if versionIhl >>> 4 ≠ 4 then failure
  let ihl := (versionIhl &&& 0x0f).toNat * 4
  if ihl < ipv4MinHeaderLen ∨ packetBytes.length < layer3Offset + ihl then failure
  let protocolNumber ← byteAt packetBytes (layer3Offset + 9)
  let srcIp ← readIpv4Address packetBytes (layer3Offset + 12)
  let dstIp ← readIpv4Address packetBytes (layer3Offset + 16)
  let layer4Offset := layer3Offset + ihl
  if packetBytes.length < layer4Offset + 4 then failure
  let srcPort ← readU16 packetBytes layer4Offset
  let dstPort ← readU16 packetBytes (layer4Offset + 2)
  let protocol := protocolFromNum protocolNumber
  if protocol.isOther then failure
  return ⟨.v4 srcIp, .v4 dstIp, srcPort, dstPort, protocol⟩

def readIpv6Address (packetBytes : Bytes) (offset : Nat) : Parse Ipv6Addr := do
  if packetBytes.length < offset + 16 then failure
  let slice ← sliceAt packetBytes offset 16
  Ipv6Addr.ofSlice slice

def parseIpv6 (packetBytes : Bytes) (layer3Offset : Nat) : Parse ParsedL4 := do
  if packetBytes.length < layer3Offset + ipv6HeaderLen then failure
  let version := (← byteAt packetBytes layer3Offset) >>> 4
  if version ≠ 6 then failure
  let nextHeader ← byteAt packetBytes (layer3Offset + 6)
  let srcIp ← readIpv6Address packetBytes (layer3Offset + 8)
  let dstIp ← readIpv6Address packetBytes (layer3Offset + 24)
  let layer4Offset := layer3Offset + ipv6HeaderLen
  if packetBytes.length < layer4Offset + 4 then failure
  let srcPort ← readU16 packetBytes layer4Offset
  let dstPort ← readU16 packetBytes (layer4Offset + 2)
  let protocol := protocolFromNum nextHeader
  if protocol.isOther then failure
  return ⟨.v6 srcIp, .v6 dstIp, srcPort, dstPort, protocol⟩

def classifyDirection (localIps : List IpAddr) (srcIp dstIp : IpAddr) : Direction :=
  if srcIp ∈ localIps then .tx
  else if dstIp ∈ localIps then .rx
  else .tx

/-- `now` is the clock read when the record is built. -/
def parsePacket (packetBytes : Bytes) (packetLen : UInt32) (localIps : List IpAddr) (now : Instant) :
    Parse FlowRecord := do
  if packetBytes.length < ethernetHeaderLen then failure
  let etherType ← readU16 packetBytes 12
  let (currentEtherType, l3Offset) ←
    if etherType = ethertypeVlan8021q ∨ etherType = ethertypeVlan8021ad then do
      if packetBytes.length < vlanEthernetHeaderLen then failure
      pure (← readU16 packetBytes 16, vlanEthernetHeaderLen)
    else pure (etherType, ethernetHeaderLen)
  let parsed ←
    if currentEtherType = ethertypeIpv4 then parseIpv4 packetBytes l3Offset
    else if currentEtherType = ethertypeIpv6 then parseIpv6 packetBytes l3Offset
    else failure
  return {
    key := ⟨parsed.srcIp, parsed.dstIp, parsed.srcPort, parsed.dstPort, parsed.protocol⟩
    byteCount := packetLen
    timestamp := now
    direction := classifyDirection localIps parsed.srcIp parsed.dstIp }

end Netmon.Capture
