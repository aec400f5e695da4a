import Netmon.Capture.Vlan

/-! Fragments of a TCP or UDP datagram over IPv4. The parser reads the ports behind the IPv4
header of every fragment, though only the first one holds the transport header there. -/
namespace Netmon.Capture
open Library

structure Datagram where
  identification : UInt16
  src : Ipv4Addr
  dst : Ipv4Addr
  udp : Bool
  srcPort : UInt16
  dstPort : UInt16
  /-- The rest of the transport header and the payload. -/
  rest : Bytes

namespace Datagram

def segment (datagram : Datagram) : Bytes :=
  u16ToBeBytes datagram.srcPort ++ (u16ToBeBytes datagram.dstPort ++ datagram.rest)

def protocolNumber (datagram : Datagram) : UInt8 := if datagram.udp then 17 else 6

def key (datagram : Datagram) : FlowKey where
  srcIp := .v4 datagram.src
  dstIp := .v4 datagram.dst
  srcPort := datagram.srcPort
  dstPort := datagram.dstPort
  protocol := if datagram.udp then .udp else .tcp

end Datagram

/-- A fragment with the frame that it is sent in. -/
structure Fragment where
  hardware : Bytes
  hardwareSize : hardware.length = 12
  tag : Option VlanTag
  typeOfService : UInt8
  timeToLive : UInt8
  checksum : UInt16
  optionWords : Fin 11
  options : Bytes
  optionsSize : options.length = 4 * optionWords
  /-- In units of eight bytes. -/
  offset : Fin 8192
  moreFragments : Bool
  payload : Bytes
  fits : (5 + optionWords) * 4 + payload.length < 2^16
  /-- What the frame holds behind the packet. -/
  padding : Bytes

namespace Fragment

theorem middleSize (typeOfService : UInt8) (totalLength identification flagsOffset : UInt16) (timeToLive : UInt8) :
    (typeOfService :: (u16ToBeBytes totalLength ++ u16ToBeBytes identification ++ u16ToBeBytes flagsOffset ++
      [timeToLive])).length = 8 := by
  simp

variable (fragment : Fragment) (datagram : Datagram)

def totalLength : UInt16 := UInt16.ofNat ((5 + fragment.optionWords) * 4 + fragment.payload.length)

def flagsOffset : UInt16 := UInt16.ofNat ((if fragment.moreFragments then 0x2000 else 0) + fragment.offset)

def header : Ipv4Header where
  middle := fragment.typeOfService :: (u16ToBeBytes fragment.totalLength ++ u16ToBeBytes datagram.identification ++
    u16ToBeBytes fragment.flagsOffset ++ [fragment.timeToLive])
  middleSize := middleSize _ _ _ _ _
  checksum := fragment.checksum
  src := datagram.src
  dst := datagram.dst
  optionWords := fragment.optionWords
  options := fragment.options
  optionsSize := fragment.optionsSize

def link : Bytes := fragment.hardware ++ (fragment.tag.elim [] VlanTag.encode ++ u16ToBeBytes 0x0800)

/-- What the parser finds behind the IPv4 header. -/
def body : Bytes := fragment.payload ++ fragment.padding

def encode : Bytes :=
  fragment.link ++ ((fragment.header datagram).encode datagram.protocolNumber ++ fragment.body)

end Fragment

/-- `Splits start segment fragments`: the fragments cut the segment, of which they hold what comes from `start` on, into
pieces of a whole number of units, except the last. -/
inductive Splits : Nat → Bytes → List Fragment → Prop where
  | last {start : Nat} {fragment : Fragment} (place : fragment.offset.val = start)
      (final : fragment.moreFragments = false) : Splits start fragment.payload [fragment]
  | more {start units : Nat} {rest : Bytes} {fragment : Fragment} {fragments : List Fragment}
      (place : fragment.offset.val = start) (flag : fragment.moreFragments = true) (filled : 0 < units)
      (size : fragment.payload.length = 8 * units) (later : Splits (start + units) rest fragments) :
      Splits start (fragment.payload ++ rest) (fragment :: fragments)

theorem Link.unique {bytes : Bytes} {offset offset' : Nat} {etherType etherType' : UInt16}
    (link : Link bytes offset etherType) (link' : Link bytes offset' etherType') :
    offset = offset' ∧ etherType = etherType' := by
  cases link with
  | untagged _ plain =>
    cases link' with
    | untagged _ _ => exact ⟨rfl, rfl⟩
    | tagged _ tag => exact absurd tag plain
  | tagged _ tag =>
    cases link' with
    | untagged _ plain => exact absurd tag plain
    | tagged _ _ => exact ⟨rfl, rfl⟩

theorem u16At_body {front body : Bytes} {offset : Nat} (i : Nat) (place : offset = front.length + i) :
    u16At (front ++ body) offset = u16At body i := by
  subst place
  rw [u16At, octet_append_right (by omega), octet_append_right (by omega), Nat.add_sub_cancel_left, Nat.add_assoc,
    Nat.add_sub_cancel_left, u16At]

/-- A packet is accepted when its header is followed by four bytes, which are read as the ports. -/
theorem Ipv4Header.carries_iff {header : Ipv4Header} {number : UInt8} {protocol : Protocol} {link body : Bytes}
    (announced : Link (link ++ (header.encode number ++ body)) link.length 0x0800) (transport : Transport number protocol)
    (key : FlowKey) :
    Carries (link ++ (header.encode number ++ body)) key ↔
      4 ≤ body.length ∧ key = ⟨.v4 header.src, .v4 header.dst, u16At body 0, u16At body 2, protocol⟩ := by
  have reads := header.reads number link body
  have size := header.encode_length number
  have total : (link ++ (header.encode number ++ body)).length =
      link.length + ((5 + header.optionWords) * 4 + body.length) := by
    rw [List.length_append, List.length_append, size]
  have port (i : Nat) : u16At (link ++ (header.encode number ++ body)) (link.length + (5 + header.optionWords) * 4 + i) =
      u16At body i := by
    rw [← List.append_assoc]
    exact u16At_body i (by rw [List.length_append, size])
  have accepted (room : 4 ≤ body.length) : Carries (link ++ (header.encode number ++ body))
      ⟨.v4 header.src, .v4 header.dst, u16At body 0, u16At body 2, protocol⟩ := by
    have carries := Carries.ipv4 announced reads.version (by rw [reads.ihl]; omega) (by rw [reads.ihl, total]; omega)
      (reads.number.symm ▸ transport)
    rw [reads.src, reads.dst, reads.ihl, port 2] at carries
    rw [← port 0]
    exact carries
  constructor
  · intro carries
    have room : 4 ≤ body.length := by
      cases carries with
      | ipv4 found _ _ room _ =>
        obtain ⟨rfl, _⟩ := announced.unique found
        rw [reads.ihl, total] at room
        omega
      | ipv6 found => cases (announced.unique found).2
    have one := carries_parsePacket 0 [] 0 carries
    rw [carries_parsePacket 0 [] 0 (accepted room)] at one
    have same := Option.some.inj (Except.ok.inj (congrArg OptionT.run one))
    exact ⟨room, (congrArg FlowRecord.key same).symm⟩
  · rintro ⟨room, rfl⟩
    exact accepted room

namespace Fragment
variable (fragment : Fragment) (datagram : Datagram)

theorem transport : Transport datagram.protocolNumber datagram.key.protocol := by
  cases udp : datagram.udp
  · simpa [Datagram.protocolNumber, Datagram.key, udp] using Transport.tcp
  · simpa [Datagram.protocolNumber, Datagram.key, udp] using Transport.udp

theorem carries_iff (key : FlowKey) : Carries (fragment.encode datagram) key ↔
    4 ≤ fragment.body.length ∧ key = { datagram.key with
      srcPort := u16At fragment.body 0
      dstPort := u16At fragment.body 2 } := by
  apply Ipv4Header.carries_iff _ (transport datagram)
  exact link_of_header fragment.hardwareSize fragment.tag (by simp [IsTag]) _

end Fragment

theorem u16ToBeBytes_at (high low : UInt8) : u16ToBeBytes (u16FromBeBytes high low) = [high, low] := by
  have bound : beNat [high, low] < 256 ^ 2 := beNat_lt [high, low]
  have small : beNat [high, low] % 2 ^ 16 = beNat [high, low] := Nat.mod_eq_of_lt (by omega)
  rw [u16ToBeBytes, u16FromBeBytes, UInt16.toNat_ofNat', small]
  exact beBytes_beNat [high, low]

/-- Four bytes are the ports of a datagram when they are the first bytes of its segment. -/
theorem ports_iff (datagram : Datagram) {body : Bytes} (room : 4 ≤ body.length) :
    (u16At body 0 = datagram.srcPort ∧ u16At body 2 = datagram.dstPort) ↔ body.take 4 = datagram.segment.take 4 := by
  have ports : datagram.segment.take 4 = u16ToBeBytes datagram.srcPort ++ u16ToBeBytes datagram.dstPort := by
    rw [Datagram.segment, ← List.append_assoc, List.take_append_of_le_length (by simp), List.take_of_length_le (by simp)]
  have front : body.take 4 = u16ToBeBytes (u16At body 0) ++ u16ToBeBytes (u16At body 2) := by
    match body with
    | a :: b :: c :: d :: rest => simp [u16At, octet, u16ToBeBytes_at]
  rw [ports, front]
  constructor
  · rintro ⟨source, destination⟩
    rw [source, destination]
  · intro same
    obtain ⟨source, destination⟩ := List.append_inj same (by simp)
    have injective {m n : UInt16} (equal : u16ToBeBytes m = u16ToBeBytes n) : m = n := by
      rw [← u16FromBeBytes_toBeBytes m, equal, u16FromBeBytes_toBeBytes]
    exact ⟨injective source, injective destination⟩

theorem Splits.start {start : Nat} {segment : Bytes} {fragment : Fragment} {fragments : List Fragment}
    (splits : Splits start segment (fragment :: fragments)) : fragment.offset.val = start := by
  cases splits with
  | last place _ => exact place
  | more place _ _ _ _ => exact place

theorem Splits.start_le {start : Nat} {segment : Bytes} {fragments : List Fragment}
    (splits : Splits start segment fragments) : ∀ fragment ∈ fragments, start ≤ fragment.offset.val := by
  induction splits with
  | last place _ => simp [place]
  | more place _ _ _ _ ih =>
    intro fragment member
    rcases List.mem_cons.mp member with rfl | later
    · exact Nat.le_of_eq place.symm
    · exact Nat.le_of_add_right_le (ih fragment later)

theorem Splits.first {start : Nat} {segment : Bytes} {fragments : List Fragment} (splits : Splits start segment fragments)
    (room : 4 ≤ segment.length) {fragment : Fragment} (member : fragment ∈ fragments)
    (place : fragment.offset.val = start) : fragment.body.take 4 = segment.take 4 := by
  cases splits with
  | last _ _ =>
    obtain rfl := List.mem_singleton.mp member
    rw [Fragment.body, List.take_append_of_le_length room]
  | more _ _ filled size later =>
    rcases List.mem_cons.mp member with rfl | inside
    · rw [Fragment.body, List.take_append_of_le_length (by omega), List.take_append_of_le_length (by omega)]
    · have after := later.start_le fragment inside
      omega

theorem Datagram.segment_length (datagram : Datagram) : 4 ≤ datagram.segment.length := by
  simp [Datagram.segment]
  omega

section Parse
variable (datagram : Datagram)

/-- The parser takes the ports of the datagram from every fragment that it accepts. -/
def KeepsPorts (fragment : Fragment) : Prop :=
  ∀ packetLen localIps now record, (parsePacket (fragment.encode datagram) packetLen localIps now).run = .ok (some record) →
    record.key.srcPort = datagram.srcPort ∧ record.key.dstPort = datagram.dstPort

theorem keepsPorts_iff (fragment : Fragment) : KeepsPorts datagram fragment ↔
    fragment.body.length < 4 ∨ fragment.body.take 4 = datagram.segment.take 4 := by
  by_cases room : 4 ≤ fragment.body.length
  · rw [or_iff_right (Nat.not_lt_of_le room), ← ports_iff datagram room]
    constructor
    · intro keeps
      have carries := (fragment.carries_iff datagram _).mpr ⟨room, rfl⟩
      exact keeps 0 [] 0 _ ((parsePacket_iff 0 [] 0 _ ⟨_, 0, 0, _⟩).mpr ⟨carries, rfl, rfl, rfl⟩)
    · intro same packetLen localIps now record read
      obtain ⟨carries, _⟩ := (parsePacket_iff packetLen localIps now _ record).mp read
      rw [((fragment.carries_iff datagram record.key).mp carries).2]
      exact same
  · rw [or_iff_left_of_imp fun _ => Nat.lt_of_not_le room]
    refine ⟨fun _ => Nat.lt_of_not_le room, fun _ packetLen localIps now record read => ?_⟩
    obtain ⟨carries, _⟩ := (parsePacket_iff packetLen localIps now _ record).mp read
    exact absurd ((fragment.carries_iff datagram record.key).mp carries).1 room

/-- Every accepted fragment keeps the ports of the datagram, which is read with them when it is not fragmented, exactly
when each of the others has fewer than four bytes behind its header, or there the very bytes of the ports. -/
theorem fragments_keep_ports_iff (fragments : List Fragment) (splits : Splits 0 datagram.segment fragments) :
    (∀ whole, Splits 0 datagram.segment [whole] → ∀ packetLen localIps now,
      (parsePacket (whole.encode datagram) packetLen localIps now).run =
        .ok (some ⟨datagram.key, packetLen, now, classifyDirection localIps datagram.key.srcIp datagram.key.dstIp⟩)) ∧
    ((∀ fragment ∈ fragments, KeepsPorts datagram fragment) ↔
      ∀ fragment ∈ fragments, fragment.offset.val ≠ 0 →
        fragment.body.length < 4 ∨ fragment.body.take 4 = datagram.segment.take 4) := by
  have room := datagram.segment_length
  constructor
  · intro whole single packetLen localIps now
    have front := single.first room (List.mem_singleton_self whole) single.start
    have wide : 4 ≤ whole.body.length := by
      have lengths := congrArg List.length front
      rw [List.length_take, List.length_take] at lengths
      omega
    obtain ⟨source, destination⟩ := (ports_iff datagram wide).mpr front
    have carries := (whole.carries_iff datagram _).mpr ⟨wide, rfl⟩
    rw [source, destination] at carries
    exact (parsePacket_iff packetLen localIps now _ _).mpr ⟨carries, rfl, rfl, rfl⟩
  · simp only [keepsPorts_iff]
    constructor
    · exact fun keep fragment member _ => keep fragment member
    · intro others fragment member
      by_cases start : fragment.offset.val = 0
      · exact Or.inr (splits.first room member start)
      · exact others fragment member start

end Parse

/-- A UDP datagram of sixteen bytes, to the name server. -/
def queryDatagram : Datagram := ⟨1, queryHeader.src, queryHeader.dst, true, 40000, 53, [0, 16, 0, 0, 1, 187, 0, 80, 1, 2, 3, 4]⟩

/-- A fragment in a frame like that of the query. -/
def fragmentOf (offset : Fin 8192) (moreFragments : Bool) (payload : Bytes) (short : payload.length ≤ 16) : Fragment where
  hardware := queryFrame.hardware
  hardwareSize := queryFrame.hardwareSize
  tag := none
  typeOfService := 0
  timeToLive := 64
  checksum := 0
  optionWords := queryHeader.optionWords
  options := queryHeader.options
  optionsSize := queryHeader.optionsSize
  offset := offset
  moreFragments := moreFragments
  payload := payload
  fits := Nat.lt_of_le_of_lt (Nat.add_le_add_left short 20) (by decide)
  padding := []

def firstFragment : Fragment := fragmentOf 0 true (queryDatagram.segment.take 8) (by decide)

def secondFragment : Fragment := fragmentOf 1 false (queryDatagram.segment.drop 8) (by decide)

theorem query_splits : Splits 0 queryDatagram.segment [firstFragment, secondFragment] := by
  have first : firstFragment.offset.val = 0 ∧ firstFragment.payload.length = 8 * 1 := ⟨rfl, rfl⟩
  have later : Splits (0 + 1) secondFragment.payload [secondFragment] := Splits.last rfl rfl
  exact Splits.more first.1 rfl Nat.one_pos first.2 later

theorem fragments_keep_ports_iff_query :
    (∀ whole, Splits 0 queryDatagram.segment [whole] → ∀ packetLen localIps now,
      (parsePacket (whole.encode queryDatagram) packetLen localIps now).run = .ok (some ⟨queryDatagram.key, packetLen, now,
        classifyDirection localIps queryDatagram.key.srcIp queryDatagram.key.dstIp⟩)) ∧
    ((∀ fragment ∈ [firstFragment, secondFragment], KeepsPorts queryDatagram fragment) ↔
      ∀ fragment ∈ [firstFragment, secondFragment], fragment.offset.val ≠ 0 →
        fragment.body.length < 4 ∨ fragment.body.take 4 = queryDatagram.segment.take 4) :=
  fragments_keep_ports_iff queryDatagram [firstFragment, secondFragment] query_splits

/-- The second fragment is read as a packet from port 443 to port 80. -/
theorem fragment_read_as_header :
    Splits 0 queryDatagram.segment [firstFragment, secondFragment] ∧
      (parsePacket (secondFragment.encode queryDatagram) 42 [] 0).run =
        .ok (some ⟨{ queryDatagram.key with srcPort := 443, dstPort := 80 }, 42, 0, .tx⟩) ∧
      ¬KeepsPorts queryDatagram secondFragment := by
  refine ⟨query_splits, by decide +kernel, ?_⟩
  rw [keepsPorts_iff]
  decide

end Netmon.Capture
