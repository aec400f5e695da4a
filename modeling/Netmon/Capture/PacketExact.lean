import Netmon.Capture.Packet

/-! Exactness of the frame parser: every read lies inside the slice, the frames
accepted are those of the header grammar below with the fields at its offsets,
and an encoded frame is read back. -/
namespace Netmon.Capture
open Library

/-! ### The grammar of accepted frames -/

def u16At (bytes : Bytes) (offset : Nat) : UInt16 :=
  u16FromBeBytes (octet bytes offset) (octet bytes (offset + 1))

def ipv4At (bytes : Bytes) (offset : Nat) : Ipv4Addr :=
  ⟨octet bytes offset, octet bytes (offset + 1), octet bytes (offset + 2), octet bytes (offset + 3)⟩

def IsTag (etherType : UInt16) : Prop := etherType = 0x8100 ∨ etherType = 0x88a8

/-- `Link bytes offset etherType`: an Ethernet header with at most one tag ends
at `offset` and announces `etherType`. -/
inductive Link (bytes : Bytes) : Nat → UInt16 → Prop
  | untagged (present : 14 ≤ bytes.length) (plain : ¬IsTag (u16At bytes 12)) : Link bytes 14 (u16At bytes 12)
  | tagged (present : 18 ≤ bytes.length) (tag : IsTag (u16At bytes 12)) : Link bytes 18 (u16At bytes 16)

inductive Transport : UInt8 → Protocol → Prop
  | tcp : Transport 6 .tcp
  | udp : Transport 17 .udp

def headerWords (bytes : Bytes) (offset : Nat) : Nat := (octet bytes offset).toNat % 16

def versionAt (bytes : Bytes) (offset : Nat) : Nat := (octet bytes offset).toNat / 16

/-- The frame holds a TCP or UDP segment of this flow, read at the offsets the
headers give. -/
inductive Carries (bytes : Bytes) : FlowKey → Prop
  | ipv4 {offset : Nat} {protocol : Protocol} (link : Link bytes offset 0x0800)
      (version : versionAt bytes offset = 4) (ihl : 5 ≤ headerWords bytes offset)
      (room : offset + (headerWords bytes offset * 4 + 4) ≤ bytes.length)
      (transport : Transport (octet bytes (offset + 9)) protocol) :
      Carries bytes ⟨.v4 (ipv4At bytes (offset + 12)), .v4 (ipv4At bytes (offset + 16)),
        u16At bytes (offset + headerWords bytes offset * 4),
        u16At bytes (offset + headerWords bytes offset * 4 + 2), protocol⟩
  | ipv6 {offset : Nat} {protocol : Protocol} {src dst : Ipv6Addr} (link : Link bytes offset 0x86dd)
      (version : versionAt bytes offset = 6) (room : offset + 44 ≤ bytes.length)
      (transport : Transport (octet bytes (offset + 6)) protocol)
      (source : src.octets = window bytes (offset + 8) 16)
      (destination : dst.octets = window bytes (offset + 24) 16) :
      Carries bytes ⟨.v6 src, .v6 dst, u16At bytes (offset + 40), u16At bytes (offset + 42), protocol⟩

/-! ### Reads that are covered by a guard -/

@[simp] theorem lift_ok {α : Type} (value : α) :
    (liftM (Except.ok value : Except Panic α) : Parse α) = pure value := rfl

@[simp] theorem skip_bind {α β : Type} (next : α → Parse β) : ((failure : Parse α) >>= next) = failure := rfl

theorem readU16_ok {bytes : Bytes} {offset : Nat} (inside : offset + 2 ≤ bytes.length) :
    readU16 bytes offset = .ok (u16At bytes offset) := by
  have first : offset < bytes.length := by omega
  have second : offset + 1 < bytes.length := by omega
  rw [readU16, byteAt_ok first, byteAt_ok second]
  rfl

theorem readIpv4Address_ok {bytes : Bytes} {offset : Nat} (inside : offset + 4 ≤ bytes.length) :
    readIpv4Address bytes offset = .ok (ipv4At bytes offset) := by
  have first : offset < bytes.length := by omega
  have second : offset + 1 < bytes.length := by omega
  have third : offset + 2 < bytes.length := by omega
  have fourth : offset + 3 < bytes.length := by omega
  rw [readIpv4Address, byteAt_ok first, byteAt_ok second, byteAt_ok third, byteAt_ok fourth]
  rfl

def ipv6At (bytes : Bytes) (offset : Nat) (inside : offset + 16 ≤ bytes.length) : Ipv6Addr :=
  ⟨window bytes offset 16, window_length inside⟩

theorem readIpv6Address_ok {bytes : Bytes} {offset : Nat} (inside : offset + 16 ≤ bytes.length) :
    readIpv6Address bytes offset = pure (ipv6At bytes offset inside) := by
  rw [readIpv6Address, if_neg (by omega), sliceAt_ok inside]
  simp [Ipv6Addr.ofSlice, window_length inside, ipv6At]

theorem version_iff (byte version : UInt8) : byte >>> 4 = version ↔ byte.toNat / 16 = version.toNat := by
  rw [← UInt8.toNat_inj]
  simp [Nat.shiftRight_eq_div_pow]

theorem ihl_eq (bytes : Bytes) (offset : Nat) :
    (octet bytes offset &&& 0x0f).toNat = headerWords bytes offset := by
  rw [UInt8.toNat_and]
  exact Nat.and_two_pow_sub_one_eq_mod _ 4

theorem transport_iff (number : UInt8) (protocol : Protocol) :
    Transport number protocol ↔ protocolFromNum number = protocol ∧ protocol.isOther = false := by
  constructor
  · rintro (_ | _) <;> simp [protocolFromNum, ipProtocolTcp, ipProtocolUdp, Protocol.isOther]
  · rintro ⟨rfl, known⟩
    by_cases tcp : number = 6
    · exact tcp ▸ .tcp
    · by_cases udp : number = 17
      · exact udp ▸ .udp
      · simp [protocolFromNum, ipProtocolTcp, ipProtocolUdp, tcp, udp, Protocol.isOther] at known

/-! ### The network layer -/

def Ipv4Accepted (bytes : Bytes) (offset : Nat) : Prop :=
  versionAt bytes offset = 4 ∧ 5 ≤ headerWords bytes offset ∧
    offset + (headerWords bytes offset * 4 + 4) ≤ bytes.length ∧
    (protocolFromNum (octet bytes (offset + 9))).isOther = false

instance (bytes : Bytes) (offset : Nat) : Decidable (Ipv4Accepted bytes offset) :=
  inferInstanceAs (Decidable (_ ∧ _))

def ipv4Fields (bytes : Bytes) (offset : Nat) : ParsedL4 :=
  ⟨.v4 (ipv4At bytes (offset + 12)), .v4 (ipv4At bytes (offset + 16)),
    u16At bytes (offset + headerWords bytes offset * 4), u16At bytes (offset + headerWords bytes offset * 4 + 2),
    protocolFromNum (octet bytes (offset + 9))⟩

/-- Every read of the IPv4 parser is covered by an earlier guard, so it either
skips the frame or returns the fields. -/
theorem parseIpv4_eq (bytes : Bytes) (offset : Nat) :
    parseIpv4 bytes offset = if Ipv4Accepted bytes offset then pure (ipv4Fields bytes offset) else failure := by
  unfold parseIpv4
  simp only [ipv4MinHeaderLen]
  by_cases header : bytes.length < offset + 20
  · have rejected : ¬Ipv4Accepted bytes offset := fun accepted => by
      obtain ⟨_, ihl, room, _⟩ := accepted
      omega
    simp [header, rejected]
  have first : offset < bytes.length := by omega
  have number : offset + 9 < bytes.length := by omega
  have src : offset + 12 + 4 ≤ bytes.length := by omega
  have dst : offset + 16 + 4 ≤ bytes.length := by omega
  rw [byteAt_ok first, byteAt_ok number, readIpv4Address_ok src, readIpv4Address_ok dst]
  simp only [header, if_false, lift_ok, pure_bind, ihl_eq]
  by_cases version : octet bytes offset >>> 4 = 4
  swap
  · have rejected : ¬Ipv4Accepted bytes offset := fun accepted => version ((version_iff _ 4).mpr accepted.1)
    simp [version, rejected]
  by_cases options : headerWords bytes offset * 4 < 20 ∨ bytes.length < offset + headerWords bytes offset * 4
  · have rejected : ¬Ipv4Accepted bytes offset := fun accepted => by
      obtain ⟨_, ihl, room, _⟩ := accepted
      omega
    simp [version, options, rejected]
  by_cases ports : bytes.length < offset + headerWords bytes offset * 4 + 4
  · have rejected : ¬Ipv4Accepted bytes offset := fun accepted => by
      obtain ⟨_, _, room, _⟩ := accepted
      omega
    simp [version, options, ports, rejected]
  rw [readU16_ok (by omega), readU16_ok (by omega)]
  have accepted : Ipv4Accepted bytes offset ↔
      (protocolFromNum (octet bytes (offset + 9))).isOther = false := by
    refine ⟨fun holds => holds.2.2.2, fun known => ⟨(version_iff _ 4).mp version, ?_, ?_, known⟩⟩ <;> omega
  by_cases known : (protocolFromNum (octet bytes (offset + 9))).isOther = false
  · simp [version, options, ports, known, accepted, ipv4Fields]
  · simp [version, options, ports, known, accepted]

def Ipv6Accepted (bytes : Bytes) (offset : Nat) : Prop :=
  versionAt bytes offset = 6 ∧ (protocolFromNum (octet bytes (offset + 6))).isOther = false

instance (bytes : Bytes) (offset : Nat) : Decidable (Ipv6Accepted bytes offset) :=
  inferInstanceAs (Decidable (_ ∧ _))

theorem ipv6_reads {bytes : Bytes} {offset : Nat} (room : offset + 40 ≤ bytes.length) :
    byteAt bytes offset = .ok (octet bytes offset) ∧ byteAt bytes (offset + 6) = .ok (octet bytes (offset + 6)) ∧
      readIpv6Address bytes (offset + 8) = pure (ipv6At bytes (offset + 8) (by omega)) ∧
      readIpv6Address bytes (offset + 24) = pure (ipv6At bytes (offset + 24) (by omega)) :=
  ⟨byteAt_ok (by omega), byteAt_ok (by omega), readIpv6Address_ok (by omega), readIpv6Address_ok (by omega)⟩

theorem parseIpv6_short {bytes : Bytes} {offset : Nat} (short : bytes.length < offset + 44) :
    parseIpv6 bytes offset = failure := by
  unfold parseIpv6
  simp only [ipv6HeaderLen]
  by_cases header : bytes.length < offset + 40
  · simp [header]
  obtain ⟨first, next, src, dst⟩ := ipv6_reads (Nat.le_of_not_lt header)
  rw [first, next, src, dst]
  simp [header, short]

theorem parseIpv6_eq {bytes : Bytes} {offset : Nat} (room : offset + 44 ≤ bytes.length) :
    parseIpv6 bytes offset =
      if Ipv6Accepted bytes offset then
        pure ⟨.v6 (ipv6At bytes (offset + 8) (by omega)), .v6 (ipv6At bytes (offset + 24) (by omega)),
          u16At bytes (offset + 40), u16At bytes (offset + 42), protocolFromNum (octet bytes (offset + 6))⟩
      else failure := by
  unfold parseIpv6
  simp only [ipv6HeaderLen]
  have header : ¬bytes.length < offset + 40 := by omega
  obtain ⟨first, next, src, dst⟩ := ipv6_reads (Nat.le_of_not_lt header)
  have srcPort : offset + 40 + 2 ≤ bytes.length := by omega
  have dstPort : offset + 40 + 2 + 2 ≤ bytes.length := by omega
  rw [first, next, src, dst, readU16_ok srcPort, readU16_ok dstPort]
  have ports : ¬bytes.length < offset + 40 + 4 := by omega
  by_cases version : octet bytes offset >>> 4 = 6
  · have right : versionAt bytes offset = 6 := (version_iff _ 6).mp version
    cases known : (protocolFromNum (octet bytes (offset + 6))).isOther <;>
      simp [header, ports, version, Ipv6Accepted, right, known]
  · have wrong : versionAt bytes offset ≠ 6 := fun equal => version ((version_iff _ 6).mpr equal)
    simp [header, version, Ipv6Accepted, wrong]

/-! ### The link layer -/

def parseNetwork (etherType : UInt16) (bytes : Bytes) (offset : Nat) : Parse ParsedL4 :=
  if etherType = ethertypeIpv4 then parseIpv4 bytes offset
  else if etherType = ethertypeIpv6 then parseIpv6 bytes offset
  else failure

def recordOf (packetLen : UInt32) (localIps : List IpAddr) (now : Instant) (parsed : ParsedL4) : FlowRecord :=
  { key := ⟨parsed.srcIp, parsed.dstIp, parsed.srcPort, parsed.dstPort, parsed.protocol⟩
    byteCount := packetLen
    timestamp := now
    direction := classifyDirection localIps parsed.srcIp parsed.dstIp }

section Frame
variable (packetLen : UInt32) (localIps : List IpAddr) (now : Instant)

theorem parsePacket_link {bytes : Bytes} {offset : Nat} {etherType : UInt16} (link : Link bytes offset etherType) :
    parsePacket bytes packetLen localIps now =
      parseNetwork etherType bytes offset >>= fun parsed => pure (recordOf packetLen localIps now parsed) := by
  cases link with
  | untagged present plain =>
    have header : ¬bytes.length < 14 := by omega
    simp only [IsTag] at plain
    rw [parsePacket, readU16_ok present]
    simp only [ethernetHeaderLen, ethertypeVlan8021q, ethertypeVlan8021ad, header, plain, if_false, lift_ok, pure_bind,
      parseNetwork]
    split <;> [skip; split] <;> rfl
  | tagged present tag =>
    have header : ¬bytes.length < 14 := by omega
    have wide : ¬bytes.length < 18 := by omega
    simp only [IsTag] at tag
    have first : 12 + 2 ≤ bytes.length := by omega
    rw [parsePacket, readU16_ok first, readU16_ok present]
    simp only [ethernetHeaderLen, vlanEthernetHeaderLen, ethertypeVlan8021q, ethertypeVlan8021ad, header, wide, tag,
      if_false, if_true, lift_ok, pure_bind, parseNetwork]
    split <;> [skip; split] <;> rfl

theorem parsePacket_unlinked {bytes : Bytes} (unlinked : ∀ offset etherType, ¬Link bytes offset etherType) :
    parsePacket bytes packetLen localIps now = failure := by
  by_cases header : bytes.length < 14
  · simp [parsePacket, ethernetHeaderLen, header]
  have tag : IsTag (u16At bytes 12) := by
    by_contra plain
    exact unlinked _ _ (.untagged (by omega) plain)
  have narrow : bytes.length < 18 := by
    by_contra wide
    exact unlinked _ _ (.tagged (by omega) tag)
  simp only [IsTag] at tag
  have first : 12 + 2 ≤ bytes.length := by omega
  rw [parsePacket, readU16_ok first]
  simp [ethernetHeaderLen, vlanEthernetHeaderLen, ethertypeVlan8021q, ethertypeVlan8021ad, header, tag, narrow]

theorem parseNetwork_eq (etherType : UInt16) (bytes : Bytes) (offset : Nat) :
    parseNetwork etherType bytes offset = failure ∨
      ∃ parsed, parseNetwork etherType bytes offset = pure parsed := by
  unfold parseNetwork
  split
  · rw [parseIpv4_eq]
    split
    · exact .inr ⟨_, rfl⟩
    · exact .inl rfl
  · split
    · by_cases room : offset + 44 ≤ bytes.length
      · rw [parseIpv6_eq room]
        split
        · exact .inr ⟨_, rfl⟩
        · exact .inl rfl
      · exact .inl (parseIpv6_short (by omega))
    · exact .inl rfl

theorem parseNetwork_carries {bytes : Bytes} {offset : Nat} {etherType : UInt16} {parsed : ParsedL4}
    (link : Link bytes offset etherType) (read : parseNetwork etherType bytes offset = pure parsed) :
    Carries bytes (recordOf packetLen localIps now parsed).key := by
  have injective {a b : ParsedL4} (equal : (pure a : Parse ParsedL4) = pure b) : a = b :=
     Option.some.inj (Except.ok.inj (congrArg OptionT.run equal))
  have skipped {a : ParsedL4} : (failure : Parse ParsedL4) ≠ pure a := by
    intro equal
    cases equal
  unfold parseNetwork at read
  split at read
  · rename_i ipv4
    have link : Link bytes offset ethertypeIpv4 := ipv4 ▸ link
    rw [parseIpv4_eq] at read
    split at read
    · rename_i accepted
      obtain ⟨version, ihl, room, known⟩ := accepted
      rw [← injective read]
      exact .ipv4 link version ihl room ((transport_iff _ _).mpr ⟨rfl, known⟩)
    · exact absurd read skipped
  · split at read
    · rename_i ipv6
      have link : Link bytes offset ethertypeIpv6 := ipv6 ▸ link
      by_cases room : offset + 44 ≤ bytes.length
      · rw [parseIpv6_eq room] at read
        split at read
        · rename_i accepted
          rw [← injective read]
          exact .ipv6 link accepted.1 room ((transport_iff _ _).mpr ⟨rfl, accepted.2⟩) rfl rfl
        · exact absurd read skipped
      · rw [parseIpv6_short (by omega)] at read
        exact absurd read skipped
    · exact absurd read skipped

theorem carries_parsePacket {bytes : Bytes} {key : FlowKey} (carries : Carries bytes key) :
    parsePacket bytes packetLen localIps now =
      pure ⟨key, packetLen, now, classifyDirection localIps key.srcIp key.dstIp⟩ := by
  cases carries with
  | ipv4 link version ihl room transport =>
    obtain ⟨rfl, known⟩ := (transport_iff _ _).mp transport
    rw [parsePacket_link packetLen localIps now link, parseNetwork, if_pos (by rfl), parseIpv4_eq,
      if_pos ⟨version, ihl, room, known⟩, pure_bind]
    rfl
  | ipv6 link version room transport source destination =>
    obtain ⟨rfl, known⟩ := (transport_iff _ _).mp transport
    rw [parsePacket_link packetLen localIps now link, parseNetwork, if_neg (by decide), if_pos (by rfl),
      parseIpv6_eq room, if_pos ⟨version, known⟩, pure_bind]
    simp only [ipv6At, ← source, ← destination]
    rfl

/-- A frame is either skipped or read; no input makes the parser panic. -/
theorem parsePacket_total (bytes : Bytes) :
    (parsePacket bytes packetLen localIps now).run = .ok none ∨
      ∃ key, Carries bytes key ∧ (parsePacket bytes packetLen localIps now).run =
        .ok (some ⟨key, packetLen, now, classifyDirection localIps key.srcIp key.dstIp⟩) := by
  by_cases linked : ∃ offset etherType, Link bytes offset etherType
  · obtain ⟨offset, etherType, link⟩ := linked
    rcases parseNetwork_eq etherType bytes offset with skipped | ⟨parsed, read⟩
    · left
      rw [parsePacket_link packetLen localIps now link, skipped]
      rfl
    · right
      have carries := parseNetwork_carries packetLen localIps now link read
      exact ⟨_, carries, by rw [carries_parsePacket packetLen localIps now carries]; rfl⟩
  · left
    rw [parsePacket_unlinked packetLen localIps now fun offset etherType link => linked ⟨offset, etherType, link⟩]
    rfl

/-- The frames accepted are exactly those of the grammar, with its fields. -/
theorem parsePacket_iff (bytes : Bytes) (record : FlowRecord) :
    (parsePacket bytes packetLen localIps now).run = .ok (some record) ↔
      Carries bytes record.key ∧ record.byteCount = packetLen ∧ record.timestamp = now ∧
        record.direction = classifyDirection localIps record.key.srcIp record.key.dstIp := by
  constructor
  · intro accepted
    rcases parsePacket_total packetLen localIps now bytes with skipped | ⟨key, carries, read⟩
    · simp [skipped] at accepted
    · rw [read] at accepted
      obtain rfl := Option.some.inj (Except.ok.inj accepted)
      exact ⟨carries, rfl, rfl, rfl⟩
  · rintro ⟨carries, rfl, rfl, direction⟩
    rw [carries_parsePacket _ _ _ carries, ← direction]
    rfl

end Frame

/-! ### Encoded frames -/

structure VlanTag where
  /-- 802.1ad rather than 802.1Q. -/
  service : Bool
  control : UInt16

structure Ipv4Header where
  /-- Everything between the version byte and the protocol. -/
  middle : Bytes
  middleSize : middle.length = 8
  checksum : UInt16
  src : Ipv4Addr
  dst : Ipv4Addr
  optionWords : Fin 11
  options : Bytes
  optionsSize : options.length = 4 * optionWords

structure Ipv6Header where
  traffic : Fin 16
  /-- The rest of the traffic class, the flow label and the payload length. -/
  middle : Bytes
  middleSize : middle.length = 5
  hopLimit : UInt8
  src : Ipv6Addr
  dst : Ipv6Addr

inductive NetworkHeader where
  | v4 (header : Ipv4Header)
  | v6 (header : Ipv6Header)

structure Frame where
  hardware : Bytes
  hardwareSize : hardware.length = 12
  tag : Option VlanTag
  network : NetworkHeader
  udp : Bool
  srcPort : UInt16
  dstPort : UInt16
  /-- The rest of the transport header and the payload. -/
  payload : Bytes

def VlanTag.encode (tag : VlanTag) : Bytes :=
  u16ToBeBytes (if tag.service then 0x88a8 else 0x8100) ++ u16ToBeBytes tag.control

def NetworkHeader.etherType : NetworkHeader → UInt16
  | .v4 _ => 0x0800
  | .v6 _ => 0x86dd

def Ipv4Header.encode (header : Ipv4Header) (protocol : UInt8) : Bytes :=
  UInt8.ofNat (0x45 + header.optionWords) :: header.middle ++ protocol :: u16ToBeBytes header.checksum ++
    header.src.octets ++ header.dst.octets ++ header.options

def Ipv6Header.encode (header : Ipv6Header) (protocol : UInt8) : Bytes :=
  UInt8.ofNat (0x60 + header.traffic) :: header.middle ++ [protocol, header.hopLimit] ++
    header.src.octets ++ header.dst.octets

def NetworkHeader.encode : NetworkHeader → UInt8 → Bytes
  | .v4 header => header.encode
  | .v6 header => header.encode

namespace Frame

def protocolNumber (frame : Frame) : UInt8 := if frame.udp then 17 else 6

def segment (frame : Frame) : Bytes := u16ToBeBytes frame.srcPort ++ u16ToBeBytes frame.dstPort ++ frame.payload

def link (frame : Frame) : Bytes :=
  frame.hardware ++ (frame.tag.elim [] VlanTag.encode ++ u16ToBeBytes frame.network.etherType)

def encode (frame : Frame) : Bytes :=
  frame.link ++ (frame.network.encode frame.protocolNumber ++ frame.segment)

def key (frame : Frame) : FlowKey :=
  { srcIp := match frame.network with
      | .v4 header => .v4 header.src
      | .v6 header => .v6 header.src
    dstIp := match frame.network with
      | .v4 header => .v4 header.dst
      | .v6 header => .v6 header.dst
    srcPort := frame.srcPort
    dstPort := frame.dstPort
    protocol := if frame.udp then .udp else .tcp }

end Frame

theorem u16At_field (front back : Bytes) (n : UInt16) {offset : Nat} (place : offset = front.length) :
    u16At (front ++ (u16ToBeBytes n ++ back)) offset = n := by
  subst place
  have high : octet (front ++ (u16ToBeBytes n ++ back)) front.length = octet (u16ToBeBytes n) 0 := by
    rw [octet_append_right (Nat.le_refl _), Nat.sub_self, octet_append_left (by simp)]
  have low : octet (front ++ (u16ToBeBytes n ++ back)) (front.length + 1) = octet (u16ToBeBytes n) 1 := by
    rw [octet_append_right (by omega), Nat.add_sub_cancel_left, octet_append_left (by simp)]
  rw [u16At, high, low, u16FromBeBytes_toBeBytes]

theorem link_of_header {hardware : Bytes} (size : hardware.length = 12) (tag : Option VlanTag) {etherType : UInt16}
    (plain : ¬IsTag etherType) (rest : Bytes) :
    let link := hardware ++ (tag.elim [] VlanTag.encode ++ u16ToBeBytes etherType)
    Link (link ++ rest) link.length etherType := by
  intro link
  cases tag with
  | none =>
    have shape : link ++ rest = hardware ++ (u16ToBeBytes etherType ++ rest) := by simp [link]
    have place : u16At (link ++ rest) 12 = etherType := by
      rw [shape, u16At_field _ _ _ size.symm]
    have wide : link.length = 14 := by simp [link, size]
    rw [wide, ← place]
    refine .untagged (by simp [wide]) ?_
    rw [place]
    exact plain
  | some vlan =>
    have shape : link ++ rest = hardware ++ (u16ToBeBytes (if vlan.service then 0x88a8 else 0x8100) ++
        (u16ToBeBytes vlan.control ++ (u16ToBeBytes etherType ++ rest))) := by
      simp [link, VlanTag.encode]
    have marked : u16At (link ++ rest) 12 = if vlan.service then 0x88a8 else 0x8100 := by
      rw [shape, u16At_field _ _ _ size.symm]
    have place : u16At (link ++ rest) 16 = etherType := by
      rw [shape, ← List.append_assoc, ← List.append_assoc]
      exact u16At_field _ _ _ (by simp [size])
    have wide : link.length = 18 := by simp [link, size, VlanTag.encode]
    rw [wide, ← place]
    refine .tagged (by simp [wide]) ?_
    rw [marked]
    cases vlan.service <;> simp [IsTag]

namespace Frame

theorem encode_link (frame : Frame) : Link frame.encode frame.link.length frame.network.etherType := by
  apply link_of_header frame.hardwareSize frame.tag
  cases frame.network <;> simp [IsTag, NetworkHeader.etherType]

theorem transport_protocol (frame : Frame) : Transport frame.protocolNumber frame.key.protocol := by
  cases udp : frame.udp
  · simpa [protocolNumber, key, udp] using Transport.tcp
  · simpa [protocolNumber, key, udp] using Transport.udp

end Frame

theorem ipv4At_field (front back : Bytes) (address : Ipv4Addr) {offset : Nat} (place : offset = front.length) :
    ipv4At (front ++ (address.octets ++ back)) offset = address := by
  subst place
  have each (i : Nat) : octet (front ++ (address.octets ++ back)) (front.length + i) =
      octet (address.octets ++ back) i := by
    rw [octet_append_right (by omega), Nat.add_sub_cancel_left]
  have first := each 0
  rw [Nat.add_zero] at first
  rw [ipv4At, first, each 1, each 2, each 3]
  rfl

theorem octet_field (front back : Bytes) (byte : UInt8) {offset : Nat} (place : offset = front.length) :
    octet (front ++ byte :: back) offset = byte := by
  subst place
  rw [octet_append_right (Nat.le_refl _), Nat.sub_self]
  rfl

namespace Frame

theorem encode_srcPort (frame : Frame) {offset : Nat}
    (place : offset = frame.link.length + (frame.network.encode frame.protocolNumber).length) :
    u16At frame.encode offset = frame.srcPort := by
  rw [encode, segment]
  simp only [List.append_assoc]
  rw [← List.append_assoc frame.link]
  exact u16At_field _ _ _ (by simp [place])

theorem encode_dstPort (frame : Frame) {offset : Nat}
    (place : offset = frame.link.length + (frame.network.encode frame.protocolNumber).length + 2) :
    u16At frame.encode offset = frame.dstPort := by
  rw [encode, segment]
  simp only [List.append_assoc]
  rw [← List.append_assoc frame.link, ← List.append_assoc (frame.link ++ _)]
  exact u16At_field _ _ _ (by simp [place, Nat.add_assoc])

theorem encode_length (frame : Frame) :
    frame.link.length + (frame.network.encode frame.protocolNumber).length + 4 ≤ frame.encode.length := by
  simp [encode, segment]
  omega

end Frame

theorem Ipv4Header.encode_length (header : Ipv4Header) (protocol : UInt8) :
    (header.encode protocol).length = (5 + header.optionWords) * 4 := by
  simp [Ipv4Header.encode, header.middleSize, header.optionsSize, Ipv4Addr.octets]
  omega

theorem Ipv6Header.encode_length (header : Ipv6Header) (protocol : UInt8) :
    (header.encode protocol).length = 40 := by
  simp [Ipv6Header.encode, header.middleSize, header.src.size, header.dst.size]

/-- The fields of an IPv4 header that follows a link header. -/
structure Ipv4Reads (bytes : Bytes) (offset : Nat) (header : Ipv4Header) (protocol : UInt8) : Prop where
  version : versionAt bytes offset = 4
  ihl : headerWords bytes offset = 5 + header.optionWords
  number : octet bytes (offset + 9) = protocol
  src : ipv4At bytes (offset + 12) = header.src
  dst : ipv4At bytes (offset + 16) = header.dst

theorem Ipv4Header.reads (header : Ipv4Header) (protocol : UInt8) (link body : Bytes) :
    Ipv4Reads (link ++ (header.encode protocol ++ body)) link.length header protocol := by
  have words := header.optionWords.isLt
  have first : octet (link ++ (header.encode protocol ++ body)) link.length = UInt8.ofNat (0x45 + header.optionWords) := by
    rw [octet_append_right (Nat.le_refl _), Nat.sub_self]
    rfl
  have value : (UInt8.ofNat (0x45 + header.optionWords)).toNat = 0x45 + header.optionWords := by
    rw [UInt8.toNat_ofNat']
    omega
  constructor
  · rw [versionAt, first, value]
    omega
  · rw [headerWords, first, value]
    omega
  · rw [Ipv4Header.encode]
    simp only [List.append_assoc]
    rw [← List.append_assoc link]
    exact octet_field _ _ _ (by simp [header.middleSize])
  · rw [Ipv4Header.encode]
    simp only [List.append_assoc]
    rw [← List.append_assoc link, ← List.append_assoc (link ++ _)]
    exact ipv4At_field _ _ _ (by simp [header.middleSize])
  · rw [Ipv4Header.encode]
    simp only [List.append_assoc]
    rw [← List.append_assoc link, ← List.append_assoc (link ++ _), ← List.append_assoc ((link ++ _) ++ _)]
    exact ipv4At_field _ _ _ (by simp [header.middleSize, Ipv4Addr.octets])

theorem carries_ipv4 (frame : Frame) (header : Ipv4Header) (network : frame.network = .v4 header) :
    Carries frame.encode frame.key := by
  have link : Link frame.encode frame.link.length 0x0800 := by
    simpa [network, NetworkHeader.etherType] using frame.encode_link
  have shape : frame.encode = frame.link ++ (header.encode frame.protocolNumber ++ frame.segment) := by
    rw [Frame.encode, network, NetworkHeader.encode]
  have reads := header.reads frame.protocolNumber frame.link frame.segment
  rw [← shape] at reads
  have size : (frame.network.encode frame.protocolNumber).length = (5 + header.optionWords) * 4 := by
    rw [network]
    exact header.encode_length _
  have whole := frame.encode_length
  have ihl := reads.ihl
  have carries := Carries.ipv4 link reads.version (by omega) (by omega) (reads.number ▸ frame.transport_protocol)
  rw [reads.src, reads.dst, ihl, frame.encode_srcPort (by omega), frame.encode_dstPort (by omega)] at carries
  have key : frame.key = ⟨.v4 header.src, .v4 header.dst, frame.srcPort, frame.dstPort, frame.key.protocol⟩ := by
    simp [Frame.key, network]
  rw [key]
  exact carries

theorem carries_ipv6 (frame : Frame) (header : Ipv6Header) (network : frame.network = .v6 header) :
    Carries frame.encode frame.key := by
  have traffic := header.traffic.isLt
  have link : Link frame.encode frame.link.length 0x86dd := by
    simpa [network, NetworkHeader.etherType] using frame.encode_link
  have shape : frame.encode = frame.link ++ (header.encode frame.protocolNumber ++ frame.segment) := by
    rw [Frame.encode, network, NetworkHeader.encode]
  have first : octet frame.encode frame.link.length = UInt8.ofNat (0x60 + header.traffic) := by
    rw [shape, octet_append_right (Nat.le_refl _), Nat.sub_self]
    rfl
  have version : versionAt frame.encode frame.link.length = 6 := by
    rw [versionAt, first, UInt8.toNat_ofNat']
    omega
  have number : octet frame.encode (frame.link.length + 6) = frame.protocolNumber := by
    rw [shape, Ipv6Header.encode]
    simp only [List.append_assoc]
    rw [← List.append_assoc frame.link]
    exact octet_field _ _ _ (by simp [header.middleSize])
  have src : header.src.octets = window frame.encode (frame.link.length + 8) 16 := by
    rw [shape, Ipv6Header.encode]
    simp only [List.append_assoc]
    rw [← List.append_assoc frame.link, ← List.append_assoc (frame.link ++ _)]
    symm
    exact window_field _ _ _ (by simp [header.middleSize]) header.src.size.symm
  have dst : header.dst.octets = window frame.encode (frame.link.length + 24) 16 := by
    rw [shape, Ipv6Header.encode]
    simp only [List.append_assoc]
    rw [← List.append_assoc frame.link, ← List.append_assoc (frame.link ++ _),
      ← List.append_assoc ((frame.link ++ _) ++ _)]
    symm
    exact window_field _ _ _ (by simp [header.middleSize, header.src.size]) header.dst.size.symm
  have size : (frame.network.encode frame.protocolNumber).length = 40 := by
    rw [network]
    exact header.encode_length _
  have whole := frame.encode_length
  have carries := Carries.ipv6 link version (by omega) (number ▸ frame.transport_protocol) src dst
  rw [frame.encode_srcPort (by omega), frame.encode_dstPort (by omega)] at carries
  have key : frame.key = ⟨.v6 header.src, .v6 header.dst, frame.srcPort, frame.dstPort, frame.key.protocol⟩ := by
    simp [Frame.key, network]
  rw [key]
  exact carries

theorem Frame.carries (frame : Frame) : Carries frame.encode frame.key := by
  cases network : frame.network with
  | v4 header => exact carries_ipv4 frame header network
  | v6 header => exact carries_ipv6 frame header network

/-- The parser is total, accepts exactly the grammar with its fields, and reads
every encoded frame back. -/
theorem parsePacket_exact (bytes : Bytes) (packetLen : UInt32) (localIps : List IpAddr) (now : Instant) :
    (∃ outcome, (parsePacket bytes packetLen localIps now).run = .ok outcome) ∧
    (∀ record, (parsePacket bytes packetLen localIps now).run = .ok (some record) ↔
      Carries bytes record.key ∧ record.byteCount = packetLen ∧ record.timestamp = now ∧
        record.direction = classifyDirection localIps record.key.srcIp record.key.dstIp) ∧
    ∀ frame : Frame, (parsePacket frame.encode packetLen localIps now).run =
      .ok (some ⟨frame.key, packetLen, now, classifyDirection localIps frame.key.srcIp frame.key.dstIp⟩) := by
  refine ⟨?_, parsePacket_iff packetLen localIps now bytes, ?_⟩
  · rcases parsePacket_total packetLen localIps now bytes with skipped | ⟨key, _, read⟩
    · exact ⟨_, skipped⟩
    · exact ⟨_, read⟩
  · intro frame
    rw [carries_parsePacket packetLen localIps now frame.carries]
    rfl

end Netmon.Capture
