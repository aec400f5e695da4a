import Netmon.Capture.PacketExact

/-! Tags before the EtherType of a frame. The parser looks behind one tag, whichever of the
two kinds it is; behind two it finds the second tag where it expects the EtherType. -/
namespace Netmon.Capture
open Library

instance (etherType : UInt16) : Decidable (IsTag etherType) := inferInstanceAs (Decidable (_ ∨ _))

/-- The frame with a stack of tags before its EtherType. -/
def insertTags (stack : List VlanTag) (bytes : Bytes) : Bytes :=
  bytes.take 12 ++ (stack.flatMap VlanTag.encode ++ bytes.drop 12)

theorem VlanTag.encode_length (tag : VlanTag) : tag.encode.length = 4 := by simp [VlanTag.encode]

theorem insertTags_nil (bytes : Bytes) : insertTags [] bytes = bytes := List.take_append_drop 12 bytes

/-- From the EtherType on, the second string is the first one moved by a tag. -/
structure Moved (bytes tagged : Bytes) : Prop where
  length : tagged.length = bytes.length + 4
  octets : ∀ i, 12 ≤ i → octet tagged (i + 4) = octet bytes i
  windows : ∀ start n, 12 ≤ start → window tagged (start + 4) n = window bytes start n

theorem insertTags_moved {bytes : Bytes} (present : 12 ≤ bytes.length) (tag : VlanTag) :
    Moved bytes (insertTags [tag] bytes) := by
  have whole := List.take_append_drop 12 bytes
  have front : (bytes.take 12).length = 12 := List.length_take_of_le present
  have tagged : insertTags [tag] bytes = (bytes.take 12 ++ tag.encode) ++ bytes.drop 12 := by
    simp [insertTags]
  have wide : (bytes.take 12 ++ tag.encode).length = 16 := by
    rw [List.length_append, front, tag.encode_length]
  constructor
  · rw [tagged, List.length_append, wide, List.length_drop]
    omega
  · intro i inside
    rw [tagged, octet_append_right (by omega), wide]
    conv_rhs => rw [← whole, octet_append_right (by omega), front]
    rw [Nat.add_sub_add_right i 4 12]
  · intro start n inside
    rw [tagged, window_append_right (by omega), wide]
    conv_rhs => rw [← whole, window_append_right (by omega), front]
    rw [Nat.add_sub_add_right start 4 12]

namespace Moved
variable {bytes tagged : Bytes} (moved : Moved bytes tagged)
include moved

theorem u16At {i : Nat} (inside : 12 ≤ i) : Capture.u16At tagged (i + 4) = Capture.u16At bytes i := by
  rw [Capture.u16At, moved.octets i inside, Nat.add_right_comm, moved.octets (i + 1) (Nat.le_succ_of_le inside),
    Capture.u16At]

theorem ipv4At {i : Nat} (inside : 12 ≤ i) : Capture.ipv4At tagged (i + 4) = Capture.ipv4At bytes i := by
  have each (k : Nat) : octet tagged (i + 4 + k) = octet bytes (i + k) := by
    rw [Nat.add_right_comm]
    exact moved.octets (i + k) (Nat.le_add_right_of_le inside)
  rw [Capture.ipv4At, moved.octets i inside, each 1, each 2, each 3, Capture.ipv4At]

end Moved

theorem Link.untagged_eq {bytes : Bytes} {offset : Nat} {etherType : UInt16} (link : Link bytes offset etherType)
    (plain : ¬IsTag (u16At bytes 12)) : offset = 14 ∧ etherType = u16At bytes 12 := by
  cases link with
  | untagged _ _ => exact ⟨rfl, rfl⟩
  | tagged _ tag => exact absurd tag plain

theorem Link.tagged_eq {bytes : Bytes} {offset : Nat} {etherType : UInt16} (link : Link bytes offset etherType)
    (tag : IsTag (u16At bytes 12)) : etherType = u16At bytes 16 := by
  cases link with
  | untagged _ plain => exact absurd tag plain
  | tagged _ _ => rfl

theorem Link.present {bytes : Bytes} {offset : Nat} {etherType : UInt16} (link : Link bytes offset etherType) :
    14 ≤ bytes.length := by
  cases link with
  | untagged present _ => exact present
  | tagged present _ => exact Nat.le_trans (by decide) present

theorem Carries.present {bytes : Bytes} {key : FlowKey} (carries : Carries bytes key) : 14 ≤ bytes.length := by
  cases carries with
  | ipv4 link => exact link.present
  | ipv6 link => exact link.present

theorem Carries.moved {bytes tagged : Bytes} {key : FlowKey} (carries : Carries bytes key)
    (plain : ¬IsTag (u16At bytes 12)) (moved : Moved bytes tagged) (tag : IsTag (u16At tagged 12)) :
    Carries tagged key := by
  have size := moved.length
  have next : u16At tagged 16 = u16At bytes 12 := moved.u16At (Nat.le_refl 12)
  cases carries with
  | ipv4 link version ihl room transport =>
    have present := link.present
    obtain ⟨rfl, etherType⟩ := link.untagged_eq plain
    have behind : Link tagged 18 0x0800 := by
      rw [etherType, ← next]
      exact .tagged (by omega) tag
    have first := moved.octets 14 (by omega)
    have words : headerWords tagged 18 = headerWords bytes 14 := congrArg (fun byte => byte.toNat % 16) first
    have number := moved.octets (14 + 9) (by omega)
    have read := Carries.ipv4 behind ((congrArg (fun byte => byte.toNat / 16) first).trans version) (words ▸ ihl)
      (by omega) (number ▸ transport)
    have src : ipv4At tagged (18 + 12) = ipv4At bytes (14 + 12) := moved.ipv4At (by omega)
    have dst : ipv4At tagged (18 + 16) = ipv4At bytes (14 + 16) := moved.ipv4At (by omega)
    have srcPort := moved.u16At (i := 14 + headerWords bytes 14 * 4) (by omega)
    have dstPort := moved.u16At (i := 14 + headerWords bytes 14 * 4 + 2) (by omega)
    rw [src, dst, words, show 18 + headerWords bytes 14 * 4 = 14 + headerWords bytes 14 * 4 + 4 by omega, srcPort,
      show 14 + headerWords bytes 14 * 4 + 4 + 2 = 14 + headerWords bytes 14 * 4 + 2 + 4 by omega, dstPort] at read
    exact read
  | ipv6 link version room transport source destination =>
    have present := link.present
    obtain ⟨rfl, etherType⟩ := link.untagged_eq plain
    have behind : Link tagged 18 0x86dd := by
      rw [etherType, ← next]
      exact .tagged (by omega) tag
    have first := moved.octets 14 (by omega)
    have number := moved.octets (14 + 6) (by omega)
    have read := Carries.ipv6 behind ((congrArg (fun byte => byte.toNat / 16) first).trans version) (by omega)
      (number ▸ transport) (source.trans (moved.windows (14 + 8) 16 (by omega)).symm)
      (destination.trans (moved.windows (14 + 24) 16 (by omega)).symm)
    have srcPort : u16At tagged (18 + 40) = u16At bytes (14 + 40) := moved.u16At (by omega)
    have dstPort : u16At tagged (18 + 42) = u16At bytes (14 + 42) := moved.u16At (by omega)
    rw [srcPort, dstPort] at read
    exact read

theorem insertTags_isTag {bytes : Bytes} (present : 12 ≤ bytes.length) (first : VlanTag) (stack : List VlanTag) :
    IsTag (u16At (insertTags (first :: stack) bytes) 12) := by
  have front : 12 = (bytes.take 12).length := (List.length_take_of_le present).symm
  have shape : insertTags (first :: stack) bytes = bytes.take 12 ++ (u16ToBeBytes (if first.service then 0x88a8 else 0x8100) ++
      (u16ToBeBytes first.control ++ (stack.flatMap VlanTag.encode ++ bytes.drop 12))) := by
    simp [insertTags, VlanTag.encode]
  rw [shape, u16At_field _ _ _ front]
  cases first.service <;> simp [IsTag]

theorem insertTags_cons {bytes : Bytes} (present : 12 ≤ bytes.length) (first : VlanTag) (stack : List VlanTag) :
    insertTags (first :: stack) bytes = insertTags [first] (insertTags stack bytes) := by
  have front : (bytes.take 12).length = 12 := List.length_take_of_le present
  simp [insertTags, front]

theorem insertTags_length {bytes : Bytes} (present : 12 ≤ bytes.length) (stack : List VlanTag) :
    12 ≤ (insertTags stack bytes).length := by
  rw [insertTags, List.length_append, List.length_take_of_le present]
  exact Nat.le_add_right _ _

/-- Behind two tags the parser finds no EtherType that it knows. -/
theorem not_carries_stacked {bytes : Bytes} (present : 12 ≤ bytes.length) (first second : VlanTag) (stack : List VlanTag)
    (key : FlowKey) : ¬Carries (insertTags (first :: second :: stack) bytes) key := by
  have outer := insertTags_isTag present first (second :: stack)
  have inner : IsTag (u16At (insertTags (first :: second :: stack) bytes) 16) := by
    rw [insertTags_cons present,
      (insertTags_moved (insertTags_length present (second :: stack)) first).u16At (Nat.le_refl 12)]
    exact insertTags_isTag present second stack
  intro carries
  cases carries with
  | ipv4 link =>
    rw [← link.tagged_eq outer] at inner
    exact absurd inner (by simp [IsTag])
  | ipv6 link =>
    rw [← link.tagged_eq outer] at inner
    exact absurd inner (by simp [IsTag])

/-- A frame that is accepted without tags is accepted with a stack of tags, for the same flow and direction, exactly when
the stack has at most one tag. -/
theorem vlan_transparent_iff (bytes : Bytes) (stack : List VlanTag) (packetLen taggedLen : UInt32)
    (localIps : List IpAddr) (now taggedNow : Instant) (record : FlowRecord) (plain : ¬IsTag (u16At bytes 12))
    (accepted : (parsePacket bytes packetLen localIps now).run = .ok (some record)) :
    (∃ tagged, (parsePacket (insertTags stack bytes) taggedLen localIps taggedNow).run = .ok (some tagged) ∧
      tagged.key = record.key ∧ tagged.direction = record.direction) ↔ stack.length ≤ 1 := by
  obtain ⟨carries, _, _, direction⟩ := (parsePacket_iff packetLen localIps now bytes record).mp accepted
  have present : 12 ≤ bytes.length := Nat.le_trans (by decide) carries.present
  constructor
  · rintro ⟨tagged, read, _, _⟩
    obtain ⟨stacked, _⟩ := (parsePacket_iff taggedLen localIps taggedNow _ tagged).mp read
    match stack with
    | [] => exact Nat.zero_le 1
    | [_] => exact Nat.le_refl 1
    | first :: second :: stack => exact absurd stacked (not_carries_stacked present first second stack tagged.key)
  · intro single
    have same : Carries (insertTags stack bytes) record.key := by
      match stack with
      | [] =>
        rw [insertTags_nil]
        exact carries
      | [tag] => exact carries.moved plain (insertTags_moved present tag) (insertTags_isTag present tag [])
    refine ⟨⟨record.key, taggedLen, taggedNow, record.direction⟩, ?_, rfl, rfl⟩
    exact (parsePacket_iff taggedLen localIps taggedNow _ _).mpr ⟨same, rfl, rfl, direction⟩

def queryHeader : Ipv4Header := ⟨[0, 0, 28, 0, 1, 0, 0, 64], rfl, 0, ⟨10, 0, 0, 2⟩, ⟨192, 0, 2, 1⟩, 0, [], rfl⟩

/-- A UDP datagram from port 40000 to port 53, without a tag. -/
def queryFrame : Frame where
  hardware := [2, 0, 0, 0, 0, 1, 2, 0, 0, 0, 0, 2]
  hardwareSize := rfl
  tag := none
  network := .v4 queryHeader
  udp := true
  srcPort := 40000
  dstPort := 53
  payload := [0, 8, 0, 0]

def providerTag : VlanTag := ⟨true, 100⟩
def customerTag : VlanTag := ⟨false, 7⟩

def queryFlow : FlowRecord := ⟨queryFrame.key, 42, 0, .tx⟩

theorem vlan_transparent_iff_query :
    (∃ tagged, (parsePacket (insertTags [customerTag] queryFrame.encode) 46 [] 0).run = .ok (some tagged) ∧
      tagged.key = queryFlow.key ∧ tagged.direction = queryFlow.direction) ↔ [customerTag].length ≤ 1 :=
  vlan_transparent_iff queryFrame.encode [customerTag] 42 46 [] 0 0 queryFlow (by decide) (by decide +kernel)

/-- A frame with a provider's and a customer's tag is skipped. -/
theorem vlan_stack_skipped :
    ¬IsTag (u16At queryFrame.encode 12) ∧ (parsePacket queryFrame.encode 42 [] 0).run = .ok (some queryFlow) ∧
      (parsePacket (insertTags [providerTag, customerTag] queryFrame.encode) 50 [] 0).run = .ok none :=
  ⟨by decide, by decide +kernel, by decide +kernel⟩

end Netmon.Capture
