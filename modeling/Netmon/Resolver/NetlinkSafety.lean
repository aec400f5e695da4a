import Netmon.Library.Loop
import Netmon.Resolver.NetlinkFraming
import Mathlib.Data.Nat.Bitwise

/-! The parser of one datagram in 64-bit arithmetic. Every sum, slice and struct
read is checked where the code performs it; its outcome is that of the parser
over unbounded offsets, which finds the one place that can overflow. -/
namespace Netmon.Resolver.Machine
open Library

/-! ### Checked operations -/

/-- A slice has at most `isize::MAX` bytes. -/
structure Slice where
  bytes : Bytes
  fits : bytes.length < 2^63

/-- What ends the parser, or a read through a pointer that leaves its slice. -/
inductive Fault where
  | stop (stop : Stop)
  | rawRead
deriving DecidableEq, Repr

abbrev Checked := EStateM Fault SocketsByInode

def parseError : Fault := .stop (.error .parseError)
def overflow : Fault := .stop (.panic .overflow)
def outOfBounds : Fault := .stop (.panic .outOfBounds)

def Slice.len (slice : Slice) : UInt64 := UInt64.ofNat slice.bytes.length

def add (a b : UInt64) : Checked UInt64 :=
  if a.toNat + b.toNat < 2^64 then pure (a + b) else throw overflow

def sub (a b : UInt64) : Checked UInt64 :=
  if b ≤ a then pure (a - b) else throw overflow

def mul (a b : UInt64) : Checked UInt64 :=
  if a.toNat * b.toNat < 2^64 then pure (a * b) else throw overflow

def saturatingSub (a b : UInt64) : UInt64 := if b ≤ a then a - b else 0

theorem window_fits {bytes : Bytes} (fits : bytes.length < 2^63) (start n : Nat) :
    (window bytes start n).length < 2^63 := by
  simp only [window, List.length_take, List.length_drop]
  omega

/-- `slice[start..stop]`. -/
def sliceRange (slice : Slice) (start stop : UInt64) : Checked Slice :=
  if start ≤ stop ∧ stop ≤ slice.len then
    pure ⟨window slice.bytes start.toNat (stop.toNat - start.toNat), window_fits slice.fits _ _⟩
  else throw outOfBounds

/-- `slice[start..]`. -/
def sliceFrom (slice : Slice) (start : UInt64) : Checked Slice := sliceRange slice start slice.len

/-- `ptr.read_unaligned()` of a struct, from the start of a slice. -/
def readUnaligned (size : UInt64) (slice : Slice) : Checked Bytes :=
  if size ≤ slice.len then pure (window slice.bytes 0 size.toNat) else throw .rawRead

/-- The bytes of the struct that is read. -/
def readStruct (size : UInt64) (bytes : Slice) (offset : UInt64) : Checked (Option Bytes) := do
  if (← add offset size) > bytes.len then return none
  let tail ← sliceFrom bytes offset
  return some (← readUnaligned size tail)

def nlmsgAlign (len : UInt64) : Checked UInt64 := do
  let raised ← sub (← add len 4) 1
  let low ← sub 4 1
  return raised &&& ~~~low

/-- `bytes[start..stop].copy_from_slice(word)` on an array of 16 bytes. -/
def copyFromSlice (bytes : Ipv6Addr) (start stop : UInt64) (word : Bytes) : Checked Ipv6Addr :=
  if inside : start.toNat ≤ stop.toNat ∧ stop.toNat ≤ 16 ∧ word.length = stop.toNat - start.toNat then
    pure ⟨bytes.octets.take start.toNat ++ (word ++ bytes.octets.drop stop.toNat), by
      have size := bytes.size
      simp only [List.length_append, List.length_take, List.length_drop]
      omega⟩
  else throw outOfBounds

section Host
variable (host : Endian)

/-! ### The parser -/

def nlmsghdr (raw : Bytes) : RawNlmsghdr :=
  { nlmsgLen := host.value (window raw 0 4)
    nlmsgType := host.value (window raw 4 2) }

def inetDiagMsg (raw : Bytes) : InetDiagMsgRaw :=
  { family := octet raw 0
    state := octet raw 1
    sport := host.value (window raw 4 2)
    dport := host.value (window raw 6 2)
    src := fun i => host.value (window raw (8 + 4 * i) 4)
    dst := fun i => host.value (window raw (24 + 4 * i) 4)
    uid := host.value (window raw 64 4)
    inode := host.value (window raw 68 4) }

def netlinkError (raw : Bytes) : Int :=
  let word := host.value (window raw 0 4)
  if word < 2^31 then word else (word : Int) - 2^32

/-- Negation of an `i32`. -/
def neg (n : Int) : Checked Int := if n = -2^31 then throw overflow else pure (-n)

def parseKernelError (payload : Slice) : Checked Int := do
  match ← readStruct 20 payload 0 with
  | none => throw parseError
  | some raw =>
    let error := netlinkError host raw
    if error = 0 then return 0
    neg error

def ipv6FromBeWords (addrWords : Fin 4 → Nat) : Checked Ipv6Addr :=
  (List.finRange 4).foldlM (fun bytes index => do
    let wordBytes := beBytes 4 (fromBe host 4 (addrWords index))
    let start ← mul (UInt64.ofNat index) 4
    copyFromSlice bytes start (← add start 4) wordBytes) ⟨List.replicate 16 0, rfl⟩

theorem first_inside : 0 < 4 := by decide

def socketAddrFromDiag (family : UInt8) (addrWords : Fin 4 → Nat) (rawPort : Nat) :
    Checked (Option SocketAddr) := do
  let port := UInt16.ofNat (fromBe host 2 rawPort)
  if family = afInetFamily then
    return some ⟨.v4 (ipv4FromU32 (fromBe host 4 (addrWords ⟨0, first_inside⟩))), port⟩
  else if family = afInet6Family then
    let addr ← ipv6FromBeWords host addrWords
    return some ⟨.v6 addr, port⟩
  else
    return none

def parseInetDiagMessage (payload : Slice) (protocolKind : Protocol) : Checked SocketEntry := do
  match ← readStruct 72 payload 0 with
  | none => throw parseError
  | some raw =>
    let message := inetDiagMsg host raw
    match ← socketAddrFromDiag host message.family message.src message.sport with
    | none => throw parseError
    | some localAddr =>
      match ← socketAddrFromDiag host message.family message.dst message.dport with
      | none => throw parseError
      | some remoteAddr => return {
          inode := message.inode
          localAddr := localAddr
          remoteAddr := remoteAddr
          state := tcpStateToStr message.state
          uid := message.uid
          protocol := protocolKind }

/-- One turn of the loop: the next offset, or whether the end of the dump was seen. -/
def parseTurn (responseBytes : Slice) (protocolKind : Protocol) (offset : UInt64) : Checked (UInt64 ⊕ Bool) := do
  if (← add offset 16) ≤ responseBytes.len then
    match ← readStruct 16 responseBytes offset with
    | none => throw parseError
    | some raw =>
      let header := nlmsghdr host raw
      if header.nlmsgLen = 0 then throw parseError
      let messageLen := UInt64.ofNat header.nlmsgLen
      if (← add offset messageLen) > responseBytes.len then throw parseError
      let payloadOffset ← add offset 16
      let payloadLen := saturatingSub messageLen 16
      let payload ← sliceRange responseBytes payloadOffset (← add payloadOffset payloadLen)
      if header.nlmsgType = nlmsgDoneType then return .inr true
      if header.nlmsgType = nlmsgErrorType then
        throw (.stop (.error (.kernelError (← parseKernelError host payload))))
      if header.nlmsgType = sockDiagByFamilyType then
        let entry ← parseInetDiagMessage host payload protocolKind
        modify (AList.insert entry.inode entry)
      return .inl (← add offset (← nlmsgAlign messageLen))
  else return .inr false

/-- `none` where the loop has not ended after so many turns. -/
def parseResponseMessages (responseBytes : Slice) (protocolKind : Protocol) (turns : Nat) : Checked (Option Bool) :=
  repeatTurns (parseTurn host responseBytes protocolKind) turns 0

end Host

/-! ### Operations that stay in range -/

section Range
variable {a b start stop size offset : UInt64} {slice : Slice}

@[simp] theorem Slice.len_toNat (slice : Slice) : slice.len.toNat = slice.bytes.length := by
  have fits := slice.fits
  rw [Slice.len, UInt64.toNat_ofNat', Nat.mod_eq_of_lt (by omega)]

theorem add_ok (small : a.toNat + b.toNat < 2^64) : add a b = pure (a + b) := if_pos small

theorem toNat_add_ok (small : a.toNat + b.toNat < 2^64) : (a + b).toNat = a.toNat + b.toNat := by
  rw [UInt64.toNat_add, Nat.mod_eq_of_lt small]

theorem sliceRange_ok (ordered : start.toNat ≤ stop.toNat) (inside : stop.toNat ≤ slice.bytes.length) :
    sliceRange slice start stop =
      pure ⟨window slice.bytes start.toNat (stop.toNat - start.toNat), window_fits slice.fits _ _⟩ := by
  rw [sliceRange, if_pos]
  rw [UInt64.le_iff_toNat_le, UInt64.le_iff_toNat_le, Slice.len_toNat]
  exact ⟨ordered, inside⟩

theorem readStruct_none (small : offset.toNat + size.toNat < 2^64)
    (short : slice.bytes.length < offset.toNat + size.toNat) : readStruct size slice offset = pure none := by
  have after : offset + size > slice.len := by
    rw [gt_iff_lt, UInt64.lt_iff_toNat_lt, Slice.len_toNat, toNat_add_ok small]
    exact short
  rw [readStruct, add_ok small]
  simp only [pure_bind, if_pos after]

theorem readStruct_some (inside : offset.toNat + size.toNat ≤ slice.bytes.length) :
    readStruct size slice offset = pure (some (window slice.bytes offset.toNat size.toNat)) := by
  have fits := slice.fits
  have small : offset.toNat + size.toNat < 2^64 := by omega
  have within : ¬offset + size > slice.len := by
    rw [gt_iff_lt, UInt64.lt_iff_toNat_lt, Slice.len_toNat, toNat_add_ok small]
    omega
  have tail : sliceFrom slice offset = pure ⟨window slice.bytes offset.toNat (slice.len.toNat - offset.toNat),
      window_fits slice.fits _ _⟩ := by
    apply sliceRange_ok
    · rw [Slice.len_toNat]
      omega
    · rw [Slice.len_toNat]
  have enough : offset.toNat + (slice.len.toNat - offset.toNat) ≤ slice.bytes.length := by
    rw [Slice.len_toNat]
    omega
  have read : size.toNat ≤ slice.len.toNat - offset.toNat := by
    rw [Slice.len_toNat]
    omega
  rw [readStruct, add_ok small, tail]
  simp only [pure_bind, if_neg within, readUnaligned, UInt64.le_iff_toNat_le]
  rw [if_pos]
  · rw [window_window (by omega), Nat.add_zero]
    rfl
  · rw [Slice.len_toNat, window_length enough]
    exact read

theorem and_not_three (n : UInt64) : (n &&& ~~~3).toNat = n.toNat / 4 * 4 := by
  have mask : (~~~(3 : UInt64)).toNat = (2^62 - 1) <<< 2 := by decide
  have bound := n.toNat_lt
  have whole : n.toNat / 4 * 4 = n.toNat >>> 2 <<< 2 := by
    rw [Nat.shiftLeft_eq, Nat.shiftRight_eq_div_pow]
  rw [UInt64.toNat_and, mask, whole]
  apply Nat.eq_of_testBit_eq
  intro i
  simp only [Nat.testBit_and, Nat.testBit_shiftLeft, Nat.testBit_shiftRight, Nat.testBit_two_pow_sub_one]
  by_cases low : 2 ≤ i
  · have place : 2 + (i - 2) = i := by omega
    by_cases high : i - 2 < 62
    · simp [low, high, place]
    · have beyond : n.toNat.testBit i = false :=
        Nat.testBit_lt_two_pow (Nat.lt_of_lt_of_le bound (Nat.pow_le_pow_right (by omega) (by omega)))
      simp [high, place, beyond]
  · simp [low]

theorem nlmsgAlign_ok (len : UInt64) (small : len.toNat + 4 < 2^64) :
    ∃ aligned : UInt64, nlmsgAlign len = pure aligned ∧ aligned.toNat = Resolver.nlmsgAlign len.toNat := by
  have sum : (len + 4).toNat = len.toNat + 4 := toNat_add_ok small
  have above : (1 : UInt64) ≤ len + 4 := by
    rw [UInt64.le_iff_toNat_le, sum]
    exact Nat.le_add_left 1 _
  have low : (4 - 1 : UInt64) = 3 := rfl
  refine ⟨(len + 4 - 1) &&& ~~~3, ?_, ?_⟩
  · rw [nlmsgAlign, add_ok small]
    simp only [pure_bind, sub, if_pos above]
    rfl
  · rw [and_not_three, UInt64.toNat_sub_of_le _ _ above, sum]
    rfl

end Range

/-! ### The same outcome as over unbounded offsets -/

def embed {α : Type} (action : Query α) : Checked α := EStateM.adaptExcept Fault.stop action

@[simp] theorem embed_pure {α : Type} (value : α) : embed (pure value) = pure value := rfl

@[simp] theorem embed_throw {α : Type} (stop : Stop) : embed (throw stop : Query α) = throw (.stop stop) := rfl

theorem embed_bind {α β : Type} (action : Query α) (next : α → Query β) :
    embed (action >>= next) = embed action >>= fun value => embed (next value) := by
  funext table
  simp only [embed, EStateM.adaptExcept, bind, EStateM.bind]
  cases action table <;> rfl

section Words
variable (host : Endian)

theorem copyFromSlice_word (start stop : UInt64) {bytes : Ipv6Addr} {front back word : Bytes}
    (split : bytes.octets = front ++ back) (place : start.toNat = front.length) (after : stop.toNat = front.length + 4)
    (room : front.length + 4 ≤ 16) (size : word.length = 4) :
    ∃ copied : Ipv6Addr, copyFromSlice bytes start stop word = pure copied ∧
      copied.octets = (front ++ word) ++ back.drop 4 := by
  have inside : start.toNat ≤ stop.toNat ∧ stop.toNat ≤ 16 ∧ word.length = stop.toNat - start.toNat := by omega
  have taken : bytes.octets.take start.toNat = front := by rw [split, place, List.take_left]
  have dropped : bytes.octets.drop stop.toNat = back.drop 4 := by rw [split, after, List.drop_append]; simp
  refine ⟨_, dif_pos inside, ?_⟩
  rw [List.append_assoc]
  simp only [taken, dropped]

theorem ipv6FromBeWords_ok (addrWords : Fin 4 → Nat) :
    ipv6FromBeWords host addrWords = pure (Resolver.ipv6FromBeWords host addrWords) := by
  have size (i : Fin 4) : (beBytes 4 (fromBe host 4 (addrWords i))).length = 4 := beBytes_length 4 _
  have places : mul (UInt64.ofNat (0 : Fin 4)) 4 = pure 0 ∧ mul (UInt64.ofNat (1 : Fin 4)) 4 = pure 4 ∧
      mul (UInt64.ofNat (2 : Fin 4)) 4 = pure 8 ∧ mul (UInt64.ofNat (3 : Fin 4)) 4 = pure 12 := ⟨rfl, rfl, rfl, rfl⟩
  have ends : add 0 4 = pure 4 ∧ add 4 4 = pure 8 ∧ add 8 4 = pure 12 ∧ add 12 4 = pure 16 := ⟨rfl, rfl, rfl, rfl⟩
  have zeros : (⟨List.replicate 16 0, rfl⟩ : Ipv6Addr).octets = [] ++ List.replicate 16 0 := rfl
  obtain ⟨one, oneCopied, oneOctets⟩ := copyFromSlice_word 0 4 zeros rfl rfl (by decide) (size 0)
  obtain ⟨two, twoCopied, twoOctets⟩ := copyFromSlice_word 4 8 oneOctets (by simp) (by simp) (by simp)
    (size 1)
  obtain ⟨three, threeCopied, threeOctets⟩ := copyFromSlice_word 8 12 twoOctets (by simp) (by simp) (by simp)
    (size 2)
  obtain ⟨four, fourCopied, fourOctets⟩ := copyFromSlice_word 12 16 threeOctets (by simp) (by simp) (by simp)
    (size 3)
  have unrolled : List.finRange 4 = [0, 1, 2, 3] := rfl
  have same : four = Resolver.ipv6FromBeWords host addrWords := by
    obtain ⟨octets, length⟩ := four
    simp only [Resolver.ipv6FromBeWords, unrolled]
    simpa using fourOctets
  simp only [ipv6FromBeWords, unrolled, List.foldlM_cons, List.foldlM_nil, places, ends, pure_bind, oneCopied,
    twoCopied, threeCopied, fourCopied, same]

theorem socketAddrFromDiag_ok (family : UInt8) (addrWords : Fin 4 → Nat) (rawPort : Nat) :
    socketAddrFromDiag host family addrWords rawPort =
      pure (Resolver.socketAddrFromDiag host family addrWords rawPort) := by
  simp only [socketAddrFromDiag, Resolver.socketAddrFromDiag, ipv6FromBeWords_ok, pure_bind]
  split
  · rfl
  · split <;> rfl

end Words

section Messages
variable (host : Endian)

theorem inetDiagMsg_read {payload : Bytes} (size : inetDiagMsgSize ≤ payload.length) :
    readInetDiagMsg host payload 0 = some (inetDiagMsg host (window payload 0 72)) := by
  have enough : ¬0 + inetDiagMsgSize > payload.length := by omega
  have inner (start n : Nat) (inside : start + n ≤ 72) :
      window (window payload 0 72) start n = window payload (0 + start) n := window_window inside
  have byte (i : Nat) (inside : i < 72) : octet (window payload 0 72) i = octet payload (0 + i) := by
    simp [octet, window, inside]
  have srcWord (i : Fin 4) : window (window payload 0 72) (8 + 4 * i) 4 = window payload (0 + 8 + 4 * i) 4 := by
    rw [inner (8 + 4 * i) 4 (by omega), Nat.add_assoc]
  have dstWord (i : Fin 4) : window (window payload 0 72) (24 + 4 * i) 4 = window payload (0 + 24 + 4 * i) 4 := by
    rw [inner (24 + 4 * i) 4 (by omega), Nat.add_assoc]
  rw [readInetDiagMsg, if_neg enough, inetDiagMsg]
  simp only [byte 0 (by omega), byte 1 (by omega), inner 4 2 (by omega), inner 6 2 (by omega), inner 64 4 (by omega),
    inner 68 4 (by omega), srcWord, dstWord]

theorem parseInetDiagMessage_ok (payload : Slice) (protocolKind : Protocol) :
    parseInetDiagMessage host payload protocolKind =
      embed (orStop (Resolver.parseInetDiagMessage host payload.bytes protocolKind)) := by
  by_cases size : inetDiagMsgSize ≤ payload.bytes.length
  · have read : readStruct 72 payload 0 = pure (some (window payload.bytes 0 72)) :=
      readStruct_some (by simpa [inetDiagMsgSize] using size)
    rw [parseInetDiagMessage, Resolver.parseInetDiagMessage, read, inetDiagMsg_read host size]
    simp only [pure_bind, socketAddrFromDiag_ok]
    cases Resolver.socketAddrFromDiag host (inetDiagMsg host (window payload.bytes 0 72)).family
      (inetDiagMsg host (window payload.bytes 0 72)).src (inetDiagMsg host (window payload.bytes 0 72)).sport with
    | none => rfl
    | some localAddr =>
      cases Resolver.socketAddrFromDiag host (inetDiagMsg host (window payload.bytes 0 72)).family
        (inetDiagMsg host (window payload.bytes 0 72)).dst (inetDiagMsg host (window payload.bytes 0 72)).dport <;> rfl
  · have unread : readStruct 72 payload 0 = pure none := by
      apply readStruct_none
      · decide
      · simpa [inetDiagMsgSize] using size
    have short : readInetDiagMsg host payload.bytes 0 = none := if_pos (by omega)
    rw [parseInetDiagMessage, Resolver.parseInetDiagMessage, unread, short]
    rfl

theorem parseKernelError_ok (payload : Slice) :
    parseKernelError host payload = embed (Resolver.parseKernelError host payload.bytes) := by
  by_cases size : netlinkErrorSize ≤ payload.bytes.length
  · have read : readStruct 20 payload 0 = pure (some (window payload.bytes 0 20)) :=
      readStruct_some (by simpa [netlinkErrorSize] using size)
    have enough : ¬0 + netlinkErrorSize > payload.bytes.length := by omega
    have word : window (window payload.bytes 0 20) 0 4 = window payload.bytes 0 4 := window_window (by omega)
    rw [parseKernelError, Resolver.parseKernelError, read, readNetlinkError, if_neg enough]
    simp only [pure_bind, netlinkError, word, neg]
    generalize (if host.value (window payload.bytes 0 4) < 2^31 then (host.value (window payload.bytes 0 4) : Int)
      else (host.value (window payload.bytes 0 4) : Int) - 2^32) = error
    by_cases zero : error = 0
    · rw [if_pos zero, if_pos zero]
      rfl
    · rw [if_neg zero, if_neg zero]
      by_cases least : error = -2^31
      · rw [if_pos least, if_pos least]
        rfl
      · rw [if_neg least, if_neg least]
        rfl
  · have unread : readStruct 20 payload 0 = pure none := by
      apply readStruct_none
      · decide
      · simpa [netlinkErrorSize] using size
    have short : readNetlinkError host payload.bytes 0 = none := if_pos (by omega)
    rw [parseKernelError, Resolver.parseKernelError, unread, short]
    rfl

end Messages

/-! ### One turn -/

section Turn
variable {host : Endian} {response : Slice} {protocolKind : Protocol} {offset : UInt64}

theorem messageLen_lt (host : Endian) {bytes : Bytes} {start : Nat} (header : HeaderAt bytes start) :
    messageLen host bytes start < 2^32 := by
  have size : (window bytes start 4).length = 4 := by
    unfold HeaderAt nlmsghdrSize at header
    exact window_length (by omega)
  have bound := host.value_lt (window bytes start 4)
  rw [size] at bound
  exact bound

theorem nlmsghdr_window (bytes : Bytes) (start : Nat) :
    nlmsghdr host (window bytes start 16) = ⟨messageLen host bytes start, messageType host bytes start⟩ := by
  rw [nlmsghdr, window_window (by omega), window_window (by omega)]
  rfl

/-- Offsets that the loop can hold: a message inside the slice, padded. -/
def Near (response : Slice) (offset : UInt64) : Prop := offset.toNat ≤ response.bytes.length + 3

theorem Near.room (near : Near response offset) (n : UInt64) (small : n.toNat < 2^32) :
    offset.toNat + n.toNat < 2^64 := by
  have fits := response.fits
  unfold Near at near
  omega

theorem parseTurn_exhausted (near : Near response offset)
    (short : response.bytes.length < offset.toNat + nlmsghdrSize) :
    parseTurn host response protocolKind offset = pure (.inr false) := by
  have small := near.room 16 (by decide)
  have after : ¬offset + 16 ≤ response.len := by
    rw [UInt64.le_iff_toNat_le, Slice.len_toNat, toNat_add_ok small, Nat.not_le]
    exact short
  rw [parseTurn, add_ok small]
  simp only [pure_bind, if_neg after]

theorem parseTurn_header (near : Near response offset) (header : HeaderAt response.bytes offset.toNat) :
    parseTurn host response protocolKind offset = (do
      if messageLen host response.bytes offset.toNat = 0 then throw parseError
      let messageLen := UInt64.ofNat (messageLen host response.bytes offset.toNat)
      if (← add offset messageLen) > response.len then throw parseError
      let payload ← sliceRange response (offset + 16) (← add (offset + 16) (saturatingSub messageLen 16))
      if messageType host response.bytes offset.toNat = nlmsgDoneType then return .inr true
      if messageType host response.bytes offset.toNat = nlmsgErrorType then
        throw (.stop (.error (.kernelError (← parseKernelError host payload))))
      if messageType host response.bytes offset.toNat = sockDiagByFamilyType then
        let entry ← parseInetDiagMessage host payload protocolKind
        modify (AList.insert entry.inode entry)
      return .inl (← add offset (← nlmsgAlign messageLen))) := by
  have small := near.room 16 (by decide)
  have within : offset + 16 ≤ response.len := by
    rw [UInt64.le_iff_toNat_le, Slice.len_toNat, toNat_add_ok small]
    exact header
  have read : readStruct 16 response offset = pure (some (window response.bytes offset.toNat 16)) :=
    readStruct_some header
  rw [parseTurn, add_ok small, read]
  simp only [pure_bind, if_pos within, nlmsghdr_window]

theorem parseTurn_empty (near : Near response offset) (header : HeaderAt response.bytes offset.toNat)
    (empty : messageLen host response.bytes offset.toNat = 0) :
    parseTurn host response protocolKind offset = throw parseError := by
  rw [parseTurn_header near header, if_pos empty]
  rfl

theorem messageLen_toNat (host : Endian) (header : HeaderAt response.bytes offset.toNat) :
    (UInt64.ofNat (messageLen host response.bytes offset.toNat)).toNat =
      messageLen host response.bytes offset.toNat := by
  have bound := messageLen_lt host header
  rw [UInt64.toNat_ofNat', Nat.mod_eq_of_lt (by omega)]

theorem parseTurn_outside (near : Near response offset) (header : HeaderAt response.bytes offset.toNat)
    (nonzero : messageLen host response.bytes offset.toNat ≠ 0)
    (outside : response.bytes.length < offset.toNat + messageLen host response.bytes offset.toNat) :
    parseTurn host response protocolKind offset = throw parseError := by
  have bound := messageLen_lt host header
  have size := messageLen_toNat host header
  have small := near.room (UInt64.ofNat (messageLen host response.bytes offset.toNat)) (by omega)
  have after : offset + UInt64.ofNat (messageLen host response.bytes offset.toNat) > response.len := by
    rw [gt_iff_lt, UInt64.lt_iff_toNat_lt, Slice.len_toNat, toNat_add_ok small, size]
    exact outside
  rw [parseTurn_header near header, if_neg nonzero]
  simp only [pure_bind, add_ok small, if_pos after]
  rfl

theorem payload_end (fits : FitsAt host response.bytes offset.toNat) (near : Near response offset) :
    ∃ stop : UInt64, add (offset + 16)
        (saturatingSub (UInt64.ofNat (messageLen host response.bytes offset.toNat)) 16) = pure stop ∧
      stop.toNat = offset.toNat + nlmsghdrSize + (messageLen host response.bytes offset.toNat - nlmsghdrSize) := by
  have bound := messageLen_lt host fits.header
  have size := messageLen_toNat host fits.header
  have start := toNat_add_ok (near.room 16 (by decide))
  have fit := response.fits
  have header : (16 : UInt64).toNat = nlmsghdrSize := rfl
  have rest : (saturatingSub (UInt64.ofNat (messageLen host response.bytes offset.toNat)) 16).toNat =
      messageLen host response.bytes offset.toNat - nlmsghdrSize := by
    unfold saturatingSub
    by_cases enough : 16 ≤ UInt64.ofNat (messageLen host response.bytes offset.toNat)
    · rw [if_pos enough, UInt64.toNat_sub_of_le _ _ enough, size, header]
    · rw [if_neg enough]
      rw [UInt64.le_iff_toNat_le, size, header] at enough
      have none : messageLen host response.bytes offset.toNat - nlmsghdrSize = 0 := by omega
      rw [none]
      rfl
  have small : (offset + 16).toNat +
      (saturatingSub (UInt64.ofNat (messageLen host response.bytes offset.toNat)) 16).toNat < 2^64 := by
    unfold Near at near
    rw [start, rest, header]
    simp only [nlmsghdrSize]
    omega
  refine ⟨_, add_ok small, ?_⟩
  rw [toNat_add_ok small, start, rest, header]

variable (host response) in
def payloadSlice (offset : UInt64) : Slice :=
  ⟨messagePayload host response.bytes offset.toNat, window_fits response.fits _ _⟩

theorem sliceRange_payload (near : Near response offset) (fits : FitsAt host response.bytes offset.toNat) {stop : UInt64}
    (place : stop.toNat = offset.toNat + nlmsghdrSize + (messageLen host response.bytes offset.toNat - nlmsghdrSize)) :
    sliceRange response (offset + 16) stop = pure (payloadSlice host response offset) := by
  have start : (offset + 16).toNat = offset.toNat + nlmsghdrSize := toNat_add_ok (near.room 16 (by decide))
  have header := fits.header
  have inside := fits.inside
  unfold HeaderAt at header
  have ordered : (offset + 16).toNat ≤ stop.toNat := by omega
  have within : stop.toNat ≤ response.bytes.length := by omega
  rw [sliceRange_ok ordered within]
  simp only [payloadSlice, messagePayload, start, place, Nat.add_sub_cancel_left]

theorem parseTurn_fits (near : Near response offset) (fits : FitsAt host response.bytes offset.toNat)
    (protocolKind : Protocol) :
    ∃ next : UInt64, next.toNat = nextOffset host response.bytes offset.toNat ∧ Near response next ∧
      parseTurn host response protocolKind offset = (do
        if messageType host response.bytes offset.toNat = nlmsgDoneType then return .inr true
        if messageType host response.bytes offset.toNat = nlmsgErrorType then
          throw (.stop (.error (.kernelError (← parseKernelError host (payloadSlice host response offset)))))
        if messageType host response.bytes offset.toNat = sockDiagByFamilyType then
          let entry ← parseInetDiagMessage host (payloadSlice host response offset) protocolKind
          modify (AList.insert entry.inode entry)
        return .inl next) := by
  have bound := messageLen_lt host fits.header
  have size := messageLen_toNat host fits.header
  have inside := fits.inside
  have fit := response.fits
  have small := near.room (UInt64.ofNat (messageLen host response.bytes offset.toNat)) (by omega)
  have within : ¬offset + UInt64.ofNat (messageLen host response.bytes offset.toNat) > response.len := by
    rw [gt_iff_lt, UInt64.lt_iff_toNat_lt, Slice.len_toNat, toNat_add_ok small, size]
    omega
  obtain ⟨stop, ends, stopPlace⟩ := payload_end fits near
  obtain ⟨aligned, aligns, alignedPlace⟩ := nlmsgAlign_ok
    (UInt64.ofNat (messageLen host response.bytes offset.toNat)) (by omega)
  rw [size] at alignedPlace
  have further : offset.toNat + aligned.toNat < 2^64 := by
    rw [alignedPlace]
    simp only [Resolver.nlmsgAlign]
    omega
  have next := toNat_add_ok further
  refine ⟨offset + aligned, ?_, ?_, ?_⟩
  · rw [next, alignedPlace]
    rfl
  · unfold Near
    rw [next, alignedPlace]
    simp only [Resolver.nlmsgAlign]
    omega
  · rw [parseTurn_header near fits.header, if_neg fits.nonzero]
    simp only [pure_bind, add_ok small, if_neg within, ends, sliceRange_payload near fits stopPlace, aligns,
      add_ok further]

theorem parseTurn_cases (protocolKind : Protocol) (near : Near response offset) :
    (response.bytes.length < offset.toNat + nlmsghdrSize ∧
        parseTurn host response protocolKind offset = pure (.inr false)) ∨
      (Rejected host response.bytes offset.toNat ∧ parseTurn host response protocolKind offset = throw parseError) ∨
      FitsAt host response.bytes offset.toNat := by
  by_cases header : HeaderAt response.bytes offset.toNat
  · by_cases empty : messageLen host response.bytes offset.toNat = 0
    · exact Or.inr (Or.inl ⟨.empty header empty, parseTurn_empty near header empty⟩)
    by_cases outside : response.bytes.length < offset.toNat + messageLen host response.bytes offset.toNat
    · exact Or.inr (Or.inl ⟨.outside header outside, parseTurn_outside near header empty outside⟩)
    · exact Or.inr (Or.inr ⟨header, empty, Nat.not_lt.mp outside⟩)
  · have short := Nat.not_le.mp header
    exact Or.inl ⟨short, parseTurn_exhausted near short⟩

theorem parseTurn_unfolds (protocolKind : Protocol) (near : Near response offset) :
    embed (parseMessagesFrom host response.bytes protocolKind offset.toNat) =
      parseTurn host response protocolKind offset >>=
        Sum.elim (fun next => embed (parseMessagesFrom host response.bytes protocolKind next.toNat)) pure := by
  rcases parseTurn_cases protocolKind near with ⟨short, turn⟩ | ⟨rejected, turn⟩ | fits
  · rw [parseMessagesFrom_exhausted short, turn]
    rfl
  · rw [parseMessagesFrom_rejected rejected, turn]
    rfl
  · obtain ⟨next, place, _, turn⟩ := parseTurn_fits near fits protocolKind
    rw [turn, parseMessagesFrom_fits fits, ← place]
    by_cases done : messageType host response.bytes offset.toNat = nlmsgDoneType
    · rw [if_pos done, if_pos done]
      rfl
    by_cases error : messageType host response.bytes offset.toNat = nlmsgErrorType
    · simp only [if_neg done, if_pos error, parseKernelError_ok, embed_bind, bind_assoc]
      rfl
    by_cases diag : messageType host response.bytes offset.toNat = sockDiagByFamilyType
    · simp only [if_neg done, if_neg error, if_pos diag, parseInetDiagMessage_ok, embed_bind, bind_assoc, pure_bind]
      rfl
    · simp only [if_neg done, if_neg error, if_neg diag, pure_bind]
      rfl

/-- How many messages there can still be. -/
def remaining (response : Slice) (offset : UInt64) : Nat := (response.bytes.length - offset.toNat) / 4

theorem parseTurn_decreases (near : Near response offset) :
    Triple (fun _ => True) (parseTurn host response protocolKind offset)
      (fun result _ => ∀ next, result = .inl next → Near response next ∧ remaining response next < remaining response offset)
      (fun _ _ => True) := by
  obtain ⟨_, turn⟩ | ⟨_, turn⟩ | fits := @parseTurn_cases host response offset protocolKind near
  · rw [turn]
    apply Triple.pure
    intro _ _ later same
    cases same
  · rw [turn]
    exact Triple.throw _ fun _ _ => trivial
  · obtain ⟨next, place, nextNear, turn⟩ := parseTurn_fits near fits protocolKind
    have goesOn : Near response next ∧ remaining response next < remaining response offset := by
      refine ⟨nextNear, ?_⟩
      have further := nextOffset_gt fits
      have header := fits.header
      simp only [HeaderAt, nlmsghdrSize] at header
      simp only [remaining, place]
      omega
    rw [turn]
    by_cases done : messageType host response.bytes offset.toNat = nlmsgDoneType
    · rw [if_pos done]
      apply Triple.pure
      intro _ _ later same
      cases same
    by_cases error : messageType host response.bytes offset.toNat = nlmsgErrorType
    · simp only [if_neg done, if_pos error]
      apply Triple.bind (Triple.any _)
      intro errno
      exact Triple.throw _ fun _ _ => trivial
    by_cases diag : messageType host response.bytes offset.toNat = sockDiagByFamilyType
    · simp only [if_neg done, if_neg error, if_pos diag]
      apply Triple.bind (Triple.any _)
      intro entry
      apply Triple.bind (Triple.any _)
      intro _
      apply Triple.pure
      intro _ _ later same
      cases same
      exact goesOn
    · simp only [if_neg done, if_neg error, if_neg diag]
      apply Triple.pure
      intro _ _ later same
      cases same
      exact goesOn

/-! ### Whole datagrams -/

/-- The loop ends, with the outcome that it has over unbounded offsets. -/
theorem parseResponseMessages_eq (host : Endian) (response : Slice) (protocolKind : Protocol) {turns : Nat}
    (enough : response.bytes.length / 4 < turns) :
    parseResponseMessages host response protocolKind turns =
      some <$> embed (Resolver.parseResponseMessages host response.bytes protocolKind) := by
  have first : Near response 0 := Nat.zero_le _
  have most : remaining response 0 < turns := enough
  let whole (offset : UInt64) : Checked Bool := embed (parseMessagesFrom host response.bytes protocolKind offset.toNat)
  exact repeatTurns_eq whole (fun offset near => parseTurn_unfolds protocolKind near)
    (fun offset near => parseTurn_decreases near) first most

/-- The loop has ended, and no slice or struct that was read left the bytes received. -/
inductive Contained : EStateM.Result Fault SocketsByInode (Option Bool) → Prop
  | returned (done : Bool) (table : SocketsByInode) : Contained (.ok (some done) table)
  | failed (error : NetlinkError) (table : SocketsByInode) : Contained (.error (.stop (.error error)) table)
  | overflowed (table : SocketsByInode) : Contained (.error overflow table)

/-- Whatever is received, the parser ends within as many turns as there are words,
reads nothing outside, and overflows only on an error message that reports the
least 32-bit integer. -/
theorem parseResponseMessages_safe (host : Endian) (response : Slice) (protocolKind : Protocol)
    (table : SocketsByInode) (more : Nat) :
    let outcome := parseResponseMessages host response protocolKind (response.bytes.length / 4 + 1 + more) table
    Contained outcome ∧
      ((∃ final, outcome = .error overflow final) ↔
        ∃ offset, Reached host response.bytes offset ∧ ErrorMessage host response.bytes offset ∧
          errorWord host response.bytes offset = 2^31) := by
  intro outcome
  have same : outcome = (some <$> embed (Resolver.parseResponseMessages host response.bytes protocolKind)) table :=
    congrFun (parseResponseMessages_eq host response protocolKind (by omega)) table
  have overflows := parseResponseMessages_overflow host response.bytes protocolKind table
  obtain ⟨offset, after, _, ending⟩ := parseResponseMessages_ending host response.bytes protocolKind table
  rw [← overflows, same]
  simp only [Functor.map, EStateM.map, embed, EStateM.adaptExcept]
  obtain ⟨done, returned⟩ | ⟨_, rejected⟩ | ⟨_, _, overflowed⟩ | ⟨errno, kernel⟩ := ending
  · rw [returned]
    exact ⟨.returned done after, by simp⟩
  · rw [rejected]
    exact ⟨.failed .parseError after, by simp [overflow]⟩
  · rw [overflowed]
    exact ⟨.overflowed after, by simp [overflow]⟩
  · rw [kernel]
    exact ⟨.failed (.kernelError errno) after, by simp [overflow]⟩

end Turn

end Netmon.Resolver.Machine
