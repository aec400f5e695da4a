import Netmon.Resolver.Netlink

/-! The framing of a datagram. The offsets at which the parser reads a header,
what it does with the message there, and which byte strings it accepts although
they are no chain of messages. -/
namespace Netmon.Resolver
open Library

section Host
variable (host : Endian)

def messageLen (bytes : Bytes) (offset : Nat) : Nat := host.value (window bytes offset 4)

def messageType (bytes : Bytes) (offset : Nat) : Nat := host.value (window bytes (offset + 4) 2)

def messagePayload (bytes : Bytes) (offset : Nat) : Bytes :=
  window bytes (offset + nlmsghdrSize) (messageLen host bytes offset - nlmsghdrSize)

def nextOffset (bytes : Bytes) (offset : Nat) : Nat := offset + nlmsgAlign (messageLen host bytes offset)

def HeaderAt (bytes : Bytes) (offset : Nat) : Prop := offset + nlmsghdrSize ≤ bytes.length

/-- A header whose length passes the two checks that the parser makes of it. -/
structure FitsAt (bytes : Bytes) (offset : Nat) : Prop where
  header : HeaderAt bytes offset
  nonzero : messageLen host bytes offset ≠ 0
  inside : offset + messageLen host bytes offset ≤ bytes.length

def DiagReadable (payload : Bytes) : Prop :=
  inetDiagMsgSize ≤ payload.length ∧ (octet payload 0 = afInetFamily ∨ octet payload 0 = afInet6Family)

structure PassedOver (bytes : Bytes) (offset : Nat) : Prop where
  fits : FitsAt host bytes offset
  notDone : messageType host bytes offset ≠ nlmsgDoneType
  notError : messageType host bytes offset ≠ nlmsgErrorType
  readable : messageType host bytes offset = sockDiagByFamilyType → DiagReadable (messagePayload host bytes offset)

/-- An error message that is long enough to hold its error. -/
structure ErrorMessage (bytes : Bytes) (offset : Nat) : Prop where
  fits : FitsAt host bytes offset
  type : messageType host bytes offset = nlmsgErrorType
  size : netlinkErrorSize ≤ (messagePayload host bytes offset).length

def errorWord (bytes : Bytes) (offset : Nat) : Nat := host.value (window (messagePayload host bytes offset) 0 4)

/-- A message that is malformed by itself. -/
inductive Rejected (bytes : Bytes) (offset : Nat) : Prop
  | empty (header : HeaderAt bytes offset) (empty : messageLen host bytes offset = 0)
  | outside (header : HeaderAt bytes offset) (outside : bytes.length < offset + messageLen host bytes offset)
  | error (fits : FitsAt host bytes offset) (type : messageType host bytes offset = nlmsgErrorType)
      (short : (messagePayload host bytes offset).length < netlinkErrorSize)
  | diag (fits : FitsAt host bytes offset) (type : messageType host bytes offset = sockDiagByFamilyType)
      (unreadable : ¬DiagReadable (messagePayload host bytes offset))

/-- The offsets that the parser's loop gets to. -/
inductive Reached (bytes : Bytes) : Nat → Prop
  | start : Reached bytes 0
  | next {offset : Nat} (reached : Reached bytes offset) (passed : PassedOver host bytes offset) :
      Reached bytes (nextOffset host bytes offset)

/-- A message as the protocol frames it. -/
structure FramedMessage (bytes : Bytes) (offset : Nat) : Prop where
  aligned : 4 ∣ offset
  whole : nlmsghdrSize ≤ messageLen host bytes offset
  inside : offset + messageLen host bytes offset ≤ bytes.length

/-- A chain of messages up to and including the end of the dump, or to where no
header is left. -/
inductive Framed (bytes : Bytes) : Nat → Bool → Prop
  | short {offset : Nat} (short : bytes.length < offset + nlmsghdrSize) : Framed bytes offset false
  | done {offset : Nat} (message : FramedMessage host bytes offset)
      (type : messageType host bytes offset = nlmsgDoneType) : Framed bytes offset true
  | more {offset : Nat} {done : Bool} (message : FramedMessage host bytes offset)
      (type : messageType host bytes offset ≠ nlmsgDoneType)
      (rest : Framed bytes (nextOffset host bytes offset) done) : Framed bytes offset done

variable {host} {bytes : Bytes} {offset : Nat} {protocolKind : Protocol}

theorem nextOffset_gt (fits : FitsAt host bytes offset) : offset + 4 ≤ nextOffset host bytes offset := by
  have nonzero := fits.nonzero
  simp only [nextOffset, nlmsgAlign]
  omega

theorem parseMessagesFrom_fits (fits : FitsAt host bytes offset) :
    parseMessagesFrom host bytes protocolKind offset = (do
      if messageType host bytes offset = nlmsgDoneType then return true
      else
        if messageType host bytes offset = nlmsgErrorType then
          throw (.error (.kernelError (← parseKernelError host (messagePayload host bytes offset))))
        if messageType host bytes offset = sockDiagByFamilyType then
          let entry ← orStop (parseInetDiagMessage host (messagePayload host bytes offset) protocolKind)
          modify (AList.insert entry.inode entry)
        parseMessagesFrom host bytes protocolKind (nextOffset host bytes offset)) := by
  have header := fits.header
  have nonzero := fits.nonzero
  have inside := fits.inside
  unfold HeaderAt at header
  unfold messageLen at nonzero inside
  have within : ¬offset + host.value (window bytes offset 4) > bytes.length := by omega
  have slice : sliceAt bytes (offset + nlmsghdrSize) (host.value (window bytes offset 4) - nlmsghdrSize) =
      .ok (messagePayload host bytes offset) := sliceAt_ok (by omega)
  conv_lhs => rw [parseMessagesFrom]
  rw [dif_pos header]
  simp only [readNlmsghdr, if_neg (Nat.not_lt.mpr header), dif_neg nonzero, if_neg within, slice, pure_bind]
  rfl

theorem parseMessagesFrom_exhausted (short : bytes.length < offset + nlmsghdrSize) :
    parseMessagesFrom host bytes protocolKind offset = pure false := by
  rw [parseMessagesFrom, dif_neg (Nat.not_le.mpr short)]

theorem parseMessagesFrom_doneType (fits : FitsAt host bytes offset)
    (type : messageType host bytes offset = nlmsgDoneType) :
    parseMessagesFrom host bytes protocolKind offset = pure true := by
  rw [parseMessagesFrom_fits fits, if_pos type]

theorem parseMessagesFrom_errorType (fits : FitsAt host bytes offset)
    (type : messageType host bytes offset = nlmsgErrorType) :
    parseMessagesFrom host bytes protocolKind offset = (do
      throw (.error (.kernelError (← parseKernelError host (messagePayload host bytes offset))))) := by
  have notDone : messageType host bytes offset ≠ nlmsgDoneType := by
    rw [type]
    decide
  rw [parseMessagesFrom_fits fits, if_neg notDone, if_pos type]
  funext table
  simp only [bind, EStateM.bind]
  cases parseKernelError host (messagePayload host bytes offset) table <;> rfl

theorem socketAddrFromDiag_isSome (host : Endian) (family : UInt8) (addrWords : Fin 4 → Nat) (rawPort : Nat) :
    (socketAddrFromDiag host family addrWords rawPort).isSome ↔ family = afInetFamily ∨ family = afInet6Family := by
  unfold socketAddrFromDiag
  by_cases v4 : family = afInetFamily
  · simp [v4]
  · rw [if_neg v4]
    by_cases v6 : family = afInet6Family
    · simp [v6]
    · simp [v4, v6]

theorem parseInetDiagMessage_readable (host : Endian) (protocolKind : Protocol) {payload : Bytes}
    (readable : DiagReadable payload) :
    ∃ entry, parseInetDiagMessage host payload protocolKind = .ok entry := by
  obtain ⟨size, family⟩ := readable
  have enough : ¬0 + inetDiagMsgSize > payload.length := by omega
  have found (words : Fin 4 → Nat) (port : Nat) := Option.isSome_iff_exists.mp
    ((socketAddrFromDiag_isSome host (octet payload 0) words port).mpr family)
  simp only [parseInetDiagMessage, readInetDiagMsg, if_neg enough]
  obtain ⟨localAddr, localFound⟩ := found (fun i => host.value (window payload (0 + 8 + 4 * i) 4))
    (host.value (window payload (0 + 4) 2))
  obtain ⟨remoteAddr, remoteFound⟩ := found (fun i => host.value (window payload (0 + 24 + 4 * i) 4))
    (host.value (window payload (0 + 6) 2))
  simp only [localFound, remoteFound]
  exact ⟨_, rfl⟩

theorem parseInetDiagMessage_unreadable {payload : Bytes} (unreadable : ¬DiagReadable payload) :
    parseInetDiagMessage host payload protocolKind = .error .parseError := by
  by_cases size : inetDiagMsgSize ≤ payload.length
  · have enough : ¬0 + inetDiagMsgSize > payload.length := by omega
    have absent : socketAddrFromDiag host (octet payload 0)
        (fun i => host.value (window payload (0 + 8 + 4 * i) 4)) (host.value (window payload (0 + 4) 2)) = none := by
      rw [← Option.not_isSome_iff_eq_none, socketAddrFromDiag_isSome]
      exact fun family => unreadable ⟨size, family⟩
    simp only [parseInetDiagMessage, readInetDiagMsg, if_neg enough, absent]
  · have short : 0 + inetDiagMsgSize > payload.length := by omega
    simp only [parseInetDiagMessage, readInetDiagMsg, if_pos short]

theorem parseMessagesFrom_passed (passed : PassedOver host bytes offset) (protocolKind : Protocol)
    (table : SocketsByInode) :
    ∃ after, parseMessagesFrom host bytes protocolKind offset table =
      parseMessagesFrom host bytes protocolKind (nextOffset host bytes offset) after := by
  rw [parseMessagesFrom_fits passed.fits, if_neg passed.notDone, if_neg passed.notError]
  by_cases type : messageType host bytes offset = sockDiagByFamilyType
  · obtain ⟨entry, parsed⟩ := parseInetDiagMessage_readable host protocolKind (passed.readable type)
    rw [if_pos type, parsed]
    exact ⟨AList.insert entry.inode entry table, rfl⟩
  · rw [if_neg type]
    exact ⟨table, rfl⟩

theorem parseMessagesFrom_rejected (rejected : Rejected host bytes offset) :
    parseMessagesFrom host bytes protocolKind offset = throw (.error .parseError) := by
  cases rejected with
  | empty header empty =>
    unfold HeaderAt at header
    unfold messageLen at empty
    rw [parseMessagesFrom, dif_pos header]
    simp only [readNlmsghdr, if_neg (Nat.not_lt.mpr header), dif_pos empty]
  | outside header outside =>
    by_cases empty : messageLen host bytes offset = 0
    · unfold HeaderAt at header
      omega
    · unfold HeaderAt at header
      unfold messageLen at outside empty
      rw [parseMessagesFrom, dif_pos header]
      simp only [readNlmsghdr, if_neg (Nat.not_lt.mpr header), dif_neg empty, gt_iff_lt, if_pos outside]
  | error fits type short =>
    have unread : readNetlinkError host (messagePayload host bytes offset) 0 = none := by
      rw [readNetlinkError, if_pos (by omega)]
    rw [parseMessagesFrom_errorType fits type, parseKernelError, unread]
    rfl
  | diag fits type unreadable =>
    have notDone : messageType host bytes offset ≠ nlmsgDoneType := by
      rw [type]
      decide
    have notError : messageType host bytes offset ≠ nlmsgErrorType := by
      rw [type]
      decide
    rw [parseMessagesFrom_fits fits, if_neg notDone, if_neg notError, if_pos type,
      parseInetDiagMessage_unreadable unreadable]
    rfl

variable (host) in
theorem message_cases (header : HeaderAt bytes offset) :
    Rejected host bytes offset ∨ PassedOver host bytes offset ∨
      FitsAt host bytes offset ∧ messageType host bytes offset = nlmsgDoneType ∨
        ErrorMessage host bytes offset := by
  by_cases empty : messageLen host bytes offset = 0
  · exact Or.inl (.empty header empty)
  by_cases outside : bytes.length < offset + messageLen host bytes offset
  · exact Or.inl (.outside header outside)
  have fits : FitsAt host bytes offset := ⟨header, empty, Nat.not_lt.mp outside⟩
  by_cases done : messageType host bytes offset = nlmsgDoneType
  · exact Or.inr (Or.inr (Or.inl ⟨fits, done⟩))
  by_cases error : messageType host bytes offset = nlmsgErrorType
  · by_cases short : (messagePayload host bytes offset).length < netlinkErrorSize
    · exact Or.inl (.error fits error short)
    · exact Or.inr (Or.inr (Or.inr ⟨fits, error, Nat.not_lt.mp short⟩))
  by_cases readable : messageType host bytes offset = sockDiagByFamilyType → DiagReadable (messagePayload host bytes offset)
  · exact Or.inr (Or.inl ⟨fits, done, error, readable⟩)
  · obtain ⟨type, unreadable⟩ := Classical.not_imp.mp readable
    exact Or.inl (.diag fits type unreadable)

theorem parseMessagesFrom_least (message : ErrorMessage host bytes offset) (least : errorWord host bytes offset = 2^31) :
    parseMessagesFrom host bytes protocolKind offset = throw (.panic .overflow) := by
  have enough : ¬0 + netlinkErrorSize > (messagePayload host bytes offset).length := by
    have size := message.size
    omega
  unfold errorWord at least
  rw [parseMessagesFrom_errorType message.fits message.type]
  simp only [parseKernelError, readNetlinkError, if_neg enough, least]
  rfl

theorem parseMessagesFrom_kernelError (protocolKind : Protocol) (message : ErrorMessage host bytes offset)
    (other : errorWord host bytes offset ≠ 2^31) :
    ∃ errno, parseMessagesFrom host bytes protocolKind offset = throw (.error (.kernelError errno)) := by
  have enough : ¬0 + netlinkErrorSize > (messagePayload host bytes offset).length := by
    have size := message.size
    omega
  unfold errorWord at other
  rw [parseMessagesFrom_errorType message.fits message.type]
  simp only [parseKernelError, readNetlinkError, if_neg enough]
  generalize signed : (if host.value (window (messagePayload host bytes offset) 0 4) < 2^31 then
      (host.value (window (messagePayload host bytes offset) 0 4) : Int)
    else (host.value (window (messagePayload host bytes offset) 0 4) : Int) - 2^32) = error
  have notLeast : error ≠ -2^31 := by omega
  by_cases zero : error = 0
  · refine ⟨0, ?_⟩
    rw [if_pos zero]
    rfl
  · refine ⟨-error, ?_⟩
    rw [if_neg zero, if_neg notLeast]
    rfl

theorem Reached.parse (reached : Reached host bytes offset) (protocolKind : Protocol) (table : SocketsByInode) :
    ∃ after, parseResponseMessages host bytes protocolKind table =
      parseMessagesFrom host bytes protocolKind offset after := by
  induction reached with
  | start => exact ⟨table, rfl⟩
  | next reached passed ih =>
    obtain ⟨middle, before⟩ := ih
    obtain ⟨after, turn⟩ := parseMessagesFrom_passed passed protocolKind middle
    exact ⟨after, before.trans turn⟩

/-- The loop runs out of messages to pass over, so what holds where it ends and
comes back over each message holds wherever it gets to. -/
theorem Reached.backward {motive : Nat → Prop}
    (last : ∀ offset, Reached host bytes offset → ¬PassedOver host bytes offset → motive offset)
    (passed : ∀ offset, Reached host bytes offset → PassedOver host bytes offset →
      motive (nextOffset host bytes offset) → motive offset)
    (reached : Reached host bytes offset) : motive offset := by
  induction remaining : bytes.length - offset using Nat.strong_induction_on generalizing offset with
  | _ remaining ih =>
    by_cases skipped : PassedOver host bytes offset
    · apply passed offset reached skipped
      have header := skipped.fits.header
      have further := nextOffset_gt skipped.fits
      simp only [HeaderAt, nlmsghdrSize] at header
      exact ih _ (by omega) (.next reached skipped) rfl
    · exact last offset reached skipped

variable (host) in
theorem exists_last (bytes : Bytes) : ∃ offset, Reached host bytes offset ∧ ¬PassedOver host bytes offset := by
  have first : Reached host bytes 0 := .start
  apply Reached.backward (motive := fun _ => ∃ last, Reached host bytes last ∧ ¬PassedOver host bytes last) _ _ first
  · exact fun offset reached ended => ⟨offset, reached, ended⟩
  · exact fun _ _ _ found => found

variable (host) in
/-- The four ways in which the loop ends. -/
theorem parseResponseMessages_ending (bytes : Bytes) (protocolKind : Protocol) (table : SocketsByInode) :
    ∃ offset after, Reached host bytes offset ∧
      ((∃ done, parseResponseMessages host bytes protocolKind table = .ok done after) ∨
        Rejected host bytes offset ∧
          parseResponseMessages host bytes protocolKind table = .error (.error .parseError) after ∨
        ErrorMessage host bytes offset ∧ errorWord host bytes offset = 2^31 ∧
          parseResponseMessages host bytes protocolKind table = .error (.panic .overflow) after ∨
        ∃ errno, parseResponseMessages host bytes protocolKind table = .error (.error (.kernelError errno)) after) := by
  obtain ⟨offset, reached, ended⟩ := exists_last host bytes
  obtain ⟨after, same⟩ := reached.parse protocolKind table
  refine ⟨offset, after, reached, ?_⟩
  rw [same]
  by_cases header : HeaderAt bytes offset
  · obtain rejected | passed | ⟨fits, done⟩ | message := message_cases host header
    · rw [parseMessagesFrom_rejected rejected]
      exact Or.inr (Or.inl ⟨rejected, rfl⟩)
    · exact absurd passed ended
    · rw [parseMessagesFrom_doneType fits done]
      exact Or.inl ⟨true, rfl⟩
    · by_cases least : errorWord host bytes offset = 2^31
      · rw [parseMessagesFrom_least message least]
        exact Or.inr (Or.inr (Or.inl ⟨message, least, rfl⟩))
      · obtain ⟨errno, negated⟩ := parseMessagesFrom_kernelError protocolKind message least
        rw [negated]
        exact Or.inr (Or.inr (Or.inr ⟨errno, rfl⟩))
  · rw [parseMessagesFrom_exhausted (Nat.not_le.mp header)]
    exact Or.inl ⟨false, rfl⟩

/-- The parse error is given for the messages that are malformed by themselves, and for no other. -/
theorem parseResponseMessages_parseError (bytes : Bytes) (protocolKind : Protocol) (table : SocketsByInode) :
    (∃ final, parseResponseMessages host bytes protocolKind table = .error (.error .parseError) final) ↔
      ∃ offset, Reached host bytes offset ∧ Rejected host bytes offset := by
  constructor
  · intro failed
    obtain ⟨final, failed⟩ := failed
    obtain ⟨offset, after, reached, ending⟩ := parseResponseMessages_ending host bytes protocolKind table
    rw [failed] at ending
    obtain ⟨_, returned⟩ | ⟨rejected, _⟩ | ⟨_, _, overflowed⟩ | ⟨_, kernel⟩ := ending
    · cases returned
    · exact ⟨offset, reached, rejected⟩
    · cases overflowed
    · cases kernel
  · intro found
    obtain ⟨offset, reached, rejected⟩ := found
    obtain ⟨after, same⟩ := reached.parse protocolKind table
    rw [same, parseMessagesFrom_rejected rejected]
    exact ⟨after, rfl⟩

variable (host) in
/-- Negating the error overflows for the least 32-bit integer, and nothing else does. -/
theorem parseResponseMessages_overflow (bytes : Bytes) (protocolKind : Protocol) (table : SocketsByInode) :
    (∃ final, parseResponseMessages host bytes protocolKind table = .error (.panic .overflow) final) ↔
      ∃ offset, Reached host bytes offset ∧ ErrorMessage host bytes offset ∧ errorWord host bytes offset = 2^31 := by
  constructor
  · intro failed
    obtain ⟨final, failed⟩ := failed
    obtain ⟨offset, after, reached, ending⟩ := parseResponseMessages_ending host bytes protocolKind table
    rw [failed] at ending
    obtain ⟨_, returned⟩ | ⟨_, rejected⟩ | ⟨message, least, _⟩ | ⟨_, kernel⟩ := ending
    · cases returned
    · cases rejected
    · exact ⟨offset, reached, message, least⟩
    · cases kernel
  · intro found
    obtain ⟨offset, reached, message, least⟩ := found
    obtain ⟨after, same⟩ := reached.parse protocolKind table
    rw [same, parseMessagesFrom_least message least]
    exact ⟨after, rfl⟩

theorem Framed.of_parse (whole : ∀ offset, Reached host bytes offset → HeaderAt bytes offset →
    nlmsghdrSize ≤ messageLen host bytes offset) (reached : Reached host bytes offset) :
    4 ∣ offset → ∀ (table final : SocketsByInode) (done : Bool),
      parseMessagesFrom host bytes protocolKind offset table = .ok done final → Framed host bytes offset done := by
  apply Reached.backward (motive := fun offset => 4 ∣ offset → ∀ (table final : SocketsByInode) (done : Bool),
    parseMessagesFrom host bytes protocolKind offset table = .ok done final → Framed host bytes offset done) _ _ reached
  · intro offset reached ended aligned table final done accepted
    by_cases header : HeaderAt bytes offset
    · obtain rejected | passed | ⟨fits, type⟩ | message := message_cases host header
      · rw [parseMessagesFrom_rejected rejected] at accepted
        cases accepted
      · exact absurd passed ended
      · rw [parseMessagesFrom_doneType fits type] at accepted
        cases accepted
        exact .done ⟨aligned, whole offset reached header, fits.inside⟩ type
      · by_cases least : errorWord host bytes offset = 2^31
        · rw [parseMessagesFrom_least message least] at accepted
          cases accepted
        · obtain ⟨errno, negated⟩ := parseMessagesFrom_kernelError protocolKind message least
          rw [negated] at accepted
          cases accepted
    · rw [parseMessagesFrom_exhausted (Nat.not_le.mp header)] at accepted
      cases accepted
      exact .short (Nat.not_le.mp header)
  · intro offset reached passed ih aligned table final done accepted
    obtain ⟨after, turn⟩ := parseMessagesFrom_passed passed protocolKind table
    rw [turn] at accepted
    have next : 4 ∣ nextOffset host bytes offset := by
      simp only [nextOffset, nlmsgAlign]
      omega
    exact .more ⟨aligned, whole offset reached passed.fits.header, passed.fits.inside⟩ passed.notDone
      (ih next after final done accepted)

variable (host) in
/-- What rejecting malformed framing means for a datagram. -/
structure RejectsMalformed (bytes : Bytes) (protocolKind : Protocol) (table : SocketsByInode) : Prop where
  accepted : ∀ done final, parseResponseMessages host bytes protocolKind table = .ok done final →
    Framed host bytes 0 done
  undersized : ∀ offset, Reached host bytes offset → HeaderAt bytes offset →
    messageLen host bytes offset < nlmsghdrSize →
      ∃ final, parseResponseMessages host bytes protocolKind table = .error (.error .parseError) final

/-- A length below the header's is refused only when it is zero; otherwise the
datagram is refused only for some other malformed message. -/
theorem rejectsMalformed_iff (bytes : Bytes) (protocolKind : Protocol) (table : SocketsByInode) :
    RejectsMalformed host bytes protocolKind table ↔
      (∀ offset, Reached host bytes offset → HeaderAt bytes offset → nlmsghdrSize ≤ messageLen host bytes offset) ∨
        ∃ offset, Reached host bytes offset ∧ Rejected host bytes offset := by
  constructor
  · intro rejects
    rw [or_iff_not_imp_left]
    intro notWhole
    simp only [not_forall, Nat.not_le] at notWhole
    obtain ⟨offset, reached, header, undersized⟩ := notWhole
    exact (parseResponseMessages_parseError bytes protocolKind table).mp
      (rejects.undersized offset reached header undersized)
  · rintro (whole | rejected)
    · constructor
      · intro done final accepted
        exact Framed.of_parse whole .start (Nat.dvd_zero 4) table final done accepted
      · intro offset reached header undersized
        exact absurd (whole offset reached header) (Nat.not_le.mpr undersized)
    · have failed := (parseResponseMessages_parseError bytes protocolKind table).mpr rejected
      constructor
      · intro done final accepted
        obtain ⟨ended, same⟩ := failed
        rw [accepted] at same
        cases same
      · exact fun _ _ _ _ => failed

end Host

/-- A header whose length of four bytes ends inside the header. -/
def undersizedDone : Bytes := [4, 0, 0, 0, 3, 0, 0, 0, 0, 0, 0, 0, 0, 0, 0, 0]

/-- The undersized message is taken for the end of a dump. -/
theorem parseResponseMessages_undersizedDone :
    messageLen .little undersizedDone 0 = 4 ∧
      parseResponseMessages .little undersizedDone .tcp ∅ = .ok true ∅ ∧
      ¬RejectsMalformed .little undersizedDone .tcp ∅ := by
  have len : messageLen .little undersizedDone 0 = 4 := rfl
  have fits : FitsAt .little undersizedDone 0 := by
    constructor
    · exact Nat.le_refl 16
    · simp [len]
    · simp only [len]
      decide
  have accepted : parseResponseMessages .little undersizedDone .tcp ∅ = .ok true ∅ := by
    rw [parseResponseMessages, parseMessagesFrom_doneType fits rfl]
    rfl
  refine ⟨len, accepted, ?_⟩
  intro rejects
  obtain ⟨final, failed⟩ := rejects.undersized 0 .start fits.header (by simp [len, nlmsghdrSize])
  rw [accepted] at failed
  cases failed

end Netmon.Resolver
