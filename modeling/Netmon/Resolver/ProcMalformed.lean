import Netmon.Library.Run
import Netmon.Resolver.ProcTokens

/-! Malformed files of `/proc/net`: which rows are recorded, which one ends the
pass over a file in a panic, and what of malformed text is accepted. -/
namespace Netmon.Resolver
open Library

def SignedToken (isIpv4 : Bool) (endpointText : Text) : Prop :=
  ∃ ipHex portHex, endpointParts endpointText = some (ipHex, portHex) ∧ SignedEndpoint isIpv4 ipHex portHex

def BrokenToken (isIpv4 : Bool) (endpointText : Text) : Prop :=
  isIpv4 = false ∧ ∃ ipHex portHex, endpointParts endpointText = some (ipHex, portHex) ∧ BrokenEndpoint ipHex portHex

/-- A row that is recorded. -/
structure ReadableRow (isIpv4 : Bool) (line : Text) : Prop where
  columns : procNetMinColumns ≤ (splitWhitespace line).length
  localAddr : SignedToken isIpv4 ((splitWhitespace line).getD 1 [])
  remoteAddr : SignedToken isIpv4 ((splitWhitespace line).getD 2 [])
  inode : (parseU64 ((splitWhitespace line).getD 9 [])).isSome

/-- A row at which the parser panics: the remote endpoint is not looked at behind a malformed local one. -/
structure BrokenRow (isIpv4 : Bool) (line : Text) : Prop where
  columns : procNetMinColumns ≤ (splitWhitespace line).length
  broken : BrokenToken isIpv4 ((splitWhitespace line).getD 1 []) ∨
    SignedToken isIpv4 ((splitWhitespace line).getD 1 []) ∧ BrokenToken isIpv4 ((splitWhitespace line).getD 2 [])

section Rows
variable {filePath line : Text} {protocol : Protocol} {isIpv4 : Bool} {α : Type}

theorem orParseLine_reads {parsed : Parse α} : (∃ value, orParseLine filePath line parsed = .ok value) ↔ Reads parsed := by
  unfold orParseLine Reads
  cases parsed.run with
  | error panic => simp
  | ok answer => cases answer <;> simp

theorem orParseLine_panics {parsed : Parse α} :
    (∃ panic, orParseLine filePath line parsed = .error (.panic panic)) ↔ Panics parsed := by
  unfold orParseLine Panics
  cases parsed.run with
  | error panic => simp
  | ok answer => cases answer <;> simp

theorem ok_bind {β : Type} {first : Except FallbackStop α} {next : α → Except FallbackStop β} :
    (∃ value, (first >>= next) = .ok value) ↔ ∃ value, first = .ok value ∧ ∃ result, next value = .ok result := by
  cases first <;> simp [bind, Except.bind]

theorem panic_bind {β : Type} {first : Except FallbackStop α} {next : α → Except FallbackStop β} :
    (∃ panic, (first >>= next) = .error (.panic panic)) ↔ (∃ panic, first = .error (.panic panic)) ∨
      ∃ value, first = .ok value ∧ ∃ panic, next value = .error (.panic panic) := by
  cases first <;> simp [bind, Except.bind]

theorem ok_pure (value : α) : (∃ result, (pure value : Except FallbackStop α) = .ok result) ↔ True :=
  iff_true_intro ⟨value, rfl⟩

theorem panic_pure (value : α) : (∃ panic, (pure value : Except FallbackStop α) = .error (.panic panic)) ↔ False := by
  apply iff_false_intro
  intro panics
  obtain ⟨_, ended⟩ := panics
  cases ended

theorem parseRow_columns (enough : procNetMinColumns ≤ (splitWhitespace line).length) :
    parseRow filePath protocol isIpv4 line = (do
      let localAddr ← orParseLine filePath line (parseProcSocketAddr ((splitWhitespace line).getD 1 []) isIpv4)
      let remoteAddr ← orParseLine filePath line (parseProcSocketAddr ((splitWhitespace line).getD 2 []) isIpv4)
      let inode ← orParseLine filePath line (given (parseU64 ((splitWhitespace line).getD 9 [])))
      return {
        inode, localAddr, remoteAddr, uid := unknownUid, protocol
        state := parseTcpState ((splitWhitespace line).getD 3 []) protocol }) := by
  rw [parseRow, if_neg (Nat.not_lt.mpr enough)]

theorem parseRow_short (short : (splitWhitespace line).length < procNetMinColumns) :
    parseRow filePath protocol isIpv4 line = .error (.error (.parseLine filePath line)) := by
  rw [parseRow, if_pos short]
  rfl

theorem parseRow_readable (filePath : Text) (protocol : Protocol) (isIpv4 : Bool) (line : Text) :
    (∃ entry, parseRow filePath protocol isIpv4 line = .ok entry) ↔ ReadableRow isIpv4 line := by
  by_cases enough : procNetMinColumns ≤ (splitWhitespace line).length
  · rw [parseRow_columns enough]
    simp only [ok_bind, ok_pure, and_true, exists_and_right, orParseLine_reads, parseProcSocketAddr_reads, reads_given]
    constructor
    · intro read
      obtain ⟨localAddr, remoteAddr, inode⟩ := read
      exact ⟨enough, localAddr, remoteAddr, inode⟩
    · intro row
      exact ⟨row.localAddr, row.remoteAddr, row.inode⟩
  · rw [parseRow_short (Nat.not_le.mp enough)]
    apply iff_of_false
    · intro read
      obtain ⟨_, ended⟩ := read
      cases ended
    · exact fun row => enough row.columns

theorem parseRow_broken (filePath : Text) (protocol : Protocol) (isIpv4 : Bool) (line : Text) :
    (∃ panic, parseRow filePath protocol isIpv4 line = .error (.panic panic)) ↔ BrokenRow isIpv4 line := by
  by_cases enough : procNetMinColumns ≤ (splitWhitespace line).length
  · rw [parseRow_columns enough]
    simp only [panic_bind, panic_pure, and_false, exists_false, or_false, exists_and_right, orParseLine_reads,
      orParseLine_panics, parseProcSocketAddr_reads, parseProcSocketAddr_panics, not_panics_given]
    constructor
    · exact fun broken => ⟨enough, broken⟩
    · exact fun row => row.broken
  · rw [parseRow_short (Nat.not_le.mp enough)]
    apply iff_of_false
    · intro panics
      obtain ⟨_, ended⟩ := panics
      cases ended
    · exact fun row => enough row.columns

theorem recordRow_passes (filePath : Text) (protocol : Protocol) (isIpv4 : Bool) (line : Text)
    (found : SocketsByInode) :
    (∃ next, recordRow filePath protocol isIpv4 line found = .ok PUnit.unit next) ↔ ReadableRow isIpv4 line := by
  rw [← parseRow_readable filePath protocol, recordRow]
  cases parseRow filePath protocol isIpv4 line with
  | error stop =>
    apply iff_of_false
    · intro passes
      obtain ⟨_, ended⟩ := passes
      cases ended
    · intro read
      obtain ⟨_, ended⟩ := read
      cases ended
  | ok entry => exact iff_of_true ⟨_, rfl⟩ ⟨entry, rfl⟩

def IsPanic : FallbackStop → Prop
  | .panic _ => True
  | .error _ => False

theorem recordRow_panics (filePath : Text) (protocol : Protocol) (isIpv4 : Bool) (line : Text)
    (found : SocketsByInode) :
    (∃ stop next, IsPanic stop ∧ recordRow filePath protocol isIpv4 line found = .error stop next) ↔
      BrokenRow isIpv4 line := by
  rw [← parseRow_broken filePath protocol, recordRow]
  cases parseRow filePath protocol isIpv4 line with
  | ok entry =>
    apply iff_of_false
    · intro panics
      obtain ⟨_, _, _, ended⟩ := panics
      cases ended
    · intro panics
      obtain ⟨_, ended⟩ := panics
      cases ended
  | error stop =>
    constructor
    · intro panics
      obtain ⟨_, _, isPanic, ended⟩ := panics
      cases ended
      cases stop with
      | panic panic => exact ⟨panic, rfl⟩
      | error error => exact isPanic.elim
    · intro panics
      obtain ⟨panic, same⟩ := panics
      cases same
      exact ⟨.panic panic, found, trivial, rfl⟩

theorem readProcFile_panics (content filePath : Text) (protocol : Protocol) (isIpv4 : Bool) (found : SocketsByInode) :
    (∃ stop final, IsPanic stop ∧ readProcFile (fun _ => .ok content) filePath protocol isIpv4 found = .error stop final) ↔
      ∃ before line after, (lines content).tail = before ++ line :: after ∧
        (∀ row ∈ before, ReadableRow isIpv4 row) ∧ BrokenRow isIpv4 line :=
  forM_fails_iff (fun line found => recordRow_passes filePath protocol isIpv4 line found)
    (fun line found => recordRow_panics filePath protocol isIpv4 line found) found

/-- The parser survives every file in which no broken row comes before the first
row that cannot be read, and accepts only hexadecimal digits in every token that
has no plus where a numeral begins. -/
theorem malformed_text_iff (content filePath endpointText : Text) (protocol : Protocol) (isIpv4 : Bool)
    (found : SocketsByInode) :
    ((∀ panic final, readProcFile (fun _ => .ok content) filePath protocol isIpv4 found ≠ .error (.panic panic) final) ↔
      ∀ before line after, (lines content).tail = before ++ line :: after →
        (∀ row ∈ before, ReadableRow isIpv4 row) → ¬BrokenRow isIpv4 line) ∧
    ((∀ addr, (parseProcSocketAddr endpointText isIpv4).run = .ok (some addr) →
        ∃ ipHex portHex, endpointParts endpointText = some (ipHex, portHex) ∧ HexEndpoint isIpv4 ipHex portHex) ↔
      ∀ ipHex portHex, endpointParts endpointText = some (ipHex, portHex) → SignedEndpoint isIpv4 ipHex portHex →
        '+' ∉ ipHex ∧ '+' ∉ portHex) := by
  have panics := readProcFile_panics content filePath protocol isIpv4 found
  refine ⟨?_, parseProcSocketAddr_hex_iff⟩
  constructor
  · intro survives before line after split readable broken
    obtain ⟨stop, final, isPanic, ended⟩ := panics.mpr ⟨before, line, after, split, readable, broken⟩
    cases stop with
    | panic panic => exact survives panic final ended
    | error error => exact isPanic
  · intro none panic final ended
    obtain ⟨before, line, after, split, readable, broken⟩ := panics.mp ⟨.panic panic, final, trivial, ended⟩
    exact none before line after split readable broken

end Rows

/-- An address of 32 bytes with a character of two bytes across the end of its first word. -/
def brokenContent : Text :=
  "sl local_address rem_address st tx rx tr tm uid timeout inode\n0: 0000000é00000000000000000000000:0050 ".toList ++
    "00000000000000000000000000000000:0000 0A 0 0 0 0 0 0 77\n".toList

def signedEndpoint : Text := "+1234567:0050".toList

/-- The file panics, and the token is accepted with seven digits. -/
theorem malformed_text_brokenContent :
    (∃ final, readProcFile (fun _ => .ok brokenContent) "/proc/net/tcp6".toList .tcp false ∅ =
        .error (.panic .outOfBounds) final) ∧
      (parseProcSocketAddr signedEndpoint true).run = .ok (some ⟨.v4 ⟨0x67, 0x45, 0x23, 0x01⟩, 80⟩) ∧
      ¬∃ ipHex portHex, endpointParts signedEndpoint = some (ipHex, portHex) ∧ HexEndpoint true ipHex portHex := by
  refine ⟨⟨∅, rfl⟩, by decide +kernel, ?_⟩
  intro hex
  obtain ⟨ipHex, portHex, split, hex⟩ := hex
  have parts : endpointParts signedEndpoint = some ("+1234567".toList, "0050".toList) := by decide
  rw [parts] at split
  cases split
  exact hex.plain.1 (by decide)

end Netmon.Resolver
