import Netmon.Library.Numeral
import Netmon.Resolver.ProcFallback

/-! The endpoint tokens of `/proc/net` that are accepted, those that are
malformed and accepted all the same, and those that make the parser panic. -/
namespace Netmon.Resolver
open Library

def SignedWord (word : Text) : Prop := byteLength word = 8 ∧ HexDigits (unsigned word)

/-- So many words of eight bytes, each of them a numeral. -/
inductive Words : Nat → Text → Prop
  | none : Words 0 []
  | next {count : Nat} {word rest : Text} (first : SignedWord word) (others : Words count rest) :
      Words (count + 1) (word ++ rest)

/-- Numerals of eight bytes, and then a character across the end of the next word. -/
inductive BrokenWords : Nat → Text → Prop
  | here {count : Nat} {text : Text} (straddled : Straddled 8 text) : BrokenWords (count + 1) text
  | next {count : Nat} {word rest : Text} (first : SignedWord word) (others : BrokenWords count rest) :
      BrokenWords (count + 1) (word ++ rest)

section Words
variable {count : Nat} {text word rest : Text}

theorem SignedWord.cut (first : SignedWord word) (rest : Text) : splitAtByte 8 (word ++ rest) = some (word, rest) :=
  splitAtByte_eq_some.mpr ⟨rfl, first.1⟩

theorem words_cut (cut : splitAtByte 8 text = some (word, rest)) :
    Words (count + 1) text ↔ HexDigits (unsigned word) ∧ Words count rest := by
  obtain ⟨rfl, size⟩ := splitAtByte_eq_some.mp cut
  constructor
  · intro words
    generalize whole : word ++ rest = text at words
    cases words with
    | @next _ _ tail first others =>
      have same := first.cut tail
      rw [← whole, cut] at same
      cases same
      exact ⟨first.2, others⟩
  · intro parts
    exact .next ⟨size, parts.1⟩ parts.2

theorem brokenWords_cut (cut : splitAtByte 8 text = some (word, rest)) :
    BrokenWords (count + 1) text ↔ HexDigits (unsigned word) ∧ BrokenWords count rest := by
  have size := (splitAtByte_eq_some.mp cut).2
  have whole := (splitAtByte_eq_some.mp cut).1
  constructor
  · intro broken
    cases broken with
    | here straddled =>
      have inside : 8 ≤ byteLength text := by
        rw [whole, byteLength_append]
        omega
      rw [(splitAtByte_eq_none inside).mpr straddled] at cut
      cases cut
    | @next _ _ tail first others =>
      have same := first.cut tail
      rw [cut] at same
      cases same
      exact ⟨first.2, others⟩
  · intro parts
    subst whole
    exact .next ⟨size, parts.1⟩ parts.2

theorem words_uncut (uncut : splitAtByte 8 text = none) : ¬Words (count + 1) text := by
  intro words
  cases words with
  | next first others =>
    rw [first.cut] at uncut
    cases uncut

theorem brokenWords_uncut (inside : 8 ≤ byteLength text) (uncut : splitAtByte 8 text = none) :
    BrokenWords (count + 1) text :=
  .here ((splitAtByte_eq_none inside).mp uncut)

theorem Words.byteLength (words : Words count text) : byteLength text = 8 * count := by
  induction words with
  | none => rfl
  | next first others ih =>
    rw [byteLength_append, first.1, ih]
    omega

theorem Words.plain (words : Words count text) (unsigned : '+' ∉ text) :
    text.length = 8 * count ∧ ∀ c ∈ text, HexDigit c := by
  induction words with
  | none => simp
  | @next count word rest first others ih =>
    have plainWord : '+' ∉ word := fun member => unsigned (List.mem_append_left rest member)
    have plainRest : '+' ∉ rest := fun member => unsigned (List.mem_append_right word member)
    obtain ⟨size, digits⟩ := ih plainRest
    have wordDigits := first.2.2
    rw [unsigned_of_not_mem plainWord] at wordDigits
    have wordSize : word.length = 8 := by
      rw [← first.1, Library.byteLength]
      have each : word.map Char.utf8Size = List.replicate word.length 1 := by
        rw [List.eq_replicate_iff]
        simp only [List.length_map, List.mem_map, true_and]
        intro n member
        obtain ⟨c, inside, rfl⟩ := member
        exact (wordDigits c inside).utf8Size
      rw [each]
      simp
    constructor
    · rw [List.length_append, wordSize, size]
      omega
    · intro c member
      obtain inside | inside := List.mem_append.mp member
      · exact wordDigits c inside
      · exact digits c inside

end Words

section Outcomes
variable {α β : Type} {action : Parse α} {next : α → Parse β}

def Reads (action : Parse α) : Prop := ∃ value, action.run = .ok (some value)

def Panics (action : Parse α) : Prop := ∃ panic, action.run = .error panic

@[simp] theorem reads_pure (value : α) : Reads (pure value : Parse α) := ⟨value, rfl⟩

@[simp] theorem not_panics_pure (value : α) : ¬Panics (pure value : Parse α) := by
  intro panics
  obtain ⟨_, ended⟩ := panics
  cases ended

@[simp] theorem not_reads_failure : ¬Reads (failure : Parse α) := by
  intro reads
  obtain ⟨_, ended⟩ := reads
  cases ended

@[simp] theorem not_panics_failure : ¬Panics (failure : Parse α) := by
  intro panics
  obtain ⟨_, ended⟩ := panics
  cases ended

@[simp] theorem reads_given (answer : Option α) : Reads (given answer) ↔ answer.isSome := by
  cases answer with
  | none => simp [Reads, given]
  | some value => simp [Reads, given]

@[simp] theorem not_panics_given (answer : Option α) : ¬Panics (given answer) := by
  intro panics
  obtain ⟨_, ended⟩ := panics
  cases ended

theorem reads_bind : Reads (action >>= next) ↔ ∃ value, action.run = .ok (some value) ∧ Reads (next value) := by
  simp only [Reads, OptionT.run_bind]
  cases action.run with
  | error panic => simp [bind, Except.bind, Option.elimM]
  | ok answer => cases answer <;> simp [bind, Except.bind, pure, Except.pure, Option.elimM]

theorem panics_bind :
    Panics (action >>= next) ↔ Panics action ∨ ∃ value, action.run = .ok (some value) ∧ Panics (next value) := by
  simp only [Panics, OptionT.run_bind]
  cases action.run with
  | error panic => simp [bind, Except.bind, Option.elimM]
  | ok answer => cases answer <;> simp [bind, Except.bind, pure, Except.pure, Option.elimM]

theorem reads_map (f : α → β) : Reads (action >>= fun value => pure (f value)) ↔ Reads action := by
  simp only [reads_bind, reads_pure, and_true]
  rfl

theorem panics_map (f : α → β) : Panics (action >>= fun value => pure (f value)) ↔ Panics action := by
  simp only [panics_bind, not_panics_pure, and_false, exists_false, or_false]

theorem reads_given_bind {answer : Option α} :
    Reads (given answer >>= next) ↔ ∃ value, answer = some value ∧ Reads (next value) := by
  rw [reads_bind]
  cases answer <;> simp [given]

theorem panics_given_bind {answer : Option α} :
    Panics (given answer >>= next) ↔ ∃ value, answer = some value ∧ Panics (next value) := by
  rw [panics_bind]
  cases answer <;> simp [given, Panics]

end Outcomes

/-- The words of an address from one of them on. -/
def wordsAt (ipHex : Text) : Nat → Nat → Parse (List Nat)
  | _, 0 => pure []
  | wordIndex, count + 1 => do
    let raw ← wordAt ipHex wordIndex
    let others ← wordsAt ipHex (wordIndex + 1) count
    return raw :: others

theorem parseIpv6Words_wordsAt (ipHex : Text) :
    parseIpv6Words ipHex = (do
      let words ← wordsAt ipHex 0 4
      return ipv6FromLeWords (words.getD 0 0) (words.getD 1 0) (words.getD 2 0) (words.getD 3 0)) := by
  simp only [parseIpv6Words, wordsAt, bind_assoc, pure_bind]
  rfl

theorem wordAt_after {before rest : Text} {wordIndex : Nat} (place : byteLength before = wordIndex * 8) :
    wordAt (before ++ rest) wordIndex =
      match splitAtByte 8 rest with
      | none => OptionT.mk (.error .outOfBounds)
      | some (word, _) => given (parseU32Hex word) := by
  have front := splitAtByte_append before rest
  rw [place] at front
  simp only [wordAt, sliceBytes, front, bind, Option.bind]
  cases splitAtByte 8 rest <;> rfl

/-- The words are read where they are numerals, and one that ends inside a character panics. -/
theorem wordsAt_outcome {before rest : Text} {wordIndex count : Nat} (place : byteLength before = wordIndex * 8)
    (size : byteLength rest = 8 * count) :
    (Reads (wordsAt (before ++ rest) wordIndex count) ↔ Words count rest) ∧
      (Panics (wordsAt (before ++ rest) wordIndex count) ↔ BrokenWords count rest) := by
  induction count generalizing before rest wordIndex with
  | zero =>
    have nothing : rest = [] := List.eq_nil_of_length_eq_zero (by have short := length_le_byteLength rest; omega)
    subst nothing
    refine ⟨iff_of_true (reads_pure _) .none, iff_of_false (not_panics_pure _) ?_⟩
    intro broken
    cases broken
  | succ count ih =>
    rw [wordsAt, wordAt_after place]
    cases cut : splitAtByte 8 rest with
    | none =>
      have broken : BrokenWords (count + 1) rest := brokenWords_uncut (by omega) cut
      rw [reads_bind, panics_bind]
      constructor
      · apply iff_of_false _ (words_uncut cut)
        intro read
        obtain ⟨_, ended, _⟩ := read
        cases ended
      · exact iff_of_true (Or.inl ⟨_, rfl⟩) broken
    | some parts =>
      obtain ⟨word, others⟩ := parts
      obtain ⟨rfl, wordSize⟩ := splitAtByte_eq_some.mp cut
      rw [byteLength_append] at size
      have further : byteLength (before ++ word) = (wordIndex + 1) * 8 := by
        rw [byteLength_append]
        omega
      have fewer : byteLength others = 8 * count := by omega
      obtain ⟨othersRead, othersPanic⟩ := ih further fewer
      rw [List.append_assoc] at othersRead othersPanic
      have numeral : (parseU32Hex word).isSome ↔ HexDigits (unsigned word) :=
        parseU32Hex_isSome_iff (Nat.le_of_eq wordSize)
      simp only [words_cut cut, brokenWords_cut cut, ← numeral, Option.isSome_iff_exists]
      constructor
      · simp only [reads_given_bind, reads_map, othersRead, exists_and_right]
      · simp only [panics_given_bind, panics_map, othersPanic, exists_and_right]

def addressWords (isIpv4 : Bool) : Nat := if isIpv4 then 1 else 4

/-- What is accepted as an endpoint: the numerals of the port and of the address
words may have a plus each. -/
structure SignedEndpoint (isIpv4 : Bool) (ipHex portHex : Text) : Prop where
  digits : HexDigits (unsigned portHex)
  small : ∃ port ≤ 65535, digitsValue 16 (unsigned portHex) = some port
  address : Words (addressWords isIpv4) ipHex

/-- An endpoint as the kernel writes it. -/
structure HexEndpoint (isIpv4 : Bool) (ipHex portHex : Text) : Prop where
  size : ipHex.length = 8 * addressWords isIpv4
  address : ∀ c ∈ ipHex, HexDigit c
  digits : HexDigits portHex
  small : ∃ port ≤ 65535, digitsValue 16 portHex = some port

/-- An IPv6 endpoint whose address has a character across the end of a word that is read. -/
structure BrokenEndpoint (ipHex portHex : Text) : Prop where
  digits : HexDigits (unsigned portHex)
  small : ∃ port ≤ 65535, digitsValue 16 (unsigned portHex) = some port
  size : byteLength ipHex = 32
  address : BrokenWords 4 ipHex

section Endpoints
variable {endpointText ipHex portHex : Text} {isIpv4 : Bool}

theorem words_one : Words 1 ipHex ↔ byteLength ipHex = 8 ∧ (parseU32Hex ipHex).isSome := by
  constructor
  · intro words
    have size := words.byteLength
    cases words with
    | next first others =>
      cases others
      rw [List.append_nil] at size ⊢
      exact ⟨size, (parseU32Hex_isSome_iff (Nat.le_of_eq size)).mpr first.2⟩
  · intro word
    have first : SignedWord ipHex := ⟨word.1, (parseU32Hex_isSome_iff (Nat.le_of_eq word.1)).mp word.2⟩
    have single := Words.next first .none
    rwa [List.append_nil] at single

theorem parseIpv6Words_outcome (size : byteLength ipHex = 32) :
    (Reads (parseIpv6Words ipHex) ↔ Words 4 ipHex) ∧ (Panics (parseIpv6Words ipHex) ↔ BrokenWords 4 ipHex) := by
  have start : byteLength [] = 0 * 8 := rfl
  rw [parseIpv6Words_wordsAt, reads_map, panics_map]
  exact wordsAt_outcome start size

theorem parseU16Hex_isSome : (∃ port, parseU16Hex portHex = some port) ↔
    HexDigits (unsigned portHex) ∧ ∃ port ≤ 65535, digitsValue 16 (unsigned portHex) = some port := by
  rw [← Option.isSome_iff_exists]
  exact fromStrRadix_isSome_iff

/-- The part of the parser behind the port. -/
def parseProcAddress (ipHex : Text) (isIpv4 : Bool) (port : Nat) : Parse SocketAddr := do
  if isIpv4 then
    if byteLength ipHex ≠ procIpv4HexLen then failure
    let raw ← given (parseU32Hex ipHex)
    return ⟨.v4 (ipv4FromLeWord raw), UInt16.ofNat port⟩
  if byteLength ipHex ≠ procIpv6HexLen then failure
  let ip ← parseIpv6Words ipHex
  return ⟨.v6 ip, UInt16.ofNat port⟩

theorem parseProcSocketAddr_parts (endpointText : Text) (isIpv4 : Bool) :
    parseProcSocketAddr endpointText isIpv4 = (do
      let parts ← given (endpointParts endpointText)
      let port ← given (parseU16Hex parts.2)
      parseProcAddress parts.1 isIpv4 port) := rfl

theorem parseProcAddress_reads (port : Nat) :
    Reads (parseProcAddress ipHex isIpv4 port) ↔ Words (addressWords isIpv4) ipHex := by
  cases isIpv4 with
  | true =>
    rw [addressWords, if_pos rfl, words_one]
    by_cases size : byteLength ipHex = 8
    · have right : ¬byteLength ipHex ≠ procIpv4HexLen := not_not_intro size
      rw [and_iff_right size]
      simp only [parseProcAddress, if_pos, if_neg right, reads_map, reads_given]
    · have wrong : byteLength ipHex ≠ procIpv4HexLen := size
      simp only [parseProcAddress, if_pos, if_pos wrong, reads_bind, size, false_and, iff_false]
      intro reads
      obtain ⟨_, ended, _⟩ := reads
      cases ended
  | false =>
    rw [addressWords, if_neg Bool.false_ne_true]
    by_cases size : byteLength ipHex = 32
    · have right : ¬byteLength ipHex ≠ procIpv6HexLen := not_not_intro size
      simp only [parseProcAddress, Bool.false_eq_true, if_false, if_neg right, reads_map,
        (parseIpv6Words_outcome size).1]
    · have wrong : byteLength ipHex ≠ procIpv6HexLen := size
      simp only [parseProcAddress, Bool.false_eq_true, if_false, if_pos wrong, reads_bind]
      apply iff_of_false
      · intro reads
        obtain ⟨_, ended, _⟩ := reads
        cases ended
      · intro words
        exact size words.byteLength

theorem parseProcAddress_panics (port : Nat) : Panics (parseProcAddress ipHex isIpv4 port) ↔
    isIpv4 = false ∧ byteLength ipHex = 32 ∧ BrokenWords 4 ipHex := by
  cases isIpv4 with
  | true =>
    by_cases size : byteLength ipHex = 8
    · have right : ¬byteLength ipHex ≠ procIpv4HexLen := not_not_intro size
      simp only [parseProcAddress, if_pos, if_neg right, panics_map, not_panics_given, Bool.true_eq_false,
        false_and]
    · have wrong : byteLength ipHex ≠ procIpv4HexLen := size
      simp only [parseProcAddress, if_pos, if_pos wrong, Bool.true_eq_false, false_and, iff_false]
      intro panics
      obtain ⟨_, ended⟩ := panics
      cases ended
  | false =>
    by_cases size : byteLength ipHex = 32
    · have right : ¬byteLength ipHex ≠ procIpv6HexLen := not_not_intro size
      rw [and_iff_right rfl, and_iff_right size]
      simp only [parseProcAddress, Bool.false_eq_true, if_false, if_neg right, panics_map,
        (parseIpv6Words_outcome size).2]
    · have wrong : byteLength ipHex ≠ procIpv6HexLen := size
      simp only [parseProcAddress, Bool.false_eq_true, if_false, if_pos wrong, size, false_and, and_false, iff_false]
      intro panics
      obtain ⟨_, ended⟩ := panics
      cases ended

theorem parseProcSocketAddr_reads : Reads (parseProcSocketAddr endpointText isIpv4) ↔
    ∃ ipHex portHex, endpointParts endpointText = some (ipHex, portHex) ∧ SignedEndpoint isIpv4 ipHex portHex := by
  simp only [parseProcSocketAddr_parts, reads_given_bind, parseProcAddress_reads, exists_and_right, parseU16Hex_isSome]
  constructor
  · intro read
    obtain ⟨parts, split, ⟨digits, small⟩, words⟩ := read
    exact ⟨parts.1, parts.2, split, digits, small, words⟩
  · intro signed
    obtain ⟨ipHex, portHex, split, digits, small, words⟩ := signed
    exact ⟨(ipHex, portHex), split, ⟨digits, small⟩, words⟩

theorem parseProcSocketAddr_panics : Panics (parseProcSocketAddr endpointText isIpv4) ↔
    isIpv4 = false ∧ ∃ ipHex portHex, endpointParts endpointText = some (ipHex, portHex) ∧
      BrokenEndpoint ipHex portHex := by
  simp only [parseProcSocketAddr_parts, panics_given_bind, parseProcAddress_panics, exists_and_right, parseU16Hex_isSome]
  constructor
  · intro panics
    obtain ⟨parts, split, ⟨digits, small⟩, v6, size, broken⟩ := panics
    exact ⟨v6, parts.1, parts.2, split, digits, small, size, broken⟩
  · intro broken
    obtain ⟨v6, ipHex, portHex, split, digits, small, size, broken⟩ := broken
    exact ⟨(ipHex, portHex), split, ⟨digits, small⟩, v6, size, broken⟩

theorem SignedEndpoint.hex (signed : SignedEndpoint isIpv4 ipHex portHex) (plain : '+' ∉ ipHex ∧ '+' ∉ portHex) :
    HexEndpoint isIpv4 ipHex portHex := by
  have digits := signed.digits
  have small := signed.small
  rw [unsigned_of_not_mem plain.2] at digits small
  obtain ⟨size, address⟩ := signed.address.plain plain.1
  exact ⟨size, address, digits, small⟩

theorem HexEndpoint.plain (hex : HexEndpoint isIpv4 ipHex portHex) : '+' ∉ ipHex ∧ '+' ∉ portHex :=
  ⟨fun member => (hex.address _ member).ne_plus rfl, fun member => (hex.digits.2 _ member).ne_plus rfl⟩

/-- Only the hexadecimal spelling is accepted of a token unless it has the right form with a plus in it. -/
theorem parseProcSocketAddr_hex_iff :
    (∀ addr, (parseProcSocketAddr endpointText isIpv4).run = .ok (some addr) →
      ∃ ipHex portHex, endpointParts endpointText = some (ipHex, portHex) ∧ HexEndpoint isIpv4 ipHex portHex) ↔
    ∀ ipHex portHex, endpointParts endpointText = some (ipHex, portHex) → SignedEndpoint isIpv4 ipHex portHex →
      '+' ∉ ipHex ∧ '+' ∉ portHex := by
  constructor
  · intro exact ipHex portHex split signed
    obtain ⟨addr, read⟩ := parseProcSocketAddr_reads.mpr ⟨ipHex, portHex, split, signed⟩
    obtain ⟨otherIp, otherPort, same, hex⟩ := exact addr read
    rw [split] at same
    cases same
    exact hex.plain
  · intro plain addr read
    obtain ⟨ipHex, portHex, split, signed⟩ := parseProcSocketAddr_reads.mp ⟨addr, read⟩
    exact ⟨ipHex, portHex, split, signed.hex (plain ipHex portHex split signed)⟩

end Endpoints

end Netmon.Resolver
