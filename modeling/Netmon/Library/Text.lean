import Mathlib.Data.List.Infix
import Mathlib.Data.List.DropRight
import Mathlib.Tactic.IntervalCases

/-! Text as a list of characters, with the string operations of the Rust
standard library that the program calls: lines, whitespace columns, substring
search from both ends, and numerals in a radix. -/
namespace Netmon.Library

abbrev Text := List Char

-- A statement about the characters of a text is decided along the text, not by
-- going through every character there is.
instance decidableForallMem (holds : Char → Prop) [DecidablePred holds] (text : Text) :
    Decidable (∀ c ∈ text, holds c) :=
  List.decidableBAll holds text

/-- `str::lines` drops the newline of a line and one carriage return before it. -/
def chomp (line : Text) : Text :=
  match line.reverse with
  | '\r' :: rest => rest.reverse
  | _ => line

def linesFrom (line : Text) : Text → List Text
  | [] => if line = [] then [] else [line]
  | c :: rest => if c = '\n' then chomp line :: linesFrom [] rest else linesFrom (line ++ [c]) rest

def lines (text : Text) : List Text := linesFrom [] text

def unlines (rows : List Text) : Text := rows.flatMap fun row => row ++ ['\n']

theorem linesFrom_newline (line row rest : Text) (single : '\n' ∉ row) :
    linesFrom line (row ++ '\n' :: rest) = chomp (line ++ row) :: lines rest := by
  induction row generalizing line with
  | nil => simp [linesFrom, lines]
  | cons c row ih =>
    have other : c ≠ '\n' := fun equal => single (by simp [equal])
    have tail := ih (line ++ [c]) (fun member => single (List.mem_cons_of_mem c member))
    simpa [linesFrom, other] using tail

theorem lines_unlines (rows : List Text) (single : ∀ row ∈ rows, '\n' ∉ row) :
    lines (unlines rows) = rows.map chomp := by
  induction rows with
  | nil => rfl
  | cons row rows ih =>
    have head := linesFrom_newline [] row (unlines rows) (single row (by simp))
    have tail := ih (fun other member => single other (List.mem_cons_of_mem row member))
    rw [unlines, List.flatMap_cons, List.append_assoc]
    change linesFrom [] (row ++ '\n' :: unlines rows) = _
    rw [head, tail, List.nil_append, List.map_cons]

theorem chomp_of_last {line : Text} {c : Char} (last : line.getLast? = some c) (other : c ≠ '\r') :
    chomp line = line := by
  obtain ⟨front, rfl⟩ := List.getLast?_eq_some_iff.mp last
  unfold chomp
  rw [List.reverse_append]
  simp only [List.reverse_singleton, List.singleton_append]
  split
  · rename_i equal
    exact absurd (List.cons.inj equal).1 other
  · rfl

theorem chomp_of_not_mem {line : Text} (absent : '\r' ∉ line) : chomp line = line := by
  unfold chomp
  split
  · rename_i rest equal
    have inside : '\r' ∈ line.reverse := by simp [equal]
    exact absurd (List.mem_reverse.mp inside) absent
  · rfl

theorem chomp_prefix_line (line : Text) : chomp line <+: line := by
  unfold chomp
  split
  · rename_i rest equal
    exact ⟨['\r'], by rw [← List.reverse_cons, ← equal, List.reverse_reverse]⟩
  · exact List.prefix_refl line

/-- The Unicode `White_Space` property, as `char::is_whitespace` has it. -/
def isWhitespace (c : Char) : Bool :=
  let n := c.toNat
  (9 ≤ n && n ≤ 13) || n = 0x20 || n = 0x85 || n = 0xA0 || n = 0x1680 ||
    (0x2000 ≤ n && n ≤ 0x200A) || n = 0x2028 || n = 0x2029 || n = 0x202F || n = 0x205F || n = 0x3000

def splitWhitespaceFrom (word : Text) : Text → List Text
  | [] => if word = [] then [] else [word]
  | c :: rest =>
    if isWhitespace c then
      if word = [] then splitWhitespaceFrom [] rest else word :: splitWhitespaceFrom [] rest
    else splitWhitespaceFrom (word ++ [c]) rest

def splitWhitespace (text : Text) : List Text := splitWhitespaceFrom [] text

def IsWord (word : Text) : Prop := word ≠ [] ∧ ∀ c ∈ word, isWhitespace c = false

theorem splitWhitespaceFrom_word (start word rest : Text) (solid : ∀ c ∈ word, isWhitespace c = false) :
    splitWhitespaceFrom start (word ++ rest) = splitWhitespaceFrom (start ++ word) rest := by
  induction word generalizing start with
  | nil => simp
  | cons c word ih =>
    have head := solid c (by simp)
    have tail := ih (start ++ [c]) (fun other member => solid other (List.mem_cons_of_mem c member))
    simpa [splitWhitespaceFrom, head] using tail

theorem splitWhitespace_blanks (blanks rest : Text) (blank : ∀ c ∈ blanks, isWhitespace c = true) :
    splitWhitespace (blanks ++ rest) = splitWhitespace rest := by
  induction blanks with
  | nil => rfl
  | cons c blanks ih =>
    have head := blank c (by simp)
    have tail := ih (fun other member => blank other (List.mem_cons_of_mem c member))
    simpa [splitWhitespace, splitWhitespaceFrom, head] using tail

theorem splitWhitespace_word (word rest : Text) (c : Char) (solid : IsWord word)
    (blank : isWhitespace c = true) :
    splitWhitespace (word ++ c :: rest) = word :: splitWhitespace rest := by
  have moved := splitWhitespaceFrom_word [] word (c :: rest) solid.2
  rw [splitWhitespace, moved]
  simp [splitWhitespaceFrom, blank, solid.1, splitWhitespace]

theorem splitWhitespace_last (word : Text) (solid : IsWord word) : splitWhitespace word = [word] := by
  have moved := splitWhitespaceFrom_word [] word [] solid.2
  rw [List.append_nil] at moved
  rw [splitWhitespace, moved]
  simp [splitWhitespaceFrom, solid.1]

/-- Columns printed with any run of blanks before each and any blanks at the end. -/
def spaced (columns : List (Text × Text)) (trailing : Text) : Text :=
  columns.flatMap (fun column => column.1 ++ column.2) ++ trailing

/-- Every column is a word, and every gap but the first is a non-empty run of blanks. -/
def WellSpaced (columns : List (Text × Text)) (trailing : Text) : Prop :=
  (∀ column ∈ columns, IsWord column.2 ∧ ∀ c ∈ column.1, isWhitespace c = true) ∧
    (∀ column ∈ columns.tail, column.1 ≠ []) ∧ ∀ c ∈ trailing, isWhitespace c = true

theorem splitWhitespace_spaced (columns : List (Text × Text)) (trailing : Text)
    (well : WellSpaced columns trailing) :
    splitWhitespace (spaced columns trailing) = columns.map (·.2) := by
  obtain ⟨words, gaps, ending⟩ := well
  induction columns with
  | nil =>
    have skipped := splitWhitespace_blanks trailing [] ending
    simpa [spaced, splitWhitespace, splitWhitespaceFrom] using skipped
  | cons column columns ih =>
    obtain ⟨solid, blank⟩ := words column (by simp)
    have tail := ih (fun other member => words other (List.mem_cons_of_mem column member))
      (fun other member => gaps other (List.mem_of_mem_tail member))
    have split : spaced (column :: columns) trailing =
        column.1 ++ (column.2 ++ spaced columns trailing) := by simp [spaced]
    rw [split, splitWhitespace_blanks _ _ blank, List.map_cons, ← tail]
    -- the next character after the word is a blank: of the next gap or of the end
    cases after : spaced columns trailing with
    | nil =>
      rw [List.append_nil, splitWhitespace_last _ solid]
      rfl
    | cons c rest =>
      have isBlank : isWhitespace c = true := by
        cases columns with
        | nil =>
          have same : trailing = c :: rest := by simpa [spaced] using after
          exact ending c (same ▸ List.mem_cons_self)
        | cons next columns =>
          have gap := gaps next (by simp)
          obtain ⟨first, others, shape⟩ := List.exists_cons_of_ne_nil gap
          have same : first = c := by
            simp only [spaced, List.flatMap_cons, shape, List.cons_append] at after
            exact (List.cons.inj after).1
          exact same ▸ (words next (by simp)).2 first (by simp [shape])
      rw [splitWhitespace_word _ _ _ solid isBlank]
      simp [splitWhitespace, splitWhitespaceFrom, isBlank]

instance (word : Text) : Decidable (IsWord word) :=
  inferInstanceAs (Decidable (word ≠ [] ∧ ∀ c ∈ word, isWhitespace c = false))

instance (columns : List (Text × Text)) (trailing : Text) : Decidable (WellSpaced columns trailing) :=
  inferInstanceAs (Decidable ((∀ column ∈ columns, IsWord column.2 ∧ ∀ c ∈ column.1, isWhitespace c = true) ∧
    (∀ column ∈ columns.tail, column.1 ≠ []) ∧ ∀ c ∈ trailing, isWhitespace c = true))

def trim (text : Text) : Text := (text.dropWhile isWhitespace).rdropWhile isWhitespace

theorem trim_of_solid (text : Text) (solid : ∀ c ∈ text, isWhitespace c = false) : trim text = text := by
  have front : text.dropWhile isWhitespace = text := by
    cases text with
    | nil => rfl
    | cons c rest => simp [List.dropWhile, solid c (by simp)]
  unfold trim
  rw [front, List.rdropWhile_eq_self_iff]
  intro filled
  simp [solid _ (List.getLast_mem filled)]

theorem trim_append_blank (text : Text) {c : Char} (blank : isWhitespace c = true) : trim (text ++ [c]) = trim text := by
  unfold trim
  rw [List.dropWhile_append]
  split
  · rename_i empty
    rw [List.isEmpty_iff] at empty
    simp [empty, blank]
  · rw [List.rdropWhile_concat_pos _ _ _ blank]

def contains (text pattern : Text) : Bool := decide (pattern <:+: text)

@[simp] theorem contains_iff (text pattern : Text) : contains text pattern = true ↔ pattern <:+: text := by
  simp [contains]

theorem prefix_get {pattern text : Text} (starts : pattern <+: text) {i : Nat} {c : Char} (known : pattern[i]? = some c) :
    text[i]? = some c := by
  obtain ⟨rest, rfl⟩ := starts
  rw [List.getElem?_append_left (List.getElem?_eq_some_iff.mp known).1]
  exact known

theorem prefix_append_cons {c : Char} {pattern : Text} (front : Text) {back : Text} (starts : pattern <+: front ++ c :: back)
    (other : c ∉ pattern) : pattern <+: front := by
  obtain ⟨last, split⟩ := starts
  rcases List.append_eq_append_iff.mp split with ⟨rest, rfl, _⟩ | ⟨longer, rfl, behind⟩
  · exact List.prefix_append pattern rest
  · rcases List.cons_eq_append_iff.mp behind with ⟨rfl, _⟩ | ⟨more, rfl, _⟩
    · simp
    · simp at other

theorem infix_append_cons {c : Char} {pattern front back : Text} (inside : pattern <:+: front ++ c :: back)
    (other : c ∉ pattern) : pattern <:+: front ∨ pattern <:+: back := by
  induction front with
  | nil =>
    rcases List.infix_cons_iff.mp inside with starts | later
    · exact Or.inl (prefix_append_cons [] starts other).isInfix
    · exact Or.inr later
  | cons d front ih =>
    rcases List.infix_cons_iff.mp inside with starts | later
    · exact Or.inl (prefix_append_cons (d :: front) starts other).isInfix
    · exact (ih later).imp_left fun found => List.infix_cons found

theorem splitOn_pair {c : Char} {front back : Text} (plainFront : c ∉ front) (plainBack : c ∉ back) :
    (front ++ c :: back).splitOn c = [front, back] := by
  have joined : (List.intercalate [c] [front, back]).splitOn c = [front, back] :=
    List.splitOn_intercalate c (by simp [plainFront, plainBack]) (by simp)
  simpa using joined

/-- `str::rfind`, as a position in characters. -/
def rfind (pattern : Text) : Text → Option Nat
  | [] => if pattern = [] then some 0 else none
  | c :: rest =>
    match rfind pattern rest with
    | some i => some (i + 1)
    | none => if pattern.isPrefixOf (c :: rest) then some 0 else none

theorem rfind_append (pattern front back : Text) (i : Nat) (found : rfind pattern back = some i) :
    rfind pattern (front ++ back) = some (front.length + i) := by
  induction front with
  | nil => simpa using found
  | cons c front ih =>
    simp only [List.cons_append, rfind, ih, List.length_cons]
    congr 1
    omega

theorem rfind_none_of_head (c : Char) (pattern text : Text) (absent : c ∉ text) :
    rfind (c :: pattern) text = none := by
  induction text with
  | nil => simp [rfind]
  | cons d text ih =>
    have other : c ≠ d := fun equal => absent (by simp [equal])
    have tail := ih (fun member => absent (List.mem_cons_of_mem d member))
    simp [rfind, tail, List.isPrefixOf, other]

theorem rfind_last (c : Char) (pattern front back : Text) (once : c ∉ pattern ++ back) :
    rfind (c :: pattern) (front ++ (c :: pattern ++ back)) = some front.length := by
  apply rfind_append (c :: pattern) front _ 0
  have rest := rfind_none_of_head c pattern (pattern ++ back) once
  simp [rfind, rest, List.isPrefixOf]

/-- `str::replace` of one character by another. -/
def replace (old new : Char) (text : Text) : Text := text.map fun c => if c = old then new else c

theorem not_mem_replace {old new : Char} (text : Text) (distinct : old ≠ new) : old ∉ replace old new text := by
  simp only [replace, List.mem_map, not_exists, not_and]
  intro c _
  split
  · exact distinct.symm
  · assumption

theorem mem_replace_of_ne {old new c : Char} {text : Text} (member : c ∈ replace old new text)
    (other : c ≠ new) : c ∈ text := by
  obtain ⟨d, inside, equal⟩ := List.mem_map.mp member
  split at equal
  · exact absurd equal.symm other
  · exact equal ▸ inside

theorem mem_replace_iff {old new c : Char} (kept : c ≠ old) (other : c ≠ new) (text : Text) :
    c ∈ replace old new text ↔ c ∈ text := by
  constructor
  · exact fun member => mem_replace_of_ne member other
  · exact fun member => List.mem_map.mpr ⟨c, member, if_neg kept⟩

/-- `str::len`. -/
def byteLength (text : Text) : Nat := (text.map Char.utf8Size).sum

/-- `str::split_at_checked`: no answer beyond the end or inside a character. -/
def splitAtByte : Nat → Text → Option (Text × Text)
  | 0, text => some ([], text)
  | _ + 1, [] => none
  | position + 1, c :: rest =>
    if c.utf8Size ≤ position + 1 then
      (splitAtByte (position + 1 - c.utf8Size) rest).map fun parts => (c :: parts.1, parts.2)
    else none

/-- `str::get(start..start + size)`. -/
def sliceBytes (text : Text) (start size : Nat) : Option Text := do
  let (_, back) ← splitAtByte start text
  let (front, _) ← splitAtByte size back
  return front

theorem splitAtByte_append (front back : Text) : splitAtByte (byteLength front) (front ++ back) = some (front, back) := by
  induction front with
  | nil => cases back <;> rfl
  | cons c front ih =>
    have positive := c.utf8Size_pos
    have size : byteLength (c :: front) = c.utf8Size + byteLength front := by simp [byteLength]
    obtain ⟨position, next⟩ : ∃ position, byteLength (c :: front) = position + 1 := ⟨byteLength (c :: front) - 1, by omega⟩
    have fits : c.utf8Size ≤ position + 1 := by omega
    have remaining : position + 1 - c.utf8Size = byteLength front := by omega
    rw [next, List.cons_append, splitAtByte, if_pos fits, remaining, ih]
    rfl

theorem sliceBytes_append (front word back : Text) :
    sliceBytes (front ++ (word ++ back)) (byteLength front) (byteLength word) = some word := by
  simp [sliceBytes, splitAtByte_append]

def toDigit (radix : Nat) (c : Char) : Option Nat :=
  let value :=
    if '0' ≤ c ∧ c ≤ '9' then some (c.toNat - '0'.toNat)
    else if 'a' ≤ c ∧ c ≤ 'z' then some (c.toNat - 'a'.toNat + 10)
    else if 'A' ≤ c ∧ c ≤ 'Z' then some (c.toNat - 'A'.toNat + 10)
    else none
  value.filter (· < radix)

def digitsValue (radix : Nat) (text : Text) : Option Nat :=
  text.foldlM (fun value c => (toDigit radix c).map (value * radix + ·)) 0

/-- `from_str_radix` of an unsigned integer type with the given largest value:
one leading plus is allowed, a numeral has a digit, and overflow is an error. -/
def fromStrRadix (radix largest : Nat) (text : Text) : Option Nat :=
  let digits := match text with
    | '+' :: rest => rest
    | _ => text
  if digits = [] then none else (digitsValue radix digits).filter (· ≤ largest)

def parseU8Hex : Text → Option Nat := fromStrRadix 16 (2^8 - 1)
def parseU16Hex : Text → Option Nat := fromStrRadix 16 (2^16 - 1)
def parseU32Hex : Text → Option Nat := fromStrRadix 16 (2^32 - 1)
def parseU32 : Text → Option Nat := fromStrRadix 10 (2^32 - 1)
def parseU64 : Text → Option Nat := fromStrRadix 10 (2^64 - 1)

theorem digitsValue_append (radix : Nat) (text : Text) (c : Char) :
    digitsValue radix (text ++ [c]) =
      (digitsValue radix text).bind fun value => (toDigit radix c).map (value * radix + ·) := by
  rw [digitsValue, List.foldlM_append]
  simp only [List.foldlM_cons, List.foldlM_nil, bind_pure]
  rfl

def decimal (n : Nat) : Text := Nat.toDigits 10 n

theorem toDigit_digitChar (d : Nat) (bound : d < 10) : toDigit 10 d.digitChar = some d := by
  interval_cases d <;> rfl

theorem digitsValue_decimal (n : Nat) : digitsValue 10 (decimal n) = some n := by
  induction n using Nat.strong_induction_on with
  | _ n ih =>
    rw [decimal, Nat.toDigits_eq_if (by omega)]
    split
    · rename_i small
      simp [digitsValue, toDigit_digitChar n small]
    · rename_i large
      have front := ih (n / 10) (by omega)
      rw [decimal] at front
      rw [digitsValue_append, front, toDigit_digitChar _ (Nat.mod_lt n (by omega))]
      simp only [Option.bind_some, Option.map_some, Option.some.injEq]
      omega

theorem decimal_isDigit {n : Nat} {c : Char} (member : c ∈ decimal n) : c.isDigit = true :=
  Nat.isDigit_of_mem_toDigits (by omega) (by omega) member

theorem decimal_not_mem {n : Nat} {c : Char} (other : c.isDigit = false) : c ∉ decimal n := by
  intro member
  simp [decimal_isDigit member] at other

theorem isWhitespace_of_isDigit {c : Char} (digit : c.isDigit = true) : isWhitespace c = false := by
  simp only [Char.isDigit, Bool.and_eq_true, decide_eq_true_eq, UInt32.le_iff_toNat_le] at digit
  change 48 ≤ c.toNat ∧ c.toNat ≤ 57 at digit
  simp only [isWhitespace, Bool.or_eq_false_iff, Bool.and_eq_false_iff, decide_eq_false_iff_not]
  omega

theorem decimal_ne_nil (n : Nat) : decimal n ≠ [] := by
  intro empty
  have value := digitsValue_decimal n
  rw [decimal, Nat.toDigits_eq_if (by omega)] at empty
  split at empty <;> simp at empty

theorem decimal_isWord (n : Nat) : IsWord (decimal n) :=
  ⟨decimal_ne_nil n, fun _ member => isWhitespace_of_isDigit (decimal_isDigit member)⟩

theorem fromStrRadix_unsigned (radix largest : Nat) (text : Text) (filled : text ≠ [])
    (unsigned : '+' ∉ text) :
    fromStrRadix radix largest text = (digitsValue radix text).filter (· ≤ largest) := by
  unfold fromStrRadix
  split
  · simp at unsigned
  · simp [filled]

theorem fromStrRadix_decimal (largest n : Nat) (bound : n ≤ largest) :
    fromStrRadix 10 largest (decimal n) = some n := by
  rw [fromStrRadix_unsigned 10 largest _ (decimal_ne_nil n) (decimal_not_mem rfl), digitsValue_decimal]
  simp [bound]

theorem fromStrRadix_le {radix largest n : Nat} {text : Text} (parsed : fromStrRadix radix largest text = some n) :
    n ≤ largest := by
  obtain ⟨_, parsed⟩ := Option.ite_none_left_eq_some.mp parsed
  exact of_decide_eq_true (Option.filter_eq_some_iff.mp parsed).2

theorem parseU32_decimal {n : Nat} (bound : n < 2^32) : parseU32 (decimal n) = some n :=
  fromStrRadix_decimal (2^32 - 1) n (Nat.le_sub_one_of_lt bound)

theorem parseU64_decimal {n : Nat} (bound : n < 2^64) : parseU64 (decimal n) = some n :=
  fromStrRadix_decimal (2^64 - 1) n (Nat.le_sub_one_of_lt bound)

/-- The hexadecimal numeral of `%0<width>X`, for a value of at most `width` digits. -/
def hexadecimal : Nat → Nat → Text
  | 0, _ => []
  | width + 1, n => hexadecimal width (n / 16) ++ [(n % 16).digitChar.toUpper]

theorem toDigit_hexDigit (d : Nat) (bound : d < 16) : toDigit 16 d.digitChar.toUpper = some d := by
  interval_cases d <;> rfl

theorem digitsValue_hexadecimal (width n : Nat) (bound : n < 16 ^ width) :
    digitsValue 16 (hexadecimal width n) = some n := by
  induction width generalizing n with
  | zero => simp at bound; simp [hexadecimal, digitsValue, bound]
  | succ width ih =>
    have front := ih (n / 16) (by rw [Nat.pow_succ] at bound; omega)
    rw [hexadecimal, digitsValue_append, front, toDigit_hexDigit _ (Nat.mod_lt n (by omega))]
    simp only [Option.bind_some, Option.map_some, Option.some.injEq]
    omega

theorem hexDigit_solid (d : Nat) (bound : d < 16) :
    isWhitespace d.digitChar.toUpper = false ∧ d.digitChar.toUpper ≠ ':' ∧ d.digitChar.toUpper ≠ '+' := by
  interval_cases d <;> decide

theorem hexadecimal_solid {width n : Nat} {c : Char} (member : c ∈ hexadecimal width n) :
    isWhitespace c = false ∧ c ≠ ':' ∧ c ≠ '+' := by
  induction width generalizing n with
  | zero => simp [hexadecimal] at member
  | succ width ih =>
    rcases List.mem_append.mp member with front | last
    · exact ih front
    · rw [List.mem_singleton] at last
      exact last ▸ hexDigit_solid _ (Nat.mod_lt n (by omega))

@[simp] theorem hexadecimal_length (width n : Nat) : (hexadecimal width n).length = width := by
  induction width generalizing n with
  | zero => rfl
  | succ width ih => simp [hexadecimal, ih]

theorem hexDigit_utf8Size (d : Nat) (bound : d < 16) : d.digitChar.toUpper.utf8Size = 1 := by
  interval_cases d <;> rfl

@[simp] theorem byteLength_append (front back : Text) : byteLength (front ++ back) = byteLength front + byteLength back := by
  simp [byteLength]

@[simp] theorem byteLength_hexadecimal (width n : Nat) : byteLength (hexadecimal width n) = width := by
  induction width generalizing n with
  | zero => rfl
  | succ width ih =>
    have digit : byteLength [(n % 16).digitChar.toUpper] = 1 := by
      simp [byteLength, hexDigit_utf8Size _ (Nat.mod_lt n (by omega))]
    rw [hexadecimal, byteLength_append, ih, digit]

theorem fromStrRadix_hexadecimal (largest width n : Nat) (digits : n < 16 ^ (width + 1)) (bound : n ≤ largest) :
    fromStrRadix 16 largest (hexadecimal (width + 1) n) = some n := by
  have filled : hexadecimal (width + 1) n ≠ [] := by simp [hexadecimal]
  have unsigned : '+' ∉ hexadecimal (width + 1) n := fun member => (hexadecimal_solid member).2.2 rfl
  rw [fromStrRadix_unsigned 16 largest _ filled unsigned, digitsValue_hexadecimal _ _ digits]
  simp [bound]

end Netmon.Library
