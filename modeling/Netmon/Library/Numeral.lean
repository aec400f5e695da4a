import Netmon.Library.Text

/-! What is accepted as a numeral, and where a text can be cut at a byte. -/
namespace Netmon.Library

def HexDigit (c : Char) : Prop := '0' ≤ c ∧ c ≤ '9' ∨ 'a' ≤ c ∧ c ≤ 'f' ∨ 'A' ≤ c ∧ c ≤ 'F'

def HexDigits (text : Text) : Prop := text ≠ [] ∧ ∀ c ∈ text, HexDigit c

section Digits
variable {radix largest value : Nat} {c : Char} {text : Text}

theorem toDigit_isSome_iff : (toDigit 16 c).isSome ↔ HexDigit c := by
  have order (a b : Char) : a ≤ b ↔ a.toNat ≤ b.toNat := Char.le_def.trans UInt32.le_iff_toNat_le
  have zero : '0'.toNat = 48 := rfl
  have nine : '9'.toNat = 57 := rfl
  have lowerA : 'a'.toNat = 97 := rfl
  have lowerF : 'f'.toNat = 102 := rfl
  have lowerZ : 'z'.toNat = 122 := rfl
  have upperA : 'A'.toNat = 65 := rfl
  have upperF : 'F'.toNat = 70 := rfl
  have upperZ : 'Z'.toNat = 90 := rfl
  simp only [toDigit, HexDigit, order, zero, nine, lowerA, lowerF, lowerZ, upperA, upperF, upperZ]
  split
  · simp
    omega
  · split
    · simp
      omega
    · split
      · simp
        omega
      · simp
        omega

theorem HexDigit.utf8Size (digit : HexDigit c) : c.utf8Size = 1 := by
  have nine : '9'.val.toNat = 57 := rfl
  have upperF : 'F'.val.toNat = 70 := rfl
  have lowerF : 'f'.val.toNat = 102 := rfl
  have ascii : (127 : UInt32).toNat = 127 := rfl
  rw [Char.utf8Size_eq_one_iff, UInt32.le_iff_toNat_le]
  simp only [HexDigit, Char.le_def, UInt32.le_iff_toNat_le, nine, upperF, lowerF] at digit
  omega

theorem HexDigit.ne_plus (digit : HexDigit c) : c ≠ '+' := by
  intro same
  subst same
  revert digit
  unfold HexDigit
  decide

theorem toDigit_lt {digit : Nat} (found : toDigit radix c = some digit) : digit < radix :=
  of_decide_eq_true (Option.filter_eq_some_iff.mp found).2

theorem digitsValue_isSome_iff : (digitsValue radix text).isSome ↔ ∀ c ∈ text, (toDigit radix c).isSome := by
  induction text using List.reverseRecOn with
  | nil => simp [digitsValue]
  | append_singleton text c ih =>
    rw [digitsValue_append]
    cases front : digitsValue radix text <;> simp_all [or_imp, forall_and]

theorem digitsValue_lt (valued : digitsValue radix text = some value) : value < radix ^ text.length := by
  induction text using List.reverseRecOn generalizing value with
  | nil =>
    cases valued
    simp
  | append_singleton text c ih =>
    rw [digitsValue_append] at valued
    obtain ⟨front, frontValued, last⟩ := Option.bind_eq_some_iff.mp valued
    obtain ⟨digit, found, rfl⟩ := Option.map_eq_some_iff.mp last
    have frontSmall := ih frontValued
    have digitSmall := toDigit_lt found
    rw [List.length_append, List.length_singleton, Nat.pow_succ]
    calc front * radix + digit < front * radix + radix := by omega
      _ = (front + 1) * radix := by rw [Nat.add_mul, Nat.one_mul]
      _ ≤ radix ^ text.length * radix := Nat.mul_le_mul_right radix frontSmall

/-- A numeral without its leading plus. -/
def unsigned : Text → Text
  | '+' :: rest => rest
  | text => text

theorem fromStrRadix_digits (radix largest : Nat) (text : Text) :
    fromStrRadix radix largest text =
      if unsigned text = [] then none else (digitsValue radix (unsigned text)).filter (· ≤ largest) := by
  cases text with
  | nil => rfl
  | cons c rest =>
    by_cases plus : c = '+'
    · subst plus
      rfl
    · simp [fromStrRadix, unsigned, plus]

theorem unsigned_of_not_mem (plain : '+' ∉ text) : unsigned text = text := by
  unfold unsigned
  split
  · simp at plain
  · rfl

/-- One leading plus, a digit, and a value in range. -/
theorem fromStrRadix_isSome_iff : (fromStrRadix 16 largest text).isSome ↔
    HexDigits (unsigned text) ∧ ∃ value ≤ largest, digitsValue 16 (unsigned text) = some value := by
  rw [fromStrRadix_digits]
  constructor
  · intro accepted
    obtain ⟨value, parsed⟩ := Option.isSome_iff_exists.mp accepted
    obtain ⟨filled, valued⟩ := Option.ite_none_left_eq_some.mp parsed
    obtain ⟨valued, small⟩ := Option.filter_eq_some_iff.mp valued
    have digits := digitsValue_isSome_iff.mp (Option.isSome_iff_exists.mpr ⟨value, valued⟩)
    exact ⟨⟨filled, fun c member => toDigit_isSome_iff.mp (digits c member)⟩, value, of_decide_eq_true small, valued⟩
  · intro numeral
    obtain ⟨⟨filled, _⟩, value, small, valued⟩ := numeral
    rw [if_neg filled, valued]
    simp [small]

theorem length_le_byteLength (text : Text) : text.length ≤ byteLength text := by
  induction text with
  | nil => exact Nat.le_refl 0
  | cons c text ih =>
    have positive := c.utf8Size_pos
    simp only [byteLength, List.map_cons, List.sum_cons, List.length_cons] at ih ⊢
    omega

theorem unsigned_length_le (text : Text) : (unsigned text).length ≤ text.length := by
  unfold unsigned
  split
  · exact Nat.le_succ _
  · exact Nat.le_refl _

/-- Eight bytes hold no number that overflows 32 bits. -/
theorem parseU32Hex_isSome_iff (short : byteLength text ≤ 8) : (parseU32Hex text).isSome ↔ HexDigits (unsigned text) := by
  rw [parseU32Hex, fromStrRadix_isSome_iff]
  apply and_iff_left_of_imp
  intro digits
  have all : ∀ c ∈ unsigned text, (toDigit 16 c).isSome := fun c member => toDigit_isSome_iff.mpr (digits.2 c member)
  obtain ⟨value, valued⟩ := Option.isSome_iff_exists.mp (digitsValue_isSome_iff.mpr all)
  have size : (unsigned text).length ≤ 8 :=
    (unsigned_length_le text).trans ((length_le_byteLength text).trans short)
  have bound : 16 ^ (unsigned text).length ≤ 16 ^ 8 := Nat.pow_le_pow_right (by omega) size
  have small := digitsValue_lt valued
  exact ⟨value, by omega, valued⟩

end Digits

section Cuts
variable {n : Nat} {text front back : Text}

/-- A character of the text lies on both sides of a byte position. -/
def Straddled (n : Nat) (text : Text) : Prop :=
  ∃ front c back, text = front ++ c :: back ∧ byteLength front < n ∧ n < byteLength front + c.utf8Size

theorem byteLength_cons (c : Char) (text : Text) : byteLength (c :: text) = c.utf8Size + byteLength text := by
  simp [byteLength]

theorem splitAtByte_eq_some : splitAtByte n text = some (front, back) ↔ text = front ++ back ∧ byteLength front = n := by
  constructor
  · intro cut
    induction text generalizing n front with
    | nil =>
      cases n with
      | zero =>
        cases cut
        exact ⟨rfl, rfl⟩
      | succ n => cases cut
    | cons c text ih =>
      cases n with
      | zero =>
        cases cut
        exact ⟨rfl, rfl⟩
      | succ n =>
        obtain ⟨fits, cut⟩ := Option.ite_none_right_eq_some.mp cut
        obtain ⟨⟨first, second⟩, inner, same⟩ := Option.map_eq_some_iff.mp cut
        cases same
        obtain ⟨rfl, size⟩ := ih inner
        rw [byteLength_cons, size]
        exact ⟨rfl, by omega⟩
  · intro parts
    obtain ⟨rfl, rfl⟩ := parts
    exact splitAtByte_append front back

/-- Inside a text, only the middle of a character cannot be cut. -/
theorem splitAtByte_eq_none (inside : n ≤ byteLength text) : splitAtByte n text = none ↔ Straddled n text := by
  constructor
  · intro uncut
    induction text generalizing n with
    | nil =>
      have zero : n = 0 := Nat.le_zero.mp inside
      subst zero
      cases uncut
    | cons c text ih =>
      cases n with
      | zero => cases uncut
      | succ n =>
        rw [byteLength_cons] at inside
        rw [splitAtByte] at uncut
        by_cases fits : c.utf8Size ≤ n + 1
        · rw [if_pos fits, Option.map_eq_none_iff] at uncut
          obtain ⟨front, d, back, rfl, before, after⟩ := ih (by omega) uncut
          refine ⟨c :: front, d, back, rfl, ?_, ?_⟩
          · rw [byteLength_cons]
            omega
          · rw [byteLength_cons]
            omega
        · exact ⟨[], c, text, rfl, Nat.succ_pos n, by simpa [byteLength] using fits⟩
  · intro straddled
    obtain ⟨front, c, back, rfl, before, after⟩ := straddled
    cases cut : splitAtByte n (front ++ c :: back) with
    | none => rfl
    | some parts =>
      obtain ⟨first, second⟩ := parts
      obtain ⟨same, size⟩ := splitAtByte_eq_some.mp cut
      -- The cut would lie behind `front` and before the end of the character.
      obtain ⟨more, rfl, rest⟩ | ⟨more, rfl, rest⟩ := List.append_eq_append_iff.mp same
      · cases more with
        | nil => simp [byteLength] at size before; omega
        | cons d more =>
          rw [List.cons_append] at rest
          cases rest
          simp only [byteLength_append, byteLength_cons] at size
          omega
      · simp only [byteLength_append] at before size
        omega

end Cuts

/-- The hexadecimal numeral of `%0<width>x`. -/
def lowerHexadecimal : Nat → Nat → Text
  | 0, _ => []
  | width + 1, n => lowerHexadecimal width (n / 16) ++ [(n % 16).digitChar]

theorem toDigit_lowerDigit (d : Nat) (bound : d < 16) : toDigit 16 d.digitChar = some d := by
  interval_cases d <;> rfl

theorem digitsValue_lowerHexadecimal (width n : Nat) (bound : n < 16 ^ width) :
    digitsValue 16 (lowerHexadecimal width n) = some n := by
  induction width generalizing n with
  | zero =>
    obtain rfl : n = 0 := Nat.lt_one_iff.mp bound
    rfl
  | succ width ih =>
    have front := ih (n / 16) (Nat.div_lt_of_lt_mul (by rw [Nat.mul_comm, ← Nat.pow_succ]; exact bound))
    have last := toDigit_lowerDigit (n % 16) (Nat.mod_lt n (by omega))
    rw [lowerHexadecimal, digitsValue_append, front, Option.bind_some, last, Option.map_some]
    exact congrArg some (Nat.div_add_mod' n 16)

theorem lowerHexadecimal_digit {width n : Nat} {c : Char} (member : c ∈ lowerHexadecimal width n) :
    ∃ d < 16, c = d.digitChar := by
  induction width generalizing n with
  | zero => exact absurd member List.not_mem_nil
  | succ width ih =>
    obtain front | last := List.mem_append.mp member
    · exact ih front
    · exact ⟨n % 16, Nat.mod_lt n (by omega), List.mem_singleton.mp last⟩

theorem lowerHexadecimal_solid {width n : Nat} {c : Char} (member : c ∈ lowerHexadecimal width n) :
    isWhitespace c = false ∧ c ≠ '+' := by
  obtain ⟨d, bound, rfl⟩ := lowerHexadecimal_digit member
  interval_cases d <;> decide

theorem lowerHexadecimal_isWord (width n : Nat) : IsWord (lowerHexadecimal (width + 1) n) := by
  refine ⟨?_, fun c member => (lowerHexadecimal_solid member).1⟩
  rw [lowerHexadecimal]
  exact List.append_ne_nil_of_right_ne_nil _ (List.cons_ne_nil _ _)

def parseU64Hex : Text → Option Nat := fromStrRadix 16 (2^64 - 1)

theorem parseU64Hex_lower {n : Nat} (bound : n < 2^64) : parseU64Hex (lowerHexadecimal 16 n) = some n := by
  have filled : lowerHexadecimal 16 n ≠ [] := (lowerHexadecimal_isWord 15 n).1
  have unsigned : '+' ∉ lowerHexadecimal 16 n := fun member => (lowerHexadecimal_solid member).2 rfl
  have fits : n ≤ 2^64 - 1 := Nat.le_sub_one_of_lt bound
  rw [parseU64Hex, fromStrRadix_unsigned 16 _ _ filled unsigned, digitsValue_lowerHexadecimal 16 n bound,
    Option.filter_some, if_pos (decide_eq_true fits)]

end Netmon.Library
