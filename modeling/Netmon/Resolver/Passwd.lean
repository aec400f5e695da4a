import Netmon.Library.Csv
import Netmon.Resolver.Cache

/-! The account file, and the user names that the resolver reads from it. -/
namespace Netmon.Resolver
open Library

structure Account where
  name : Text
  password : Text
  uid : UInt32
  gid : UInt32
  gecos : Text
  home : Text
  shell : Text
  /-- A colon ends a field, and a break ends the line. -/
  plain : ∀ field ∈ [name, password, gecos, home, shell], ∀ c ∈ field, c ≠ ':' ∧ c ≠ '\n' ∧ c ≠ '\r'

def Account.fields (account : Account) : List Text :=
  [account.name, account.password, decimal account.uid.toNat, decimal account.gid.toNat, account.gecos, account.home,
    account.shell]

/-- A line of the file: an account, or a remark of at most two fields. -/
inductive PasswdLine where
  | account (account : Account)
  | remark (text : Text) (short : text.count ':' < 2) (single : '\n' ∉ text ∧ '\r' ∉ text)

namespace PasswdLine

def text : PasswdLine → Text
  | account entry => [':'].intercalate entry.fields
  | remark text _ _ => text

def account? : PasswdLine → Option Account
  | account entry => some entry
  | remark .. => none

end PasswdLine

def passwdText (passwd : List PasswdLine) : Text := unlines (passwd.map PasswdLine.text)

def accounts (passwd : List PasswdLine) : List Account := passwd.filterMap PasswdLine.account?

theorem Account.plain_fields (account : Account) : ∀ field ∈ account.fields, ∀ c ∈ field, c ≠ ':' ∧ c ≠ '\n' ∧ c ≠ '\r' := by
  have numeral (n : Nat) : ∀ c ∈ decimal n, c ≠ ':' ∧ c ≠ '\n' ∧ c ≠ '\r' := by
    intro c member
    have digit := decimal_isDigit member
    refine ⟨?_, ?_, ?_⟩
    all_goals
      rintro rfl
      simp at digit
  have plain := account.plain
  simp only [List.forall_mem_cons] at plain
  obtain ⟨name, password, gecos, home, shell, _⟩ := plain
  simp only [Account.fields, List.forall_mem_cons]
  exact ⟨name, password, numeral _, numeral _, gecos, home, shell, by simp⟩

theorem Account.splitOn_text (account : Account) : (PasswdLine.account account).text.splitOn ':' = account.fields := by
  apply List.splitOn_intercalate
  · intro field member colon
    exact (account.plain_fields field member ':' colon).1 rfl
  · simp [Account.fields]

theorem mem_intercalate {c d : Char} {fields : List Text} (member : c ∈ [d].intercalate fields) :
    c = d ∨ ∃ field ∈ fields, c ∈ field := by
  induction fields with
  | nil => simp at member
  | cons field fields ih =>
    cases fields with
    | nil => exact Or.inr ⟨field, by simp, by simpa using member⟩
    | cons second fields =>
      rw [List.intercalate_cons_cons, List.append_assoc, List.mem_append, List.mem_append, List.mem_singleton] at member
      obtain first | rfl | later := member
      · exact Or.inr ⟨field, by simp, first⟩
      · exact Or.inl rfl
      · obtain same | ⟨other, listed, inside⟩ := ih later
        · exact Or.inl same
        · exact Or.inr ⟨other, List.mem_cons_of_mem field listed, inside⟩

theorem PasswdLine.single_text (line : PasswdLine) : '\n' ∉ line.text ∧ '\r' ∉ line.text := by
  cases line with
  | remark text short single => exact single
  | account account =>
    have within {c : Char} (other : c ≠ ':') (fields : ∀ field ∈ account.fields, c ∉ field) :
        c ∉ (PasswdLine.account account).text := by
      intro member
      obtain same | ⟨field, listed, inside⟩ := mem_intercalate member
      · exact other same
      · exact fields field listed inside
    refine ⟨within (by decide) ?_, within (by decide) ?_⟩
    · intro field listed inside
      exact (account.plain_fields field listed _ inside).2.1 rfl
    · intro field listed inside
      exact (account.plain_fields field listed _ inside).2.2 rfl

theorem lines_passwdText (passwd : List PasswdLine) : lines (passwdText passwd) = passwd.map PasswdLine.text := by
  rw [passwdText, lines_unlines]
  · rw [List.map_map]
    apply List.map_congr_left
    intro line _
    exact chomp_of_not_mem line.single_text.2
  · intro row member
    obtain ⟨line, _, rfl⟩ := List.mem_map.mp member
    exact line.single_text.1

theorem splitOn_remark {text : Text} (short : text.count ':' < 2) : (text.splitOn ':').length < 3 := by
  rw [length_splitOn]
  omega

def userNames (passwd : List PasswdLine) : List (Nat × Text) :=
  (accounts passwd).map fun account => (account.uid.toNat, account.name)

theorem recordUid_text (uidMap : UidMap) (line : PasswdLine) :
    recordUid uidMap (some line.text) = HashMap.insertAll (userNames [line]) uidMap := by
  cases line with
  | account account =>
    have parsed : parseU32 (decimal account.uid.toNat) = some account.uid.toNat := parseU32_decimal account.uid.toNat_lt
    rw [recordUid, account.splitOn_text]
    simp only [Account.fields, List.length_cons, List.length_nil, List.getD_cons_succ, List.getD_cons_zero, parsed]
    rfl
  | remark text short single =>
    have few := splitOn_remark short
    simp only [recordUid, PasswdLine.text, few, if_true]
    rfl

theorem loadUidMap_passwdText (passwd : List PasswdLine) :
    loadUidMap (.ok ((lines (passwdText passwd)).map some)) = .ok (HashMap.insertAll (userNames passwd) ∅) := by
  rw [loadUidMap, lines_passwdText, List.map_map, List.foldl_map]
  have each (uidMap : UidMap) (line : PasswdLine) := recordUid_text uidMap line
  have names : passwd.flatMap (fun line => userNames [line]) = userNames passwd := by
    induction passwd with
    | nil => rfl
    | cons line passwd ih =>
      rw [List.flatMap_cons, ih]
      cases line <;> rfl
  rw [Function.comp_def, HashMap.foldl_insertAll each, names]

end Netmon.Resolver
