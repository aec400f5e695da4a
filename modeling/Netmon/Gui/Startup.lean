import Netmon.Gui.Clicks
import Netmon.Library.Numeral
import Netmon.Resolver.Host

/-! The start of the program: who may run it, by the status file that the kernel shows it, and
whose home its files go to, by the account file. -/
namespace Netmon.Gui
open Library Controller Resolver

structure Machine where
  euid : Nat
  read : Text → Option Text
  var : Text → Option Text

section Source
variable (machine : Machine)

def capNetAdmin : Nat := 1 <<< 12
def capNetRaw : Nat := 1 <<< 13

def hasRequiredCapabilities : Bool :=
  match machine.read "/proc/self/status".toList with
  | none => false
  | some status =>
    let capEffLine := (lines status).find? fun line => "CapEff:".toList.isPrefixOf line
    match capEffLine.bind fun line => (splitWhitespace line)[1]? with
    | none => false
    | some capEffHex =>
      match parseU64Hex capEffHex with
      | none => false
      | some capEff => capEff &&& capNetAdmin != 0 && capEff &&& capNetRaw != 0

/-- The error is the exit code. -/
def ensurePrivilegesOrExit : Except Nat Unit :=
  if machine.euid = 0 || hasRequiredCapabilities machine then .ok () else .error 1

def main (env : Env) (world : World) : Except Nat FirewallApp := do
  ensurePrivilegesOrExit machine
  return .launch env world

def isLineOf (sudoUser line : Text) : Bool :=
  decide ((line.splitOn ':').length ≥ 6) && (line.splitOn ':').getD 0 [] == sudoUser

def getUserHome : Text :=
  let home := do
    let sudoUser ← machine.var "SUDO_USER".toList
    let passwd ← machine.read "/etc/passwd".toList
    let line ← (lines passwd).find? (isLineOf sudoUser)
    return (line.splitOn ':').getD 5 []
  home.getD ((machine.var "HOME".toList).getD "/tmp".toList)

end Source

def capEffLine (capEff : UInt64) : Text := "CapEff:".toList ++ '\t' :: lowerHexadecimal 16 capEff.toNat

/-- The status file of a process with these effective capabilities. The lines before that of
the capabilities begin otherwise. -/
def ShowsCapabilities (machine : Machine) (capEff : UInt64) : Prop :=
  ∃ before after : List Text, (∀ line ∈ before, '\n' ∉ line ∧ ¬"CapEff:".toList <+: line) ∧
    (∀ line ∈ after, '\n' ∉ line) ∧
    machine.read "/proc/self/status".toList = some (unlines (before ++ capEffLine capEff :: after))

/-- May administer the network and open raw sockets. -/
def Privileged (capEff : UInt64) : Prop := capEff.toNat.testBit 12 = true ∧ capEff.toNat.testBit 13 = true

instance (capEff : UInt64) : Decidable (Privileged capEff) :=
  inferInstanceAs (Decidable (capEff.toNat.testBit 12 = true ∧ capEff.toNat.testBit 13 = true))

theorem capEffLine_plain (capEff : UInt64) {c : Char} (blank : isWhitespace c = true) (other : c ≠ '\t') :
    c ∉ capEffLine capEff := by
  intro member
  obtain label | rest := List.mem_append.mp member
  · have solid : ∀ c ∈ "CapEff:".toList, isWhitespace c = false := by decide
    rw [solid c label] at blank
    cases blank
  · obtain tab | digit := List.mem_cons.mp rest
    · exact other tab
    · rw [(lowerHexadecimal_solid digit).1] at blank
      cases blank

theorem splitWhitespace_capEffLine (capEff : UInt64) :
    splitWhitespace (capEffLine capEff) = ["CapEff:".toList, lowerHexadecimal 16 capEff.toNat] := by
  have label : IsWord "CapEff:".toList := by decide
  have digits := splitWhitespace_last _ (lowerHexadecimal_isWord 15 capEff.toNat)
  have parts := splitWhitespace_word "CapEff:".toList (lowerHexadecimal 16 capEff.toNat) '\t' label rfl
  rw [digits] at parts
  exact parts

theorem find_capEffLine {before after : List Text} {capEff : UInt64}
    (other : ∀ line ∈ before, '\n' ∉ line ∧ ¬"CapEff:".toList <+: line) (single : ∀ line ∈ after, '\n' ∉ line) :
    ((lines (unlines (before ++ capEffLine capEff :: after))).find? fun line => "CapEff:".toList.isPrefixOf line) =
      some (capEffLine capEff) := by
  have rows : ∀ row ∈ before ++ capEffLine capEff :: after, '\n' ∉ row := by
    intro row member
    obtain early | late := List.mem_append.mp member
    · exact (other row early).1
    · obtain rfl | later := List.mem_cons.mp late
      · exact capEffLine_plain capEff rfl (by decide)
      · exact single row later
  have whole : chomp (capEffLine capEff) = capEffLine capEff :=
    chomp_of_not_mem (capEffLine_plain capEff rfl (by decide))
  have marked : "CapEff:".toList.isPrefixOf (capEffLine capEff) = true :=
    List.isPrefixOf_iff_prefix.mpr (List.prefix_append _ _)
  have unmarked : (before.map chomp).find? (fun line => "CapEff:".toList.isPrefixOf line) = none := by
    rw [List.find?_eq_none]
    intro row member
    obtain ⟨line, inside, rfl⟩ := List.mem_map.mp member
    rw [List.isPrefixOf_iff_prefix]
    exact fun starts => (other line inside).2 (starts.trans (chomp_prefix_line line))
  rw [lines_unlines _ rows, List.map_append, List.map_cons, List.find?_append, unmarked, whole, List.find?_cons_of_pos marked]
  rfl

theorem mask_testBit (n i : Nat) : (n &&& 1 <<< i != 0) = n.testBit i := by
  have masked (j : Nat) : (n &&& 1 <<< i).testBit j = (n.testBit j && decide (i = j)) := by
    rw [Nat.testBit_and, Nat.one_shiftLeft, Nat.testBit_two_pow]
  cases set : n.testBit i with
  | true =>
    rw [bne_iff_ne]
    intro zero
    have bit := masked i
    rw [zero, set] at bit
    simp at bit
  | false =>
    rw [bne_eq_false_iff_eq]
    apply Nat.eq_of_testBit_eq
    intro j
    rw [masked, Nat.zero_testBit]
    by_cases same : i = j
    · rw [← same, set, Bool.false_and]
    · rw [decide_eq_false same, Bool.and_false]

theorem hasRequiredCapabilities_iff {machine : Machine} {capEff : UInt64} (shows : ShowsCapabilities machine capEff) :
    hasRequiredCapabilities machine = true ↔ Privileged capEff := by
  obtain ⟨before, after, other, single, status⟩ := shows
  have value : parseU64Hex (lowerHexadecimal 16 capEff.toNat) = some capEff.toNat := parseU64Hex_lower capEff.toNat_lt
  have word : (splitWhitespace (capEffLine capEff))[1]? = some (lowerHexadecimal 16 capEff.toNat) := by
    rw [splitWhitespace_capEffLine]
    rfl
  rw [hasRequiredCapabilities, status]
  dsimp only
  rw [find_capEffLine other single, Option.bind_some, word]
  dsimp only
  rw [value]
  dsimp only
  rw [capNetAdmin, capNetRaw, mask_testBit, mask_testBit, Bool.and_eq_true, Privileged]

/-- The program sets nft up and opens its window for root and for a process with both capabilities; for
anyone else it ends with code 1 before it has touched the firewall. -/
theorem main_starts (machine : Machine) (capEff : UInt64) (shows : ShowsCapabilities machine capEff) (env : Env)
    (world : World) :
    main machine env world =
      if machine.euid = 0 ∨ Privileged capEff then .ok (.launch env world) else .error 1 := by
  have required := hasRequiredCapabilities_iff shows
  rw [main, ensurePrivilegesOrExit]
  simp only [Bool.or_eq_true, decide_eq_true_eq, required]
  split <;> rfl

/-- A process without root, with the capabilities that the program asks for. -/
def capableMachine : Machine where
  euid := 1000
  read path :=
    if path = "/proc/self/status".toList then
      some (unlines ["Name:\tnetmon".toList, capEffLine 0x3000, "Seccomp:\t0".toList])
    else if path = "/etc/passwd".toList then some (passwdText sampleHost.passwd)
    else none
  var name := if name = "SUDO_USER".toList then some "ada".toList else none

theorem capableMachine_shows : ShowsCapabilities capableMachine 0x3000 :=
  ⟨["Name:\tnetmon".toList], ["Seccomp:\t0".toList], by decide, by decide, rfl⟩

theorem main_starts_capable :
    main capableMachine (quietHost 5) foreignWorld =
      if capableMachine.euid = 0 ∨ Privileged 0x3000 then .ok (.launch (quietHost 5) foreignWorld) else .error 1 :=
  main_starts capableMachine 0x3000 capableMachine_shows (quietHost 5) foreignWorld

theorem isLineOf_text (sudoUser : Text) (line : PasswdLine) :
    isLineOf sudoUser line.text = (line.account?.any fun account => account.name == sudoUser) := by
  cases line with
  | account account =>
    rw [isLineOf, account.splitOn_text]
    rfl
  | remark text short single =>
    have few := splitOn_remark short
    have short : ¬(text.splitOn ':').length ≥ 6 := by omega
    rw [isLineOf, PasswdLine.text, decide_eq_false short]
    rfl

theorem find_account (sudoUser : Text) (passwd : List PasswdLine) :
    (((passwd.map PasswdLine.text).find? (isLineOf sudoUser)).map fun line => (line.splitOn ':').getD 5 []) =
      ((accounts passwd).find? fun account => account.name == sudoUser).map Account.home := by
  induction passwd with
  | nil => rfl
  | cons line passwd ih =>
    rw [List.map_cons, List.find?_cons, isLineOf_text]
    cases line with
    | remark text short single => exact ih
    | account account =>
      have listed : accounts (.account account :: passwd) = account :: accounts passwd := rfl
      rw [listed, List.find?_cons]
      cases own : account.name == sudoUser with
      | true =>
        simp only [PasswdLine.account?, Option.any_some, own, Option.map_some, account.splitOn_text]
        rfl
      | false =>
        simp only [PasswdLine.account?, Option.any_some, own]
        exact ih

/-- Files go to the home of the first account with the name of the user that called sudo, and else to
the home of the environment. -/
theorem getUserHome_passwd (machine : Machine) (passwd : List PasswdLine)
    (shows : machine.read "/etc/passwd".toList = some (passwdText passwd)) :
    getUserHome machine =
      (((machine.var "SUDO_USER".toList).bind fun sudoUser =>
        (accounts passwd).find? fun account => account.name == sudoUser).map Account.home).getD
          ((machine.var "HOME".toList).getD "/tmp".toList) := by
  rw [getUserHome, shows]
  cases machine.var "SUDO_USER".toList with
  | none => rfl
  | some sudoUser =>
    have found := find_account sudoUser passwd
    rw [← lines_passwdText] at found
    rw [Option.bind_some, ← found]
    change (((lines (passwdText passwd)).find? (isLineOf sudoUser)).bind fun line =>
      some ((line.splitOn ':').getD 5 [])).getD _ = _
    cases (lines (passwdText passwd)).find? (isLineOf sudoUser) <;> rfl

theorem getUserHome_passwd_ada :
    getUserHome capableMachine =
      (((capableMachine.var "SUDO_USER".toList).bind fun sudoUser =>
        (accounts sampleHost.passwd).find? fun account => account.name == sudoUser).map Account.home).getD
          ((capableMachine.var "HOME".toList).getD "/tmp".toList) :=
  getUserHome_passwd capableMachine sampleHost.passwd rfl

end Netmon.Gui
