import Netmon.Library.Text
import Netmon.Network
import Mathlib.Data.List.Nodup

/-! The part of nftables that the controller drives: chain `output` of table
`inet filter`, whose rules are found again by handles that are never reused. -/
namespace Netmon.Controller
open Library

inductive Selector where
  | sport (protocol : Protocol) (ports : List UInt16)
  | skuid (uid : Nat)
deriving DecidableEq, Repr

/-- A drop rule, as a script of the controller writes it: its packets, the rate
in kbytes/second from which on it drops them, and its comment. -/
structure RuleSpec where
  selector : Selector
  limit : Option Nat
  comment : Text
deriving DecidableEq, Repr

/-- The call that inserted a rule. Nothing in the program reads it. -/
inductive Purpose where
  | block (pid : Nat)
  | rateLimit (pid : Nat)
deriving DecidableEq, Repr

def Purpose.pid : Purpose → Nat
  | .block pid => pid
  | .rateLimit pid => pid

inductive RuleBody where
  | netmon (purpose : Purpose) (spec : RuleSpec)
  /-- A rule of somebody else, with the line it is listed in. -/
  | foreign (text : Text) (single : '\n' ∉ text)
deriving DecidableEq, Repr

structure Rule where
  handle : Nat
  body : RuleBody
deriving DecidableEq, Repr

def Rule.isBlockOf (pid : Nat) (rule : Rule) : Bool :=
  match rule.body with
  | .netmon (.block owner) _ => owner == pid
  | _ => false

def Rule.owner (rule : Rule) : Option Nat :=
  match rule.body with
  | .netmon purpose _ => some purpose.pid
  | .foreign .. => none

def Rule.Plain (rule : Rule) : Prop :=
  match rule.body with
  | .netmon _ spec => '\n' ∉ spec.comment
  | .foreign .. => True

theorem Rule.owner_of_isBlockOf {rule : Rule} {pid : Nat} (block : rule.isBlockOf pid = true) :
    rule.owner = some pid := by
  obtain ⟨handle, body⟩ := rule
  cases body with
  | foreign text single => simp [Rule.isBlockOf] at block
  | netmon purpose spec =>
    cases purpose with
    | block owner => simpa [Rule.isBlockOf, Rule.owner, Purpose.pid] using block
    | rateLimit owner => simp [Rule.isBlockOf] at block

structure Ruleset where
  table : Bool
  chain : Bool
  rules : List Rule
  nextHandle : Nat
  rooted : chain = true → table = true
  empty : chain = false → rules = []
  fresh : ∀ rule ∈ rules, rule.handle < nextHandle
  distinct : (rules.map Rule.handle).Nodup
  wide : nextHandle ≤ 2^64

namespace Ruleset

def addTable (ruleset : Ruleset) : Ruleset :=
  { ruleset with table := true, rooted := fun _ => rfl }

def addChain (ruleset : Ruleset) : Option Ruleset :=
  if present : ruleset.table = true then
    some { ruleset with
      chain := true
      rooted := fun _ => present
      empty := fun absent => by simp at absent }
  else none

def addRule (gap : Nat → Nat) (body : RuleBody) (ruleset : Ruleset) : Option Ruleset :=
  if fits : ruleset.chain = true ∧ ruleset.nextHandle + gap ruleset.nextHandle < 2^64 then
    let handle := ruleset.nextHandle + gap ruleset.nextHandle
    some { ruleset with
      rules := ruleset.rules ++ [⟨handle, body⟩]
      nextHandle := handle + 1
      empty := fun absent => by simp [fits.1] at absent
      fresh := by
        intro rule member
        obtain old | rfl := by simpa using member
        · have := ruleset.fresh rule old
          omega
        · exact Nat.lt_succ_self _
      distinct := by
        rw [List.map_append, List.nodup_append]
        refine ⟨ruleset.distinct, by simp, ?_⟩
        intro old present new added same
        obtain ⟨rule, member, rfl⟩ := List.mem_map.mp present
        obtain rfl : new = handle := by simpa using added
        have := ruleset.fresh rule member
        omega
      wide := fits.2 }
  else none

def addRules (gap : Nat → Nat) (purpose : Purpose) (specs : List RuleSpec) (ruleset : Ruleset) : Option Ruleset :=
  specs.foldlM (fun ruleset spec => ruleset.addRule gap (.netmon purpose spec)) ruleset

def without (handles : List Nat) (ruleset : Ruleset) : Ruleset :=
  { ruleset with
    rules := ruleset.rules.filter fun rule => rule.handle ∉ handles
    empty := fun absent => by simp [ruleset.empty absent]
    fresh := fun rule member => ruleset.fresh rule (List.mem_filter.mp member).1
    distinct := ruleset.distinct.sublist (List.filter_sublist.map Rule.handle) }

def deleteRule (handle : Nat) (ruleset : Ruleset) : Option Ruleset :=
  if handle ∈ ruleset.rules.map Rule.handle then some (ruleset.without [handle]) else none

def flushChain (ruleset : Ruleset) : Option Ruleset :=
  if ruleset.chain = true then
    some { ruleset with
      rules := []
      empty := fun _ => rfl
      fresh := by simp
      distinct := List.nodup_nil }
  else none

theorem addRule_some {gap : Nat → Nat} {body : RuleBody} {before after : Ruleset}
    (added : before.addRule gap body = some after) :
    after.rules = before.rules ++ [⟨before.nextHandle + gap before.nextHandle, body⟩] ∧
      after.nextHandle = before.nextHandle + gap before.nextHandle + 1 := by
  unfold addRule at added
  split at added
  · cases added
    exact ⟨rfl, rfl⟩
  · cases added

theorem addRules_some {gap : Nat → Nat} {purpose : Purpose} {specs : List RuleSpec} {before after : Ruleset}
    (added : before.addRules gap purpose specs = some after) :
    ∃ new : List Rule, after.rules = before.rules ++ new ∧
      new.map Rule.body = specs.map (.netmon purpose) ∧
      (∀ rule ∈ new, before.nextHandle ≤ rule.handle) ∧ before.nextHandle ≤ after.nextHandle := by
  induction specs generalizing before with
  | nil =>
    cases added
    exact ⟨[], by simp⟩
  | cons spec specs ih =>
    simp only [addRules, List.foldlM_cons, Option.bind_eq_bind, Option.bind_eq_some_iff] at added
    obtain ⟨middle, first, rest⟩ := added
    obtain ⟨rules, next⟩ := addRule_some first
    obtain ⟨new, split, bodies, fresh, later⟩ := ih rest
    refine ⟨⟨before.nextHandle + gap before.nextHandle, .netmon purpose spec⟩ :: new, ?_, ?_, ?_, ?_⟩
    · rw [split, rules, List.append_assoc, List.singleton_append]
    · rw [List.map_cons, List.map_cons, bodies]
    · intro rule member
      rcases List.mem_cons.mp member with rfl | member
      · exact Nat.le_add_right _ _
      · have := fresh rule member
        omega
    · omega

@[simp] theorem without_rules (handles : List Nat) (ruleset : Ruleset) :
    (ruleset.without handles).rules = ruleset.rules.filter fun rule => rule.handle ∉ handles := rfl

@[simp] theorem without_nextHandle (handles : List Nat) (ruleset : Ruleset) :
    (ruleset.without handles).nextHandle = ruleset.nextHandle := rfl

theorem mem_without {handles : List Nat} {ruleset : Ruleset} {rule : Rule} :
    rule ∈ (ruleset.without handles).rules ↔ rule ∈ ruleset.rules ∧ rule.handle ∉ handles := by
  simp

theorem without_nil (ruleset : Ruleset) : ruleset.without [] = ruleset := by
  simp [without]

theorem without_without (first second : List Nat) (ruleset : Ruleset) :
    (ruleset.without first).without second = ruleset.without (first ++ second) := by
  simp only [without, List.filter_filter, Ruleset.mk.injEq, true_and, and_true]
  congr 1
  funext rule
  simp [Bool.and_comm]

theorem deleteRule_some {handle : Nat} {before after : Ruleset} (deleted : before.deleteRule handle = some after) :
    handle ∈ before.rules.map Rule.handle ∧ after = before.without [handle] := by
  unfold deleteRule at deleted
  split at deleted
  · rename_i present
    cases deleted
    exact ⟨present, rfl⟩
  · cases deleted

theorem flushChain_some {before after : Ruleset} (flushed : before.flushChain = some after) :
    after.rules = [] ∧ after.nextHandle = before.nextHandle := by
  unfold flushChain at flushed
  split at flushed
  · cases flushed
    exact ⟨rfl, rfl⟩
  · cases flushed

theorem addChain_some {before after : Ruleset} (added : before.addChain = some after) :
    after.rules = before.rules ∧ after.nextHandle = before.nextHandle := by
  unfold addChain at added
  split at added
  · cases added
    exact ⟨rfl, rfl⟩
  · cases added

theorem eq_of_handle {ruleset : Ruleset} {first second : Rule} (one : first ∈ ruleset.rules)
    (two : second ∈ ruleset.rules) (same : first.handle = second.handle) : first = second :=
  List.inj_on_of_nodup_map ruleset.distinct one two same

end Ruleset
end Netmon.Controller
