import Netmon.Controller.Effects

/-! Sessions: runs of calls, each with its own answers of the host. A session
ends with `unblock_all`, when the application is dropped. -/
namespace Netmon.Controller
open Library

inductive Op where
  | setup
  | block (pid : Nat) (processName : Text)
  | unblock (pid : Nat)
  | rateLimit (pid : Nat) (rateKbps : UInt32)
  | unblockAll

structure Call where
  op : Op
  env : Env

section Sessions
variable (nft : Listing)

def perform (call : Call) : Ctl Unit :=
  match call.op with
  | .setup => setupNftables call.env
  | .block pid processName => blockProcess nft call.env pid processName
  | .unblock pid => unblockProcess nft call.env pid
  | .rateLimit pid rateKbps => rateLimitProcess nft call.env pid rateKbps
  | .unblockAll => unblockAll call.env

def step (world : World) (call : Call) : World := finalState (perform nft call) world

/-- A world that no call has touched: all rules are those of others. -/
structure World.Untouched (world : World) : Prop where
  rules : ∀ rule ∈ world.ruleset.rules, rule.owner = none
  tracked : world.rulesByPid = ∅

theorem unblockAll_spec (env : Env) (start : World) :
    Triple (· = start) (unblockAll env)
      (fun _ world => world.ruleset.rules = [] ∧ world.rulesByPid = ∅) (fun _ world => world = start) := by
  refine Triple.bind (m := fun _ world => world.ruleset.rules = []) ?_ fun _ => ?_
  · refine (runNftCommand_spec env .flushChain false start).weaken (fun _ same => same) ?_ ?_
    · rintro _ world (⟨_, ruleset, flushed, rfl⟩ | ⟨never, _⟩)
      · exact (Ruleset.flushChain_some flushed).1
      · cases never
    · exact fun _ _ undone => undone.1
  · rintro world empty
    exact ⟨empty, rfl⟩

end Sessions

/-- Nothing fails, and the network namespace of one process has a TCP socket at port 8080. -/
def quietHost (pid : Nat) : Env where
  read path :=
    if path = procPath pid "net/tcp".toList then
      some "  sl  local_address rem_address   st\n   0: 0100007F:1F90 00000000:0000 0A\n".toList
    else none
  reply _ := .accepted
  listBefore := .accepted
  listAfter := .accepted
  script := .accepted
  gap _ := 0
  complaint := []

def emptyRuleset : Ruleset where
  table := true
  chain := true
  rules := []
  nextHandle := 2
  rooted := by decide
  empty := by decide
  fresh _ member := absurd member List.not_mem_nil
  distinct := List.nodup_nil
  wide := by decide

def emptyWorld : World := ⟨emptyRuleset, ∅⟩

def foreignWorld : World :=
  ⟨{ emptyRuleset with
      rules := [⟨2, .foreign "tcp dport 22 accept".toList (by decide)⟩]
      nextHandle := 3
      empty := by simp [emptyRuleset]
      fresh := by simp
      distinct := by simp
      wide := by decide }, ∅⟩

/-- A session that flushes the chain at its end leaves the chain as it was
exactly when the chain had no rule to begin with. -/
theorem session_restores (nft : Listing) (start : World) (calls : List Call) (last : Env) (final : World)
    (dropped : unblockAll last (run (step nft) start calls) = .ok () final) :
    final.ruleset.rules = start.ruleset.rules ↔ start.ruleset.rules = [] := by
  have flushed := unblockAll_spec last (run (step nft) start calls) _ rfl
  rw [dropped] at flushed
  rw [flushed.1]
  exact eq_comm

theorem session_restores_emptyWorld :
    (finalState (unblockAll (quietHost 5)) (run (step nftListing.toListing) emptyWorld
      [⟨.block 5 "curl".toList, quietHost 5⟩])).ruleset.rules = emptyWorld.ruleset.rules ↔
      emptyWorld.ruleset.rules = [] :=
  session_restores nftListing.toListing emptyWorld [⟨.block 5 "curl".toList, quietHost 5⟩] (quietHost 5) _
    (eq_ok_of_returns (by decide +kernel))

/-- Every command of this session succeeds, and the rule of the administrator is gone. -/
theorem session_drops_foreign_rule :
    returns (perform nftListing.toListing ⟨.setup, quietHost 5⟩) foreignWorld = true ∧
    returns (unblockAll (quietHost 5)) (step nftListing.toListing foreignWorld ⟨.setup, quietHost 5⟩) = true ∧
    (finalState (unblockAll (quietHost 5)) (run (step nftListing.toListing) foreignWorld
      [⟨.setup, quietHost 5⟩])).ruleset.rules ≠ foreignWorld.ruleset.rules := by
  decide +kernel

end Netmon.Controller
