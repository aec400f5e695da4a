import Netmon.Controller.Blocking
import Mathlib.Data.Finset.Basic

/-! The set of blocked processes that the GUI shows, and the firewall behind it:
blocking one process, blocking all processes of a user, unblocking. -/
namespace Netmon.Gui
open Library Controller

structure ProcessInfo where
  pid : Nat
  name : Text
  username : Text

structure App where
  world : World
  blockedPids : Finset Nat
  status : Text

def pidLabel (name : Text) (pid : Nat) : Text := name ++ " (PID ".toList ++ decimal pid ++ ")".toList

section Actions
variable (nft : Listing)

def App.blockPid (env : Env) (pid : Nat) (name : Text) (app : App) : App :=
  match blockProcess nft env pid name app.world with
  | .ok _ world =>
    { world, blockedPids := insert pid app.blockedPids, status := "Blocked ".toList ++ pidLabel name pid }
  | .error error world =>
    { app with world, status := "Block failed for PID ".toList ++ decimal pid ++ ": ".toList ++ error }

def App.unblockPid (env : Env) (pid : Nat) (app : App) : App :=
  match unblockProcess nft env pid app.world with
  | .ok _ world =>
    { world, blockedPids := app.blockedPids.erase pid, status := "Unblocked PID ".toList ++ decimal pid }
  | .error error world =>
    { app with world, status := "Unblock failed for PID ".toList ++ decimal pid ++ ": ".toList ++ error }

/-- The loop state of `block_user`; its own `blocked_pids` are the pids met so far. -/
structure UserBlock where
  app : App
  met : Finset Nat
  blockedLabels : List Text
  errors : List Text

def UserBlock.row (username : Text) (envs : Nat → Env) (loop : UserBlock) (info : ProcessInfo) : UserBlock :=
  if info.username ≠ username ∨ info.pid ∈ loop.met then loop
  else
    let met := insert info.pid loop.met
    match blockProcess nft (envs info.pid) info.pid info.name loop.app.world with
    | .ok _ world =>
      { loop with
        app := { loop.app with world, blockedPids := insert info.pid loop.app.blockedPids }
        met
        blockedLabels := loop.blockedLabels ++ [pidLabel info.name info.pid] }
    | .error error world =>
      { loop with
        app := { loop.app with world }
        met
        errors := loop.errors ++ ["PID ".toList ++ decimal info.pid ++ ": ".toList ++ error] }

def userStatus (username : Text) (blockedLabels errors : List Text) : Text :=
  if !blockedLabels.isEmpty && errors.isEmpty then
    "Blocked user ".toList ++ username ++ ": ".toList ++ ", ".toList.intercalate blockedLabels
  else if !blockedLabels.isEmpty then
    "Blocked user ".toList ++ username ++ " with errors: ".toList ++ "; ".toList.intercalate errors
  else if errors.isEmpty then "No active processes found for user ".toList ++ username
  else "Failed to block user ".toList ++ username ++ ": ".toList ++ "; ".toList.intercalate errors

def App.blockUser (username : Text) (rows : List ProcessInfo) (envs : Nat → Env) (app : App) : App :=
  let loop := run (UserBlock.row nft username envs) ⟨app, ∅, [], []⟩ rows
  { loop.app with status := userStatus username loop.blockedLabels loop.errors }

inductive Action where
  | blockPid (env : Env) (pid : Nat) (name : Text)
  | blockUser (username : Text) (rows : List ProcessInfo) (envs : Nat → Env)
  | unblockPid (env : Env) (pid : Nat)

def App.act (app : App) : Action → App
  | .blockPid env pid name => app.blockPid nft env pid name
  | .blockUser username rows envs => app.blockUser nft username rows envs
  | .unblockPid env pid => app.unblockPid nft env pid

end Actions

section Agreement
variable (nft : PlainListing)

def App.Agrees (app : App) : Prop := ∀ pid, pid ∈ app.blockedPids ↔ app.world.Blocks pid

/-- Every block is regular, and a search of an unblock finds block rules of its process only. -/
def Admitted (app : App) : Action → Prop
  | .blockPid env pid name => Regular nft env pid name app.world
  | .unblockPid _ pid => app.world.trackedHandles pid = [] → OnlyBlocks nft pid app.world
  | .blockUser username rows envs =>
    Meets (UserBlock.row nft.toListing username envs) (fun loop info =>
      info.username = username → info.pid ∉ loop.met → Regular nft (envs info.pid) info.pid info.name loop.app.world)
      ⟨app, ∅, [], []⟩ rows

structure App.InStep (app : App) : Prop where
  exact : Exact nft app.world
  agrees : app.Agrees

variable {nft}

theorem blocked_step (env : Env) (pid : Nat) (name : Text) (app : App) (before : app.InStep nft)
    (regular : Regular nft env pid name app.world) : (app.blockPid nft.toListing env pid name).InStep nft := by
  have outcome := blockProcess_outcome env name before.exact regular app.world rfl
  unfold App.blockPid
  cases ended : blockProcess nft.toListing env pid name app.world with
  | ok value world =>
    rw [ended] at outcome
    obtain ⟨exact, elsewhere, blocks⟩ := outcome
    refine ⟨exact, fun other => ?_⟩
    by_cases same : other = pid
    · subst same
      simpa using blocks
    · simpa [same, elsewhere.blocks same] using before.agrees other
  | error error world =>
    rw [ended] at outcome
    obtain ⟨exact, elsewhere, kept⟩ := outcome
    refine ⟨exact, fun other => ?_⟩
    by_cases same : other = pid
    · subst same
      exact (before.agrees other).trans kept.symm
    · exact (before.agrees other).trans (elsewhere.blocks same).symm

theorem unblocked_step (env : Env) (pid : Nat) (app : App) (before : app.InStep nft)
    (only : app.world.trackedHandles pid = [] → OnlyBlocks nft pid app.world) :
    (app.unblockPid nft.toListing env pid).InStep nft := by
  have outcome := unblockProcess_outcome env before.exact only app.world rfl
  unfold App.unblockPid
  cases ended : unblockProcess nft.toListing env pid app.world with
  | ok value world =>
    rw [ended] at outcome
    obtain ⟨after, free, _⟩ := outcome
    refine ⟨after.exact, fun other => ?_⟩
    by_cases same : other = pid
    · subst same
      simpa using free
    · simpa [same, after.elsewhere.blocks same] using before.agrees other
  | error error world =>
    rw [ended] at outcome
    obtain ⟨after, left⟩ := outcome
    refine ⟨after.exact, fun other => (before.agrees other).trans ?_⟩
    by_cases same : other = pid
    · subst same
      refine ⟨left, ?_⟩
      rintro ⟨rule, member, block⟩
      exact ⟨rule, after.fewer rule member, block⟩
    · exact (after.elsewhere.blocks same).symm

theorem row_inStep (username : Text) (envs : Nat → Env) (loop : UserBlock) (info : ProcessInfo)
    (before : loop.app.InStep nft) (regular : info.username = username → info.pid ∉ loop.met →
      Regular nft (envs info.pid) info.pid info.name loop.app.world) :
    (UserBlock.row nft.toListing username envs loop info).app.InStep nft := by
  unfold UserBlock.row
  split
  · exact before
  · rename_i chosen
    rw [not_or, not_not] at chosen
    have step := blocked_step (envs info.pid) info.pid info.name loop.app before (regular chosen.1 chosen.2)
    unfold App.blockPid at step
    cases ended : blockProcess nft.toListing (envs info.pid) info.pid info.name loop.app.world with
    | ok value world =>
      simp only [ended] at step
      exact ⟨step.exact, step.agrees⟩
    | error error world =>
      simp only [ended] at step
      exact ⟨step.exact, step.agrees⟩

theorem act_inStep (app : App) (action : Action) (before : app.InStep nft) (admitted : Admitted nft app action) :
    (app.act nft.toListing action).InStep nft := by
  cases action with
  | blockPid env pid name => exact blocked_step env pid name app before admitted
  | unblockPid env pid => exact unblocked_step env pid app before admitted
  | blockUser username rows envs =>
    have loop := run_invariant (UserBlock.row nft.toListing username envs) _ (fun loop => loop.app.InStep nft)
      (fun loop info before regular => row_inStep username envs loop info before regular) ⟨app, ∅, [], []⟩ rows
      before admitted
    exact ⟨loop.exact, loop.agrees⟩

/-- In every run of admitted actions the blocked set agrees with the firewall. -/
theorem blockedPids_agree (nft : PlainListing) (start : App) (untouched : start.world.Untouched)
    (unblocked : start.blockedPids = ∅) (actions : List Action)
    (admitted : Meets (App.act nft.toListing) (Admitted nft) start actions) (pid : Nat) :
    pid ∈ (run (App.act nft.toListing) start actions).blockedPids ↔
      ∃ rule ∈ (run (App.act nft.toListing) start actions).world.ruleset.rules, rule.isBlockOf pid = true := by
  have initial : start.InStep nft := by
    refine ⟨Exact.of_untouched untouched, fun pid => ?_⟩
    rw [unblocked]
    refine iff_of_false (by simp) ?_
    rintro ⟨rule, member, block⟩
    simp [isBlockOf_of_owner (untouched.rules rule member) pid] at block
  exact (run_invariant (App.act nft.toListing) (Admitted nft) (App.InStep nft)
    (fun app action before admitted => act_inStep app action before admitted) start actions initial admitted).agrees pid

end Agreement
def startApp : App := ⟨emptyWorld, ∅, []⟩

theorem blockedPids_agree_curl :
    5 ∈ (run (App.act nftListing.toListing) startApp
        [.blockPid (quietHost 5) 5 "curl".toList, .unblockPid (quietHost 7) 7]).blockedPids ↔
      ∃ rule ∈ (run (App.act nftListing.toListing) startApp
        [.blockPid (quietHost 5) 5 "curl".toList, .unblockPid (quietHost 7) 7]).world.ruleset.rules,
        rule.isBlockOf 5 = true :=
  blockedPids_agree nftListing startApp ⟨by decide, rfl⟩ rfl
    [.blockPid (quietHost 5) 5 "curl".toList, .unblockPid (quietHost 7) 7]
    ⟨⟨by decide, by decide, fun _ blocks => absurd blocks (by decide), fun _ _ => rfl⟩,
      fun _ => by decide +kernel, trivial⟩ 5

def exitedHost : Env := { quietHost 5 with read := fun _ => none }

/-- Blocking a blocked process again after it has exited lifts the block, and the set still shows it. -/
theorem blockedPids_stale :
    5 ∈ (run (App.act nftListing.toListing) startApp
        [.blockPid (quietHost 5) 5 "curl".toList, .blockPid exitedHost 5 "curl".toList]).blockedPids ∧
      ¬∃ rule ∈ (run (App.act nftListing.toListing) startApp
        [.blockPid (quietHost 5) 5 "curl".toList, .blockPid exitedHost 5 "curl".toList]).world.ruleset.rules,
        rule.isBlockOf 5 = true := by
  decide +kernel

end Netmon.Gui
