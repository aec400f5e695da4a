import Netmon.Controller.Policy
import Netmon.Gui.RateLimit
import Mathlib.Data.List.DropRight

/-! What a user does to the firewall, frame by frame: the buttons of the selected row, the
menu of a connection, and the dialog that confirms a block from that menu. The clicks fix the
calls, and the answers to the calls fix the chain and the set of blocked processes. -/
namespace Netmon.Gui
open Library Controller

/-! ### Frames -/

structure FirewallApp extends LimitApp where
  pendingBlock : Option (Nat × Text)

inductive Click where
  | typeLimit (text : Text)
  | blockProcess (env : Env) (pid : Nat) (name : Text)
  | blockUser (username : Text) (rows : List ProcessInfo) (envs : Nat → Env)
  | limitBandwidth (env : Env) (pid : Nat) (name : Text)
  /-- The menu of a connection only asks for a block. -/
  | requestBlock (pid : Nat) (processName : Text)
  | unblockProcess (env : Env) (pid : Nat)

/-- Clicks in the panels, and then those in the dialog, which is there while a block is pending. -/
structure UiFrame where
  clicks : List Click
  confirm : Option Env
  cancel : Bool

namespace FirewallApp
section Frames
variable (nft : Listing)

/-- `main` sets nft up and makes the app. -/
def launch (env : Env) (world : World) : FirewallApp where
  world := finalState (setupNftables env) world
  blockedPids := ∅
  status := "Ready".toList
  rateLimitKbpsInput := "1024".toList
  pendingBlock := none

def click (app : FirewallApp) : Click → FirewallApp
  | .typeLimit text => { app with rateLimitKbpsInput := text }
  | .blockProcess env pid name => { app with toApp := app.blockPid nft env pid name }
  | .blockUser username rows envs => { app with toApp := app.blockUser nft username rows envs }
  | .limitBandwidth env pid name => { app with toLimitApp := app.limitBandwidth nft env pid name }
  | .requestBlock pid processName => { app with pendingBlock := some (pid, processName) }
  | .unblockProcess env pid => { app with toApp := app.unblockPid nft env pid }

def renderBlockConfirmationDialog (confirm : Option Env) (cancel : Bool) (app : FirewallApp) : FirewallApp :=
  match app.pendingBlock with
  | none => app
  | some (pid, processName) =>
    let confirmed := match confirm with
      | some env => { app with toApp := app.blockPid nft env pid processName, pendingBlock := none }
      | none => app
    if cancel then { confirmed with pendingBlock := none } else confirmed

def update (app : FirewallApp) (frame : UiFrame) : FirewallApp :=
  (run (click nft) app frame.clicks).renderBlockConfirmationDialog nft frame.confirm frame.cancel

end Frames
end FirewallApp

/-! ### The calls of a frame -/

/-- All that decides which calls the clicks make. -/
structure Ui where
  rateLimitKbpsInput : Text
  pendingBlock : Option (Nat × Text)

def FirewallApp.ui (app : FirewallApp) : Ui := ⟨app.rateLimitKbpsInput, app.pendingBlock⟩

/-- Every process of the user is blocked once, by the name in its first row. -/
def userCalls (username : Text) (envs : Nat → Env) : Finset Nat → List ProcessInfo → List Call
  | _, [] => []
  | met, info :: rows =>
    if info.username ≠ username ∨ info.pid ∈ met then userCalls username envs met rows
    else ⟨.block info.pid info.name, envs info.pid⟩ :: userCalls username envs (insert info.pid met) rows

namespace Ui

def start : Ui := ⟨"1024".toList, none⟩

def rateKbps (ui : Ui) : Option UInt32 :=
  match parseU32 (trim ui.rateLimitKbpsInput) with
  | some value => if value > 0 then some (UInt32.ofNat value) else none
  | none => none

def click (ui : Ui) : Click → Ui
  | .typeLimit text => { ui with rateLimitKbpsInput := text }
  | .requestBlock pid processName => { ui with pendingBlock := some (pid, processName) }
  | _ => ui

def clickCalls (ui : Ui) : Click → List Call
  | .blockProcess env pid name => [⟨.block pid name, env⟩]
  | .blockUser username rows envs => userCalls username envs ∅ rows
  | .limitBandwidth env pid _ => ui.rateKbps.toList.map fun rateKbps => ⟨.rateLimit pid rateKbps, env⟩
  | .unblockProcess env pid => [⟨.unblock pid, env⟩]
  | .typeLimit _ => []
  | .requestBlock .. => []

def dialogCalls (ui : Ui) (confirm : Option Env) : List Call :=
  match ui.pendingBlock, confirm with
  | some (pid, processName), some env => [⟨.block pid processName, env⟩]
  | _, _ => []

def afterClicks (ui : Ui) (frame : UiFrame) : Ui := run click ui frame.clicks

end Ui

def UiFrame.answers (frame : UiFrame) : Bool := frame.confirm.isSome || frame.cancel

namespace Ui

def update (ui : Ui) (frame : UiFrame) : Ui :=
  { ui.afterClicks frame with pendingBlock := if frame.answers then none else (ui.afterClicks frame).pendingBlock }

def calls (ui : Ui) (frame : UiFrame) : List Call :=
  observed click clickCalls ui frame.clicks ++ (ui.afterClicks frame).dialogCalls frame.confirm

end Ui

def issued (ui : Ui) (frames : List UiFrame) : List Call := observed Ui.update Ui.calls ui frames

/-! ### What the calls do -/

/-- A process is shown as blocked from a block that returned until an unblock that returned. -/
def noteBlocked (blockedPids : Finset Nat) (outcome : Call × Bool) : Finset Nat :=
  match outcome.1.op with
  | .block pid _ => if outcome.2 then insert pid blockedPids else blockedPids
  | .unblock pid => if outcome.2 then blockedPids.erase pid else blockedPids
  | _ => blockedPids

structure Enacts (nft : PlainListing) (calls : List Call) (start final : App) : Prop where
  world : final.world = run (step nft.toListing) start.world calls
  blocked : final.blockedPids = run noteBlocked start.blockedPids (outcomes nft start.world calls)

section Enacts
variable {nft : PlainListing}

theorem Enacts.none {start final : App} (world : final.world = start.world)
    (blocked : final.blockedPids = start.blockedPids) : Enacts nft [] start final := ⟨world, blocked⟩

theorem Enacts.trans {start middle final : App} {first second : List Call} (one : Enacts nft first start middle)
    (two : Enacts nft second middle final) : Enacts nft (first ++ second) start final where
  world := by rw [run_append, ← one.world, two.world]
  blocked := by rw [outcomes, observed_append, run_append, ← one.world, ← outcomes, ← one.blocked, two.blocked, outcomes]

variable (nft)

theorem blockPid_enacts (env : Env) (pid : Nat) (name : Text) (app : App) :
    Enacts nft [⟨.block pid name, env⟩] app (app.blockPid nft.toListing env pid name) := by
  unfold App.blockPid
  cases ended : blockProcess nft.toListing env pid name app.world <;> refine ⟨?_, ?_⟩ <;>
    simp [step, finalState, outcomes, observed, noteBlocked, returns, perform, ended]

theorem unblockPid_enacts (env : Env) (pid : Nat) (app : App) :
    Enacts nft [⟨.unblock pid, env⟩] app (app.unblockPid nft.toListing env pid) := by
  unfold App.unblockPid
  cases ended : unblockProcess nft.toListing env pid app.world <;> refine ⟨?_, ?_⟩ <;>
    simp [step, finalState, outcomes, observed, noteBlocked, returns, perform, ended]

theorem row_blocks (username : Text) (envs : Nat → Env) (loop : UserBlock) (info : ProcessInfo)
    (chosen : ¬(info.username ≠ username ∨ info.pid ∈ loop.met)) :
    (UserBlock.row nft.toListing username envs loop info).met = insert info.pid loop.met ∧
      Enacts nft [⟨.block info.pid info.name, envs info.pid⟩] loop.app
        (UserBlock.row nft.toListing username envs loop info).app := by
  have block := blockPid_enacts nft (envs info.pid) info.pid info.name loop.app
  unfold App.blockPid at block
  rw [UserBlock.row, if_neg chosen]
  cases ended : blockProcess nft.toListing (envs info.pid) info.pid info.name loop.app.world <;>
    simp only [ended] at block <;> exact ⟨rfl, block.world, block.blocked⟩

theorem rows_enact (username : Text) (envs : Nat → Env) (rows : List ProcessInfo) (loop : UserBlock) :
    Enacts nft (userCalls username envs loop.met rows) loop.app
      (run (UserBlock.row nft.toListing username envs) loop rows).app := by
  induction rows generalizing loop with
  | nil => exact .none rfl rfl
  | cons info rows ih =>
    rw [userCalls, run_cons]
    split
    · rename_i passed
      have same : UserBlock.row nft.toListing username envs loop info = loop := by
        rw [UserBlock.row, if_pos passed]
      rw [same]
      exact ih loop
    · rename_i chosen
      obtain ⟨met, block⟩ := row_blocks nft username envs loop info chosen
      have rest := ih (UserBlock.row nft.toListing username envs loop info)
      rw [met] at rest
      exact block.trans rest

theorem limitBandwidth_enacts (env : Env) (pid : Nat) (name : Text) (app : FirewallApp) :
    Enacts nft (app.ui.clickCalls (.limitBandwidth env pid name)) app.toApp
      (app.limitBandwidth nft.toListing env pid name).toApp := by
  have entered : app.ui.rateKbps = app.rateKbps := rfl
  rw [Ui.clickCalls, entered, LimitApp.limitBandwidth]
  cases rate : app.rateKbps with
  | none => exact .none rfl rfl
  | some rateKbps =>
    simp only [Option.toList_some, List.map_cons, List.map_nil]
    cases ended : rateLimitProcess nft.toListing env pid rateKbps app.world <;> refine ⟨?_, ?_⟩ <;>
      simp [step, finalState, outcomes, observed, noteBlocked, perform, ended]

theorem limitBandwidth_input (nft : Listing) (env : Env) (pid : Nat) (name : Text) (app : LimitApp) :
    (app.limitBandwidth nft env pid name).rateLimitKbpsInput = app.rateLimitKbpsInput := by
  unfold LimitApp.limitBandwidth
  split
  · rfl
  · split <;> rfl

theorem click_enacts (app : FirewallApp) (click : Click) :
    Enacts nft (app.ui.clickCalls click) app.toApp (app.click nft.toListing click).toApp ∧
      (app.click nft.toListing click).ui = app.ui.click click := by
  cases click with
  | typeLimit text => exact ⟨.none rfl rfl, rfl⟩
  | blockProcess env pid name => exact ⟨blockPid_enacts nft env pid name app.toApp, rfl⟩
  | blockUser username rows envs =>
    have loop := rows_enact nft username envs rows ⟨app.toApp, ∅, [], []⟩
    exact ⟨⟨loop.world, loop.blocked⟩, rfl⟩
  | limitBandwidth env pid name =>
    refine ⟨limitBandwidth_enacts nft env pid name app, ?_⟩
    have input := limitBandwidth_input nft.toListing env pid name app.toLimitApp
    rw [FirewallApp.ui, FirewallApp.click, input]
    rfl
  | requestBlock pid processName => exact ⟨.none rfl rfl, rfl⟩
  | unblockProcess env pid => exact ⟨unblockPid_enacts nft env pid app.toApp, rfl⟩

theorem clicks_enact (clicks : List Click) (app : FirewallApp) :
    Enacts nft (observed Ui.click Ui.clickCalls app.ui clicks) app.toApp
        (run (FirewallApp.click nft.toListing) app clicks).toApp ∧
      (run (FirewallApp.click nft.toListing) app clicks).ui = run Ui.click app.ui clicks := by
  induction clicks generalizing app with
  | nil => exact ⟨.none rfl rfl, rfl⟩
  | cons click clicks ih =>
    obtain ⟨first, shown⟩ := click_enacts nft app click
    obtain ⟨later, ends⟩ := ih (app.click nft.toListing click)
    rw [shown] at later ends
    exact ⟨first.trans later, ends⟩

theorem dialog_enacts (confirm : Option Env) (cancel : Bool) (app : FirewallApp) :
    Enacts nft (app.ui.dialogCalls confirm) app.toApp
        (app.renderBlockConfirmationDialog nft.toListing confirm cancel).toApp ∧
      (app.renderBlockConfirmationDialog nft.toListing confirm cancel).ui =
        { app.ui with pendingBlock := if confirm.isSome || cancel then none else app.pendingBlock } := by
  have pending : app.ui.pendingBlock = app.pendingBlock := rfl
  unfold Ui.dialogCalls FirewallApp.renderBlockConfirmationDialog
  rw [pending]
  cases request : app.pendingBlock with
  | none =>
    have idle : app.ui = { app.ui with pendingBlock := none } := by rw [← request]; rfl
    refine ⟨.none rfl rfl, ?_⟩
    simpa using idle
  | some asked =>
    obtain ⟨pid, processName⟩ := asked
    cases confirm with
    | some env =>
      have block := blockPid_enacts nft env pid processName app.toApp
      cases cancel <;> exact ⟨⟨block.world, block.blocked⟩, rfl⟩
    | none =>
      have waiting : app.ui = { app.ui with pendingBlock := some (pid, processName) } := by rw [← request]; rfl
      cases cancel with
      | true => exact ⟨.none rfl rfl, rfl⟩
      | false => exact ⟨.none rfl rfl, waiting⟩

theorem update_enacts (app : FirewallApp) (frame : UiFrame) :
    Enacts nft (app.ui.calls frame) app.toApp (app.update nft.toListing frame).toApp ∧
      (app.update nft.toListing frame).ui = app.ui.update frame := by
  obtain ⟨clicked, shown⟩ := clicks_enact nft frame.clicks app
  obtain ⟨answered, closed⟩ := dialog_enacts nft frame.confirm frame.cancel
    (run (FirewallApp.click nft.toListing) app frame.clicks)
  rw [shown] at answered closed
  refine ⟨clicked.trans answered, closed.trans ?_⟩
  have pending : (run (FirewallApp.click nft.toListing) app frame.clicks).pendingBlock =
      (run Ui.click app.ui frame.clicks).pendingBlock := congrArg Ui.pendingBlock shown
  rw [pending]
  rfl

theorem frames_enact (frames : List UiFrame) (app : FirewallApp) :
    Enacts nft (issued app.ui frames) app.toApp (run (FirewallApp.update nft.toListing) app frames).toApp := by
  induction frames generalizing app with
  | nil => exact .none rfl rfl
  | cons frame frames ih =>
    obtain ⟨first, shown⟩ := update_enacts nft app frame
    have later := ih (app.update nft.toListing frame)
    rw [shown] at later
    exact first.trans later

end Enacts

/-! ### What the answers mean -/

section Outcomes
variable (pid : Nat)

/-- A call that blocks the process or lifts its block. -/
def concerns (outcome : Call × Bool) : Bool :=
  match outcome.1.op with
  | .block other _ => other == pid
  | .unblock other => other == pid
  | _ => false

def blocks (outcome : Call × Bool) : Bool :=
  match outcome.1.op with
  | .block other _ => other == pid
  | _ => false

/-- The last of these calls for the process returned. -/
def LastReturned (outcomes : List (Call × Bool)) : Prop :=
  ∀ outcome ∈ (outcomes.filter (concerns pid)).getLast?, outcome.2 = true

def flushes (outcome : Call × Bool) : Bool :=
  match outcome.1.op with
  | .unblockAll => true
  | _ => false

def Enters (policy : Policy) : Prop := ∃ specs, (Purpose.block pid, specs) ∈ policy.entries

variable {pid}

theorem mem_noteBlocked (blockedPids : Finset Nat) (outcome : Call × Bool) :
    pid ∈ noteBlocked blockedPids outcome ↔
      if outcome.2 && concerns pid outcome then blocks pid outcome = true else pid ∈ blockedPids := by
  obtain ⟨⟨op, env⟩, returned⟩ := outcome
  cases returned <;> cases op <;> simp [noteBlocked, concerns, blocks] <;> grind

theorem shown_iff (outcomes : List (Call × Bool)) :
    pid ∈ run noteBlocked ∅ outcomes ↔
      ∃ outcome ∈ (outcomes.filter fun outcome => outcome.2 && concerns pid outcome).getLast?, blocks pid outcome = true := by
  induction outcomes using List.reverseRecOn with
  | nil => simp
  | append_singleton earlier last ih =>
    rw [run_append, run_cons, run_nil, mem_noteBlocked, List.filter_append]
    cases own : last.2 && concerns pid last with
    | true =>
      have final : ([last].filter fun outcome => outcome.2 && concerns pid outcome) = [last] := by
        rw [List.filter_singleton, own]
        rfl
      rw [final, if_pos rfl]
      simp
    | false =>
      have passed : ([last].filter fun outcome => outcome.2 && concerns pid outcome) = [] := by
        rw [List.filter_singleton, own]
        rfl
      rw [passed, List.append_nil, if_neg Bool.false_ne_true]
      exact ih

theorem enters_without (purpose : Purpose) (policy : Policy) :
    Enters pid (policy.without purpose) ↔ purpose ≠ .block pid ∧ Enters pid policy := by
  simp only [Enters, Policy.without, List.mem_filter, decide_eq_true_eq, exists_and_right]
  exact ⟨fun kept => ⟨Ne.symm kept.2, kept.1⟩, fun kept => ⟨kept.2, Ne.symm kept.1⟩⟩

theorem enters_put (purpose : Purpose) (specs : List RuleSpec) (policy : Policy) :
    Enters pid (policy.put purpose specs) ↔ purpose = .block pid ∨ Enters pid policy := by
  simp only [Enters, Policy.put, List.mem_append, List.mem_singleton, Prod.mk.injEq, exists_or]
  constructor
  · intro held
    obtain old | ⟨_, same, _⟩ := held
    · exact Or.inr old
    · exact Or.inl same.symm
  · intro held
    obtain same | old := held
    · exact Or.inr ⟨specs, same.symm, rfl⟩
    · exact Or.inl old

theorem enters_note (policy : Policy) {outcome : Call × Bool} (spared : flushes outcome = false) :
    Enters pid (policy.note outcome) ↔
      if concerns pid outcome then (outcome.2 && blocks pid outcome) = true else Enters pid policy := by
  obtain ⟨⟨op, env⟩, returned⟩ := outcome
  cases op with
  | unblockAll => cases spared
  | setup => rfl
  | block other name =>
    cases returned <;> by_cases same : other = pid <;>
      simp [Policy.note, enters_without, enters_put, concerns, blocks, same]
  | unblock other => by_cases same : other = pid <;> simp [Policy.note, enters_without, concerns, blocks, same]
  | rateLimit other rateKbps => cases returned <;> simp [Policy.note, enters_without, enters_put, concerns]

/-- A block is in force while it is shown, but for one that a later call of its process has lifted and
then failed to renew. -/
theorem enters_iff_shown {outcomes : List (Call × Bool)} (spared : ∀ outcome ∈ outcomes, flushes outcome = false)
    (policy : Policy) (blockedPids : Finset Nat) (agree : Enters pid policy ↔ pid ∈ blockedPids) :
    Enters pid (run Policy.note policy outcomes) ↔
      pid ∈ run noteBlocked blockedPids outcomes ∧ LastReturned pid outcomes := by
  induction outcomes using List.reverseRecOn with
  | nil => simpa [LastReturned] using agree
  | append_singleton earlier last ih =>
    have before := ih fun outcome member => spared outcome (List.mem_append_left _ member)
    have kept := spared last (List.mem_append_right _ (List.mem_singleton.mpr rfl))
    rw [run_append, run_append, run_cons, run_nil, run_cons, run_nil, enters_note _ kept, mem_noteBlocked, LastReturned,
      List.filter_append]
    by_cases own : concerns pid last = true
    · have final : (earlier.filter (concerns pid) ++ [last].filter (concerns pid)).getLast? = some last := by
        rw [List.filter_cons_of_pos own, List.filter_nil, List.getLast?_append_of_ne_nil _ (by simp)]
        rfl
      rw [final, if_pos own]
      cases returned : last.2 <;> simp [own, returned]
    · have passed : earlier.filter (concerns pid) ++ [last].filter (concerns pid) = earlier.filter (concerns pid) := by
        rw [List.filter_cons_of_neg own, List.filter_nil, List.append_nil]
      rw [passed, if_neg own, Bool.eq_false_of_not_eq_true own, Bool.and_false, if_neg Bool.false_ne_true]
      exact before

end Outcomes

/-! ### The chain behind the blocked set -/

section Chain
variable {nft : PlainListing}

theorem block_specs {world : World} (call : Call) {pid : Nat} {name : Text} (op : call.op = .block pid name)
    (lawful : call.op.Lawful) (returned : returns (perform nft.toListing call) world = true) :
    (processSpecs call.env.read pid none (blockComment pid name)).isSome = true := by
  obtain ⟨_, env⟩ := call
  subst op
  have entry : Entry (.block pid) pid (pidMarker pid) (blockComment pid name) := .block pid name lawful.2
  have asked : Triple (· = world) (blockProcess nft.toListing env pid name)
      (fun _ _ => (processSpecs env.read pid none (blockComment pid name)).isSome = true) (fun _ _ => True) := by
    refine Triple.bind (Triple.any _) fun _ => Triple.bind (Triple.any _) fun _ => Triple.of_state fun ready _ => ?_
    refine (insertRules_spec nft.toListing env (.block pid) pid _ env.listAfter (pidMarker pid) _ ready).weaken
      (fun _ same => same) ?_ (fun _ _ _ => trivial)
    intro _ _ inserted
    obtain ⟨middle, done, _⟩ := inserted
    obtain ⟨specs, _, meant, _⟩ := done.specs entry.closed (by simp)
    rw [meant]
    rfl
  have ended := Triple.outcome (fun answer _ => answer = true →
    (processSpecs env.read pid none (blockComment pid name)).isSome = true)
    (asked.weaken (fun _ same => same) (fun _ _ meant _ => meant) (fun _ _ _ never => absurd never Bool.false_ne_true))
  exact ended returned

/-- No block in force is without rules. -/
def Filled (policy : Policy) : Prop := ∀ pid specs, (Purpose.block pid, specs) ∈ policy.entries → specs ≠ []

theorem filled_without {policy : Policy} (filled : Filled policy) (purpose : Purpose) : Filled (policy.without purpose) :=
  fun pid specs member => filled pid specs (List.mem_of_mem_filter member)

theorem filled_put {policy : Policy} (filled : Filled policy) {purpose : Purpose} {specs : List RuleSpec}
    (some : ∀ pid, purpose = .block pid → specs ≠ []) : Filled (policy.put purpose specs) := by
  intro pid found member
  obtain old | new := List.mem_append.mp member
  · exact filled pid found old
  · obtain ⟨same, rfl⟩ := Prod.mk.inj (List.mem_singleton.mp new)
    exact some pid same.symm

theorem note_filled {policy : Policy} (filled : Filled policy) (world : World) (call : Call) (lawful : call.op.Lawful) :
    Filled (policy.note (call, returns (perform nft.toListing call) world)) := by
  obtain ⟨op, env⟩ := call
  cases op with
  | setup => exact filled
  | block pid name =>
    cases returned : returns (perform nft.toListing ⟨.block pid name, env⟩) world with
    | false => exact filled_without filled _
    | true =>
      apply filled_put (filled_without filled _)
      intro other _
      have meant := block_specs ⟨.block pid name, env⟩ rfl lawful returned
      obtain ⟨specs, found⟩ := Option.isSome_iff_exists.mp meant
      have entered : (processSpecs env.read pid none (blockComment pid name)).getD [] = specs := by rw [found]; rfl
      exact entered ▸ (processSpecs_some found).1
  | unblock pid => exact filled_without filled _
  | rateLimit pid rateKbps =>
    cases returned : returns (perform nft.toListing ⟨.rateLimit pid rateKbps, env⟩) world with
    | false => exact filled_without filled _
    | true =>
      apply filled_put (filled_without filled _)
      intro other limit
      cases limit
  | unblockAll =>
    cases returned : returns (perform nft.toListing ⟨.unblockAll, env⟩) world with
    | false => exact filled
    | true =>
      intro pid specs member
      exact absurd member List.not_mem_nil

theorem run_filled {policy : Policy} (filled : Filled policy) (world : World) {calls : List Call}
    (lawful : ∀ call ∈ calls, call.op.Lawful) : Filled (run Policy.note policy (outcomes nft world calls)) := by
  induction calls generalizing policy world with
  | nil => exact filled
  | cons call calls ih =>
    obtain ⟨first, later⟩ := List.forall_mem_cons.mp lawful
    exact ih (note_filled filled world call first) _ later

theorem isBlockOf_iff {pid : Nat} {rule : Rule} :
    rule.isBlockOf pid = true ↔ rule.body.purpose? = some (.block pid) := by
  obtain ⟨handle, body⟩ := rule
  cases body with
  | foreign text single => simp [Rule.isBlockOf, RuleBody.purpose?]
  | netmon purpose spec => cases purpose <;> simp [Rule.isBlockOf, RuleBody.purpose?]

theorem blocks_iff_enters {policy : Policy} {world : World} (realizes : Realizes nft policy world)
    (filled : Filled policy) (pid : Nat) : world.Blocks pid ↔ Enters pid policy := by
  have listed : world.Blocks pid ↔ ∃ body ∈ policy.bodies, body.purpose? = some (.block pid) := by
    rw [← realizes.bodies]
    simp [World.Blocks, isBlockOf_iff]
  rw [listed]
  constructor
  · intro found
    obtain ⟨body, member, purpose⟩ := found
    obtain foreign | entered := List.mem_append.mp member
    · rw [realizes.foreign body foreign] at purpose
      cases purpose
    · obtain ⟨entry, entries, rule⟩ := List.mem_flatMap.mp entered
      obtain ⟨spec, _, rfl⟩ := List.mem_map.mp rule
      have same : entry.1 = .block pid := Option.some.inj purpose
      exact ⟨entry.2, same ▸ entries⟩
  · intro entered
    obtain ⟨specs, entries⟩ := entered
    obtain ⟨spec, some⟩ := List.exists_mem_of_ne_nil specs (filled pid specs entries)
    refine ⟨.netmon (.block pid) spec, List.mem_append_right _ ?_, rfl⟩
    exact List.mem_flatMap.mpr ⟨_, entries, List.mem_map_of_mem some⟩

end Chain

/-! ### Sessions -/

theorem userCalls_spared {username : Text} {envs : Nat → Env} {met : Finset Nat} {rows : List ProcessInfo} {call : Call}
    (member : call ∈ userCalls username envs met rows) (returned : Bool) : flushes (call, returned) = false := by
  induction rows generalizing met with
  | nil => exact absurd member List.not_mem_nil
  | cons info rows ih =>
    rw [userCalls] at member
    split at member
    · exact ih member
    · obtain rfl | later := List.mem_cons.mp member
      · rfl
      · exact ih later

theorem clickCalls_spared {ui : Ui} {click : Click} {call : Call} (member : call ∈ ui.clickCalls click)
    (returned : Bool) : flushes (call, returned) = false := by
  cases click with
  | typeLimit text => exact absurd member List.not_mem_nil
  | blockProcess env pid name =>
    obtain rfl := List.mem_singleton.mp member
    rfl
  | blockUser username rows envs => exact userCalls_spared member returned
  | limitBandwidth env pid name =>
    obtain ⟨rateKbps, _, rfl⟩ := List.mem_map.mp member
    rfl
  | requestBlock pid processName => exact absurd member List.not_mem_nil
  | unblockProcess env pid =>
    obtain rfl := List.mem_singleton.mp member
    rfl

theorem dialogCalls_eq (ui : Ui) (confirm : Option Env) :
    ui.dialogCalls confirm = ui.pendingBlock.toList.flatMap fun asked =>
      confirm.toList.map fun env => ⟨.block asked.1 asked.2, env⟩ := by
  unfold Ui.dialogCalls
  cases ui.pendingBlock with
  | none => cases confirm <;> rfl
  | some asked => cases confirm <;> rfl

theorem issued_spared {ui : Ui} {frames : List UiFrame} {call : Call} (member : call ∈ issued ui frames)
    (returned : Bool) : flushes (call, returned) = false := by
  obtain ⟨ui, frame, _, seen⟩ := mem_observed _ member
  obtain clicked | answered := List.mem_append.mp seen
  · obtain ⟨ui, click, _, made⟩ := mem_observed _ clicked
    exact clickCalls_spared made returned
  · rw [dialogCalls_eq] at answered
    obtain ⟨asked, _, made⟩ := List.mem_flatMap.mp answered
    obtain ⟨env, _, rfl⟩ := List.mem_map.mp made
    rfl

def sessionCalls (env : Env) (frames : List UiFrame) : List Call := ⟨.setup, env⟩ :: issued .start frames

theorem session_enacts (nft : PlainListing) (env : Env) (world : World) (frames : List UiFrame) :
    Enacts nft (sessionCalls env frames) ⟨world, ∅, []⟩
      (run (FirewallApp.update nft.toListing) (.launch env world) frames).toApp := by
  have setup : Enacts nft [⟨.setup, env⟩] ⟨world, ∅, []⟩ (FirewallApp.launch env world).toApp := ⟨rfl, rfl⟩
  exact setup.trans (frames_enact nft frames (.launch env world))

/-- After any frames the chain is that of the policy, a process is shown as blocked by the last call to block
or unblock it that returned, and it really is while the last call returned at all. -/
theorem clicks_reach_chain (nft : PlainListing) (env : Env) (world : World) (untouched : world.Untouched)
    (frames : List UiFrame) (lawful : ∀ call ∈ sessionCalls env frames, call.op.Lawful ∧ Prompt call.env)
    (clear : Meets (step nft.toListing) (Clear nft) world (sessionCalls env frames)) :
    (run (FirewallApp.update nft.toListing) (.launch env world) frames).world.ruleset.rules.map Rule.body =
        (run Policy.note world.policy (outcomes nft world (sessionCalls env frames))).bodies ∧
      ∀ pid,
        (pid ∈ (run (FirewallApp.update nft.toListing) (.launch env world) frames).blockedPids ↔
          ∃ outcome ∈ ((outcomes nft world (sessionCalls env frames)).filter fun outcome =>
            outcome.2 && concerns pid outcome).getLast?, blocks pid outcome = true) ∧
        ((run (FirewallApp.update nft.toListing) (.launch env world) frames).world.Blocks pid ↔
          pid ∈ (run (FirewallApp.update nft.toListing) (.launch env world) frames).blockedPids ∧
            LastReturned pid (outcomes nft world (sessionCalls env frames))) := by
  have enacts := session_enacts nft env world frames
  have realizes := run_realizes (sessionCalls env frames) (.of_untouched untouched) lawful clear
  have filled : Filled (run Policy.note world.policy (outcomes nft world (sessionCalls env frames))) :=
    run_filled (fun pid specs member => absurd member List.not_mem_nil) world fun call member => (lawful call member).1
  rw [enacts.world, enacts.blocked]
  refine ⟨realizes.bodies, fun pid => ⟨shown_iff _, ?_⟩⟩
  rw [blocks_iff_enters realizes filled pid]
  apply enters_iff_shown
  · intro outcome member
    obtain ⟨state, call, made, seen⟩ := mem_observed _ member
    obtain rfl := List.mem_singleton.mp seen
    obtain rfl | issued := List.mem_cons.mp made
    · rfl
    · exact issued_spared issued _
  · simp [Enters, World.policy]

/-- Process 7 is limited and process 5 blocked from the menu, then ada's process is blocked, and a second block of 5
fails after it has exited. -/
def menuFrames : List UiFrame :=
  [⟨[.requestBlock 5 "curl".toList], none, false⟩,
    ⟨[.typeLimit "8".toList, .limitBandwidth (quietHost 7) 7 "wget".toList], some (quietHost 5), false⟩,
    ⟨[.blockUser "ada".toList [⟨9, "ping".toList, "ada".toList⟩] quietHost, .blockProcess exitedHost 5 "curl".toList],
      none, false⟩]

theorem exitedHost_prompt : Prompt exitedHost := ⟨rfl, fun _ => rfl⟩

theorem clicks_reach_chain_menu :
    (run (FirewallApp.update nftListing.toListing) (.launch (quietHost 5) foreignWorld)
        menuFrames).world.ruleset.rules.map Rule.body =
        (run Policy.note foreignWorld.policy
          (outcomes nftListing foreignWorld (sessionCalls (quietHost 5) menuFrames))).bodies := by
  have lawful : ∀ call ∈ sessionCalls (quietHost 5) menuFrames, call.op.Lawful ∧ Prompt call.env := by
    intro call member
    have made : sessionCalls (quietHost 5) menuFrames =
        [⟨.setup, quietHost 5⟩, ⟨.rateLimit 7 8, quietHost 7⟩, ⟨.block 5 "curl".toList, quietHost 5⟩,
          ⟨.block 9 "ping".toList, quietHost 9⟩, ⟨.block 5 "curl".toList, exitedHost⟩] := rfl
    rw [made] at member
    simp only [List.mem_cons, List.not_mem_nil, or_false] at member
    obtain rfl | rfl | rfl | rfl | rfl := member <;> simp [Op.Lawful, quietHost_prompt, exitedHost_prompt]
  exact (clicks_reach_chain nftListing (quietHost 5) foreignWorld ⟨by decide, rfl⟩ menuFrames lawful
    (by decide +kernel)).1

/-! ### The dialog -/

def Click.request? : Click → Option (Nat × Text)
  | .requestBlock pid processName => some (pid, processName)
  | _ => none

def UiFrame.requests (frame : UiFrame) : List (Nat × Text) := frame.clicks.filterMap Click.request?

def dialogIssued (ui : Ui) (frames : List UiFrame) : List Call :=
  observed Ui.update (fun ui frame => (ui.afterClicks frame).dialogCalls frame.confirm) ui frames

def target? (call : Call) : Option (Nat × Text) :=
  match call.op with
  | .block pid processName => some (pid, processName)
  | _ => none

theorem afterClicks_pending (ui : Ui) (frame : UiFrame) :
    (ui.afterClicks frame).pendingBlock = frame.requests.getLast?.or ui.pendingBlock := by
  rw [Ui.afterClicks, UiFrame.requests]
  induction frame.clicks using List.reverseRecOn with
  | nil => rfl
  | append_singleton earlier last ih =>
    rw [run_append, run_cons, run_nil, List.filterMap_append]
    cases last with
    | requestBlock pid processName => simp [Ui.click, Click.request?]
    | _ => simpa [Ui.click, Click.request?] using ih

theorem pending_eq (frames : List UiFrame) :
    (run Ui.update .start frames).pendingBlock =
      ((frames.rtakeWhile fun frame => !frame.answers).flatMap UiFrame.requests).getLast? := by
  induction frames using List.reverseRecOn with
  | nil => rfl
  | append_singleton earlier last ih =>
    rw [run_append, run_cons, run_nil, List.rtakeWhile_concat, Ui.update, afterClicks_pending, ih]
    cases last.answers with
    | true => rfl
    | false => simp [List.getLast?_append]

theorem dialogCalls_targets (ui : Ui) (confirm : Option Env) :
    (ui.dialogCalls confirm).filterMap target? = if confirm.isSome then ui.pendingBlock.toList else [] := by
  rw [dialogCalls_eq]
  cases ui.pendingBlock <;> cases confirm <;> rfl

theorem dialogIssued_requested (ui : Ui) (frames : List UiFrame) :
    ((dialogIssued ui frames).filterMap target?).Sublist (ui.pendingBlock.toList ++ frames.flatMap UiFrame.requests) := by
  induction frames generalizing ui with
  | nil => exact List.nil_sublist _
  | cons frame frames ih =>
    have later := ih (ui.update frame)
    have last : (ui.afterClicks frame).pendingBlock.toList.Sublist (ui.pendingBlock.toList ++ frame.requests) := by
      rw [afterClicks_pending]
      cases request : frame.requests.getLast? with
      | none => exact List.sublist_append_left _ _
      | some asked =>
        have among : [asked].Sublist frame.requests := List.singleton_sublist.mpr (List.mem_of_getLast? request)
        exact among.trans (List.sublist_append_right _ _)
    rw [dialogIssued, observed, List.filterMap_append, dialogCalls_targets, List.flatMap_cons, ← List.append_assoc]
    rw [dialogIssued] at later
    cases confirm : frame.confirm with
    | some env =>
      -- the answer leaves nothing pending for the frames to come
      have closed : (ui.update frame).pendingBlock = none := by simp [Ui.update, UiFrame.answers, confirm]
      rw [closed] at later
      exact last.append later
    | none =>
      have kept : (ui.update frame).pendingBlock.toList.Sublist (ui.afterClicks frame).pendingBlock.toList := by
        rw [Ui.update]
        cases frame.answers with
        | true => exact List.nil_sublist _
        | false => exact List.Sublist.refl _
      exact later.trans ((kept.trans last).append_right _)

theorem frames_ui (nft : PlainListing) (frames : List UiFrame) (app : FirewallApp) :
    (run (FirewallApp.update nft.toListing) app frames).ui = run Ui.update app.ui frames := by
  induction frames generalizing app with
  | nil => rfl
  | cons frame frames ih => rw [run_cons, run_cons, ih, (update_enacts nft app frame).2]

/-- In every frame the dialog is about the last request since it was last answered, and no request is
carried out twice. -/
theorem dialog_confirms_requests (nft : PlainListing) (env : Env) (world : World) (earlier : List UiFrame)
    (frame : UiFrame) :
    (run (FirewallApp.click nft.toListing) (run (FirewallApp.update nft.toListing) (.launch env world) earlier)
        frame.clicks).pendingBlock =
        ((earlier.rtakeWhile fun frame => !frame.answers).flatMap UiFrame.requests ++ frame.requests).getLast? ∧
      ((dialogIssued .start (earlier ++ [frame])).filterMap target?).Sublist
        ((earlier ++ [frame]).flatMap UiFrame.requests) := by
  refine ⟨?_, dialogIssued_requested .start (earlier ++ [frame])⟩
  have shown := (clicks_enact nft frame.clicks (run (FirewallApp.update nft.toListing) (.launch env world) earlier)).2
  rw [frames_ui] at shown
  have pending := afterClicks_pending (run Ui.update .start earlier) frame
  rw [pending_eq, ← List.getLast?_append] at pending
  exact (congrArg Ui.pendingBlock shown).trans pending

end Netmon.Gui
