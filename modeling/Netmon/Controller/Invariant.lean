import Netmon.Controller.Session

/-! Invariants of whole sessions: what holds at first, and survives each of the few
things that a call does to the chain and to the tracked handles, holds after any run. -/
namespace Netmon.Controller
open Library

section Tracked
variable {key other : Nat} {handles : List Nat} {world : World}

@[simp] theorem trackedHandles_removed_same : (world.removed key handles).trackedHandles key = [] := by
  simp [World.trackedHandles, World.removed]

theorem trackedHandles_removed_ne (different : other ≠ key) :
    (world.removed key handles).trackedHandles other = world.trackedHandles other := by
  simp [World.trackedHandles, World.removed, AList.lookup_erase_ne different]

@[simp] theorem trackedHandles_tracking_same : (world.tracking key handles).trackedHandles key = handles := by
  simp [World.trackedHandles, World.tracking, Function.comp_def]

theorem trackedHandles_tracking_ne (different : other ≠ key) :
    (world.tracking key handles).trackedHandles other = world.trackedHandles other := by
  simp [World.trackedHandles, World.tracking, AList.lookup_insert_ne different]

@[simp] theorem tracking_ruleset : (world.tracking key handles).ruleset = world.ruleset := rfl

theorem trackedHandles_congr {start world : World} (same : world.rulesByPid = start.rulesByPid) (key : Nat) :
    world.trackedHandles key = start.trackedHandles key := by
  simp [World.trackedHandles, same]

end Tracked

theorem rateLimitSentinel_ge (pid : Nat) : 2^31 ≤ rateLimitSentinel pid := Nat.right_le_or

/-- The calls that Linux pids and one-line names allow. -/
def Op.Lawful : Op → Prop
  | .block pid processName => pid < 2^31 ∧ '\n' ∉ processName
  | .unblock pid => pid < 2^31
  | .rateLimit pid _ => pid < 2^31
  | .setup => True
  | .unblockAll => True

/-- What a call inserts, with the key it tracks it under and the marker it searches for it by. -/
inductive Entry : Purpose → Nat → Text → Text → Prop
  | block (pid : Nat) (processName : Text) (single : '\n' ∉ processName) :
      Entry (.block pid) pid (pidMarker pid) (blockComment pid processName)
  | rateLimit (pid : Nat) :
      Entry (.rateLimit pid) (rateLimitSentinel pid) (rateLimitMarker pid) (rateLimitMarker pid)

section Stable
variable (nft : Listing)

/-- A property of the world that no call can break. -/
structure Stable (invariant : World → Prop) : Prop where
  untouched : ∀ {world : World}, world.Untouched → invariant world
  same : ∀ {start world : World}, invariant start → SameRules start world → invariant world
  removed : ∀ {world : World} (key : Nat) (handles : List Nat), invariant world → invariant (world.removed key handles)
  appended : ∀ {purpose : Purpose} {key : Nat} {marker comment : Text} {new : List Rule} {start world : World},
    Entry purpose key marker comment → start.trackedHandles key = [] → Appended purpose comment new start world →
    invariant start → invariant world
  tracking : ∀ {purpose : Purpose} {key : Nat} {marker comment : Text} {world : World},
    Entry purpose key marker comment → invariant world →
    invariant (world.tracking key (searched nft marker world))

variable {nft} {invariant : World → Prop}

theorem Stable.setupNftables (stable : Stable nft invariant) (env : Env) : Keeps invariant (setupNftables env) :=
  Triple.of_state fun start before => (setupNftables_spec env start).weaken (fun _ same => same)
    (fun _ _ same => stable.same before same) (fun _ _ same => stable.same before same)

theorem Stable.removeRules (stable : Stable nft invariant) (env : Env) (key : Nat) (reply : Reply) (marker : Text) :
    Triple invariant (removeRules env key (findHandles nft env reply marker))
      (fun _ world => invariant world ∧ world.trackedHandles key = [])
      (fun _ world => invariant world ∧ world.trackedHandles key = []) := by
  refine Triple.of_state fun start before => ?_
  refine (removeRules_removed nft env key reply marker start).weaken (fun _ same => same) ?_ ?_
  · rintro _ _ rfl
    exact ⟨stable.removed key _ before, trackedHandles_removed_same⟩
  · rintro _ _ ⟨front, _, rfl⟩
    exact ⟨stable.removed key front before, trackedHandles_removed_same⟩

theorem Entry.closed {purpose : Purpose} {key : Nat} {marker comment : Text}
    (entry : Entry purpose key marker comment) : '"' ∉ comment := by
  cases entry with
  | block pid processName single => exact blockComment_closed _ processName
  | rateLimit pid => exact rateLimitMarker_closed pid

theorem Entry.single {purpose : Purpose} {key : Nat} {marker comment : Text}
    (entry : Entry purpose key marker comment) : '\n' ∉ comment := by
  cases entry with
  | block pid processName single => exact blockComment_single _ single
  | rateLimit pid => exact rateLimitMarker_single pid

theorem Stable.insertRules (stable : Stable nft invariant) (env : Env) {purpose : Purpose} {key : Nat}
    {marker comment : Text} (entry : Entry purpose key marker comment) (pid : Nat) (limit : Option Nat)
    (bound : ∀ rateKbps ∈ limit, rateKbps < 2^64) (reply : Reply) (noHandles : Text) :
    Triple (fun world => invariant world ∧ world.trackedHandles key = [])
      (insertRules env purpose key (portScript env pid limit comment) (findHandles nft env reply marker) noHandles)
      (fun _ => invariant) (fun _ => invariant) := by
  refine Triple.of_state fun start before => ?_
  have inserted (world : World) (done : Inserted env purpose (portScript env pid limit comment) start world) :
      invariant world := by
    obtain ⟨_, new, _, _, added⟩ := done.specs entry.closed bound
    exact stable.appended entry before.2 added before.1
  refine (insertRules_spec nft env purpose key _ reply marker noHandles start).weaken (fun _ same => same) ?_ ?_
  · rintro _ _ ⟨middle, done, _, rfl⟩
    exact stable.tracking entry (inserted middle done)
  · rintro _ world (⟨rfl, _⟩ | ⟨done, _⟩)
    · exact before.1
    · exact inserted world done

theorem toNat_bound (rateKbps : UInt32) : ∀ rate ∈ some rateKbps.toNat, rate < 2^64 := by
  rintro rate same
  cases same
  have := rateKbps.toNat_lt
  omega

theorem Stable.step (stable : Stable nft invariant) (world : World) (call : Call) (before : invariant world)
    (lawful : call.op.Lawful) : invariant (Controller.step nft world call) := by
  have keeps : Keeps invariant (perform nft call) := by
    obtain ⟨op, env⟩ := call
    cases op with
    | setup => exact stable.setupNftables env
    | block pid processName =>
      refine Triple.bind (Triple.attempt (stable.setupNftables env)) fun _ => ?_
      refine Triple.bind (Triple.attempt (stable.removeRules env pid env.listBefore (pidMarker pid))) fun _ => ?_
      exact stable.insertRules env (.block pid processName lawful.2) pid none (by simp) env.listAfter _
    | unblock pid =>
      exact (stable.removeRules env pid env.listBefore (pidMarker pid)).weaken (fun _ before => before)
        (fun _ _ after => after.1) (fun _ _ after => after.1)
    | rateLimit pid rateKbps =>
      have removal := stable.removeRules env (rateLimitSentinel pid) env.listBefore (rateLimitMarker pid)
      refine Triple.bind (Triple.attempt (stable.setupNftables env)) fun _ => ?_
      refine Triple.bind (removal.weaken (fun _ before => before) (fun _ _ after => after) fun _ _ after => after.1)
        fun _ => ?_
      exact stable.insertRules env (.rateLimit pid) pid (some rateKbps.toNat) (toNat_bound rateKbps) env.listAfter _
    | unblockAll =>
      refine Triple.of_state fun start kept => (unblockAll_spec env start).weaken (fun _ same => same) ?_ ?_
      · rintro _ world ⟨empty, tracked⟩
        exact stable.untouched ⟨by simp [empty], tracked⟩
      · rintro _ _ rfl
        exact kept
  exact Triple.finalState keeps world before

theorem Stable.run (stable : Stable nft invariant) {start : World} (untouched : start.Untouched) (calls : List Call)
    (lawful : ∀ call ∈ calls, call.op.Lawful) : invariant (run (Controller.step nft) start calls) :=
  run_invariant (Controller.step nft) (fun _ call => call.op.Lawful) invariant
    (fun world call before admitted => stable.step world call before admitted) start calls
    (stable.untouched untouched) (meets_of_forall (Controller.step nft) (fun call => call.op.Lawful) start calls lawful)

end Stable
end Netmon.Controller
