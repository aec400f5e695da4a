import Netmon.Controller.Throughput
import Netmon.Gui.BlockedSet

/-! The rate limit that the user types in, in kbit/s, and the rate that the rules inserted
for it enforce. -/
namespace Netmon.Gui
open Library Controller

structure LimitApp extends App where
  rateLimitKbpsInput : Text

def LimitApp.rateKbps (app : LimitApp) : Option UInt32 :=
  match parseU32 (trim app.rateLimitKbpsInput) with
  | some value => if value > 0 then some (UInt32.ofNat value) else none
  | none => none

def LimitApp.limitBandwidth (nft : Listing) (env : Env) (pid : Nat) (name : Text) (app : LimitApp) : LimitApp :=
  match app.rateKbps with
  | none => { app with status := "Enter a positive kbit/s value before limiting bandwidth".toList }
  | some rateKbps =>
    match rateLimitProcess nft env pid rateKbps app.world with
    | .ok _ world =>
      { app with
        world
        status := "Rate-limited ".toList ++ pidLabel name pid ++ " to ".toList ++ decimal rateKbps.toNat ++
          " kbit/s".toList }
    | .error error world =>
      { app with world, status := "Rate limit failed for PID ".toList ++ decimal pid ++ ": ".toList ++ error }

section Action
variable (nft : Listing) (env : Env) (pid : Nat) (name : Text) {app : LimitApp}

theorem limitBandwidth_world {rateKbps : UInt32} (entered : app.rateKbps = some rateKbps) :
    (app.limitBandwidth nft env pid name).world = finalState (rateLimitProcess nft env pid rateKbps) app.world := by
  unfold LimitApp.limitBandwidth finalState
  simp only [entered]
  cases ended : rateLimitProcess nft env pid rateKbps app.world with
  | ok value world => rfl
  | error error world => rfl

theorem rateKbps_of_typed {n : Nat} (typed : parseU32 (trim app.rateLimitKbpsInput) = some n) (positive : 0 < n) :
    ∃ rateKbps, app.rateKbps = some rateKbps ∧ rateKbps.toNat = n := by
  refine ⟨UInt32.ofNat n, ?_, ?_⟩
  · rw [LimitApp.rateKbps, typed]
    exact if_pos positive
  · have small : n ≤ 2^32 - 1 := fromStrRadix_le typed
    rw [UInt32.toNat_ofNat']
    exact Nat.mod_eq_of_lt (by omega)

end Action

/-- A kilobit has 1000 bits. -/
def kbitBits : Nat := 1000

/-- The rules let through no more than the limit of the traffic on the ports found for the process. -/
def Enforces (env : Env) (pid : Nat) (kbits : Nat) (rules : List Rule) : Prop :=
  ∀ offered : List Stream,
    (∀ stream ∈ offered, stream.OnPorts (collectPidPorts env.read pid tcpFiles) (collectPidPorts env.read pid udpFiles)) →
    passed offered rules ≤ kbits * kbitBits

theorem enforces_iff {env : Env} {pid kbits : Nat} {rules : List Rule} :
    Enforces env pid kbits rules ↔ kbits * kbitBits ∈
      upperBounds (Throughput (collectPidPorts env.read pid tcpFiles) (collectPidPorts env.read pid udpFiles) rules) := by
  constructor
  · rintro enforced _ ⟨offered, onPorts, rfl⟩
    exact enforced offered onPorts
  · intro bound offered onPorts
    exact bound ⟨offered, onPorts, rfl⟩

/-- One rule alone exceeds the limit already. -/
theorem kbytes_exceed {sets n : Nat} (positive : 0 < n) : sets * (n * kbyteBits) ≤ n * kbitBits ↔ sets = 0 := by
  constructor
  · intro bounded
    rcases sets with _ | sets
    · rfl
    · have whole : n * kbyteBits ≤ (sets + 1) * (n * kbyteBits) := Nat.le_mul_of_pos_left _ (Nat.succ_pos sets)
      have exceeds : n * kbitBits < n * kbyteBits := Nat.mul_lt_mul_of_pos_left (by decide) positive
      omega
  · rintro rfl
    rw [Nat.zero_mul]
    exact Nat.zero_le _

/-- The rules inserted for a limit of n kbit/s enforce it exactly when there were no ports to limit. -/
theorem rate_limit_enforced_iff (nft : Listing) (env : Env) (pid : Nat) (name : Text) (start : LimitApp) (n : Nat)
    (typed : parseU32 (trim start.rateLimitKbpsInput) = some n) (positive : 0 < n)
    (some : inserted start.world (start.limitBandwidth nft env pid name).world ≠ []) :
    Enforces env pid n (inserted start.world (start.limitBandwidth nft env pid name).world) ↔
      (collectPidPorts env.read pid tcpFiles).isEmpty = true ∧ (collectPidPorts env.read pid udpFiles).isEmpty = true := by
  obtain ⟨rateKbps, entered, rfl⟩ := rateKbps_of_typed typed positive
  rw [limitBandwidth_world nft env pid name entered] at some ⊢
  have most := rateLimitProcess_throughput nft env pid rateKbps start.world some
  rw [enforces_iff, ← isLUB_le_iff most.isLUB, kbytes_exceed positive, List.length_eq_zero_iff, asked_eq_nil]

def typedEight : LimitApp := ⟨startApp, " 8 ".toList⟩

/-- The app after 8 is entered for process 5. -/
def eightLimited : LimitApp := typedEight.limitBandwidth nftListing.toListing (quietHost 5) 5 "curl".toList

theorem eightLimited_outcome : eightLimited.status = "Rate-limited curl (PID 5) to 8 kbit/s".toList ∧
    (inserted typedEight.world eightLimited.world).filterMap Rule.spec =
      [⟨.sport .tcp [8080], some 8, rateLimitMarker 5⟩] := by
  decide +kernel

theorem rate_limit_enforced_iff_eight :
    Enforces (quietHost 5) 5 8 (inserted typedEight.world eightLimited.world) ↔
      (collectPidPorts (quietHost 5).read 5 tcpFiles).isEmpty = true ∧
        (collectPidPorts (quietHost 5).read 5 udpFiles).isEmpty = true := by
  have some : inserted typedEight.world eightLimited.world ≠ [] := by
    intro none
    have rules := eightLimited_outcome.2
    rw [none, List.filterMap_nil] at rules
    cases rules
  rw [eightLimited] at some ⊢
  exact rate_limit_enforced_iff nftListing.toListing (quietHost 5) 5 "curl".toList typedEight 8 (by decide) (by decide) some

/-- Of 100 000 bits a second that the process sends, the rule for 8 kbit/s lets 65 536 through. -/
theorem rate_limit_exceeded :
    eightLimited.status = "Rate-limited curl (PID 5) to 8 kbit/s".toList ∧
      ¬Enforces (quietHost 5) 5 8 (inserted typedEight.world eightLimited.world) := by
  refine ⟨eightLimited_outcome.1, fun enforced => ?_⟩
  have bounded := enforced [⟨⟨100, .tcp, false, 0, 1000, 8080⟩, 100000⟩] (by decide +kernel)
  rw [passed, eightLimited_outcome.2] at bounded
  revert bounded
  decide

end Netmon.Gui
