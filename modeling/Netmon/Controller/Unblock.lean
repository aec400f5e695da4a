import Netmon.Controller.Invariant

/-! Unblocking is complete: handles that are tracked for a process cover all its
block rules in the chain, through every partial failure of every call. -/
namespace Netmon.Controller
open Library

section Coverage
variable (nft : Listing)

/-- A search for a process finds all its block rules. -/
structure Listed (world : World) : Prop where
  plain : ∀ rule ∈ world.ruleset.rules, rule.Plain
  marked : ∀ rule ∈ world.ruleset.rules, ∀ pid, rule.isBlockOf pid = true → pidMarker pid <:+: nft.line rule

theorem isBlockOf_of_owner {rule : Rule} (foreign : rule.owner = none) (pid : Nat) : rule.isBlockOf pid = false := by
  cases block : rule.isBlockOf pid with
  | false => rfl
  | true => simp [Rule.owner_of_isBlockOf block] at foreign

theorem plain_of_owner {rule : Rule} (foreign : rule.owner = none) : rule.Plain := by
  obtain ⟨handle, body⟩ := rule
  cases body with
  | netmon purpose spec => cases foreign
  | foreign text single => trivial

theorem Listed.of_untouched {world : World} (untouched : world.Untouched) : Listed nft world where
  plain rule member := plain_of_owner (untouched.rules rule member)
  marked rule member pid block := by
    simp [isBlockOf_of_owner (untouched.rules rule member) pid] at block

variable {nft}

theorem Listed.same {start world : World} (before : Listed nft start) (same : SameRules start world) :
    Listed nft world :=
  ⟨same.rules ▸ before.plain, same.rules ▸ before.marked⟩

theorem Listed.removed {world : World} (before : Listed nft world) (key : Nat) (handles : List Nat) :
    Listed nft (world.removed key handles) where
  plain rule member := before.plain rule (Ruleset.mem_without.mp member).1
  marked rule member := before.marked rule (Ruleset.mem_without.mp member).1

theorem Appended.isBlockOf {start world : World} {purpose : Purpose} {comment : Text} {new : List Rule}
    (added : Appended purpose comment new start world) {rule : Rule} (member : rule ∈ new) (pid : Nat) :
    rule.isBlockOf pid = true ↔ purpose = .block pid := by
  obtain ⟨spec, body, _⟩ := added.body rule member
  cases purpose <;> simp [Rule.isBlockOf, body]

theorem Listed.appended {start world : World} (before : Listed nft start) {purpose : Purpose} {comment : Text}
    {new : List Rule} (added : Appended purpose comment new start world) (single : '\n' ∉ comment)
    (marks : ∀ pid, purpose = .block pid → pidMarker pid <:+: comment) : Listed nft world := by
  refine ⟨?_, ?_⟩
  · intro rule member
    rw [added.rules, List.mem_append] at member
    rcases member with old | recent
    · exact before.plain rule old
    · obtain ⟨spec, body, commented⟩ := added.body rule recent
      simpa [Rule.Plain, body, commented] using single
  · intro rule member pid block
    rw [added.rules, List.mem_append] at member
    rcases member with old | recent
    · exact before.marked rule old pid block
    · obtain ⟨spec, body, commented⟩ := added.body rule recent
      have listed := nft.line_comment rule.handle purpose spec
      rw [commented, ← body] at listed
      exact (marks pid ((added.isBlockOf recent pid).mp block)).trans listed

theorem Listed.searched {world : World} (before : Listed nft world) (pid : Nat) (rule : Rule)
    (member : rule ∈ world.ruleset.rules) (block : rule.isBlockOf pid = true) :
    rule.handle ∈ searched nft (pidMarker pid) world := by
  rw [Controller.searched, markedHandles_text nft _ _ before.plain]
  have found : rule ∈ world.ruleset.rules.filter fun rule => contains (nft.line rule) (pidMarker pid) :=
    List.mem_filter.mpr ⟨member, (contains_iff _ _).mpr (before.marked rule member pid block)⟩
  simp only [List.mem_append]
  exact Or.inl (Or.inr (List.mem_map_of_mem found))

variable (nft)

/-- Tracked handles of a process cover its block rules. -/
structure Covered (world : World) : Prop extends Listed nft world where
  covered : ∀ pid < 2^31, world.trackedHandles pid ≠ [] →
    ∀ rule ∈ world.ruleset.rules, rule.isBlockOf pid = true → rule.handle ∈ world.trackedHandles pid

theorem Covered.of_untouched {world : World} (untouched : world.Untouched) : Covered nft world where
  toListed := Listed.of_untouched nft untouched
  covered pid _ _ rule member block := by
    simp [isBlockOf_of_owner (untouched.rules rule member) pid] at block

variable {nft}

theorem Covered.same {start world : World} (before : Covered nft start) (same : SameRules start world) :
    Covered nft world where
  toListed := before.toListed.same same
  covered pid small := by
    rw [trackedHandles_congr same.tracked, same.rules]
    exact before.covered pid small

theorem Covered.removed {world : World} (before : Covered nft world) (key : Nat) (handles : List Nat) :
    Covered nft (world.removed key handles) where
  toListed := before.toListed.removed key handles
  covered pid small tracked rule member block := by
    by_cases same : pid = key
    · subst same
      simp at tracked
    · rw [trackedHandles_removed_ne same] at tracked ⊢
      exact before.covered pid small tracked rule (Ruleset.mem_without.mp member).1 block

theorem Covered.targets {world : World} (before : Covered nft world) {pid : Nat} (small : pid < 2^31) (rule : Rule)
    (member : rule ∈ world.ruleset.rules) (block : rule.isBlockOf pid = true) :
    rule.handle ∈ targets nft pid (pidMarker pid) world := by
  unfold Controller.targets
  split
  · exact before.searched pid rule member block
  · rename_i tracked
    exact before.covered pid small (by simpa using tracked) rule member block

theorem Covered.appended {start world : World} (before : Covered nft start) {purpose : Purpose} {comment : Text}
    {new : List Rule} (added : Appended purpose comment new start world) (single : '\n' ∉ comment)
    (marks : ∀ pid, purpose = .block pid → pidMarker pid <:+: comment ∧ start.trackedHandles pid = []) :
    Covered nft world where
  toListed := before.toListed.appended added single fun pid same => (marks pid same).1
  covered pid small tracked rule member block := by
    rw [trackedHandles_congr added.tracked] at tracked ⊢
    rw [added.rules, List.mem_append] at member
    rcases member with old | recent
    · exact before.covered pid small tracked rule old block
    · exact absurd (marks pid ((added.isBlockOf recent pid).mp block)).2 tracked

theorem Covered.tracking {world : World} (before : Covered nft world) (key : Nat)
    (handles : List Nat) (search : ∀ rule ∈ world.ruleset.rules, key < 2^31 → rule.isBlockOf key = true →
      rule.handle ∈ handles) : Covered nft (world.tracking key handles) where
  toListed := ⟨before.plain, before.marked⟩
  covered pid small tracked rule member block := by
    by_cases same : pid = key
    · subst same
      rw [trackedHandles_tracking_same]
      exact search rule member small block
    · rw [trackedHandles_tracking_ne same] at tracked ⊢
      exact before.covered pid small tracked rule member block

end Coverage

theorem covered_stable (nft : Listing) : Stable nft (Covered nft) where
  untouched := Covered.of_untouched nft
  same := Covered.same
  removed key handles before := before.removed key handles
  appended := by
    intro purpose key marker comment new start world entry untracked added before
    refine before.appended added entry.single ?_
    rintro owner rfl
    cases entry with
    | block pid processName single => exact ⟨(List.prefix_append _ _).isInfix, untracked⟩
  tracking := by
    intro purpose key marker comment world entry before
    refine before.tracking key _ fun rule member small block => ?_
    cases entry with
    | block pid processName single => exact before.searched _ rule member block
    | rateLimit pid =>
      have := rateLimitSentinel_ge pid
      omega

theorem run_covered (nft : Listing) (start : World) (untouched : start.Untouched) (calls : List Call)
    (lawful : ∀ call ∈ calls, call.op.Lawful) : Covered nft (run (step nft) start calls) :=
  (covered_stable nft).run untouched calls lawful

/-- Whenever an unblock returns, no block rule of its process is left in the chain. -/
theorem unblockProcess_complete (nft : Listing) (start : World) (untouched : start.Untouched) (calls : List Call)
    (lawful : ∀ call ∈ calls, call.op.Lawful) (env : Env) (pid : Nat) (small : pid < 2^31) (final : World)
    (returned : unblockProcess nft env pid (run (step nft) start calls) = .ok () final) :
    ∀ rule ∈ final.ruleset.rules, rule.isBlockOf pid = false := by
  have before := run_covered nft start untouched calls lawful
  have removed := removeRules_removed nft env pid env.listBefore (pidMarker pid) (run (step nft) start calls) _ rfl
  rw [unblockProcess, findRuleHandlesForPid] at returned
  rw [returned] at removed
  subst removed
  intro rule member
  obtain ⟨present, kept⟩ := Ruleset.mem_without.mp member
  cases block : rule.isBlockOf pid with
  | false => rfl
  | true => exact absurd (before.targets small rule present block) kept

theorem unblockProcess_complete_quietHost :
    returns (unblockProcess nftListing.toListing (quietHost 5) 5)
      (run (step nftListing.toListing) foreignWorld [⟨.block 5 "curl".toList, quietHost 5⟩]) = true ∧
    ∀ rule ∈ (finalState (unblockProcess nftListing.toListing (quietHost 5) 5)
      (run (step nftListing.toListing) foreignWorld [⟨.block 5 "curl".toList, quietHost 5⟩])).ruleset.rules,
      rule.isBlockOf 5 = false := by
  have returned : returns (unblockProcess nftListing.toListing (quietHost 5) 5)
      (run (step nftListing.toListing) foreignWorld [⟨.block 5 "curl".toList, quietHost 5⟩]) = true := by
    decide +kernel
  exact ⟨returned, unblockProcess_complete nftListing.toListing foreignWorld ⟨by decide, rfl⟩
    [⟨.block 5 "curl".toList, quietHost 5⟩] (by simp [Op.Lawful]) (quietHost 5) 5 (by decide) _
    (eq_ok_of_returns returned)⟩

end Netmon.Controller
