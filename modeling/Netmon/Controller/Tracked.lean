import Netmon.Controller.Interference

/-! Tracked handles stay handles of rules in the chain, as long as no call removes
a rule whose handle another key tracks as well. -/
namespace Netmon.Controller
open Library

def HandlesLive (world : World) : Prop :=
  ∀ key, ∀ handle ∈ world.trackedHandles key, handle ∈ world.ruleset.rules.map Rule.handle

section Live
variable (nft : PlainListing)

/-- Where nft carries out every command on an object that exists, no removal fails. -/
def RemovalsSucceed (world : World) : Prop :=
  ∀ env : Env, env.listBefore = .accepted → (∀ handle, env.reply (.deleteRule handle) = .accepted) →
    world.ruleset.chain = true → ∀ pid, returns (unblockProcess nft.toListing env pid) world = true ∧
      returns (removeRateLimitRulesForPid nft.toListing env pid) world = true

/-- No rule that a removal for the key aims at is tracked under another key. -/
structure Apart (key : Nat) (marker : Text) (world : World) : Prop where
  tracked : ∀ handle ∈ world.trackedHandles key, ∀ other ≠ key, handle ∉ world.trackedHandles other
  listed : world.trackedHandles key = [] → ∀ rule ∈ world.ruleset.rules, marker <:+: nft.line rule →
    ∀ other ≠ key, rule.handle ∉ world.trackedHandles other

/-- What a call must find: its rules are its own, and the name it lists them under has no line break. -/
def Exclusive (world : World) (call : Call) : Prop :=
  match call.op with
  | .block pid processName => '\n' ∉ processName ∧ Apart nft pid (pidMarker pid) world
  | .unblock pid => Apart nft pid (pidMarker pid) world
  | .rateLimit pid _ => Apart nft (rateLimitSentinel pid) (rateLimitMarker pid) world
  | .setup => True
  | .unblockAll => True

structure Live (world : World) : Prop where
  plain : ∀ rule ∈ world.ruleset.rules, rule.Plain
  live : HandlesLive world
  once : ∀ key, (world.trackedHandles key).Nodup

theorem Live.of_untouched {world : World} (untouched : world.Untouched) : Live world := by
  have nothing (key : Nat) : world.trackedHandles key = [] := by
    simp [World.trackedHandles, untouched.tracked]
  refine ⟨fun rule member => plain_of_owner (untouched.rules rule member), ?_, ?_⟩
  · intro key handle tracked
    simp [nothing key] at tracked
  · intro key
    simp [nothing key]

variable {nft} {start world : World} {key : Nat} {marker : Text}

theorem Live.same (before : Live start) (same : SameRules start world) : Live world := by
  refine ⟨same.rules ▸ before.plain, ?_, ?_⟩
  · intro key handle tracked
    rw [trackedHandles_congr same.tracked] at tracked
    rw [same.rules]
    exact before.live key handle tracked
  · intro key
    rw [trackedHandles_congr same.tracked]
    exact before.once key

theorem Apart.same (before : Apart nft key marker start) (same : SameRules start world) :
    Apart nft key marker world := by
  refine ⟨?_, ?_⟩
  · intro handle tracked other different
    rw [trackedHandles_congr same.tracked] at tracked ⊢
    exact before.tracked handle tracked other different
  · intro nothing rule member marked other different
    rw [trackedHandles_congr same.tracked] at nothing ⊢
    rw [same.rules] at member
    exact before.listed nothing rule member marked other different

theorem mem_searched (plain : ∀ rule ∈ world.ruleset.rules, rule.Plain) (marks : ruleCommentPrefix <+: marker)
    {handle : Nat} : handle ∈ searched nft.toListing marker world ↔
      ∃ rule ∈ world.ruleset.rules, marker <:+: nft.line rule ∧ rule.handle = handle := by
  rw [searched, markedHandles_plain nft marks _ plain]
  simp [and_assoc]

theorem searched_nodup (plain : ∀ rule ∈ world.ruleset.rules, rule.Plain) (marks : ruleCommentPrefix <+: marker) :
    (searched nft.toListing marker world).Nodup := by
  rw [searched, markedHandles_plain nft marks _ plain]
  exact world.ruleset.distinct.sublist (List.filter_sublist.map Rule.handle)

theorem targets_nodup (plain : ∀ rule ∈ world.ruleset.rules, rule.Plain) (marks : ruleCommentPrefix <+: marker)
    (once : (world.trackedHandles key).Nodup) : (targets nft.toListing key marker world).Nodup := by
  unfold targets
  split
  · exact searched_nodup plain marks
  · exact once

theorem Live.targets_live (before : Live world) (marks : ruleCommentPrefix <+: marker) {handle : Nat}
    (aimed : handle ∈ targets nft.toListing key marker world) : handle ∈ world.ruleset.rules.map Rule.handle := by
  unfold targets at aimed
  split at aimed
  · obtain ⟨rule, member, _, rfl⟩ := (mem_searched before.plain marks).mp aimed
    exact List.mem_map_of_mem member
  · exact before.live key handle aimed

theorem Apart.targets (apart : Apart nft key marker world) (before : Live world)
    (marks : ruleCommentPrefix <+: marker) {handle : Nat} (aimed : handle ∈ targets nft.toListing key marker world)
    {other : Nat} (different : other ≠ key) : handle ∉ world.trackedHandles other := by
  unfold Controller.targets at aimed
  split at aimed
  · rename_i nothing
    obtain ⟨rule, member, marked, rfl⟩ := (mem_searched before.plain marks).mp aimed
    exact apart.listed (List.isEmpty_iff.mp nothing) rule member marked other different
  · exact apart.tracked handle aimed other different

theorem Live.removed (before : Live world) {front : List Nat}
    (spared : ∀ handle ∈ front, ∀ other ≠ key, handle ∉ world.trackedHandles other) :
    Live (world.removed key front) := by
  refine ⟨fun rule member => before.plain rule (Ruleset.mem_without.mp member).1, ?_, ?_⟩
  · intro other handle tracked
    by_cases same : other = key
    · subst same
      simp at tracked
    · rw [trackedHandles_removed_ne same] at tracked
      obtain ⟨rule, member, rfl⟩ := List.mem_map.mp (before.live other handle tracked)
      have kept : rule.handle ∉ front := fun gone => spared rule.handle gone other same tracked
      exact List.mem_map_of_mem (Ruleset.mem_without.mpr ⟨member, kept⟩)
  · intro other
    by_cases same : other = key
    · subst same
      simp
    · rw [trackedHandles_removed_ne same]
      exact before.once other

theorem Live.appended (before : Live start) {purpose : Purpose} {comment : Text} {new : List Rule}
    (added : Appended purpose comment new start world) (single : '\n' ∉ comment) : Live world := by
  refine ⟨?_, ?_, ?_⟩
  · intro rule member
    rw [added.rules, List.mem_append] at member
    rcases member with old | recent
    · exact before.plain rule old
    · obtain ⟨spec, body, commented⟩ := added.body rule recent
      simpa [Rule.Plain, body, commented] using single
  · intro key handle tracked
    rw [trackedHandles_congr added.tracked] at tracked
    rw [added.rules, List.map_append]
    exact List.mem_append_left _ (before.live key handle tracked)
  · intro key
    rw [trackedHandles_congr added.tracked]
    exact before.once key

theorem Live.tracking (before : Live world) (marks : ruleCommentPrefix <+: marker) :
    Live (world.tracking key (searched nft.toListing marker world)) := by
  refine ⟨before.plain, ?_, ?_⟩
  · intro other handle tracked
    by_cases same : other = key
    · subst same
      rw [trackedHandles_tracking_same] at tracked
      obtain ⟨rule, member, _, rfl⟩ := (mem_searched before.plain marks).mp tracked
      exact List.mem_map_of_mem member
    · rw [trackedHandles_tracking_ne same] at tracked
      exact before.live other handle tracked
  · intro other
    by_cases same : other = key
    · subst same
      rw [trackedHandles_tracking_same]
      exact searched_nodup before.plain marks
    · rw [trackedHandles_tracking_ne same]
      exact before.once other

variable (nft)

theorem setupNftables_live (env : Env) (key : Nat) (marker : Text) :
    Keeps (fun world => Live world ∧ Apart nft key marker world) (setupNftables env) :=
  Triple.of_state fun start before => (setupNftables_spec env start).weaken (fun _ same => same)
    (fun _ _ same => ⟨before.1.same same, before.2.same same⟩) (fun _ _ same => ⟨before.1.same same, before.2.same same⟩)

theorem removeRules_live (env : Env) (marks : ruleCommentPrefix <+: marker) (reply : Reply) :
    Triple (fun world => Live world ∧ Apart nft key marker world)
      (removeRules env key (findHandles nft.toListing env reply marker)) (fun _ => Live) (fun _ => Live) := by
  refine Triple.of_state fun start before => ?_
  have removed (front : List Nat) (some : front <+: targets nft.toListing key marker start) :
      Live (start.removed key front) :=
    before.1.removed fun handle member other different =>
      before.2.targets before.1 marks (some.subset member) different
  refine (removeRules_removed nft.toListing env key reply marker start).weaken (fun _ same => same) ?_ ?_
  · rintro _ _ rfl
    exact removed _ (List.prefix_refl _)
  · rintro _ _ ⟨front, some, rfl⟩
    exact removed front some

theorem insertRules_live (env : Env) (purpose : Purpose) (pid : Nat) (marks : ruleCommentPrefix <+: marker)
    (limit : Option Nat) (bound : ∀ rateKbps ∈ limit, rateKbps < 2^64) {comment : Text} (single : '\n' ∉ comment)
    (closed : '"' ∉ comment) (reply : Reply) (noHandles : Text) :
    Keeps Live (insertRules env purpose key (portScript env pid limit comment)
      (findHandles nft.toListing env reply marker) noHandles) := by
  refine Triple.of_state fun start before => ?_
  have inserted (world : World) (done : Inserted env purpose (portScript env pid limit comment) start world) :
      Live world := by
    obtain ⟨_, new, _, _, added⟩ := done.specs closed bound
    exact before.appended added single
  refine (insertRules_spec nft.toListing env purpose key _ reply marker noHandles start).weaken
    (fun _ same => same) ?_ ?_
  · rintro _ _ ⟨middle, done, _, rfl⟩
    exact (inserted middle done).tracking marks
  · rintro _ world (⟨rfl, _⟩ | ⟨done, _⟩)
    · exact before
    · exact inserted world done

theorem blockProcess_live (env : Env) (pid : Nat) (processName : Text) (single : '\n' ∉ processName) :
    Triple (fun world => Live world ∧ Apart nft pid (pidMarker pid) world)
      (blockProcess nft.toListing env pid processName) (fun _ => Live) (fun _ => Live) := by
  refine Triple.bind (Triple.attempt (setupNftables_live nft env pid (pidMarker pid))) fun _ => ?_
  refine Triple.bind (Triple.attempt (removeRules_live nft env (pidMarker_marks pid) env.listBefore)) fun _ => ?_
  exact insertRules_live nft env (.block pid) pid (pidMarker_marks pid) none (by simp)
    (blockComment_single pid single) (blockComment_closed pid processName) env.listAfter _

theorem rateLimitProcess_live (env : Env) (pid : Nat) (rateKbps : UInt32) :
    Triple (fun world => Live world ∧ Apart nft (rateLimitSentinel pid) (rateLimitMarker pid) world)
      (rateLimitProcess nft.toListing env pid rateKbps) (fun _ => Live) (fun _ => Live) := by
  refine Triple.bind (Triple.attempt (setupNftables_live nft env _ (rateLimitMarker pid))) fun _ => ?_
  refine Triple.bind (removeRules_live nft env (rateLimitMarker_marks pid) env.listBefore) fun _ => ?_
  exact insertRules_live nft env (.rateLimit pid) pid (rateLimitMarker_marks pid) (some rateKbps.toNat) (toNat_bound rateKbps)
    (rateLimitMarker_single pid) (rateLimitMarker_closed pid) env.listAfter _

theorem step_live (world : World) (call : Call) (before : Live world) (exclusive : Exclusive nft world call) :
    Live (step nft.toListing world call) := by
  obtain ⟨op, env⟩ := call
  cases op with
  | setup => exact before.same (Triple.finalState (setupNftables_spec env world) world rfl)
  | block pid processName =>
    exact Triple.finalState (blockProcess_live nft env pid processName exclusive.1) world ⟨before, exclusive.2⟩
  | unblock pid =>
    exact Triple.finalState (removeRules_live nft env (pidMarker_marks pid) env.listBefore) world ⟨before, exclusive⟩
  | rateLimit pid rateKbps =>
    exact Triple.finalState (rateLimitProcess_live nft env pid rateKbps) world ⟨before, exclusive⟩
  | unblockAll =>
    have flushed : Keeps Live (unblockAll env) := Triple.of_state fun start kept =>
      (unblockAll_spec env start).weaken (fun _ same => same)
        (fun _ _ empty => Live.of_untouched ⟨by simp [empty.1], empty.2⟩) (fun _ _ same => same ▸ kept)
    exact Triple.finalState flushed world before

theorem Live.removes (before : Live world) (marks : ruleCommentPrefix <+: marker) (env : Env) (reply : Reply)
    (answers : reply = .accepted) (deletes : ∀ handle, env.reply (.deleteRule handle) = .accepted)
    (present : world.ruleset.chain = true) :
    returns (removeRules env key (findHandles nft.toListing env reply marker)) world = true := by
  have ends := removeRules_spec nft.toListing env key reply marker world world rfl
  unfold returns
  cases ended : removeRules env key (findHandles nft.toListing env reply marker) world with
  | ok => rfl
  | error error final =>
    rw [ended] at ends
    rcases ends with ⟨_, _, refused | absent⟩ | ⟨front, handle, back, split, _, refused | gone⟩
    · exact absurd answers refused
    · simp [present] at absent
    · exact absurd (deletes handle) refused
    · -- the handle is live, and it is not among those deleted before it
      have aimed : handle ∈ targets nft.toListing key marker world := by simp [split]
      obtain ⟨rule, member, rfl⟩ := List.mem_map.mp (before.targets_live marks aimed)
      have distinct : (targets nft.toListing key marker world).Nodup :=
        targets_nodup before.plain marks (before.once key)
      rw [split, List.nodup_append] at distinct
      have kept : rule.handle ∉ front := fun deleted => distinct.2.2 rule.handle deleted rule.handle (by simp) rfl
      exact absurd (List.mem_map_of_mem (Ruleset.mem_without.mpr ⟨member, kept⟩)) gone

/-- In a run of exclusive calls all tracked handles are live, and no removal fails on a rule that is gone. -/
theorem tracked_live (start : World) (untouched : start.Untouched) (calls : List Call)
    (exclusive : Meets (step nft.toListing) (Exclusive nft) start calls) :
    HandlesLive (run (step nft.toListing) start calls) ∧
      RemovalsSucceed nft (run (step nft.toListing) start calls) := by
  have after := run_invariant (step nft.toListing) (Exclusive nft) Live
    (fun world call before admitted => step_live nft world call before admitted) start calls
    (Live.of_untouched untouched) exclusive
  refine ⟨after.live, fun env answers deletes present pid => ⟨?_, ?_⟩⟩
  · exact after.removes nft (pidMarker_marks pid) env env.listBefore answers deletes present
  · exact after.removes nft (rateLimitMarker_marks pid) env env.listBefore answers deletes present

end Live

theorem tracked_live_curl :
    HandlesLive (run (step nftListing.toListing) foreignWorld
        [⟨.block 5 "curl".toList, quietHost 5⟩, ⟨.rateLimit 5 100, quietHost 5⟩]) ∧
      RemovalsSucceed nftListing (run (step nftListing.toListing) foreignWorld
        [⟨.block 5 "curl".toList, quietHost 5⟩, ⟨.rateLimit 5 100, quietHost 5⟩]) := by
  have nothing (key : Nat) : foreignWorld.trackedHandles key = [] := rfl
  have first : Apart nftListing 5 (pidMarker 5) foreignWorld :=
    ⟨by simp [nothing], by simp [nothing]⟩
  have second : (step nftListing.toListing foreignWorld
        ⟨.block 5 "curl".toList, quietHost 5⟩).trackedHandles (rateLimitSentinel 5) = [] ∧
      ∀ rule ∈ (step nftListing.toListing foreignWorld ⟨.block 5 "curl".toList, quietHost 5⟩).ruleset.rules,
        ¬rateLimitMarker 5 <:+: nftListing.line rule := by
    decide +kernel
  obtain ⟨untracked, unlisted⟩ := second
  exact tracked_live nftListing foreignWorld ⟨by decide, rfl⟩ _ ⟨⟨by decide, first⟩,
    ⟨fun handle member => absurd (untracked ▸ member) List.not_mem_nil,
      fun _ rule member marked => absurd marked (unlisted rule member)⟩, trivial⟩

/-- A block removes the rate-limit rule of its process, whose handle stays tracked:
the next rate limit fails. All calls before it succeed. -/
theorem block_leaves_stale_handle :
    returns (perform nftListing.toListing ⟨.rateLimit 5 100, quietHost 5⟩) emptyWorld = true ∧
      returns (perform nftListing.toListing ⟨.block 5 "curl".toList, quietHost 5⟩)
        (run (step nftListing.toListing) emptyWorld [⟨.rateLimit 5 100, quietHost 5⟩]) = true ∧
      (∃ handle ∈ (run (step nftListing.toListing) emptyWorld [⟨.rateLimit 5 100, quietHost 5⟩,
          ⟨.block 5 "curl".toList, quietHost 5⟩]).trackedHandles (rateLimitSentinel 5),
        handle ∉ (run (step nftListing.toListing) emptyWorld [⟨.rateLimit 5 100, quietHost 5⟩,
          ⟨.block 5 "curl".toList, quietHost 5⟩]).ruleset.rules.map Rule.handle) ∧
      returns (perform nftListing.toListing ⟨.rateLimit 5 200, quietHost 5⟩)
        (run (step nftListing.toListing) emptyWorld [⟨.rateLimit 5 100, quietHost 5⟩,
          ⟨.block 5 "curl".toList, quietHost 5⟩]) = false := by
  decide +kernel

end Netmon.Controller
