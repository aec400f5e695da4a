import Netmon.Controller.Unblock

/-! Processes do not interfere: a call for one process leaves the rules of all
others in the chain, as long as no comment of theirs holds its marker. -/
namespace Netmon.Controller
open Library

theorem rateLimitSentinel_eq {pid : Nat} (small : pid < 2^31) : rateLimitSentinel pid = 2^31 + pid := by
  have sum := Nat.two_pow_add_eq_or_of_lt small 1
  rw [Nat.mul_one] at sum
  rw [sum, Nat.or_comm]
  rfl

def OwnsKey (pid key : Nat) : Prop := key = pid ∨ key = rateLimitSentinel pid

theorem OwnsKey.unique {first second key : Nat} (one : OwnsKey first key) (two : OwnsKey second key)
    (firstSmall : first < 2^31) (secondSmall : second < 2^31) : first = second := by
  unfold OwnsKey at one two
  rw [rateLimitSentinel_eq firstSmall] at one
  rw [rateLimitSentinel_eq secondSmall] at two
  omega

def Rule.Unmarked (marker : Text) (pid : Nat) (rule : Rule) : Prop :=
  match rule.body with
  | .netmon purpose spec => purpose.pid ≠ pid → ¬marker <:+: spec.comment
  | .foreign .. => True

instance (marker : Text) (pid : Nat) : (rule : Rule) → Decidable (rule.Unmarked marker pid)
  | ⟨_, .netmon purpose spec⟩ => inferInstanceAs (Decidable (purpose.pid ≠ pid → ¬marker <:+: spec.comment))
  | ⟨_, .foreign _ _⟩ => isTrue trivial

def Unmarked (marker : Text) (pid : Nat) (world : World) : Prop :=
  ∀ rule ∈ world.ruleset.rules, rule.Unmarked marker pid

instance (marker : Text) (pid : Nat) (world : World) : Decidable (Unmarked marker pid world) :=
  inferInstanceAs (Decidable (∀ rule ∈ world.ruleset.rules, rule.Unmarked marker pid))

/-- Where a call searches the chain, its marker finds no rule of another process. -/
def Unambiguous (world : World) (call : Call) : Prop :=
  match call.op with
  | .block pid _ => Unmarked (pidMarker pid) pid world
  | .unblock pid => world.trackedHandles pid = [] → Unmarked (pidMarker pid) pid world
  | .rateLimit pid _ => Unmarked (rateLimitMarker pid) pid world
  | .setup => True
  | .unblockAll => True

/-- A handle tracked under a key is no handle of a process that does not own the key. -/
structure Separate (world : World) : Prop where
  plain : ∀ rule ∈ world.ruleset.rules, rule.Plain
  closed : ∀ rule ∈ world.ruleset.rules, ∀ purpose spec, rule.body = .netmon purpose spec → '"' ∉ spec.comment
  small : ∀ rule ∈ world.ruleset.rules, ∀ owner, rule.owner = some owner → owner < 2^31
  older : ∀ key, ∀ handle ∈ world.trackedHandles key, handle < world.ruleset.nextHandle
  own : ∀ key, ∀ handle ∈ world.trackedHandles key, ∀ rule ∈ world.ruleset.rules, rule.handle = handle →
    ∀ owner, rule.owner = some owner → OwnsKey owner key

theorem Rule.owner_eq_some {rule : Rule} {owner : Nat} (owned : rule.owner = some owner) :
    ∃ purpose spec, rule.body = .netmon purpose spec ∧ purpose.pid = owner := by
  obtain ⟨handle, body⟩ := rule
  cases body with
  | foreign text single => cases owned
  | netmon purpose spec => exact ⟨purpose, spec, rfl, Option.some.inj owned⟩

theorem Separate.of_untouched {world : World} (untouched : world.Untouched) : Separate world := by
  have nothing (key : Nat) : world.trackedHandles key = [] := by
    simp [World.trackedHandles, untouched.tracked]
  refine ⟨fun rule member => plain_of_owner (untouched.rules rule member), ?_, ?_, ?_, ?_⟩
  · intro rule member purpose spec body
    have foreign := untouched.rules rule member
    simp [Rule.owner, body] at foreign
  · intro rule member owner owned
    simp [untouched.rules rule member] at owned
  · intro key handle tracked
    simp [nothing key] at tracked
  · intro key handle tracked
    simp [nothing key] at tracked

theorem Separate.same {start world : World} (before : Separate start) (same : SameRules start world) :
    Separate world := by
  refine ⟨same.rules ▸ before.plain, same.rules ▸ before.closed, same.rules ▸ before.small, ?_, ?_⟩
  · intro key
    rw [trackedHandles_congr same.tracked, same.nextHandle]
    exact before.older key
  · intro key
    rw [trackedHandles_congr same.tracked, same.rules]
    exact before.own key

theorem mem_trackedHandles_removed {world : World} {key other handle : Nat} {handles : List Nat}
    (member : handle ∈ (world.removed key handles).trackedHandles other) : handle ∈ world.trackedHandles other := by
  by_cases same : other = key
  · subst same
    simp at member
  · rwa [trackedHandles_removed_ne same] at member

theorem Separate.removed {world : World} (before : Separate world) (key : Nat) (handles : List Nat) :
    Separate (world.removed key handles) where
  plain rule member := before.plain rule (Ruleset.mem_without.mp member).1
  closed rule member := before.closed rule (Ruleset.mem_without.mp member).1
  small rule member := before.small rule (Ruleset.mem_without.mp member).1
  older other handle tracked := before.older other handle (mem_trackedHandles_removed tracked)
  own other handle tracked rule member :=
    before.own other handle (mem_trackedHandles_removed tracked) rule (Ruleset.mem_without.mp member).1

theorem Separate.appended {start world : World} (before : Separate start) {purpose : Purpose} {comment : Text}
    {new : List Rule} (added : Appended purpose comment new start world) (single : '\n' ∉ comment)
    (closed : '"' ∉ comment) (small : purpose.pid < 2^31) : Separate world := by
  have later := added.later
  refine ⟨?_, ?_, ?_, ?_, ?_⟩
  · intro rule member
    rw [added.rules, List.mem_append] at member
    rcases member with old | recent
    · exact before.plain rule old
    · obtain ⟨spec, body, commented⟩ := added.body rule recent
      simpa [Rule.Plain, body, commented] using single
  · intro rule member other spec body
    rw [added.rules, List.mem_append] at member
    rcases member with old | recent
    · exact before.closed rule old other spec body
    · obtain ⟨_, same, commented⟩ := added.body rule recent
      rw [body] at same
      cases same
      rwa [commented]
  · intro rule member owner owned
    rw [added.rules, List.mem_append] at member
    rcases member with old | recent
    · exact before.small rule old owner owned
    · obtain ⟨spec, body, _⟩ := added.body rule recent
      obtain rfl : purpose.pid = owner := by simpa [Rule.owner, body] using owned
      exact small
  · intro key handle tracked
    rw [trackedHandles_congr added.tracked] at tracked
    exact Nat.lt_of_lt_of_le (before.older key handle tracked) later
  · intro key handle tracked rule member same
    rw [trackedHandles_congr added.tracked] at tracked
    rw [added.rules, List.mem_append] at member
    rcases member with old | recent
    · exact before.own key handle tracked rule old same
    · have below := before.older key handle tracked
      have above := added.fresh rule recent
      omega

theorem Separate.tracking {world : World} (before : Separate world) (key : Nat) (handles : List Nat)
    (listed : ∀ handle ∈ handles, ∃ rule ∈ world.ruleset.rules, rule.handle = handle ∧
      ∀ owner, rule.owner = some owner → OwnsKey owner key) : Separate (world.tracking key handles) := by
  refine ⟨before.plain, before.closed, before.small, ?_, ?_⟩
  · intro other handle tracked
    by_cases same : other = key
    · subst same
      rw [trackedHandles_tracking_same] at tracked
      obtain ⟨rule, member, rfl, _⟩ := listed handle tracked
      exact world.ruleset.fresh rule member
    · rw [trackedHandles_tracking_ne same] at tracked
      exact before.older other handle tracked
  · intro other handle tracked rule member handled owner owned
    by_cases same : other = key
    · subst same
      rw [trackedHandles_tracking_same] at tracked
      obtain ⟨found, present, foundHandle, foundOwner⟩ := listed handle tracked
      obtain rfl := world.ruleset.eq_of_handle member present (handled.trans foundHandle.symm)
      exact foundOwner owner owned
    · rw [trackedHandles_tracking_ne same] at tracked
      exact before.own other handle tracked rule member handled owner owned

section Search
variable (nft : PlainListing)

theorem Separate.searched {world : World} (before : Separate world) {marker : Text} {pid : Nat}
    (marks : ruleCommentPrefix <+: marker) (closed : '"' ∉ marker) (unmarked : Unmarked marker pid world)
    (handle : Nat) (found : handle ∈ searched nft.toListing marker world) :
    ∃ rule ∈ world.ruleset.rules, rule.handle = handle ∧ ∀ owner, rule.owner = some owner → owner = pid := by
  rw [Controller.searched, markedHandles_plain nft marks _ before.plain] at found
  obtain ⟨rule, member, handled⟩ := List.mem_map.mp found
  obtain ⟨present, listed⟩ := List.mem_filter.mp member
  refine ⟨rule, present, handled, fun owner owned => ?_⟩
  obtain ⟨purpose, spec, body, rfl⟩ := Rule.owner_eq_some owned
  by_contra other
  have inLine := (contains_iff _ _).mp listed
  have comment := nft.line_marked rule.handle purpose spec marker (before.closed rule present purpose spec body)
    marks closed (by rw [← body]; exact inLine)
  have clean := unmarked rule present
  simp only [Rule.Unmarked, body] at clean
  exact clean other comment

theorem Separate.targets {world : World} (before : Separate world) {key pid : Nat} {marker : Text}
    (marks : ruleCommentPrefix <+: marker) (closed : '"' ∉ marker) (small : pid < 2^31) (owns : OwnsKey pid key)
    (unmarked : world.trackedHandles key = [] → Unmarked marker pid world) (rule : Rule)
    (present : rule ∈ world.ruleset.rules) {owner : Nat} (owned : rule.owner = some owner) (other : owner ≠ pid) :
    rule.handle ∉ targets nft.toListing key marker world := by
  intro target
  unfold Controller.targets at target
  split at target
  · rename_i nothing
    obtain ⟨found, member, same, ownedBy⟩ := before.searched nft marks closed
      (unmarked (List.isEmpty_iff.mp nothing)) rule.handle target
    obtain rfl := world.ruleset.eq_of_handle member present same
    exact other (ownedBy owner owned)
  · have ownsToo := before.own key rule.handle target rule present rfl owner owned
    exact other (ownsToo.unique owns (before.small rule present owner owned) small)

structure Kept (pid : Nat) (kept : List Rule) (world : World) : Prop where
  separate : Separate world
  present : ∀ rule ∈ kept, rule ∈ world.ruleset.rules
  others : ∀ rule ∈ kept, ∃ owner, rule.owner = some owner ∧ owner ≠ pid

variable {pid : Nat} {kept : List Rule}

theorem Kept.nothing {world : World} (separate : Separate world) : Kept pid [] world :=
  ⟨separate, by simp, by simp⟩

theorem Kept.same {start world : World} (before : Kept pid kept start) (same : SameRules start world) :
    Kept pid kept world :=
  ⟨before.separate.same same, same.rules ▸ before.present, before.others⟩

theorem Unmarked.same {marker : Text} {start world : World} (before : Unmarked marker pid start)
    (same : SameRules start world) : Unmarked marker pid world := by
  unfold Unmarked
  rw [same.rules]
  exact before

theorem Unmarked.removed {marker : Text} {world : World} (before : Unmarked marker pid world) (key : Nat)
    (handles : List Nat) : Unmarked marker pid (world.removed key handles) :=
  fun rule member => before rule (Ruleset.mem_without.mp member).1

theorem Unmarked.appended {marker comment : Text} {purpose : Purpose} {new : List Rule} {start world : World}
    (before : Unmarked marker pid start) (added : Appended purpose comment new start world)
    (own : purpose.pid = pid) : Unmarked marker pid world := by
  intro rule member
  rw [added.rules, List.mem_append] at member
  rcases member with old | recent
  · exact before rule old
  · obtain ⟨_, same, _⟩ := added.body rule recent
    rw [Rule.Unmarked, same]
    exact fun different => absurd own different

theorem removeRules_kept (env : Env) {key : Nat} {marker : Text} (marks : ruleCommentPrefix <+: marker)
    (closed : '"' ∉ marker) (small : pid < 2^31) (owns : OwnsKey pid key) (reply : Reply) (start : World)
    (before : Kept pid kept start) (unmarked : start.trackedHandles key = [] → Unmarked marker pid start) :
    Triple (· = start) (removeRules env key (findHandles nft.toListing env reply marker))
      (fun _ world => Kept pid kept world ∧ (Unmarked marker pid start → Unmarked marker pid world))
      (fun _ world => Kept pid kept world ∧ (Unmarked marker pid start → Unmarked marker pid world)) := by
  have removed (front : List Nat) (some : front <+: targets nft.toListing key marker start) :
      Kept pid kept (start.removed key front) := by
    refine ⟨before.separate.removed key front, fun rule member => ?_, before.others⟩
    obtain ⟨owner, owned, other⟩ := before.others rule member
    have outside := before.separate.targets nft marks closed small owns unmarked rule (before.present rule member)
      owned other
    exact Ruleset.mem_without.mpr ⟨before.present rule member, fun gone => outside (some.subset gone)⟩
  refine (removeRules_removed nft.toListing env key reply marker start).weaken (fun _ same => same) ?_ ?_
  · rintro _ _ rfl
    exact ⟨removed _ (List.prefix_refl _), fun unmarked => unmarked.removed key _⟩
  · rintro _ _ ⟨front, some, rfl⟩
    exact ⟨removed front some, fun unmarked => unmarked.removed key front⟩

theorem removeRules_keeps (env : Env) {key : Nat} {marker : Text} (marks : ruleCommentPrefix <+: marker)
    (closed : '"' ∉ marker) (small : pid < 2^31) (owns : OwnsKey pid key) (reply : Reply) :
    Keeps (fun world => Kept pid kept world ∧ Unmarked marker pid world)
      (removeRules env key (findHandles nft.toListing env reply marker)) :=
  Triple.of_state fun start before =>
    (removeRules_kept nft env marks closed small owns reply start before.1 fun _ => before.2).weaken
      (fun _ same => same) (fun _ _ after => ⟨after.1, after.2 before.2⟩) (fun _ _ after => ⟨after.1, after.2 before.2⟩)

theorem setupNftables_kept (env : Env) (marker : Text) :
    Keeps (fun world => Kept pid kept world ∧ Unmarked marker pid world) (setupNftables env) :=
  Triple.of_state fun start before => (setupNftables_spec env start).weaken (fun _ same => same)
    (fun _ _ same => ⟨before.1.same same, before.2.same same⟩) (fun _ _ same => ⟨before.1.same same, before.2.same same⟩)

theorem insertRules_kept (env : Env) {purpose : Purpose} (own : purpose.pid = pid) {key : Nat} {marker comment : Text}
    (marks : ruleCommentPrefix <+: marker) (closed : '"' ∉ marker) (small : pid < 2^31) (owns : OwnsKey pid key)
    (limit : Option Nat) (bound : ∀ rateKbps ∈ limit, rateKbps < 2^64) (single : '\n' ∉ comment)
    (commentClosed : '"' ∉ comment) (reply : Reply) (noHandles : Text) :
    Keeps (fun world => Kept pid kept world ∧ Unmarked marker pid world)
      (insertRules env purpose key (portScript env pid limit comment) (findHandles nft.toListing env reply marker)
        noHandles) := by
  refine Triple.of_state fun start before => ?_
  have inserted (world : World) (done : Inserted env purpose (portScript env pid limit comment) start world) :
      Kept pid kept world ∧ Unmarked marker pid world := by
    obtain ⟨_, new, _, _, added⟩ := done.specs commentClosed bound
    refine ⟨⟨before.1.separate.appended added single commentClosed (by rwa [own]), fun rule member => ?_,
      before.1.others⟩, before.2.appended added own⟩
    rw [added.rules]
    exact List.mem_append_left new (before.1.present rule member)
  refine (insertRules_spec nft.toListing env purpose key _ reply marker noHandles start).weaken
    (fun _ same => same) ?_ ?_
  · rintro _ _ ⟨middle, done, _, rfl⟩
    obtain ⟨after, unmarked⟩ := inserted middle done
    refine ⟨⟨after.separate.tracking key _ fun handle found => ?_, after.present, after.others⟩, unmarked⟩
    obtain ⟨rule, present, handled, ownedBy⟩ := after.separate.searched nft marks closed unmarked handle found
    exact ⟨rule, present, handled, fun owner owned => ownedBy owner owned ▸ owns⟩
  · rintro _ world (⟨rfl, _⟩ | ⟨done, _⟩)
    · exact before
    · exact inserted world done

theorem blockProcess_kept (env : Env) (processName : Text) (small : pid < 2^31) (single : '\n' ∉ processName) :
    Keeps (fun world => Kept pid kept world ∧ Unmarked (pidMarker pid) pid world)
      (blockProcess nft.toListing env pid processName) := by
  refine Triple.bind (Triple.attempt (setupNftables_kept env (pidMarker pid))) fun _ => ?_
  refine Triple.bind (Triple.attempt (removeRules_keeps nft env (pidMarker_marks pid) (pidMarker_closed pid) small
    (Or.inl rfl) env.listBefore)) fun _ => ?_
  exact insertRules_kept nft env (rfl : (Purpose.block pid).pid = pid) (pidMarker_marks pid) (pidMarker_closed pid) small (Or.inl rfl) none
    (by simp) (blockComment_single pid single) (blockComment_closed pid processName) env.listAfter _

theorem rateLimitProcess_kept (env : Env) (rateKbps : UInt32) (small : pid < 2^31) :
    Keeps (fun world => Kept pid kept world ∧ Unmarked (rateLimitMarker pid) pid world)
      (rateLimitProcess nft.toListing env pid rateKbps) := by
  refine Triple.bind (Triple.attempt (setupNftables_kept env (rateLimitMarker pid))) fun _ => ?_
  refine Triple.bind (removeRules_keeps nft env (rateLimitMarker_marks pid) (rateLimitMarker_closed pid) small
    (Or.inr rfl) env.listBefore) fun _ => ?_
  exact insertRules_kept nft env (rfl : (Purpose.rateLimit pid).pid = pid) (rateLimitMarker_marks pid) (rateLimitMarker_closed pid) small (Or.inr rfl)
    (some rateKbps.toNat) (toNat_bound rateKbps) (rateLimitMarker_single pid) (rateLimitMarker_closed pid) env.listAfter _

def Op.pid? : Op → Option Nat
  | .block pid _ => some pid
  | .unblock pid => some pid
  | .rateLimit pid _ => some pid
  | .setup => none
  | .unblockAll => none

theorem step_kept (world : World) (call : Call) (acts : call.op.pid? = some pid) (lawful : call.op.Lawful)
    (clear : Unambiguous world call) (before : Kept pid kept world) :
    Kept pid kept (step nft.toListing world call) := by
  obtain ⟨op, env⟩ := call
  cases op with
  | setup => cases acts
  | unblockAll => cases acts
  | block other processName =>
    cases acts
    exact (Triple.finalState (blockProcess_kept nft env processName lawful.1 lawful.2) world ⟨before, clear⟩).1
  | rateLimit other rateKbps =>
    cases acts
    exact (Triple.finalState (rateLimitProcess_kept nft env rateKbps lawful) world ⟨before, clear⟩).1
  | unblock other =>
    cases acts
    have kept := removeRules_kept nft env (pidMarker_marks pid) (pidMarker_closed pid) lawful (Or.inl rfl)
      env.listBefore world before clear
    exact (Triple.finalState kept world rfl).1

theorem step_separate (world : World) (call : Call) (before : Separate world) (lawful : call.op.Lawful)
    (clear : Unambiguous world call) : Separate (step nft.toListing world call) := by
  cases acts : call.op.pid? with
  | some pid => exact (step_kept nft world call acts lawful clear (Kept.nothing before)).separate
  | none =>
    obtain ⟨op, env⟩ := call
    cases op with
    | block => cases acts
    | unblock => cases acts
    | rateLimit => cases acts
    | setup => exact before.same (Triple.finalState (setupNftables_spec env world) world rfl)
    | unblockAll =>
      have flushed : Keeps Separate (unblockAll env) := Triple.of_state fun start kept =>
        (unblockAll_spec env start).weaken (fun _ same => same)
          (fun _ _ empty => Separate.of_untouched ⟨by simp [empty.1], empty.2⟩) (fun _ _ same => same ▸ kept)
      exact Triple.finalState flushed world before

/-- In a run whose calls are all unambiguous, no call for a process removes a rule of another. -/
theorem rules_of_others_kept (start : World) (untouched : start.Untouched) (calls : List Call) (last : Call)
    (lawful : ∀ call ∈ calls ++ [last], call.op.Lawful)
    (clear : Meets (step nft.toListing) Unambiguous start (calls ++ [last])) {pid owner : Nat}
    (acts : last.op.pid? = some pid) (other : owner ≠ pid) (rule : Rule)
    (present : rule ∈ (run (step nft.toListing) start calls).ruleset.rules) (owned : rule.owner = some owner) :
    rule ∈ (run (step nft.toListing) start (calls ++ [last])).ruleset.rules := by
  obtain ⟨clearBefore, clearLast⟩ := (meets_append _ _ _ _ _).mp clear
  have lawfulBefore := meets_of_forall (step nft.toListing) (fun call => call.op.Lawful) start calls
    fun call member => lawful call (List.mem_append_left _ member)
  have separate := run_invariant (step nft.toListing) (fun world call => call.op.Lawful ∧ Unambiguous world call)
    Separate (fun world call before admitted => step_separate nft world call before admitted.1 admitted.2) start calls
    (Separate.of_untouched untouched) (lawfulBefore.and clearBefore)
  have kept : Kept pid [rule] (run (step nft.toListing) start calls) :=
    ⟨separate, by simpa using present, by simpa using ⟨owner, owned, other⟩⟩
  have after := step_kept nft _ last acts (lawful last (by simp)) clearLast.1 kept
  rw [run_append]
  exact after.present rule (by simp)

end Search

theorem rules_of_others_kept_curl :
    ∃ rule ∈ (run (step nftListing.toListing) foreignWorld [⟨.block 12 "curl".toList, quietHost 12⟩]).ruleset.rules,
      rule.owner = some 12 ∧
      rule ∈ (run (step nftListing.toListing) foreignWorld ([⟨.block 12 "curl".toList, quietHost 12⟩] ++
        [⟨.unblock 1, quietHost 1⟩])).ruleset.rules := by
  have blocked : (∃ rule ∈ (run (step nftListing.toListing) foreignWorld
        [⟨.block 12 "curl".toList, quietHost 12⟩]).ruleset.rules, rule.owner = some 12) ∧
      Unmarked (pidMarker 1) 1 (step nftListing.toListing foreignWorld ⟨.block 12 "curl".toList, quietHost 12⟩) := by
    decide +kernel
  obtain ⟨⟨rule, present, owned⟩, unmarked⟩ := blocked
  exact ⟨rule, present, owned, rules_of_others_kept nftListing foreignWorld ⟨by decide, rfl⟩
    [⟨.block 12 "curl".toList, quietHost 12⟩] ⟨.unblock 1, quietHost 1⟩ (by simp [Op.Lawful])
    ⟨(by decide : Unmarked (pidMarker 12) 12 foreignWorld), fun _ => unmarked, trivial⟩
    rfl (by decide : 12 ≠ 1) rule present owned⟩

/-- A process that calls itself by the marker of another loses its rules with the other's. -/
theorem unblock_removes_rule_of_other :
    ∃ rule ∈ (run (step nftListing.toListing) emptyWorld
        [⟨.block 5 "netmon-pid-7-".toList, quietHost 5⟩]).ruleset.rules,
      rule.owner = some 5 ∧
      rule ∉ (run (step nftListing.toListing) emptyWorld ([⟨.block 5 "netmon-pid-7-".toList, quietHost 5⟩] ++
        [⟨.unblock 7, quietHost 7⟩])).ruleset.rules := by
  decide +kernel

end Netmon.Controller
