import Netmon.Controller.Unblock

/-! Blocking one process step by step: whether rules are inserted, which rules of
the process are left when a call fails, and that the rules of others stay. -/
namespace Netmon.Controller
open Library

/-- `setup_nftables` leaves a chain behind: it was there, or both commands can create it. -/
def ChainReady (env : Env) (ruleset : Ruleset) : Prop :=
  ruleset.chain = true ∨
    ((env.reply .addTable = .accepted ∨ (ruleset.table = true ∧ ∃ stdout stderr,
        env.reply .addTable = .refused stdout stderr ∧ contains stderr fileExists = true)) ∧
      env.reply .addChain = .accepted)

theorem runNftCommand_eq (env : Env) (command : Command) (ignoreExists : Bool) (start : World) :
    runNftCommand env command ignoreExists start =
      match env.reply command with
      | .failed _ error => .error (mapNftSpawnError error) start
      | .refused _ stderr =>
        if ignoreExists && contains stderr fileExists then .ok () start
        else .error ("nft command error: ".toList ++ stderr) start
      | .accepted =>
        match command.effect start.ruleset with
        | some ruleset => .ok () { start with ruleset }
        | none =>
          if ignoreExists && contains env.complaint fileExists then .ok () start
          else .error ("nft command error: ".toList ++ env.complaint) start := by
  simp only [runNftCommand, bind, EStateM.bind, spawn]
  cases env.reply command with
  | failed stage error => rfl
  | refused stdout stderr =>
    simp only
    split <;> rfl
  | accepted =>
    cases command.effect start.ruleset with
    | some ruleset => rfl
    | none =>
      simp only
      split <;> rfl

theorem addChain_chain (env : Env) (start : World) :
    (finalState (runNftCommand env .addChain true) start).ruleset.chain = true ↔
      start.ruleset.chain = true ∨ (start.ruleset.table = true ∧ env.reply .addChain = .accepted) := by
  have rooted := start.ruleset.rooted
  rw [finalState, runNftCommand_eq]
  cases env.reply .addChain with
  | failed stage error => simp
  | refused stdout stderr =>
    simp only
    split <;> rename_i ended <;> (split at ended <;> cases ended) <;> simp
  | accepted =>
    cases table : start.ruleset.table with
    | true => simp [Command.effect, Ruleset.addChain, table]
    | false =>
      simp only [Command.effect, Ruleset.addChain, table, Bool.false_eq_true, dite_false, false_and, or_false]
      split <;> rename_i ended <;> (split at ended <;> cases ended) <;> rfl

theorem setupNftables_chain (env : Env) (start : World) :
    (finalState (setupNftables env) start).ruleset.chain = true ↔ ChainReady env start.ruleset := by
  have rooted := start.ruleset.rooted
  have second (world : World) := addChain_chain env world
  rw [setupNftables, finalState_bind, runNftCommand_eq, ChainReady]
  cases env.reply .addTable with
  | failed stage error => simp
  | refused stdout stderr =>
    by_cases present : fileExists <:+: stderr
    · simp [present, second]
    · simp [present]
  | accepted => simp [Command.effect, second, Ruleset.addTable]

def handlesFit (gap : Nat → Nat) : Nat → Nat → Bool
  | 0, _ => true
  | count + 1, next => decide (next + gap next < 2^64) && handlesFit gap count (next + gap next + 1)

theorem addRules_isSome (gap : Nat → Nat) (purpose : Purpose) (specs : List RuleSpec) (ruleset : Ruleset)
    (present : ruleset.chain = true) : (ruleset.addRules gap purpose specs).isSome =
      handlesFit gap specs.length ruleset.nextHandle := by
  induction specs generalizing ruleset with
  | nil => rfl
  | cons spec specs ih =>
    rw [Ruleset.addRules, List.foldlM_cons, List.length_cons, handlesFit, Ruleset.addRule]
    split
    · rename_i fits
      rw [decide_eq_true fits.2, Bool.true_and]
      exact ih _ present
    · rename_i overflow
      have none : ¬ruleset.nextHandle + gap ruleset.nextHandle < 2^64 := fun fits => overflow ⟨present, fits⟩
      rw [decide_eq_false none]
      rfl

theorem addRules_absent (gap : Nat → Nat) (purpose : Purpose) {specs : List RuleSpec} (filled : specs ≠ [])
    (ruleset : Ruleset) (absent : ruleset.chain = false) : ruleset.addRules gap purpose specs = none := by
  cases specs with
  | nil => exact absurd rfl filled
  | cons spec specs =>
    rw [Ruleset.addRules, List.foldlM_cons, Ruleset.addRule, dif_neg (by simp [absent])]
    rfl

theorem portScript_of_specs {env : Env} {pid : Nat} {limit : Option Nat} {comment : Text} {specs : List RuleSpec}
    (meant : processSpecs env.read pid limit comment = some specs) :
    ∃ rules, portScript env pid limit comment = .ok rules := by
  unfold processSpecs at meant
  unfold portScript
  simp only at meant ⊢
  split at meant
  · rename_i none
    obtain ⟨uid, found, _⟩ := Option.map_eq_some_iff.mp meant
    rw [if_pos none, found]
    exact ⟨_, rfl⟩
  · rename_i some
    rw [if_neg some]
    exact ⟨_, rfl⟩

/-- The call inserts its rules: it finds ports or a uid, the chain is there, and nft accepts the script. -/
def Inserts (env : Env) (pid : Nat) (processName : Text) (world : World) : Prop :=
  env.script = .accepted ∧ ChainReady env world.ruleset ∧
    ∃ specs, processSpecs env.read pid none (blockComment pid processName) = some specs ∧
      handlesFit env.gap specs.length world.ruleset.nextHandle = true

theorem inserted_iff (env : Env) (pid : Nat) (processName : Text) (start world : World)
    (next : world.ruleset.nextHandle = start.ruleset.nextHandle)
    (ready : world.ruleset.chain = true ↔ ChainReady env start.ruleset) :
    (∃ middle, Inserted env (.block pid) (portScript env pid none (blockComment pid processName)) world middle) ↔
      Inserts env pid processName start := by
  have closed := blockComment_closed pid processName
  constructor
  · rintro ⟨middle, rules, built, accepted, ruleset, effect, _⟩
    obtain ⟨specs, meant, read⟩ := portScript_reads built closed (by simp)
    rw [scriptEffect, read, Option.bind_some] at effect
    have filled := (processSpecs_some meant).1
    cases present : world.ruleset.chain with
    | false =>
      rw [addRules_absent env.gap (.block pid) filled world.ruleset present] at effect
      cases effect
    | true =>
      have fits := addRules_isSome env.gap (.block pid) specs world.ruleset present
      rw [effect, Option.isSome_some, next] at fits
      exact ⟨accepted, ready.mp present, specs, meant, fits.symm⟩
  · rintro ⟨accepted, chain, specs, meant, fits⟩
    obtain ⟨rules, built⟩ := portScript_of_specs meant
    obtain ⟨other, meantToo, read⟩ := portScript_reads built closed (by simp)
    obtain rfl := Option.some.inj (meant.symm.trans meantToo)
    have possible := addRules_isSome env.gap (.block pid) specs world.ruleset (ready.mpr chain)
    rw [next, fits] at possible
    obtain ⟨ruleset, added⟩ := Option.isSome_iff_exists.mp possible
    refine ⟨{ world with ruleset }, rules, built, accepted, ruleset, ?_, rfl⟩
    rw [scriptEffect, read, Option.bind_some, added]

def World.blockHandles (pid : Nat) (world : World) : List Nat :=
  (world.ruleset.rules.filter (Rule.isBlockOf pid)).map Rule.handle

def World.Blocks (pid : Nat) (world : World) : Prop := ∃ rule ∈ world.ruleset.rules, rule.isBlockOf pid = true

instance (pid : Nat) (world : World) : Decidable (world.Blocks pid) :=
  inferInstanceAs (Decidable (∃ rule ∈ world.ruleset.rules, rule.isBlockOf pid = true))

def Elsewhere (pid : Nat) (start world : World) : Prop :=
  ∀ other, other ≠ pid → world.ruleset.rules.filter (Rule.isBlockOf other) =
    start.ruleset.rules.filter (Rule.isBlockOf other)

theorem isBlockOf_unique {rule : Rule} {first second : Nat} (one : rule.isBlockOf first = true)
    (two : rule.isBlockOf second = true) : first = second := by
  have owner := Rule.owner_of_isBlockOf one
  rw [Rule.owner_of_isBlockOf two] at owner
  exact (Option.some.inj owner).symm

theorem blocks_iff {pid : Nat} {world : World} : world.Blocks pid ↔ world.blockHandles pid ≠ [] := by
  simp [World.Blocks, World.blockHandles, List.filter_eq_nil_iff]

theorem mem_blockHandles {pid : Nat} {world : World} {rule : Rule} (present : rule ∈ world.ruleset.rules) :
    rule.handle ∈ world.blockHandles pid ↔ rule.isBlockOf pid = true := by
  constructor
  · intro member
    obtain ⟨other, inside, same⟩ := List.mem_map.mp member
    obtain ⟨otherPresent, block⟩ := List.mem_filter.mp inside
    rwa [world.ruleset.eq_of_handle present otherPresent same.symm]
  · exact fun block => List.mem_map_of_mem (List.mem_filter.mpr ⟨present, block⟩)

theorem Elsewhere.blocks {pid other : Nat} {start world : World} (elsewhere : Elsewhere pid start world)
    (different : other ≠ pid) : world.Blocks other ↔ start.Blocks other := by
  rw [blocks_iff, blocks_iff, World.blockHandles, elsewhere other different, World.blockHandles]

section Exact
variable (nft : PlainListing)

def OnlyBlocks (pid : Nat) (world : World) : Prop :=
  ∀ rule ∈ world.ruleset.rules, pidMarker pid <:+: nft.line rule → rule.isBlockOf pid = true

instance (pid : Nat) (world : World) : Decidable (OnlyBlocks nft pid world) :=
  inferInstanceAs (Decidable (∀ rule ∈ world.ruleset.rules, pidMarker pid <:+: nft.line rule →
    rule.isBlockOf pid = true))

/-- Where handles are tracked for a process, they are those of its block rules. -/
structure Exact (world : World) : Prop extends Listed nft.toListing world where
  exact : ∀ pid, world.trackedHandles pid ≠ [] → world.trackedHandles pid = world.blockHandles pid

variable {nft} {pid : Nat} {start world : World}

theorem Exact.of_untouched (untouched : world.Untouched) : Exact nft world where
  toListed := Listed.of_untouched nft.toListing untouched
  exact pid tracked := by simp [World.trackedHandles, untouched.tracked] at tracked

theorem Exact.searched (before : Exact nft world) (only : OnlyBlocks nft pid world) :
    searched nft.toListing (pidMarker pid) world = world.blockHandles pid := by
  rw [Controller.searched, markedHandles_plain nft (pidMarker_marks pid) _ before.plain, World.blockHandles]
  congr 1
  apply List.filter_congr
  intro rule member
  rw [Bool.eq_iff_iff, contains_iff]
  exact ⟨only rule member, before.marked rule member pid⟩

theorem Exact.targets (before : Exact nft world)
    (only : world.trackedHandles pid = [] → OnlyBlocks nft pid world) :
    targets nft.toListing pid (pidMarker pid) world = world.blockHandles pid := by
  unfold Controller.targets
  split
  · rename_i nothing
    exact before.searched (only (List.isEmpty_iff.mp nothing))
  · rename_i tracked
    exact before.exact pid (by simpa using tracked)

theorem Exact.same (before : Exact nft start) (same : SameRules start world) : Exact nft world where
  toListed := before.toListed.same same
  exact pid := by
    rw [trackedHandles_congr same.tracked, World.blockHandles, same.rules]
    exact before.exact pid

theorem elsewhere_removed {front : List Nat} (some : ∀ handle ∈ front, handle ∈ world.blockHandles pid) :
    Elsewhere pid world (world.removed pid front) := by
  intro other different
  rw [World.removed, Ruleset.without_rules, List.filter_filter]
  apply List.filter_congr
  intro rule present
  cases block : rule.isBlockOf other with
  | false => rfl
  | true =>
    have kept : rule.handle ∉ front := fun gone =>
      different (isBlockOf_unique block ((mem_blockHandles present).mp (some rule.handle gone)))
    simp [kept]

theorem Exact.removed (before : Exact nft world) {front : List Nat}
    (some : ∀ handle ∈ front, handle ∈ world.blockHandles pid) : Exact nft (world.removed pid front) where
  toListed := before.toListed.removed pid front
  exact other tracked := by
    by_cases same : other = pid
    · subst same
      simp at tracked
    · rw [trackedHandles_removed_ne same] at tracked ⊢
      rw [World.blockHandles, elsewhere_removed some other same]
      exact before.exact other tracked

theorem blocks_removed {front : List Nat} :
    (world.removed pid front).Blocks pid ↔ ∃ handle ∈ world.blockHandles pid, handle ∉ front := by
  constructor
  · rintro ⟨rule, member, block⟩
    obtain ⟨present, kept⟩ := Ruleset.mem_without.mp member
    exact ⟨rule.handle, (mem_blockHandles present).mpr block, kept⟩
  · rintro ⟨handle, member, kept⟩
    obtain ⟨rule, inside, rfl⟩ := List.mem_map.mp member
    obtain ⟨present, block⟩ := List.mem_filter.mp inside
    exact ⟨rule, Ruleset.mem_without.mpr ⟨present, kept⟩, block⟩

def RemovalRefused (env : Env) (pid : Nat) (world : World) : Prop :=
  (world.trackedHandles pid = [] ∧ env.listBefore ≠ .accepted) ∨
    ∃ handle ∈ world.blockHandles pid, env.reply (.deleteRule handle) ≠ .accepted

variable (nft) in
structure AfterRemoval (pid : Nat) (start world : World) : Prop where
  exact : Exact nft world
  elsewhere : Elsewhere pid start world
  untracked : world.trackedHandles pid = []
  nextHandle : world.ruleset.nextHandle = start.ruleset.nextHandle
  chain : world.ruleset.chain = start.ruleset.chain
  fewer : ∀ rule ∈ world.ruleset.rules, rule ∈ start.ruleset.rules

theorem afterRemoval (before : Exact nft world) {front : List Nat}
    (some : ∀ handle ∈ front, handle ∈ world.blockHandles pid) :
    AfterRemoval nft pid world (world.removed pid front) where
  exact := before.removed some
  elsewhere := elsewhere_removed some
  untracked := trackedHandles_removed_same
  nextHandle := rfl
  chain := rfl
  fewer _ member := (Ruleset.mem_without.mp member).1

/-- An unblock that returns leaves no block rule of its process; one that fails
leaves one if there was one. -/
theorem unblockProcess_outcome (env : Env) (before : Exact nft start)
    (only : start.trackedHandles pid = [] → OnlyBlocks nft pid start) :
    Triple (· = start) (unblockProcess nft.toListing env pid)
      (fun _ world => AfterRemoval nft pid start world ∧ ¬world.Blocks pid ∧ ¬RemovalRefused env pid start)
      (fun _ world => AfterRemoval nft pid start world ∧ (start.Blocks pid → world.Blocks pid)) := by
  have aims := before.targets only
  refine (removeRules_spec nft.toListing env pid env.listBefore (pidMarker pid) start).weaken
    (fun _ same => same) ?_ ?_
  · rintro _ world ⟨rfl, answered, accepted⟩
    rw [aims] at accepted ⊢
    refine ⟨afterRemoval before fun _ member => member, ?_, ?_⟩
    · rw [blocks_removed]
      rintro ⟨handle, member, kept⟩
      exact kept member
    · rintro (⟨nothing, refused⟩ | ⟨handle, member, refused⟩)
      · exact refused (answered nothing)
      · exact refused (accepted handle member)
  · rintro _ world (⟨rfl, _⟩ | ⟨front, handle, back, split, rfl, _⟩)
    · refine ⟨afterRemoval before (by simp), fun blocks => ?_⟩
      obtain ⟨rule, present, block⟩ := blocks
      exact blocks_removed.mpr ⟨rule.handle, (mem_blockHandles present).mpr block, by simp⟩
    · rw [aims] at split
      have some : ∀ other ∈ front, other ∈ start.blockHandles pid := fun other member => by simp [split, member]
      refine ⟨afterRemoval before some, fun _ => blocks_removed.mpr ⟨handle, by simp [split], ?_⟩⟩
      have distinct : (start.blockHandles pid).Nodup :=
        start.ruleset.distinct.sublist (List.filter_sublist.map Rule.handle)
      rw [split, List.nodup_append] at distinct
      exact fun member => distinct.2.2 handle member handle (by simp) rfl

variable (nft) in
/-- The name has no line break, the marker is listed with block rules of the
process only, a call that inserts nothing does not lift a block, and the rules
of a new block are listed. -/
structure Regular (env : Env) (pid : Nat) (processName : Text) (world : World) : Prop where
  single : '\n' ∉ processName
  only : OnlyBlocks nft pid world
  replaced : ¬Inserts env pid processName world → world.Blocks pid → RemovalRefused env pid world
  listed : Inserts env pid processName world → ¬world.Blocks pid → env.listAfter = .accepted

theorem OnlyBlocks.fewer (only : OnlyBlocks nft pid start)
    (fewer : ∀ rule ∈ world.ruleset.rules, rule ∈ start.ruleset.rules) : OnlyBlocks nft pid world :=
  fun rule member => only rule (fewer rule member)

theorem Exact.appended (before : Exact nft start) (untracked : start.trackedHandles pid = []) {comment : Text}
    {new : List Rule} (added : Appended (.block pid) comment new start world) (single : '\n' ∉ comment)
    (marks : pidMarker pid <:+: comment) :
    Exact nft world ∧ Elsewhere pid start world ∧ world.Blocks pid := by
  have elsewhere : Elsewhere pid start world := by
    intro other different
    have none : new.filter (Rule.isBlockOf other) = [] := by
      rw [List.filter_eq_nil_iff]
      intro rule member block
      exact different (Purpose.block.inj ((added.isBlockOf member other).mp block)).symm
    rw [added.rules, List.filter_append, none, List.append_nil]
  refine ⟨⟨before.toListed.appended added single ?_, ?_⟩, elsewhere, ?_⟩
  · rintro owner same
    cases same
    exact marks
  · intro other tracked
    rw [trackedHandles_congr added.tracked] at tracked ⊢
    have different : other ≠ pid := fun same => tracked (same ▸ untracked)
    rw [World.blockHandles, elsewhere other different]
    exact before.exact other tracked
  · obtain ⟨rule, member⟩ := List.exists_mem_of_ne_nil new added.some
    exact ⟨rule, by simp [added.rules, member], (added.isBlockOf member pid).mpr rfl⟩

theorem OnlyBlocks.appended (only : OnlyBlocks nft pid start) {comment : Text} {new : List Rule}
    (added : Appended (.block pid) comment new start world) : OnlyBlocks nft pid world := by
  intro rule member listed
  rw [added.rules, List.mem_append] at member
  rcases member with old | recent
  · exact only rule old listed
  · exact (added.isBlockOf recent pid).mpr rfl

theorem Exact.tracking (before : Exact nft world) :
    Exact nft (world.tracking pid (world.blockHandles pid)) where
  toListed := ⟨before.plain, before.marked⟩
  exact other tracked := by
    by_cases same : other = pid
    · subst same
      rw [trackedHandles_tracking_same]
      rfl
    · rw [trackedHandles_tracking_ne same] at tracked ⊢
      exact before.exact other tracked

theorem Elsewhere.trans {middle : World} (first : Elsewhere pid start middle) (second : Elsewhere pid middle world) :
    Elsewhere pid start world :=
  fun other different => (second other different).trans (first other different)

theorem setupNftables_outcome (env : Env) (start : World) :
    Triple (· = start) (setupNftables env)
      (fun _ world => SameRules start world ∧ (world.ruleset.chain = true ↔ ChainReady env start.ruleset))
      (fun _ world => SameRules start world ∧ (world.ruleset.chain = true ↔ ChainReady env start.ruleset)) := by
  rintro world rfl
  have same := setupNftables_spec env world world rfl
  have chain := setupNftables_chain env world
  rw [finalState] at chain
  cases ended : setupNftables env world <;> rw [ended] at same chain <;> exact ⟨same, chain⟩

/-- A block that returns leaves block rules of its process; a regular one that
fails leaves some exactly if there were some. -/
theorem blockProcess_outcome (env : Env) (processName : Text) (before : Exact nft start)
    (regular : Regular nft env pid processName start) :
    Triple (· = start) (blockProcess nft.toListing env pid processName)
      (fun _ world => Exact nft world ∧ Elsewhere pid start world ∧ world.Blocks pid)
      (fun _ world => Exact nft world ∧ Elsewhere pid start world ∧ (world.Blocks pid ↔ start.Blocks pid)) := by
  refine Triple.bind (Triple.attempt (setupNftables_outcome env start)) fun _ => ?_
  refine Triple.of_state fun ready ⟨same, chain⟩ => ?_
  have onlyReady : OnlyBlocks nft pid ready := regular.only.fewer fun rule member => same.rules ▸ member
  have handles : ready.blockHandles pid = start.blockHandles pid := by simp only [World.blockHandles, same.rules]
  have sameBlocks : ready.Blocks pid ↔ start.Blocks pid := by rw [blocks_iff, blocks_iff, handles]
  have sameRefused : RemovalRefused env pid ready ↔ RemovalRefused env pid start := by
    rw [RemovalRefused, RemovalRefused, handles, trackedHandles_congr same.tracked]
  -- The old block is gone, or the removal was refused and left a part of it.
  let removed := fun world => AfterRemoval nft pid ready world ∧
    ((¬world.Blocks pid ∧ ¬RemovalRefused env pid ready) ∨ (ready.Blocks pid → world.Blocks pid))
  have removal : Triple (· = ready) (unblockProcess nft.toListing env pid) (fun _ => removed) (fun _ => removed) :=
    (unblockProcess_outcome env (before.same same) fun _ => onlyReady).weaken (fun _ same => same)
      (fun _ _ done => ⟨done.1, Or.inl done.2⟩) (fun _ _ failed => ⟨failed.1, Or.inr failed.2⟩)
  refine Triple.bind (Triple.attempt removal) fun _ => ?_
  refine Triple.of_state fun middle ⟨after, remains⟩ => ?_
  have elsewhere : Elsewhere pid start middle := fun other different => by
    rw [after.elsewhere other different, same.rules]
  have onlyMiddle := onlyReady.fewer after.fewer
  have inserts := inserted_iff env pid processName start middle (after.nextHandle.trans same.nextHandle)
    (by rw [after.chain]; exact chain)
  have inserted (world : World) (done : Inserted env (.block pid)
      (portScript env pid none (blockComment pid processName)) middle world) :
      Exact nft world ∧ Elsewhere pid start world ∧ world.Blocks pid ∧ OnlyBlocks nft pid world := by
    obtain ⟨_, new, _, _, added⟩ := done.specs (blockComment_closed pid processName) (by simp)
    obtain ⟨exact, others, blocks⟩ := after.exact.appended after.untracked added
      (blockComment_single pid regular.single) (List.prefix_append _ _).isInfix
    exact ⟨exact, elsewhere.trans others, blocks, onlyMiddle.appended added⟩
  refine (insertRules_spec nft.toListing env (.block pid) pid _ env.listAfter (pidMarker pid) _ middle).weaken
    (fun _ same => same) ?_ ?_
  · rintro _ _ ⟨world, done, _, rfl⟩
    obtain ⟨exact, others, blocks, only⟩ := inserted world done
    rw [exact.searched only]
    exact ⟨exact.tracking, others, blocks⟩
  · rintro _ world (⟨rfl, nothing⟩ | ⟨done, cause⟩)
    · refine ⟨after.exact, elsewhere, ?_⟩
      rw [inserts] at nothing
      constructor
      · rintro ⟨rule, member, block⟩
        exact sameBlocks.mp ⟨rule, after.fewer rule member, block⟩
      · intro blocked
        rcases remains with ⟨_, accepted⟩ | left
        · exact absurd (sameRefused.mpr (regular.replaced nothing blocked)) accepted
        · exact left (sameBlocks.mpr blocked)
    · obtain ⟨exact, others, blocks, only⟩ := inserted world done
      refine ⟨exact, others, iff_of_true blocks ?_⟩
      by_contra free
      have accepted := regular.listed (inserts.mp ⟨world, done⟩) free
      rcases cause with refused | absent | unseen
      · exact refused accepted
      · obtain ⟨rule, member, _⟩ := blocks
        simp [world.ruleset.empty absent] at member
      · rw [exact.searched only] at unseen
        exact blocks_iff.mp blocks unseen

end Exact
end Netmon.Controller
