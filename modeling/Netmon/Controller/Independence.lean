import Netmon.Controller.Tracked

/-! Block rules and rate-limit rules of one process: what a successful call of the
one kind leaves of the rules of the other. -/
namespace Netmon.Controller
open Library

def Rule.isRateLimitOf (pid : Nat) (rule : Rule) : Bool :=
  match rule.body with
  | .netmon (.rateLimit owner) _ => owner == pid
  | _ => false

/-! ### How far a removal gets -/

section Removal
variable (nft : Listing) (env : Env)

def deletable (ruleset : Ruleset) (handle : Nat) : Bool :=
  decide (env.reply (.deleteRule handle) = .accepted ∧ handle ∈ ruleset.rules.map Rule.handle)

/-- The handles a removal deletes: all it aims at, up to the first that nft does not delete. -/
def deletions (key : Nat) (reply : Reply) (marker : Text) (world : World) : List Nat :=
  if world.trackedHandles key = [] ∧ reply ≠ .accepted then []
  else (targets nft key marker world).takeWhile (deletable env world.ruleset)

theorem runNftCommand_deleteRule (handle : Nat) (start : World) :
    Triple (· = start) (runNftCommand env (.deleteRule handle) false)
      (fun _ world => deletable env start.ruleset handle = true ∧
        world = { start with ruleset := start.ruleset.without [handle] })
      (fun _ world => deletable env start.ruleset handle = false ∧ world = start) := by
  refine (runNftCommand_spec env (.deleteRule handle) false start).weaken (fun _ same => same) ?_ ?_
  · rintro _ _ (⟨accepted, ruleset, deleted, rfl⟩ | ⟨never, _⟩)
    · obtain ⟨present, rfl⟩ := Ruleset.deleteRule_some deleted
      exact ⟨decide_eq_true ⟨accepted, present⟩, rfl⟩
    · cases never
  · rintro _ _ ⟨rfl, cause⟩
    refine ⟨decide_eq_false ?_, rfl⟩
    rintro ⟨accepted, present⟩
    rcases cause with refused | impossible
    · exact refused accepted
    · simp [Command.effect, Ruleset.deleteRule, present] at impossible

theorem deletable_without {ruleset : Ruleset} {handle other : Nat} (different : other ≠ handle) :
    deletable env (ruleset.without [handle]) other = deletable env ruleset other := by
  apply decide_eq_decide.mpr
  apply and_congr_right'
  simp only [List.mem_map, Ruleset.mem_without, List.mem_singleton]
  constructor
  · rintro ⟨rule, ⟨present, _⟩, same⟩
    exact ⟨rule, present, same⟩
  · rintro ⟨rule, present, rfl⟩
    exact ⟨rule, ⟨present, different⟩, rfl⟩

def World.without (handles : List Nat) (world : World) : World :=
  { world with ruleset := world.ruleset.without handles }

theorem takeWhile_congr {α : Type} {first second : α → Bool} {items : List α}
    (same : ∀ item ∈ items, first item = second item) : items.takeWhile first = items.takeWhile second := by
  induction items with
  | nil => rfl
  | cons item items ih =>
    rw [List.takeWhile_cons, List.takeWhile_cons, same item (by simp),
      ih fun other member => same other (List.mem_cons_of_mem item member)]

/-- What holds of all that is taken holds of everything, or up to where the taking stops. -/
theorem forall_takeWhile {α : Type} {take : α → Bool} {good : α → Prop} {items : List α} :
    (∀ item ∈ items.takeWhile take, good item) ↔ (∀ item ∈ items, good item) ∨
      ∃ front stop back, items = front ++ stop :: back ∧ take stop = false ∧ ∀ item ∈ front, good item := by
  constructor
  · intro taken
    cases rest : items.dropWhile take with
    | nil =>
      rw [List.takeWhile_eq_self_iff.mpr (List.dropWhile_eq_nil_iff.mp rest)] at taken
      exact Or.inl taken
    | cons stop back =>
      have refused := List.head?_dropWhile_not take items
      rw [rest, List.head?_cons] at refused
      refine Or.inr ⟨items.takeWhile take, stop, back, ?_, by simpa using refused, taken⟩
      rw [← rest, List.takeWhile_append_dropWhile]
  · rintro (all | ⟨front, stop, back, rfl, refused, before⟩) item member
    · exact all item ((List.takeWhile_sublist take).subset member)
    · rw [List.takeWhile_append] at member
      split at member
      · rw [List.takeWhile_cons_of_neg (by simp [refused]), List.append_nil] at member
        exact before item member
      · exact before item ((List.takeWhile_sublist take).subset member)

theorem deleteRules_reach (handles : List Nat) (once : handles.Nodup) (start : World) :
    Triple (· = start) (handles.forM fun handle => runNftCommand env (.deleteRule handle) false)
      (fun _ world => world = start.without (handles.takeWhile (deletable env start.ruleset)))
      (fun _ world => world = start.without (handles.takeWhile (deletable env start.ruleset))) := by
  induction handles generalizing start with
  | nil =>
    refine Triple.pure _ fun world same => ?_
    rw [same, List.takeWhile_nil, World.without, Ruleset.without_nil]
  | cons handle handles ih =>
    obtain ⟨absent, tail⟩ := List.nodup_cons.mp once
    refine Triple.bind (m := fun _ world => deletable env start.ruleset handle = true ∧
      world = start.without [handle]) ?_ fun _ => ?_
    · refine (runNftCommand_deleteRule env handle start).weaken (fun _ same => same) (fun _ _ done => done) ?_
      rintro _ world ⟨stuck, same⟩
      rw [List.takeWhile_cons_of_neg (by simp [stuck]), World.without, Ruleset.without_nil, same]
    · rintro middle ⟨deleted, same⟩
      have later : handles.takeWhile (deletable env (start.without [handle]).ruleset) =
          handles.takeWhile (deletable env start.ruleset) :=
        takeWhile_congr fun other member => deletable_without env fun equal => absent (equal ▸ member)
      refine (ih tail (start.without [handle])).weaken (fun _ same => same) ?_ ?_ middle same
      all_goals
        rintro _ _ rfl
        rw [List.takeWhile_cons_of_pos deleted, later, World.without, World.without, Ruleset.without_without,
          List.singleton_append]
        rfl

theorem removeRules_reach (key : Nat) (reply : Reply) (marker : Text) (start : World)
    (once : (targets nft key marker start).Nodup) :
    Triple (· = start) (removeRules env key (findHandles nft env reply marker))
      (fun _ world => world = start.removed key (deletions nft env key reply marker start))
      (fun _ world => world = start.removed key (deletions nft env key reply marker start)) := by
  have taken := (takeHandles_spec nft env key reply marker start).weaken (fun _ same => same) (fun _ _ done => done)
    (fun _ world (unanswered : world = start.removed key [] ∧ _ ∧ _) =>
      (?_ : world = start.removed key (deletions nft env key reply marker start)))
  · refine Triple.bind taken fun handles => ?_
    rintro world ⟨same, rfl, answered⟩
    have all : deletions nft env key reply marker start =
        (targets nft key marker start).takeWhile (deletable env start.ruleset) :=
      if_neg fun unanswered => unanswered.2 (answered unanswered.1)
    refine (deleteRules_reach env (targets nft key marker start) once _).weaken (fun _ same => same) ?_ ?_ world same
    all_goals
      rintro _ _ rfl
      rw [all]
      rfl
  · obtain ⟨same, untracked, refused | absent⟩ := unanswered
    · rw [same, deletions, if_pos ⟨untracked, refused⟩]
    · have nothing (handle : Nat) : deletable env start.ruleset handle = false := by
        simp [deletable, start.ruleset.empty absent]
      rw [same, deletions]
      congr 1
      split
      · rfl
      · exact (List.takeWhile_eq_nil_iff.mpr fun _ => by simp [nothing]).symm

end Removal

/-! ### What a session can reach -/

section Orderly
variable (nft : PlainListing)

structure Orderly (world : World) : Prop where
  plain : ∀ rule ∈ world.ruleset.rules, rule.Plain
  limits : ∀ rule ∈ world.ruleset.rules, ∀ pid, rule.isRateLimitOf pid = true →
    rateLimitMarker pid <:+: nft.line rule
  once : ∀ key, (world.trackedHandles key).Nodup

variable {nft} {start world : World} {purpose : Purpose} {comment : Text} {new : List Rule}

theorem isRateLimitOf_owner {rule : Rule} {pid : Nat} (limit : rule.isRateLimitOf pid = true) :
    rule.owner = some pid := by
  obtain ⟨handle, body⟩ := rule
  cases body with
  | foreign text single => simp [Rule.isRateLimitOf] at limit
  | netmon purpose spec =>
    cases purpose with
    | block owner => simp [Rule.isRateLimitOf] at limit
    | rateLimit owner => simpa [Rule.isRateLimitOf, Rule.owner, Purpose.pid] using limit

theorem Appended.isRateLimitOf (added : Appended purpose comment new start world) {rule : Rule}
    (member : rule ∈ new) (pid : Nat) : rule.isRateLimitOf pid = true ↔ purpose = .rateLimit pid := by
  obtain ⟨spec, body, _⟩ := added.body rule member
  cases purpose <;> simp [Rule.isRateLimitOf, body]

theorem orderly_stable : Stable nft.toListing (Orderly nft) where
  untouched := by
    intro world untouched
    refine ⟨fun rule member => plain_of_owner (untouched.rules rule member), ?_, ?_⟩
    · intro rule member pid limit
      have owned := isRateLimitOf_owner limit
      simp [untouched.rules rule member] at owned
    · intro key
      simp [World.trackedHandles, untouched.tracked]
  same := by
    intro start world before same
    refine ⟨same.rules ▸ before.plain, same.rules ▸ before.limits, fun key => ?_⟩
    rw [trackedHandles_congr same.tracked]
    exact before.once key
  removed := by
    intro world key handles before
    refine ⟨fun rule member => before.plain rule (Ruleset.mem_without.mp member).1,
      fun rule member => before.limits rule (Ruleset.mem_without.mp member).1, fun other => ?_⟩
    by_cases same : other = key
    · subst same
      simp
    · rw [trackedHandles_removed_ne same]
      exact before.once other
  appended := by
    intro purpose key marker comment new start world entry _ added before
    refine ⟨?_, ?_, fun other => ?_⟩
    · intro rule member
      rw [added.rules, List.mem_append] at member
      rcases member with old | recent
      · exact before.plain rule old
      · obtain ⟨spec, body, commented⟩ := added.body rule recent
        simpa [Rule.Plain, body, commented] using entry.single
    · intro rule member pid limit
      rw [added.rules, List.mem_append] at member
      rcases member with old | recent
      · exact before.limits rule old pid limit
      · obtain ⟨spec, body, commented⟩ := added.body rule recent
        obtain rfl := (added.isRateLimitOf recent pid).mp limit
        have listed := nft.line_comment rule.handle (.rateLimit pid) spec
        rw [← body, commented] at listed
        cases entry with
        | rateLimit => exact listed
    · rw [trackedHandles_congr added.tracked]
      exact before.once other
  tracking := by
    intro purpose key marker comment world entry before
    have marks : ruleCommentPrefix <+: marker := by
      cases entry with
      | block pid processName single => exact pidMarker_marks _
      | rateLimit pid => exact rateLimitMarker_marks _
    refine ⟨before.plain, before.limits, fun other => ?_⟩
    by_cases same : other = key
    · subst same
      rw [trackedHandles_tracking_same]
      exact searched_nodup before.plain marks
    · rw [trackedHandles_tracking_ne same]
      exact before.once other

end Orderly

/-! ### What a successful call leaves -/

section Outcome
variable (nft : PlainListing) (env : Env) (pid : Nat) {start world : World}

theorem deletions_same (same : SameRules start world) (key : Nat) (reply : Reply) (marker : Text) :
    deletions nft.toListing env key reply marker world = deletions nft.toListing env key reply marker start := by
  have tracked := trackedHandles_congr same.tracked key
  have listed : searched nft.toListing marker world = searched nft.toListing marker start := by
    rw [searched, searched, Listing.text, Listing.text, same.rules]
  have possible : deletable env world.ruleset = deletable env start.ruleset := by
    funext handle
    rw [deletable, deletable, same.rules]
  rw [deletions, deletions, targets, targets, tracked, listed, possible]

/-- The rules a call has added at the end of those it has left. -/
structure Added (purpose : Purpose) (limit : Option Nat) (comment : Text) (removed : List Nat) (key : Nat)
    (new : List Rule) (start world : World) : Prop where
  rules : world.ruleset.rules = (start.ruleset.without removed).rules ++ new
  meant : ∃ specs, processSpecs env.read purpose.pid limit comment = some specs ∧
    new.map Rule.body = specs.map (.netmon purpose)
  some : new ≠ []
  tracked : ∀ other ≠ key, world.trackedHandles other = start.trackedHandles other

theorem insertRules_added (purpose : Purpose) {key : Nat} {marker comment : Text} (limit : Option Nat)
    (bound : ∀ rateKbps ∈ limit, rateKbps < 2^64) (closed : '"' ∉ comment) (reply : Reply) (noHandles : Text)
    (start middle : World) (removed : List Nat) (same : SameRules start middle) :
    Triple (· = middle.removed key removed)
      (insertRules env purpose key (portScript env purpose.pid limit comment)
        (findHandles nft.toListing env reply marker) noHandles)
      (fun _ world => ∃ new, Added env purpose limit comment removed key new start world) (fun _ _ => True) := by
  refine (insertRules_spec nft.toListing env purpose key _ reply marker noHandles _).weaken (fun _ same => same) ?_
    fun _ _ _ => trivial
  rintro _ _ ⟨world, done, _, rfl⟩
  obtain ⟨specs, new, meant, bodies, added⟩ := done.specs closed bound
  refine ⟨new, ?_, ⟨specs, meant, bodies⟩, added.some, fun other different => ?_⟩
  · rw [tracking_ruleset, added.rules, World.removed, Ruleset.without_rules, Ruleset.without_rules, same.rules]
  · rw [trackedHandles_tracking_ne different, trackedHandles_congr added.tracked, trackedHandles_removed_ne different,
      trackedHandles_congr same.tracked]

theorem Orderly.same (before : Orderly nft start) (same : SameRules start world) : Orderly nft world :=
  orderly_stable.same before same

theorem blockProcess_added (processName : Text) (start : World) (orderly : Orderly nft start) :
    Triple (· = start) (blockProcess nft.toListing env pid processName)
      (fun _ world => ∃ new, Added env (.block pid) none (blockComment pid processName)
        (deletions nft.toListing env pid env.listBefore (pidMarker pid) start) pid new start world)
      (fun _ _ => True) := by
  refine Triple.bind (Triple.attempt (setupNftables_spec env start)) fun _ => ?_
  refine Triple.of_state fun ready same => ?_
  have once : (targets nft.toListing pid (pidMarker pid) ready).Nodup :=
    targets_nodup (orderly.same nft same).plain (pidMarker_marks pid) ((orderly.same nft same).once pid)
  refine Triple.bind (Triple.attempt (removeRules_reach nft.toListing env pid env.listBefore (pidMarker pid) ready once))
    fun _ => ?_
  rw [← deletions_same nft env same]
  exact insertRules_added nft env (.block pid) none (by simp) (blockComment_closed pid processName)
    env.listAfter _ start ready _ same

theorem rateLimitProcess_added (rateKbps : UInt32) (start : World) :
    Triple (· = start) (rateLimitProcess nft.toListing env pid rateKbps)
      (fun _ world => ∃ new, Added env (.rateLimit pid) (some rateKbps.toNat) (rateLimitMarker pid)
        (targets nft.toListing (rateLimitSentinel pid) (rateLimitMarker pid) start) (rateLimitSentinel pid) new start
        world)
      (fun _ _ => True) := by
  refine Triple.bind (Triple.attempt (setupNftables_spec env start)) fun _ => ?_
  refine Triple.of_state fun ready same => ?_
  have aims : targets nft.toListing (rateLimitSentinel pid) (rateLimitMarker pid) ready =
      targets nft.toListing (rateLimitSentinel pid) (rateLimitMarker pid) start := by
    rw [targets, targets, trackedHandles_congr same.tracked, searched, searched, Listing.text, Listing.text, same.rules]
  refine Triple.bind ((removeRules_removed nft.toListing env (rateLimitSentinel pid) env.listBefore
    (rateLimitMarker pid) ready).weaken (fun _ same => same) (fun _ _ done => done) fun _ _ _ => trivial) fun _ => ?_
  rw [← aims]
  exact insertRules_added nft env (.rateLimit pid) (some rateKbps.toNat) (toNat_bound rateKbps)
    (rateLimitMarker_closed pid) env.listAfter _ start ready _ same

/-! ### Which rules stay -/

def World.limitRules (pid : Nat) (world : World) : List Rule := world.ruleset.rules.filter (Rule.isRateLimitOf pid)
def World.blockRules (pid : Nat) (world : World) : List Rule := world.ruleset.rules.filter (Rule.isBlockOf pid)

/-- No rate-limit rule of the process is tracked as a block rule of it, and there is none where none is tracked. -/
structure SparesLimits (pid : Nat) (world : World) : Prop where
  tracked : ∀ rule ∈ world.ruleset.rules, rule.isRateLimitOf pid = true → rule.handle ∉ world.trackedHandles pid
  untracked : world.trackedHandles pid = [] → ∀ rule ∈ world.ruleset.rules, rule.isRateLimitOf pid = false

/-- No block rule of the process is tracked as a rate-limit rule of it, or listed as one where none is tracked. -/
structure SparesBlocks (pid : Nat) (world : World) : Prop where
  tracked : ∀ rule ∈ world.ruleset.rules, rule.isBlockOf pid = true →
    rule.handle ∉ world.trackedHandles (rateLimitSentinel pid)
  untracked : world.trackedHandles (rateLimitSentinel pid) = [] → ∀ rule ∈ world.ruleset.rules,
    rule.isBlockOf pid = true → ¬rateLimitMarker pid <:+: nft.line rule

/-- What keeps a block from the rate-limit rules of its process: they are spared, or the host answers so that the
removal at the start of the block ends before the first of them. -/
inductive KeepsLimits (pid : Nat) (world : World) : Prop
  | spared (spares : SparesLimits pid world)
  | unlisted (untracked : world.trackedHandles pid = []) (refused : env.listBefore ≠ .accepted)
  | stoppedAtTracked (front : List Nat) (handle : Nat) (back : List Nat)
      (tracked : world.trackedHandles pid = front ++ handle :: back) (stuck : Stuck env handle world.ruleset)
      (before : ∀ rule ∈ world.ruleset.rules, rule.isRateLimitOf pid = true → rule.handle ∉ front)
  | stoppedAtListed (front : List Rule) (rule : Rule) (back : List Rule) (untracked : world.trackedHandles pid = [])
      (chain : world.ruleset.rules = front ++ rule :: back) (listed : pidMarker pid <:+: nft.line rule)
      (refused : env.reply (.deleteRule rule.handle) ≠ .accepted)
      (before : ∀ earlier ∈ front, earlier.isRateLimitOf pid = false)

theorem filter_without (kind : Rule → Bool) (handles : List Nat) (ruleset : Ruleset) :
    (ruleset.without handles).rules.filter kind = ruleset.rules.filter kind ↔
      ∀ rule ∈ ruleset.rules, kind rule = true → rule.handle ∉ handles := by
  rw [Ruleset.without_rules, List.filter_comm, List.filter_eq_self]
  simp

theorem Added.body {purpose : Purpose} {limit : Option Nat} {comment : Text} {removed : List Nat} {key : Nat}
    {new : List Rule} (added : Added env purpose limit comment removed key new start world) {rule : Rule}
    (member : rule ∈ new) : ∃ spec, rule.body = .netmon purpose spec := by
  obtain ⟨specs, _, bodies⟩ := added.meant
  have mapped : rule.body ∈ specs.map (RuleBody.netmon purpose) := bodies ▸ List.mem_map_of_mem member
  obtain ⟨spec, _, same⟩ := List.mem_map.mp mapped
  exact ⟨spec, same.symm⟩

theorem Added.filter {purpose : Purpose} {limit : Option Nat} {comment : Text} {removed : List Nat} {key : Nat}
    {new : List Rule} (added : Added env purpose limit comment removed key new start world) (kind : Rule → Bool)
    (other : ∀ rule ∈ new, kind rule = false) :
    world.ruleset.rules.filter kind = start.ruleset.rules.filter kind ↔
      ∀ rule ∈ start.ruleset.rules, kind rule = true → rule.handle ∉ removed := by
  have none : new.filter kind = [] := by
    rw [List.filter_eq_nil_iff]
    intro rule member
    simp [other rule member]
  rw [added.rules, List.filter_append, none, List.append_nil, filter_without]

variable {nft env pid}

theorem deletable_eq_false {ruleset : Ruleset} {handle : Nat} :
    deletable env ruleset handle = false ↔ Stuck env handle ruleset := by
  rw [deletable, decide_eq_false_iff_not, not_and_or]
  rfl

theorem Orderly.limit_listed (orderly : Orderly nft start) {rule : Rule} (member : rule ∈ start.ruleset.rules)
    (limit : rule.isRateLimitOf pid = true) : pidMarker pid <:+: nft.line rule :=
  (List.prefix_append (pidMarker pid) "rate-limit".toList).isInfix.trans (orderly.limits rule member pid limit)

theorem sparesLimits_iff (orderly : Orderly nft start) : SparesLimits pid start ↔
    ∀ rule ∈ start.ruleset.rules, rule.isRateLimitOf pid = true →
      rule.handle ∉ targets nft.toListing pid (pidMarker pid) start := by
  constructor
  · intro spares rule member limit aimed
    unfold targets at aimed
    split at aimed
    · rename_i untracked
      simp [spares.untracked (List.isEmpty_iff.mp untracked) rule member] at limit
    · exact spares.tracked rule member limit aimed
  · intro spared
    refine ⟨fun rule member limit tracked => ?_, fun untracked rule member => ?_⟩
    · refine spared rule member limit ?_
      rw [targets, if_neg]
      · exact tracked
      · simp [List.ne_nil_of_mem tracked]
    · cases limit : rule.isRateLimitOf pid with
      | false => rfl
      | true =>
        refine absurd ?_ (spared rule member limit)
        rw [targets, if_pos (by simp [untracked]), mem_searched orderly.plain (pidMarker_marks pid)]
        exact ⟨rule, member, orderly.limit_listed member limit, rfl⟩

theorem searched_filter (orderly : Orderly nft start) : searched nft.toListing (pidMarker pid) start =
    (start.ruleset.rules.filter fun rule => contains (nft.line rule) (pidMarker pid)).map Rule.handle :=
  markedHandles_plain nft (pidMarker_marks pid) _ orderly.plain

/-- A removal that ends at a handle it has searched for ends at a rule of the chain. -/
theorem stoppedAt_listed (orderly : Orderly nft start) {front back : List Nat} {stop : Nat}
    (split : searched nft.toListing (pidMarker pid) start = front ++ stop :: back) :
    ∃ earlier rule later, start.ruleset.rules = earlier ++ rule :: later ∧ rule.handle = stop ∧
      pidMarker pid <:+: nft.line rule ∧
      ∀ other ∈ earlier, pidMarker pid <:+: nft.line other → other.handle ∈ front := by
  rw [searched_filter orderly] at split
  obtain ⟨before, rest, filtered, rfl, mapped⟩ := List.map_eq_append_iff.mp split
  obtain ⟨rule, after, rfl, rfl, rfl⟩ := List.map_eq_cons_iff.mp mapped
  obtain ⟨first, second, chain, rfl, tail⟩ := List.filter_eq_append_iff.mp filtered
  obtain ⟨unlisted, later, rfl, none, listed, rfl⟩ := List.filter_eq_cons_iff.mp tail
  refine ⟨first ++ unlisted, rule, later, by rw [chain, List.append_assoc], rfl, (contains_iff _ _).mp listed, ?_⟩
  intro other member marked
  have found : contains (nft.line other) (pidMarker pid) = true := (contains_iff _ _).mpr marked
  rcases List.mem_append.mp member with inFirst | inUnlisted
  · exact List.mem_map_of_mem (List.mem_filter.mpr ⟨inFirst, found⟩)
  · exact absurd found (none other inUnlisted)

theorem keepsLimits_of_deletions (orderly : Orderly nft start)
    (kept : ∀ rule ∈ start.ruleset.rules, rule.isRateLimitOf pid = true →
      rule.handle ∉ deletions nft.toListing env pid env.listBefore (pidMarker pid) start) :
    KeepsLimits nft env pid start := by
  by_cases unanswered : start.trackedHandles pid = [] ∧ env.listBefore ≠ .accepted
  · exact .unlisted unanswered.1 unanswered.2
  rw [deletions, if_neg unanswered] at kept
  have taken : ∀ handle ∈ (targets nft.toListing pid (pidMarker pid) start).takeWhile (deletable env start.ruleset),
      ∀ rule ∈ start.ruleset.rules, rule.isRateLimitOf pid = true → rule.handle ≠ handle :=
    fun handle inside rule member limit same => kept rule member limit (same ▸ inside)
  rcases forall_takeWhile.mp taken with all | ⟨front, stop, back, split, stuck, before⟩
  · exact .spared ((sparesLimits_iff orderly).mpr fun rule member limit aimed => all rule.handle aimed rule member limit rfl)
  rw [deletable_eq_false] at stuck
  by_cases untracked : start.trackedHandles pid = []
  · rw [targets, if_pos (by simp [untracked])] at split
    obtain ⟨earlier, rule, later, chain, rfl, listed, listedBefore⟩ := stoppedAt_listed orderly split
    refine .stoppedAtListed earlier rule later untracked chain listed ?_ fun other member => ?_
    · refine stuck.resolve_right fun absent => absent (List.mem_map_of_mem ?_)
      simp [chain]
    · have present : other ∈ start.ruleset.rules := by simp [chain, member]
      cases limit : other.isRateLimitOf pid with
      | false => rfl
      | true =>
        have inFront := listedBefore other member (orderly.limit_listed present limit)
        exact absurd rfl (before other.handle inFront other present limit)
  · rw [targets, if_neg (by simpa using untracked)] at split
    exact .stoppedAtTracked front stop back split stuck fun rule member limit inside =>
      before rule.handle inside rule member limit rfl

theorem deletions_of_keepsLimits (orderly : Orderly nft start) (keeps : KeepsLimits nft env pid start) :
    ∀ rule ∈ start.ruleset.rules, rule.isRateLimitOf pid = true →
      rule.handle ∉ deletions nft.toListing env pid env.listBefore (pidMarker pid) start := by
  have stops (front : List Nat) (stop : Nat) (back : List Nat)
      (split : targets nft.toListing pid (pidMarker pid) start = front ++ stop :: back)
      (stuck : Stuck env stop start.ruleset)
      (before : ∀ rule ∈ start.ruleset.rules, rule.isRateLimitOf pid = true → rule.handle ∉ front) :
      ∀ rule ∈ start.ruleset.rules, rule.isRateLimitOf pid = true →
        rule.handle ∉ deletions nft.toListing env pid env.listBefore (pidMarker pid) start := by
    intro rule member limit deleted
    unfold deletions at deleted
    split at deleted
    · cases deleted
    · have kept : ∀ handle ∈ (targets nft.toListing pid (pidMarker pid) start).takeWhile (deletable env start.ruleset),
          rule.handle ≠ handle :=
        forall_takeWhile.mpr (Or.inr ⟨front, stop, back, split, deletable_eq_false.mpr stuck,
          fun handle inside same => before rule member limit (same ▸ inside)⟩)
      exact kept rule.handle deleted rfl
  cases keeps with
  | spared spares =>
    intro rule member limit deleted
    unfold deletions at deleted
    split at deleted
    · cases deleted
    · exact (sparesLimits_iff orderly).mp spares rule member limit ((List.takeWhile_sublist _).subset deleted)
  | unlisted untracked refused =>
    rw [deletions, if_pos ⟨untracked, refused⟩]
    simp
  | stoppedAtTracked front handle back tracked stuck before =>
    refine stops front handle back ?_ stuck before
    rw [targets, if_neg (by simp [tracked]), tracked]
  | stoppedAtListed front rule back untracked chain listed refused before =>
    let marked := fun other => contains (nft.line other) (pidMarker pid)
    refine stops ((front.filter marked).map Rule.handle) rule.handle ((back.filter marked).map Rule.handle) ?_
      (Or.inl refused) ?_
    · have found : marked rule = true := (contains_iff _ _).mpr listed
      rw [targets, if_pos (by simp [untracked]), searched_filter orderly, chain, List.filter_append,
        List.filter_cons_of_pos found, List.map_append, List.map_cons]
    · intro other member limit inside
      obtain ⟨found, kept, same⟩ := List.mem_map.mp inside
      have early : found ∈ front := (List.mem_filter.mp kept).1
      obtain rfl := start.ruleset.eq_of_handle (by simp [chain, early]) member same
      simp [before found early] at limit

theorem blockProcess_limitRules (orderly : Orderly nft start) {processName : Text}
    (returned : blockProcess nft.toListing env pid processName start = .ok () world) :
    world.limitRules pid = start.limitRules pid ↔ KeepsLimits nft env pid start := by
  have outcome := blockProcess_added nft env pid processName start orderly start rfl
  rw [returned] at outcome
  obtain ⟨new, added⟩ := outcome
  have kept : world.limitRules pid = start.limitRules pid ↔ ∀ rule ∈ start.ruleset.rules,
      rule.isRateLimitOf pid = true →
        rule.handle ∉ deletions nft.toListing env pid env.listBefore (pidMarker pid) start := by
    refine added.filter env (Rule.isRateLimitOf pid) fun rule member => ?_
    obtain ⟨spec, body⟩ := added.body env member
    simp [Rule.isRateLimitOf, body]
  exact kept.trans ⟨keepsLimits_of_deletions orderly, deletions_of_keepsLimits orderly⟩

theorem unblockProcess_limitRules (orderly : Orderly nft start)
    (returned : unblockProcess nft.toListing env pid start = .ok () world) :
    world.limitRules pid = start.limitRules pid ↔ SparesLimits pid start := by
  have outcome := removeRules_removed nft.toListing env pid env.listBefore (pidMarker pid) start start rfl
  rw [unblockProcess, findRuleHandlesForPid] at returned
  rw [returned] at outcome
  subst outcome
  rw [World.limitRules, World.limitRules, World.removed, filter_without, sparesLimits_iff orderly]

theorem rateLimitProcess_blockRules (orderly : Orderly nft start) {rateKbps : UInt32}
    (returned : rateLimitProcess nft.toListing env pid rateKbps start = .ok () world) :
    world.blockRules pid = start.blockRules pid ↔ SparesBlocks nft pid start := by
  have outcome := rateLimitProcess_added nft env pid rateKbps start start rfl
  rw [returned] at outcome
  obtain ⟨new, added⟩ := outcome
  have limits : ∀ rule ∈ new, rule.isBlockOf pid = false := by
    intro rule member
    obtain ⟨spec, body⟩ := added.body env member
    simp [Rule.isBlockOf, body]
  rw [World.blockRules, World.blockRules, added.filter env (Rule.isBlockOf pid) limits]
  constructor
  · intro spared
    refine ⟨fun rule member block tracked => ?_, fun untracked rule member block marked => ?_⟩
    · refine spared rule member block ?_
      rw [targets, if_neg]
      · exact tracked
      · simp [List.ne_nil_of_mem tracked]
    · refine spared rule member block ?_
      rw [targets, if_pos (by simp [untracked])]
      exact (mem_searched orderly.plain (rateLimitMarker_marks pid)).mpr ⟨rule, member, marked, rfl⟩
  · intro spares rule member block aimed
    unfold targets at aimed
    split at aimed
    · rename_i untracked
      obtain ⟨other, present, marked, same⟩ := (mem_searched orderly.plain (rateLimitMarker_marks pid)).mp aimed
      obtain rfl := start.ruleset.eq_of_handle present member same
      exact spares.untracked (List.isEmpty_iff.mp untracked) other present block marked
    · exact spares.tracked rule member block aimed

end Outcome

/-! ### Blocking and limiting in either order -/

section Order
variable (nft : PlainListing) {pid : Nat} {start : World}

/-- The handles tracked under a key are those of rules of one kind, and where there are none the marker is listed
with rules of that kind only. -/
structure AimsOnlyAt (kind : Rule → Bool) (key : Nat) (marker : Text) (world : World) : Prop where
  tracked : ∀ handle ∈ world.trackedHandles key, ∃ rule ∈ world.ruleset.rules, rule.handle = handle ∧ kind rule = true
  untracked : world.trackedHandles key = [] → ∀ rule ∈ world.ruleset.rules, marker <:+: nft.line rule →
    kind rule = true

def BlockAims (pid : Nat) (world : World) : Prop := AimsOnlyAt nft (Rule.isBlockOf pid) pid (pidMarker pid) world
def LimitAims (pid : Nat) (world : World) : Prop :=
  AimsOnlyAt nft (Rule.isRateLimitOf pid) (rateLimitSentinel pid) (rateLimitMarker pid) world

def AnswersRemovals (env : Env) : Prop :=
  env.listBefore = .accepted ∧ ∀ handle, env.reply (.deleteRule handle) = .accepted

/-- A block of the process is tracked, and where no rate limit is, the search for one does not find the block. -/
structure OrderFree (pid : Nat) (processName : Text) (world : World) : Prop where
  blocked : world.trackedHandles pid ≠ []
  named : world.trackedHandles (rateLimitSentinel pid) = [] → ¬rateLimitMarker pid <:+: blockComment pid processName

variable {nft}

theorem AimsOnlyAt.aimed {kind : Rule → Bool} {key : Nat} {marker : Text}
    (aims : AimsOnlyAt nft kind key marker start) (orderly : Orderly nft start) (marks : ruleCommentPrefix <+: marker) :
    ∀ handle ∈ targets nft.toListing key marker start, ∃ rule ∈ start.ruleset.rules,
      rule.handle = handle ∧ kind rule = true := by
  intro handle aimed
  unfold targets at aimed
  split at aimed
  · rename_i untracked
    obtain ⟨rule, member, marked, same⟩ := (mem_searched orderly.plain marks).mp aimed
    exact ⟨rule, member, same, aims.untracked (List.isEmpty_iff.mp untracked) rule member marked⟩
  · exact aims.tracked handle aimed

theorem deletions_answered {key : Nat} {marker : Text} {env : Env} (answers : AnswersRemovals env)
    (present : ∀ handle ∈ targets nft.toListing key marker start, handle ∈ start.ruleset.rules.map Rule.handle) :
    deletions nft.toListing env key env.listBefore marker start = targets nft.toListing key marker start := by
  rw [deletions, if_neg fun unanswered => unanswered.2 answers.1, List.takeWhile_eq_self_iff]
  intro handle aimed
  exact decide_eq_true ⟨answers.2 handle, present handle aimed⟩

theorem AimsOnlyAt.deletions {kind : Rule → Bool} {key : Nat} {marker : Text} {env : Env}
    (aims : AimsOnlyAt nft kind key marker start) (orderly : Orderly nft start) (marks : ruleCommentPrefix <+: marker)
    (answers : AnswersRemovals env) :
    deletions nft.toListing env key env.listBefore marker start = targets nft.toListing key marker start := by
  apply deletions_answered answers
  intro handle aimed
  obtain ⟨rule, member, rfl, _⟩ := aims.aimed orderly marks handle aimed
  exact List.mem_map_of_mem member

theorem AimsOnlyAt.spares {kind : Rule → Bool} {key : Nat} {marker : Text} (aims : AimsOnlyAt nft kind key marker start)
    (orderly : Orderly nft start) (marks : ruleCommentPrefix <+: marker) {rule : Rule}
    (member : rule ∈ start.ruleset.rules) (other : kind rule = false) :
    rule.handle ∉ targets nft.toListing key marker start := by
  intro aimed
  obtain ⟨found, present, same, right⟩ := aims.aimed orderly marks rule.handle aimed
  obtain rfl := start.ruleset.eq_of_handle present member same
  simp [other] at right

theorem Added.kept {env : Env} {purpose : Purpose} {limit : Option Nat} {comment : Text} {removed : List Nat}
    {key : Nat} {new : List Rule} {world : World} (added : Added env purpose limit comment removed key new start world)
    (handles : List Nat) (other : ∀ rule ∈ new, rule.handle ∉ handles) :
    (world.ruleset.without handles).rules = (start.ruleset.without (removed ++ handles)).rules ++ new := by
  have whole : new.filter (fun rule => rule.handle ∉ handles) = new := by
    rw [List.filter_eq_self]
    intro rule member
    simp [other rule member]
  rw [Ruleset.without_rules, added.rules, List.filter_append, whole, ← Ruleset.without_without]
  rfl

theorem Added.bodies {env : Env} {purpose : Purpose} {limit : Option Nat} {comment : Text} {removed removedToo : List Nat}
    {key : Nat} {new newToo : List Rule} {startToo world worldToo : World}
    (one : Added env purpose limit comment removed key new start world)
    (two : Added env purpose limit comment removedToo key newToo startToo worldToo) :
    new.map Rule.body = newToo.map Rule.body := by
  obtain ⟨specs, meant, bodies⟩ := one.meant
  obtain ⟨others, meantToo, bodiesToo⟩ := two.meant
  rw [bodies, bodiesToo, Option.some.inj (meant.symm.trans meantToo)]

/-- A rule that both worlds hold is searched for with the same result. -/
theorem mem_targets_iff {world : World} {key : Nat} {marker : Text} (orderly : Orderly nft start)
    (orderlyToo : Orderly nft world) (marks : ruleCommentPrefix <+: marker)
    (tracked : world.trackedHandles key = start.trackedHandles key) {rule : Rule}
    (member : rule ∈ start.ruleset.rules) (present : rule ∈ world.ruleset.rules) :
    rule.handle ∈ targets nft.toListing key marker world ↔ rule.handle ∈ targets nft.toListing key marker start := by
  rw [targets, targets, tracked]
  split
  · rw [mem_searched orderlyToo.plain marks, mem_searched orderly.plain marks]
    constructor
    · rintro ⟨other, inWorld, marked, equal⟩
      obtain rfl := world.ruleset.eq_of_handle inWorld present equal
      exact ⟨other, member, marked, rfl⟩
    · rintro ⟨other, inStart, marked, equal⟩
      obtain rfl := start.ruleset.eq_of_handle inStart member equal
      exact ⟨other, present, marked, rfl⟩
  · rfl

theorem Orderly.step {world final : World} (before : Orderly nft world) (call : Call) (lawful : call.op.Lawful)
    (returned : perform nft.toListing call world = .ok () final) : Orderly nft final := by
  have after := orderly_stable.step world call before lawful
  rwa [Controller.step, finalState, returned] at after

section Added
variable {env : Env} {purpose : Purpose} {limit : Option Nat} {comment : Text} {removed : List Nat} {key : Nat}
  {new : List Rule} {world : World}

/-- A removal that aims at rules of another kind does not aim at what a call has inserted. -/
theorem AimsOnlyAt.spares_added {kind : Rule → Bool} {other : Nat} {marker : Text}
    (aims : AimsOnlyAt nft kind other marker world) (orderly : Orderly nft world)
    (marks : ruleCommentPrefix <+: marker) (added : Added env purpose limit comment removed key new start world)
    (differs : ∀ rule spec, rule.body = .netmon purpose spec → kind rule = false) :
    ∀ rule ∈ new, rule.handle ∉ targets nft.toListing other marker world := by
  intro rule member
  obtain ⟨spec, body⟩ := added.body env member
  exact aims.spares orderly marks (by simp [added.rules, member]) (differs rule spec body)

theorem Added.old (added : Added env purpose limit comment removed key new start world) {rule : Rule}
    (member : rule ∈ start.ruleset.rules) (kept : rule.handle ∉ removed) : rule ∈ world.ruleset.rules := by
  rw [added.rules]
  exact List.mem_append_left new (Ruleset.mem_without.mpr ⟨member, kept⟩)

theorem Added.recent (added : Added env purpose limit comment removed key new start world) {rule : Rule}
    (member : rule ∈ new) : rule ∈ world.ruleset.rules := by
  rw [added.rules]
  exact List.mem_append_right _ member

theorem Added.cases (added : Added env purpose limit comment removed key new start world) {rule : Rule}
    (member : rule ∈ world.ruleset.rules) : (rule ∈ start.ruleset.rules ∧ rule.handle ∉ removed) ∨ rule ∈ new := by
  rw [added.rules, List.mem_append, Ruleset.mem_without] at member
  exact member

theorem Added.commented (added : Added env purpose limit comment removed key new start world) {rule : Rule}
    (member : rule ∈ new) : ∃ spec, rule.body = .netmon purpose spec ∧ spec.comment = comment := by
  obtain ⟨specs, meant, bodies⟩ := added.meant
  have mapped : rule.body ∈ specs.map (RuleBody.netmon purpose) := bodies ▸ List.mem_map_of_mem member
  obtain ⟨spec, inside, same⟩ := List.mem_map.mp mapped
  exact ⟨spec, same.symm, (processSpecs_some meant).2 spec inside⟩

/-- Whether a search finds what a call has inserted is a matter of the comment. -/
theorem Added.listed_iff {marker : Text} (added : Added env purpose limit comment removed key new start world)
    (closed : '"' ∉ comment) (marks : ruleCommentPrefix <+: marker) (markerClosed : '"' ∉ marker) {rule : Rule}
    (member : rule ∈ new) : marker <:+: nft.line rule ↔ marker <:+: comment := by
  obtain ⟨handle, body⟩ := rule
  obtain ⟨spec, rfl, rfl⟩ := added.commented member
  exact ⟨nft.line_marked handle purpose spec marker closed marks markerClosed,
    fun inside => inside.trans (nft.line_comment handle purpose spec)⟩

/-- A later removal for another key takes the same old rules with it as an earlier one would have. -/
theorem Added.left {other : Nat} {marker : Text} (added : Added env purpose limit comment removed key new start world)
    (orderly : Orderly nft start) (orderlyToo : Orderly nft world) (marks : ruleCommentPrefix <+: marker)
    (different : other ≠ key) :
    (start.ruleset.without (removed ++ targets nft.toListing other marker world)).rules =
      (start.ruleset.without (targets nft.toListing other marker start ++ removed)).rules := by
  apply List.filter_congr
  intro rule member
  have same (kept : rule.handle ∉ removed) :
      rule.handle ∈ targets nft.toListing other marker world ↔ rule.handle ∈ targets nft.toListing other marker start := by
    refine mem_targets_iff orderly orderlyToo marks (added.tracked _ different) member ?_
    rw [added.rules]
    exact List.mem_append_left _ (Ruleset.mem_without.mpr ⟨member, kept⟩)
  rw [decide_eq_decide, List.mem_append, List.mem_append, not_or, not_or]
  constructor
  · rintro ⟨kept, keptToo⟩
    exact ⟨fun aimed => keptToo ((same kept).mpr aimed), kept⟩
  · rintro ⟨keptToo, kept⟩
    exact ⟨kept, fun aimed => keptToo ((same kept).mp aimed)⟩

end Added

section Either
variable {blockEnv limitEnv : Env} {processName : Text} {rateKbps : UInt32} {comment : Text} {limit : Option Nat}
  {removed : List Nat} {new : List Rule} {blocked limited : World}

/-- After a block the removal of a rate limit still aims at rate-limit rules only, if the search spares the block. -/
theorem LimitAims.after_block (aims : LimitAims nft pid start)
    (added : Added blockEnv (.block pid) none (blockComment pid processName) removed pid new start blocked)
    (apart : rateLimitSentinel pid ≠ pid)
    (kept : ∀ rule ∈ start.ruleset.rules, rule.isRateLimitOf pid = true → rule.handle ∉ removed)
    (named : start.trackedHandles (rateLimitSentinel pid) = [] →
      ¬rateLimitMarker pid <:+: blockComment pid processName) : LimitAims nft pid blocked where
  tracked handle member := by
    rw [added.tracked _ apart] at member
    obtain ⟨rule, present, same, limit⟩ := aims.tracked handle member
    exact ⟨rule, added.old present (kept rule present limit), same, limit⟩
  untracked nothing rule member listed := by
    rw [added.tracked _ apart] at nothing
    rcases added.cases member with ⟨present, _⟩ | recent
    · exact aims.untracked nothing rule present listed
    · exact absurd ((added.listed_iff (blockComment_closed pid processName) (rateLimitMarker_marks pid)
        (rateLimitMarker_closed pid) recent).mp listed) (named nothing)

/-- After a rate limit the removal of a tracked block still aims at block rules only. -/
theorem BlockAims.after_limit (aims : BlockAims nft pid start)
    (added : Added limitEnv (.rateLimit pid) limit comment removed (rateLimitSentinel pid) new start limited)
    (apart : rateLimitSentinel pid ≠ pid)
    (kept : ∀ rule ∈ start.ruleset.rules, rule.isBlockOf pid = true → rule.handle ∉ removed)
    (tracked : start.trackedHandles pid ≠ []) : BlockAims nft pid limited where
  tracked handle member := by
    rw [added.tracked _ apart.symm] at member
    obtain ⟨rule, present, same, block⟩ := aims.tracked handle member
    exact ⟨rule, added.old present (kept rule present block), same, block⟩
  untracked nothing := absurd (added.tracked _ apart.symm ▸ nothing) tracked

theorem isBlockOf_of_limit {rule : Rule} (limit : rule.isRateLimitOf pid = true) : rule.isBlockOf pid = false := by
  obtain ⟨handle, body⟩ := rule
  cases body with
  | foreign text single => rfl
  | netmon purpose spec =>
    cases purpose with
    | block owner => cases limit
    | rateLimit owner => rfl

theorem isRateLimitOf_of_block {rule : Rule} (block : rule.isBlockOf pid = true) : rule.isRateLimitOf pid = false := by
  cases limit : rule.isRateLimitOf pid with
  | false => rfl
  | true => simp [isBlockOf_of_limit limit] at block

/-- Two chains with the same rules up to handles hold rules of the same kinds. -/
theorem exists_of_perm {first second : List Rule} {kind : Rule → Bool}
    (byBody : ∀ one two : Rule, one.body = two.body → kind one = kind two)
    (same : (first.map Rule.body).Perm (second.map Rule.body)) {rule : Rule} (member : rule ∈ first)
    (right : kind rule = true) : ∃ other ∈ second, kind other = true := by
  obtain ⟨other, present, equal⟩ := List.mem_map.mp (same.mem_iff.mp (List.mem_map_of_mem member))
  exact ⟨other, present, (byBody other rule equal).trans right⟩

/-- A block of a process without tracked handles takes every rate-limit rule of it along. -/
theorem untracked_block_unlimited {blockedAfter : World} (orderly : Orderly nft limited)
    (answers : AnswersRemovals blockEnv) (untracked : limited.trackedHandles pid = [])
    (added : Added blockEnv (.block pid) none (blockComment pid processName)
      (deletions nft.toListing blockEnv pid blockEnv.listBefore (pidMarker pid) limited) pid new limited blockedAfter) :
    ∀ rule ∈ blockedAfter.ruleset.rules, rule.isRateLimitOf pid = false := by
  have aims : targets nft.toListing pid (pidMarker pid) limited = searched nft.toListing (pidMarker pid) limited :=
    if_pos (by simp [untracked])
  have present : ∀ handle ∈ targets nft.toListing pid (pidMarker pid) limited,
      handle ∈ limited.ruleset.rules.map Rule.handle := by
    intro handle aimed
    rw [aims] at aimed
    obtain ⟨rule, member, _, rfl⟩ := (mem_searched orderly.plain (pidMarker_marks pid)).mp aimed
    exact List.mem_map_of_mem member
  have all := deletions_answered answers present
  intro rule member
  rcases added.cases member with ⟨present, kept⟩ | recent
  · cases limit : rule.isRateLimitOf pid with
    | false => rfl
    | true =>
      refine absurd ?_ kept
      rw [all, aims, mem_searched orderly.plain (pidMarker_marks pid)]
      exact ⟨rule, present, orderly.limit_listed present limit, rfl⟩
  · obtain ⟨spec, body, _⟩ := added.commented recent
    simp [Rule.isRateLimitOf, body]

/-- What the calls of both orders add, and which rules they remove. -/
structure EitherOrder (nft : PlainListing) (blockEnv limitEnv : Env) (pid : Nat) (processName : Text) (limit : Nat)
    (start blocked limitedAfter limited blockedAfter : World) (newBlock newLimit sameLimit sameBlock : List Rule) :
    Prop where
  blockFirst : Added blockEnv (.block pid) none (blockComment pid processName)
    (targets nft.toListing pid (pidMarker pid) start) pid newBlock start blocked
  limitSecond : Added limitEnv (.rateLimit pid) (some limit) (rateLimitMarker pid)
    (targets nft.toListing (rateLimitSentinel pid) (rateLimitMarker pid) blocked) (rateLimitSentinel pid) newLimit
    blocked limitedAfter
  limitFirst : Added limitEnv (.rateLimit pid) (some limit) (rateLimitMarker pid)
    (targets nft.toListing (rateLimitSentinel pid) (rateLimitMarker pid) start) (rateLimitSentinel pid) sameLimit
    start limited
  blockSecond : Added blockEnv (.block pid) none (blockComment pid processName)
    (deletions nft.toListing blockEnv pid blockEnv.listBefore (pidMarker pid) limited) pid sameBlock limited
    blockedAfter

theorem rateLimitSentinel_ne (pid : Nat) (small : pid < 2^31) : rateLimitSentinel pid ≠ pid := by
  have := rateLimitSentinel_ge pid
  omega

section Orders
variable {rate : Nat} {limitedAfter blockedAfter : World} {newBlock newLimit sameLimit sameBlock : List Rule}
  (orders : EitherOrder nft blockEnv limitEnv pid processName rate start blocked limitedAfter limited blockedAfter
    newBlock newLimit sameLimit sameBlock)
  (small : pid < 2^31)
include orders small

/-- A block that comes second, and finds nothing tracked, has removed the new rate limit. -/
theorem EitherOrder.tracked_of_same (orderlyLimited : Orderly nft limited) (answers : AnswersRemovals blockEnv)
    (same : (limitedAfter.ruleset.rules.map Rule.body).Perm (blockedAfter.ruleset.rules.map Rule.body)) :
    start.trackedHandles pid ≠ [] := by
  intro untracked
  obtain ⟨rule, member⟩ := List.exists_mem_of_ne_nil newLimit orders.limitSecond.some
  obtain ⟨spec, body, _⟩ := orders.limitSecond.commented member
  obtain ⟨other, present, limit⟩ := exists_of_perm (fun one two equal => by simp only [Rule.isRateLimitOf, equal])
    same (orders.limitSecond.recent member) (by simp [Rule.isRateLimitOf, body] : rule.isRateLimitOf pid = true)
  have still := (orders.limitFirst.tracked pid (rateLimitSentinel_ne pid small).symm).trans untracked
  have none := untracked_block_unlimited orderlyLimited answers still orders.blockSecond other present
  simp [none] at limit

/-- A rate limit that comes second, and finds the new block, has removed it, and the block first has left no other. -/
theorem EitherOrder.named_of_same (orderlyBlocked : Orderly nft blocked) (covered : Covered nft.toListing start)
    (unlimited : start.trackedHandles (rateLimitSentinel pid) = [])
    (same : (limitedAfter.ruleset.rules.map Rule.body).Perm (blockedAfter.ruleset.rules.map Rule.body)) :
    ¬rateLimitMarker pid <:+: blockComment pid processName := by
  intro found
  obtain ⟨rule, member⟩ := List.exists_mem_of_ne_nil sameBlock orders.blockSecond.some
  obtain ⟨spec, body, _⟩ := orders.blockSecond.commented member
  obtain ⟨other, present, block⟩ := exists_of_perm (fun one two equal => by simp only [Rule.isBlockOf, equal])
    same.symm (orders.blockSecond.recent member) (by simp [Rule.isBlockOf, body] : rule.isBlockOf pid = true)
  rcases orders.limitSecond.cases present with ⟨inBlocked, kept⟩ | recent
  · refine kept ?_
    rw [targets, if_pos (by simp [orders.blockFirst.tracked _ (rateLimitSentinel_ne pid small), unlimited]),
      mem_searched orderlyBlocked.plain (rateLimitMarker_marks pid)]
    rcases orders.blockFirst.cases inBlocked with ⟨old, spared⟩ | recent
    · exact absurd (covered.targets small other old block) spared
    · exact ⟨other, inBlocked, (orders.blockFirst.listed_iff (blockComment_closed pid processName)
        (rateLimitMarker_marks pid) (rateLimitMarker_closed pid) recent).mpr found, rfl⟩
  · obtain ⟨limitSpec, limitBody, _⟩ := orders.limitSecond.commented recent
    simp [Rule.isBlockOf, limitBody] at block

theorem EitherOrder.same_of_free (orderly : Orderly nft start) (orderlyBlocked : Orderly nft blocked)
    (orderlyLimited : Orderly nft limited) (answers : AnswersRemovals blockEnv) (blockAims : BlockAims nft pid start)
    (limitAims : LimitAims nft pid start) (free : OrderFree pid processName start) :
    (limitedAfter.ruleset.rules.map Rule.body).Perm (blockedAfter.ruleset.rules.map Rule.body) := by
  obtain ⟨blockFirst, limitSecond, limitFirst, blockSecond⟩ := orders
  have apart := rateLimitSentinel_ne pid small
  have blockAimsLater : BlockAims nft pid limited := blockAims.after_limit limitFirst apart (fun rule member block =>
    limitAims.spares orderly (rateLimitMarker_marks pid) member (isRateLimitOf_of_block block)) free.blocked
  have limitAimsLater : LimitAims nft pid blocked := limitAims.after_block blockFirst apart (fun rule member limit =>
    blockAims.spares orderly (pidMarker_marks pid) member (isBlockOf_of_limit limit)) free.named
  rw [blockAimsLater.deletions orderlyLimited (pidMarker_marks pid) answers] at blockSecond
  -- Neither removal aims at what the other call has inserted.
  have spareBlock := limitAimsLater.spares_added orderlyBlocked (rateLimitMarker_marks pid) blockFirst
    fun rule spec body => by simp [Rule.isRateLimitOf, body]
  have spareLimit := blockAimsLater.spares_added orderlyLimited (pidMarker_marks pid) limitFirst
    fun rule spec body => by simp [Rule.isBlockOf, body]
  have sameAims : targets nft.toListing pid (pidMarker pid) limited =
      targets nft.toListing pid (pidMarker pid) start := by
    have tracked := free.blocked
    rw [targets, targets, limitFirst.tracked pid apart.symm, if_neg (by simpa using tracked),
      if_neg (by simpa using tracked)]
  -- What is left of the old rules is the same in both orders.
  have left := blockFirst.left orderly orderlyBlocked (rateLimitMarker_marks pid) apart
  rw [limitSecond.rules, blockFirst.kept _ spareBlock, blockSecond.rules, limitFirst.kept _ spareLimit, sameAims,
    left]
  simp only [List.map_append, blockFirst.bodies blockSecond, limitSecond.bodies limitFirst, List.append_assoc]
  exact List.perm_append_comm.append_left _

end Orders

/-- A block and a rate limit that succeed in either order, each removing only rules of its own kind from the state
before, end with the same rules up to handles exactly where the second finds nothing of the first. -/
theorem block_limit_order {limitedAfter blockedAfter : World} (orderly : Orderly nft start)
    (covered : Covered nft.toListing start) (small : pid < 2^31)
    (single : '\n' ∉ processName) (answers : AnswersRemovals blockEnv)
    (first : blockProcess nft.toListing blockEnv pid processName start = .ok () blocked)
    (second : rateLimitProcess nft.toListing limitEnv pid rateKbps blocked = .ok () limitedAfter)
    (third : rateLimitProcess nft.toListing limitEnv pid rateKbps start = .ok () limited)
    (fourth : blockProcess nft.toListing blockEnv pid processName limited = .ok () blockedAfter)
    (blockAims : BlockAims nft pid start) (limitAims : LimitAims nft pid start) :
    (limitedAfter.ruleset.rules.map Rule.body).Perm (blockedAfter.ruleset.rules.map Rule.body) ↔
      OrderFree pid processName start := by
  have orderlyBlocked : Orderly nft blocked :=
    orderly.step ⟨.block pid processName, blockEnv⟩ ⟨small, single⟩ first
  have orderlyLimited : Orderly nft limited := orderly.step ⟨.rateLimit pid rateKbps, limitEnv⟩ small third
  have blockFirst := blockProcess_added nft blockEnv pid processName start orderly start rfl
  have limitSecond := rateLimitProcess_added nft limitEnv pid rateKbps blocked blocked rfl
  have limitFirst := rateLimitProcess_added nft limitEnv pid rateKbps start start rfl
  have blockSecond := blockProcess_added nft blockEnv pid processName limited orderlyLimited limited rfl
  rw [first, blockAims.deletions orderly (pidMarker_marks pid) answers] at blockFirst
  rw [second] at limitSecond
  rw [third] at limitFirst
  rw [fourth] at blockSecond
  obtain ⟨newBlock, blockFirst⟩ := blockFirst
  obtain ⟨newLimit, limitSecond⟩ := limitSecond
  obtain ⟨sameLimit, limitFirst⟩ := limitFirst
  obtain ⟨sameBlock, blockSecond⟩ := blockSecond
  have orders : EitherOrder nft blockEnv limitEnv pid processName rateKbps.toNat start blocked limitedAfter limited
      blockedAfter newBlock newLimit sameLimit sameBlock := ⟨blockFirst, limitSecond, limitFirst, blockSecond⟩
  constructor
  · intro same
    exact ⟨orders.tracked_of_same small orderlyLimited answers same,
      fun unlimited => orders.named_of_same small orderlyBlocked covered unlimited same⟩
  · exact orders.same_of_free small orderly orderlyBlocked orderlyLimited answers blockAims limitAims

end Either

end Order

def limitedWorld : World := run (step nftListing.toListing) foreignWorld [⟨.rateLimit 5 100, quietHost 5⟩]

/-- Process 5 is blocked, then limited. -/
def bothWorld : World :=
  run (step nftListing.toListing) foreignWorld [⟨.block 5 "curl".toList, quietHost 5⟩, ⟨.rateLimit 5 100, quietHost 5⟩]

def afterBlock (world : World) : World :=
  finalState (blockProcess nftListing.toListing (quietHost 5) 5 "curl".toList) world

def afterLimit (world : World) : World :=
  finalState (rateLimitProcess nftListing.toListing (quietHost 5) 5 200) world

theorem afterBlock_ok (world : World)
    (returned : returns (blockProcess nftListing.toListing (quietHost 5) 5 "curl".toList) world = true) :
    blockProcess nftListing.toListing (quietHost 5) 5 "curl".toList world = .ok () (afterBlock world) :=
  eq_ok_of_returns returned

theorem afterLimit_ok (world : World)
    (returned : returns (rateLimitProcess nftListing.toListing (quietHost 5) 5 200) world = true) :
    rateLimitProcess nftListing.toListing (quietHost 5) 5 200 world = .ok () (afterLimit world) :=
  eq_ok_of_returns returned

theorem bothWorld_state :
    (bothWorld.trackedHandles 5 ≠ [] ∧ bothWorld.trackedHandles (rateLimitSentinel 5) ≠ []) ∧
    (∀ rule ∈ bothWorld.ruleset.rules, rule.isRateLimitOf 5 = true → rule.handle ∉ bothWorld.trackedHandles 5) ∧
    (∀ rule ∈ bothWorld.ruleset.rules, rule.isBlockOf 5 = true →
      rule.handle ∉ bothWorld.trackedHandles (rateLimitSentinel 5)) ∧
    (∀ handle ∈ bothWorld.trackedHandles 5, ∃ rule ∈ bothWorld.ruleset.rules,
      rule.handle = handle ∧ rule.isBlockOf 5 = true) ∧
    ∀ handle ∈ bothWorld.trackedHandles (rateLimitSentinel 5), ∃ rule ∈ bothWorld.ruleset.rules,
      rule.handle = handle ∧ rule.isRateLimitOf 5 = true := by
  decide +kernel

theorem bothWorld_answers :
    returns (blockProcess nftListing.toListing (quietHost 5) 5 "curl".toList) bothWorld = true ∧
    returns (unblockProcess nftListing.toListing (quietHost 5) 5) bothWorld = true ∧
    returns (rateLimitProcess nftListing.toListing (quietHost 5) 5 200) bothWorld = true ∧
    returns (rateLimitProcess nftListing.toListing (quietHost 5) 5 200) (afterBlock bothWorld) = true ∧
    returns (blockProcess nftListing.toListing (quietHost 5) 5 "curl".toList) (afterLimit bothWorld) = true ∧
    ((afterLimit (afterBlock bothWorld)).ruleset.rules.map Rule.body).length = 3 := by
  decide +kernel

end Netmon.Controller
