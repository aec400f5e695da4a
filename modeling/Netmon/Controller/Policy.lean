import Netmon.Controller.Interference

/-! What the controller is for: the chain holds the rules of others and, for every
process blocked or limited, the rules of its latest entry. A policy says so without
handles, tracking or searches, and the chain after any run of calls is that of the policy. -/
namespace Netmon.Controller
open Library

def RuleBody.purpose? : RuleBody → Option Purpose
  | .netmon purpose _ => some purpose
  | .foreign .. => none

/-- The rules of others and the entries in force, oldest first. -/
structure Policy where
  others : List RuleBody
  entries : List (Purpose × List RuleSpec)

namespace Policy

def bodies (policy : Policy) : List RuleBody :=
  policy.others ++ policy.entries.flatMap fun entry => entry.2.map (.netmon entry.1)

def without (purpose : Purpose) (policy : Policy) : Policy :=
  { policy with entries := policy.entries.filter fun entry => entry.1 ≠ purpose }

def put (purpose : Purpose) (specs : List RuleSpec) (policy : Policy) : Policy :=
  { policy with entries := policy.entries ++ [(purpose, specs)] }

/-- What a call does to the policy, by whether it returned. An entry that is not
made has still lost its predecessor, and a flush spares nobody. -/
def note (policy : Policy) (outcome : Call × Bool) : Policy :=
  let env := outcome.1.env
  let replace := fun purpose limit comment =>
    if outcome.2 then
      (policy.without purpose).put purpose ((processSpecs env.read purpose.pid limit comment).getD [])
    else policy.without purpose
  match outcome.1.op with
  | .setup => policy
  | .block pid processName => replace (.block pid) none (blockComment pid processName)
  | .unblock pid => policy.without (.block pid)
  | .rateLimit pid rateKbps => replace (.rateLimit pid) (some rateKbps.toNat) (rateLimitMarker pid)
  | .unblockAll => if outcome.2 then ⟨[], []⟩ else policy

theorem filter_entry (purpose other : Purpose) (specs : List RuleSpec) :
    (specs.map (RuleBody.netmon other)).filter (fun body => body.purpose? ≠ some purpose) =
      if other = purpose then [] else specs.map (RuleBody.netmon other) := by
  split
  · rename_i same
    simp [List.filter_eq_nil_iff, RuleBody.purpose?, same]
  · rename_i different
    simp [List.filter_eq_self, RuleBody.purpose?, different]

/-- Dropping a purpose drops its rules and keeps all others where they are. -/
theorem bodies_without {policy : Policy} (purpose : Purpose)
    (foreign : ∀ body ∈ policy.others, body.purpose? = none) :
    (policy.without purpose).bodies = policy.bodies.filter fun body => body.purpose? ≠ some purpose := by
  have kept : policy.others.filter (fun body => body.purpose? ≠ some purpose) = policy.others := by
    apply List.filter_eq_self.mpr
    intro body member
    simp [foreign body member]
  rw [bodies, bodies, List.filter_append, kept]
  congr 1
  simp only [without]
  induction policy.entries with
  | nil => rfl
  | cons entry entries ih =>
    rw [List.filter_cons, List.flatMap_cons, List.filter_append, filter_entry, ← ih]
    by_cases same : entry.1 = purpose
    · simp [same]
    · simp [same]

theorem bodies_put (purpose : Purpose) (specs : List RuleSpec) (policy : Policy) :
    (policy.put purpose specs).bodies = policy.bodies ++ specs.map (.netmon purpose) := by
  simp [bodies, put]

end Policy

def Purpose.key : Purpose → Nat
  | .block pid => pid
  | .rateLimit pid => rateLimitSentinel pid

def Purpose.marker : Purpose → Text
  | .block pid => pidMarker pid
  | .rateLimit pid => rateLimitMarker pid

theorem Purpose.key_inj {first second : Purpose} (one : first.pid < 2^31) (two : second.pid < 2^31)
    (same : first.key = second.key) : first = second := by
  cases first with
  | block pid =>
    cases second with
    | block other => exact congrArg Purpose.block same
    | rateLimit other =>
      have := rateLimitSentinel_ge other
      simp only [Purpose.key, Purpose.pid] at same one
      omega
  | rateLimit pid =>
    cases second with
    | block other =>
      have := rateLimitSentinel_ge pid
      simp only [Purpose.key, Purpose.pid] at same two
      omega
    | rateLimit other =>
      simp only [Purpose.key, Purpose.pid] at same one two
      rw [rateLimitSentinel_eq one, rateLimitSentinel_eq two] at same
      exact congrArg Purpose.rateLimit (by omega)

theorem Purpose.marker_marks (purpose : Purpose) : ruleCommentPrefix <+: purpose.marker := by
  cases purpose with
  | block pid => exact pidMarker_marks pid
  | rateLimit pid => exact rateLimitMarker_marks pid

theorem Entry.purpose {purpose : Purpose} {key : Nat} {marker comment : Text}
    (entry : Entry purpose key marker comment) :
    key = purpose.key ∧ marker = purpose.marker ∧ marker <:+: comment := by
  cases entry with
  | block pid processName single => exact ⟨rfl, rfl, (List.prefix_append _ _).isInfix⟩
  | rateLimit pid => exact ⟨rfl, rfl, List.infix_rfl⟩

def World.handlesOf (purpose : Purpose) (world : World) : List Nat :=
  (world.ruleset.rules.filter fun rule => rule.body.purpose? = some purpose).map Rule.handle

theorem mem_handlesOf {purpose : Purpose} {world : World} {rule : Rule} (present : rule ∈ world.ruleset.rules) :
    rule.handle ∈ world.handlesOf purpose ↔ rule.body.purpose? = some purpose := by
  constructor
  · intro member
    obtain ⟨other, inside, same⟩ := List.mem_map.mp member
    obtain ⟨otherPresent, its⟩ := List.mem_filter.mp inside
    rw [world.ruleset.eq_of_handle present otherPresent same.symm]
    exact of_decide_eq_true its
  · exact fun its => List.mem_map_of_mem (List.mem_filter.mpr ⟨present, decide_eq_true its⟩)

/-- The policy of a chain that no call has touched. -/
def World.policy (start : World) : Policy := ⟨start.ruleset.rules.map Rule.body, []⟩

section Realizes
variable (nft : PlainListing)

/-- The chain holds the rules of the policy, and what is tracked for a process is exactly its rules. -/
structure Realizes (policy : Policy) (world : World) : Prop where
  plain : ∀ rule ∈ world.ruleset.rules, rule.Plain
  marked : ∀ rule ∈ world.ruleset.rules, ∀ purpose, rule.body.purpose? = some purpose →
    purpose.marker <:+: nft.line rule
  foreign : ∀ body ∈ policy.others, body.purpose? = none
  bodies : world.ruleset.rules.map Rule.body = policy.bodies
  tracked : ∀ purpose : Purpose, purpose.pid < 2^31 → world.trackedHandles purpose.key = world.handlesOf purpose

/-- The marker of the purpose stands in the lines of its own rules only. -/
def Own (purpose : Purpose) (world : World) : Prop :=
  ∀ rule ∈ world.ruleset.rules, purpose.marker <:+: nft.line rule → rule.body.purpose? = some purpose

instance (purpose : Purpose) (world : World) : Decidable (Own nft purpose world) :=
  inferInstanceAs (Decidable (∀ rule ∈ world.ruleset.rules, purpose.marker <:+: nft.line rule →
    rule.body.purpose? = some purpose))

/-- Where a call searches the chain, it finds its own rules only. -/
def Clear (world : World) (call : Call) : Prop :=
  match call.op with
  | .block pid _ => Own nft (.block pid) world
  | .unblock pid => world.trackedHandles pid = [] → Own nft (.block pid) world
  | .rateLimit pid _ => Own nft (.rateLimit pid) world
  | .setup => True
  | .unblockAll => True

instance : (world : World) → (call : Call) → Decidable (Clear nft world call)
  | world, ⟨.block pid _, _⟩ => inferInstanceAs (Decidable (Own nft (.block pid) world))
  | world, ⟨.unblock pid, _⟩ =>
    inferInstanceAs (Decidable (world.trackedHandles pid = [] → Own nft (.block pid) world))
  | world, ⟨.rateLimit pid _, _⟩ => inferInstanceAs (Decidable (Own nft (.rateLimit pid) world))
  | _, ⟨.setup, _⟩ => isTrue trivial
  | _, ⟨.unblockAll, _⟩ => isTrue trivial

/-- The host deletes a rule that exists and lists what has been inserted. All else may fail. -/
def Prompt (env : Env) : Prop :=
  env.listAfter = .accepted ∧ ∀ handle, env.reply (.deleteRule handle) = .accepted

variable {nft} {policy : Policy} {purpose : Purpose} {start world : World}

theorem Realizes.same (before : Realizes nft policy start) (same : SameRules start world) :
    Realizes nft policy world := by
  refine ⟨same.rules ▸ before.plain, same.rules ▸ before.marked, before.foreign, ?_, ?_⟩
  · rw [same.rules]
    exact before.bodies
  · intro purpose small
    rw [trackedHandles_congr same.tracked, World.handlesOf, same.rules]
    exact before.tracked purpose small

theorem Own.fewer (own : Own nft purpose start) (fewer : ∀ rule ∈ world.ruleset.rules, rule ∈ start.ruleset.rules) :
    Own nft purpose world :=
  fun rule member => own rule (fewer rule member)

theorem searched_own (plain : ∀ rule ∈ world.ruleset.rules, rule.Plain)
    (marked : ∀ rule ∈ world.ruleset.rules, rule.body.purpose? = some purpose → purpose.marker <:+: nft.line rule)
    (own : Own nft purpose world) :
    searched nft.toListing purpose.marker world = world.handlesOf purpose := by
  rw [searched, markedHandles_plain nft purpose.marker_marks _ plain, World.handlesOf]
  congr 1
  apply List.filter_congr
  intro rule member
  rw [Bool.eq_iff_iff, contains_iff, decide_eq_true_iff]
  exact ⟨own rule member, marked rule member⟩

theorem Realizes.targets (before : Realizes nft policy world) (small : purpose.pid < 2^31)
    (own : world.trackedHandles purpose.key = [] → Own nft purpose world) :
    targets nft.toListing purpose.key purpose.marker world = world.handlesOf purpose := by
  unfold Controller.targets
  split
  · rename_i nothing
    exact searched_own before.plain (fun rule member => before.marked rule member purpose)
      (own (List.isEmpty_iff.mp nothing))
  · exact before.tracked purpose small

theorem rules_removed (key : Nat) : (world.removed key (world.handlesOf purpose)).ruleset.rules =
    world.ruleset.rules.filter fun rule => rule.body.purpose? ≠ some purpose := by
  rw [World.removed, Ruleset.without_rules]
  apply List.filter_congr
  intro rule present
  rw [Bool.eq_iff_iff, decide_eq_true_iff, decide_eq_true_iff, mem_handlesOf present]

theorem Realizes.removed (before : Realizes nft policy world) (small : purpose.pid < 2^31) :
    Realizes nft (policy.without purpose) (world.removed purpose.key (world.handlesOf purpose)) where
  plain rule member := before.plain rule (Ruleset.mem_without.mp member).1
  marked rule member := before.marked rule (Ruleset.mem_without.mp member).1
  foreign := before.foreign
  bodies := by
    rw [rules_removed, Policy.bodies_without purpose before.foreign, ← before.bodies, List.filter_map]
    rfl
  tracked other otherSmall := by
    have left : (world.removed purpose.key (world.handlesOf purpose)).handlesOf other =
        ((world.ruleset.rules.filter fun rule => rule.body.purpose? ≠ some purpose).filter
          fun rule => rule.body.purpose? = some other).map Rule.handle := by
      rw [World.handlesOf, rules_removed]
    rw [left, List.filter_filter]
    by_cases same : other = purpose
    · subst same
      rw [trackedHandles_removed_same]
      symm
      rw [List.map_eq_nil_iff, List.filter_eq_nil_iff]
      simp
    · have different : other.key ≠ purpose.key := fun equal => same (Purpose.key_inj otherSmall small equal)
      rw [trackedHandles_removed_ne different, before.tracked other otherSmall, World.handlesOf]
      congr 1
      apply List.filter_congr
      intro rule _
      by_cases its : rule.body.purpose? = some other <;> simp [its, same]

/-- What is left when a removal has ended, whether it returned or not. -/
structure Cleared (nft : PlainListing) (policy : Policy) (purpose : Purpose) (start world : World) : Prop where
  realizes : Realizes nft (policy.without purpose) world
  fewer : ∀ rule ∈ world.ruleset.rules, rule ∈ start.ruleset.rules

theorem Realizes.cleared (before : Realizes nft policy start) (small : purpose.pid < 2^31)
    (gone : world = start.removed purpose.key (start.handlesOf purpose)) : Cleared nft policy purpose start world := by
  subst gone
  exact ⟨before.removed small, fun rule member => (Ruleset.mem_without.mp member).1⟩

theorem removeRules_cleared {env : Env} (prompt : Prompt env) (before : Realizes nft policy start)
    (small : purpose.pid < 2^31) (own : start.trackedHandles purpose.key = [] → Own nft purpose start) (reply : Reply) :
    Triple (· = start) (removeRules env purpose.key (findHandles nft.toListing env reply purpose.marker))
      (fun _ => Cleared nft policy purpose start) (fun _ => Cleared nft policy purpose start) := by
  have aims := before.targets small own
  refine (removeRules_spec nft.toListing env purpose.key reply purpose.marker start).weaken (fun _ same => same) ?_ ?_
  · intro _ world done
    obtain ⟨gone, _⟩ := done
    rw [aims] at gone
    exact before.cleared small gone
  · intro _ world failed
    obtain ⟨gone, untracked, _⟩ | ⟨front, handle, back, split, _, stuck⟩ := failed
    · -- nothing was tracked, so the purpose has no rule
      have none : start.handlesOf purpose = [] := by rw [← before.tracked purpose small, untracked]
      rw [← none] at gone
      exact before.cleared small gone
    · -- no deletion is refused, and none meets a rule that is gone
      exfalso
      rw [aims] at split
      obtain refused | absent := stuck
      · exact refused (prompt.2 handle)
      · have aimed : handle ∈ start.handlesOf purpose := by simp [split]
        obtain ⟨rule, inside, handled⟩ := List.mem_map.mp aimed
        have distinct : (start.handlesOf purpose).Nodup :=
          start.ruleset.distinct.sublist (List.filter_sublist.map Rule.handle)
        rw [split, List.nodup_append] at distinct
        have kept : rule.handle ∉ front := fun deleted =>
          distinct.2.2 rule.handle deleted handle (by simp) handled
        apply absent
        rw [← handled]
        exact List.mem_map_of_mem (Ruleset.mem_without.mpr ⟨(List.mem_filter.mp inside).1, kept⟩)

theorem Appended.body_purpose {comment : Text} {new : List Rule} (added : Appended purpose comment new start world)
    {rule : Rule} (member : rule ∈ new) : rule.body.purpose? = Option.some purpose := by
  obtain ⟨spec, body, _⟩ := added.body rule member
  rw [body]
  rfl

theorem Appended.handlesOf_ne {comment : Text} {new : List Rule} (added : Appended purpose comment new start world)
    {other : Purpose} (different : other ≠ purpose) : world.handlesOf other = start.handlesOf other := by
  have none : new.filter (fun rule => rule.body.purpose? = Option.some other) = [] := by
    rw [List.filter_eq_nil_iff]
    intro rule member
    simp [added.body_purpose member, Ne.symm different]
  rw [World.handlesOf, added.rules, List.filter_append, none, List.append_nil, World.handlesOf]

theorem Own.appended (own : Own nft purpose start) {comment : Text} {new : List Rule}
    (added : Appended purpose comment new start world) : Own nft purpose world := by
  intro rule member found
  rw [added.rules, List.mem_append] at member
  obtain old | recent := member
  · exact own rule old found
  · exact added.body_purpose recent

/-- The rules of a new entry are all that its search finds, and they are tracked from then on. -/
theorem Realizes.entered (before : Realizes nft policy start) (small : purpose.pid < 2^31)
    (own : Own nft purpose start) {key : Nat} {marker comment : Text} (entry : Entry purpose key marker comment)
    {new : List Rule} {specs : List RuleSpec} (added : Appended purpose comment new start world)
    (bodies : new.map Rule.body = specs.map (.netmon purpose)) :
    searched nft.toListing purpose.marker world ≠ [] ∧
      Realizes nft (policy.put purpose specs)
        (world.tracking purpose.key (searched nft.toListing purpose.marker world)) := by
  obtain ⟨_, sameMarker, inside⟩ := entry.purpose
  have plain : ∀ rule ∈ world.ruleset.rules, rule.Plain := by
    intro rule member
    rw [added.rules, List.mem_append] at member
    obtain old | recent := member
    · exact before.plain rule old
    · obtain ⟨spec, body, commented⟩ := added.body rule recent
      simpa [Rule.Plain, body, commented] using entry.single
  have marked : ∀ rule ∈ world.ruleset.rules, ∀ other, rule.body.purpose? = some other →
      other.marker <:+: nft.line rule := by
    intro rule member other its
    rw [added.rules, List.mem_append] at member
    obtain old | recent := member
    · exact before.marked rule old other its
    · obtain ⟨spec, body, commented⟩ := added.body rule recent
      obtain rfl : purpose = other := by simpa [body, RuleBody.purpose?] using its
      have listed := nft.line_comment rule.handle purpose spec
      rw [commented, ← body] at listed
      exact sameMarker ▸ inside.trans listed
  have found := searched_own plain (fun rule member => marked rule member purpose) (own.appended added)
  refine ⟨?_, plain, marked, before.foreign, ?_, ?_⟩
  · rw [found]
    obtain ⟨rule, member⟩ := List.exists_mem_of_ne_nil new added.some
    have present : rule ∈ world.ruleset.rules := by
      rw [added.rules]
      exact List.mem_append_right _ member
    exact List.ne_nil_of_mem ((mem_handlesOf present).mpr (added.body_purpose member))
  · rw [tracking_ruleset, added.rules, List.map_append, before.bodies, bodies, Policy.bodies_put]
  · intro other otherSmall
    rw [found]
    by_cases same : other = purpose
    · subst same
      rw [trackedHandles_tracking_same]
      rfl
    · have different : other.key ≠ purpose.key := fun equal => same (Purpose.key_inj otherSmall small equal)
      rw [trackedHandles_tracking_ne different, trackedHandles_congr added.tracked, before.tracked other otherSmall]
      exact (added.handlesOf_ne same).symm

theorem insertRules_realizes {env : Env} (prompt : Prompt env) (before : Realizes nft policy start)
    (small : purpose.pid < 2^31) (own : Own nft purpose start) {key : Nat} {marker comment : Text}
    (entry : Entry purpose key marker comment) (limit : Option Nat) (bound : ∀ rateKbps ∈ limit, rateKbps < 2^64)
    (noHandles : Text) :
    Triple (· = start)
      (insertRules env purpose purpose.key (portScript env purpose.pid limit comment)
        (findHandles nft.toListing env env.listAfter purpose.marker) noHandles)
      (fun _ => Realizes nft (policy.put purpose ((processSpecs env.read purpose.pid limit comment).getD [])))
      (fun _ => Realizes nft policy) := by
  refine (insertRules_spec nft.toListing env purpose purpose.key _ env.listAfter purpose.marker noHandles start).weaken
    (fun _ same => same) ?_ ?_
  · intro _ world returned
    obtain ⟨middle, done, _, rfl⟩ := returned
    obtain ⟨specs, new, meant, bodies, added⟩ := done.specs entry.closed bound
    rw [meant]
    exact (before.entered small own entry added bodies).2
  · intro _ world failed
    obtain ⟨rfl, _⟩ | ⟨done, cause⟩ := failed
    · exact before
    · -- what was inserted is listed, so nothing can fail after it
      exfalso
      obtain ⟨specs, new, _, bodies, added⟩ := done.specs entry.closed bound
      obtain refused | absent | unseen := cause
      · exact refused prompt.1
      · have empty := world.ruleset.empty absent
        rw [added.rules, List.append_eq_nil_iff] at empty
        exact added.some empty.2
      · exact (before.entered small own entry added bodies).1 unseen

theorem Clear.same {call : Call} (clear : Clear nft start call) (same : SameRules start world) :
    Clear nft world call := by
  have fewer : ∀ rule ∈ world.ruleset.rules, rule ∈ start.ruleset.rules := fun rule member => same.rules ▸ member
  obtain ⟨op, env⟩ := call
  cases op with
  | block pid processName => exact Own.fewer clear fewer
  | unblock pid =>
    intro nothing
    rw [trackedHandles_congr same.tracked] at nothing
    exact Own.fewer (clear nothing) fewer
  | rateLimit pid rateKbps => exact Own.fewer clear fewer
  | setup => trivial
  | unblockAll => trivial

/-- A block and a rate limit alike: what was in force goes, and the new entry comes if the call returns. -/
theorem replace_realizes {env : Env} (prompt : Prompt env) (before : Realizes nft policy start)
    (small : purpose.pid < 2^31) (own : Own nft purpose start) {key : Nat} {marker comment : Text}
    (entry : Entry purpose key marker comment) (limit : Option Nat) (bound : ∀ rateKbps ∈ limit, rateKbps < 2^64)
    (noHandles : Text) {removal : Ctl Unit}
    (removes : ∀ ready, Realizes nft policy ready → Own nft purpose ready →
      Triple (· = ready) removal (fun _ => Cleared nft policy purpose ready)
        (fun _ => Realizes nft (policy.without purpose))) :
    Triple (· = start)
      (do
        attempt (setupNftables env)
        removal
        insertRules env purpose purpose.key (portScript env purpose.pid limit comment)
          (findHandles nft.toListing env env.listAfter purpose.marker) noHandles)
      (fun _ => Realizes nft
        ((policy.without purpose).put purpose ((processSpecs env.read purpose.pid limit comment).getD [])))
      (fun _ => Realizes nft (policy.without purpose)) := by
  refine Triple.bind (Triple.attempt (setupNftables_spec env start)) fun _ => ?_
  refine Triple.of_state fun ready same => ?_
  have ownReady : Own nft purpose ready := own.fewer fun rule member => same.rules ▸ member
  refine Triple.bind (removes ready (before.same same) ownReady) fun _ => ?_
  refine Triple.of_state fun middle cleared => ?_
  exact insertRules_realizes prompt cleared.realizes small (ownReady.fewer cleared.fewer) entry limit bound noHandles

theorem perform_realizes (call : Call) (before : Realizes nft policy start) (lawful : call.op.Lawful)
    (prompt : Prompt call.env) (clear : Clear nft start call) :
    Triple (· = start) (perform nft.toListing call)
      (fun _ => Realizes nft (policy.note (call, true))) (fun _ => Realizes nft (policy.note (call, false))) := by
  obtain ⟨op, env⟩ := call
  cases op with
  | setup =>
    exact (setupNftables_spec env start).weaken (fun _ same => same) (fun _ _ same => before.same same)
      (fun _ _ same => before.same same)
  | block pid processName =>
    have small : (Purpose.block pid).pid < 2^31 := lawful.1
    have own : Own nft (.block pid) start := clear
    refine replace_realizes prompt before small own (.block pid processName lawful.2) none (by simp) _
      fun ready realizes still => ?_
    exact Triple.attempt (removeRules_cleared prompt realizes small (fun _ => still) env.listBefore)
  | unblock pid =>
    have small : (Purpose.block pid).pid < 2^31 := lawful
    have own : start.trackedHandles (Purpose.block pid).key = [] → Own nft (.block pid) start := clear
    exact (removeRules_cleared prompt before small own env.listBefore).weaken
      (fun _ same => same) (fun _ _ cleared => cleared.realizes) (fun _ _ cleared => cleared.realizes)
  | rateLimit pid rateKbps =>
    have small : (Purpose.rateLimit pid).pid < 2^31 := lawful
    have own : Own nft (.rateLimit pid) start := clear
    refine replace_realizes prompt before small own (.rateLimit pid) (some rateKbps.toNat) (toNat_bound rateKbps) _
      fun ready realizes still => ?_
    exact (removeRules_cleared prompt realizes small (fun _ => still) env.listBefore).weaken
      (fun _ same => same) (fun _ _ cleared => cleared) (fun _ _ cleared => cleared.realizes)
  | unblockAll =>
    refine (unblockAll_spec env start).weaken (fun _ same => same) ?_ ?_
    · intro _ world flushed
      obtain ⟨empty, untracked⟩ := flushed
      refine ⟨by simp [empty], by simp [empty], by simp [Policy.note], by simp [empty, Policy.note, Policy.bodies], ?_⟩
      intro purpose _
      simp [World.trackedHandles, untracked, World.handlesOf, empty]
    · intro _ world same
      subst same
      exact before

variable (nft) in
/-- The calls of a run, each with whether it returned: all that their caller sees. -/
def outcomes : World → List Call → List (Call × Bool) :=
  observed (step nft.toListing) fun world call => [(call, returns (perform nft.toListing call) world)]

theorem Realizes.of_untouched (untouched : start.Untouched) : Realizes nft start.policy start := by
  have foreign : ∀ rule ∈ start.ruleset.rules, rule.body.purpose? = none := by
    intro rule member
    have owner := untouched.rules rule member
    obtain ⟨handle, body⟩ := rule
    cases body with
    | netmon purpose spec => cases owner
    | foreign text single => rfl
  refine ⟨fun rule member => plain_of_owner (untouched.rules rule member), ?_, ?_, ?_, ?_⟩
  · intro rule member purpose its
    rw [foreign rule member] at its
    cases its
  · intro body member
    obtain ⟨rule, inside, rfl⟩ := List.mem_map.mp member
    exact foreign rule inside
  · simp [World.policy, Policy.bodies]
  · intro purpose _
    have none : start.handlesOf purpose = [] := by
      rw [World.handlesOf, List.map_eq_nil_iff, List.filter_eq_nil_iff]
      intro rule member
      simp [foreign rule member]
    simp [none, World.trackedHandles, untouched.tracked]

theorem step_realizes (call : Call) (before : Realizes nft policy start) (lawful : call.op.Lawful)
    (prompt : Prompt call.env) (clear : Clear nft start call) :
    Realizes nft (policy.note (call, returns (perform nft.toListing call) start)) (step nft.toListing start call) :=
  Triple.outcome (fun returned => Realizes nft (policy.note (call, returned)))
    (perform_realizes call before lawful prompt clear)

theorem run_realizes (calls : List Call) (before : Realizes nft policy start)
    (lawful : ∀ call ∈ calls, call.op.Lawful ∧ Prompt call.env)
    (clear : Meets (step nft.toListing) (Clear nft) start calls) :
    Realizes nft (run Policy.note policy (outcomes nft start calls)) (run (step nft.toListing) start calls) := by
  induction calls generalizing policy start with
  | nil => exact before
  | cons call calls ih =>
    obtain ⟨first, rest⟩ := List.forall_mem_cons.mp lawful
    exact ih (step_realizes call before first.1 first.2 clear.1) rest clear.2

end Realizes

/-- After any run of calls the chain is that of the policy, and the handles
tracked for a process are those of its rules. -/
theorem chain_follows_policy (nft : PlainListing) (start : World) (untouched : start.Untouched) (calls : List Call)
    (lawful : ∀ call ∈ calls, call.op.Lawful ∧ Prompt call.env)
    (clear : Meets (step nft.toListing) (Clear nft) start calls) :
    (run (step nft.toListing) start calls).ruleset.rules.map Rule.body =
        (run Policy.note start.policy (outcomes nft start calls)).bodies ∧
      ∀ purpose : Purpose, purpose.pid < 2^31 →
        (run (step nft.toListing) start calls).trackedHandles purpose.key =
          (run (step nft.toListing) start calls).handlesOf purpose := by
  have after := run_realizes calls (Realizes.of_untouched untouched) lawful clear
  exact ⟨after.bodies, after.tracked⟩

theorem quietHost_prompt (pid : Nat) : Prompt (quietHost pid) := ⟨rfl, fun _ => rfl⟩

/-- A process is blocked twice, another is limited, and a third, which has no
ports and no readable uid, cannot be blocked. -/
def curlCalls : List Call :=
  [⟨.block 5 "curl".toList, quietHost 5⟩, ⟨.rateLimit 7 100, quietHost 7⟩, ⟨.block 5 "wget".toList, quietHost 5⟩,
    ⟨.block 9 "ping".toList, quietHost 8⟩, ⟨.unblock 9, quietHost 9⟩]

theorem chain_follows_policy_curl :
    (run (step nftListing.toListing) foreignWorld curlCalls).ruleset.rules.map Rule.body =
        (run Policy.note foreignWorld.policy (outcomes nftListing foreignWorld curlCalls)).bodies ∧
      ∀ purpose : Purpose, purpose.pid < 2^31 →
        (run (step nftListing.toListing) foreignWorld curlCalls).trackedHandles purpose.key =
          (run (step nftListing.toListing) foreignWorld curlCalls).handlesOf purpose := by
  have lawful : ∀ call ∈ curlCalls, call.op.Lawful ∧ Prompt call.env := by
    simp [curlCalls, quietHost_prompt, Op.Lawful]
  exact chain_follows_policy nftListing foreignWorld ⟨by decide, rfl⟩ curlCalls lawful (by decide +kernel)

end Netmon.Controller
