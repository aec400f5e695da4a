import Netmon.Controller.Commands

/-! What each function of the controller can do to the chain and to the tracked
handles, stated once for all later invariants. -/
namespace Netmon.Controller
open Library

def Done (reply : Reply) (effect : Ruleset → Option Ruleset) (start world : World) : Prop :=
  reply = .accepted ∧ ∃ ruleset, effect start.ruleset = some ruleset ∧ world = { start with ruleset }

def Undone (reply : Reply) (effect : Ruleset → Option Ruleset) (start world : World) : Prop :=
  world = start ∧ (reply ≠ .accepted ∨ effect start.ruleset = none)

/-- What a nft process has done, by the status it reports. -/
def Spawned (reply : Reply) (effect : Ruleset → Option Ruleset) (start : World) : Reply → World → Prop
  | .accepted => Done reply effect start
  | _ => Undone reply effect start

theorem spawn_spec (complaint : Text) (reply : Reply) (effect : Ruleset → Option Ruleset) (start : World)
    (failed : Text → World → Prop) :
    Triple (· = start) (spawn complaint reply effect) (Spawned reply effect start) failed := by
  rintro world rfl
  cases reply with
  | failed stage error => exact ⟨rfl, Or.inl (by simp)⟩
  | refused stdout stderr => exact ⟨rfl, Or.inl (by simp)⟩
  | accepted =>
    cases possible : effect world.ruleset with
    | none => simp [spawn, Spawned, Undone, possible]
    | some ruleset => simp [spawn, Spawned, Done, possible]

theorem runNftCommand_spec (env : Env) (command : Command) (ignoreExists : Bool) (start : World) :
    Triple (· = start) (runNftCommand env command ignoreExists)
      (fun _ world => Done (env.reply command) command.effect start world ∨ (ignoreExists = true ∧ world = start))
      (fun _ world => Undone (env.reply command) command.effect start world) := by
  refine Triple.bind (spawn_spec env.complaint (env.reply command) command.effect start _) fun answer => ?_
  cases answer with
  | accepted => exact Triple.pure () fun world done => Or.inl done
  | failed stage error => exact Triple.throw _ fun world undone => undone
  | refused stdout stderr =>
    simp only
    split
    · rename_i ignored
      exact Triple.pure () fun world undone => Or.inr ⟨(Bool.and_eq_true_iff.mp ignored).1, undone.1⟩
    · exact Triple.throw _ fun world undone => undone

def scriptEffect (env : Env) (purpose : Purpose) (script : Text) (ruleset : Ruleset) : Option Ruleset :=
  (readScript script).bind fun specs => ruleset.addRules env.gap purpose specs

theorem runNftScript_spec (env : Env) (purpose : Purpose) (script : Text) (start : World) :
    Triple (· = start) (runNftScript env purpose script)
      (fun _ => Done env.script (scriptEffect env purpose script) start)
      (fun _ => Undone env.script (scriptEffect env purpose script) start) := by
  refine Triple.bind (spawn_spec env.complaint env.script (scriptEffect env purpose script) start _) fun answer => ?_
  cases answer with
  | accepted => exact Triple.pure () fun world done => done
  | failed stage error => exact Triple.throw _ fun world undone => undone
  | refused stdout stderr => exact Triple.throw _ fun world undone => undone

structure SameRules (start world : World) : Prop where
  rules : world.ruleset.rules = start.ruleset.rules
  nextHandle : world.ruleset.nextHandle = start.ruleset.nextHandle
  tracked : world.rulesByPid = start.rulesByPid

theorem setupNftables_spec (env : Env) (start : World) :
    Triple (· = start) (setupNftables env) (fun _ => SameRules start) (fun _ => SameRules start) := by
  have refl : SameRules start start := ⟨rfl, rfl, rfl⟩
  refine Triple.bind (m := fun _ => SameRules start) ?_ fun _ => ?_
  · refine (runNftCommand_spec env .addTable true start).weaken (fun _ same => same) ?_ ?_
    · rintro _ world (⟨_, ruleset, added, rfl⟩ | ⟨_, rfl⟩)
      · cases added
        exact ⟨rfl, rfl, rfl⟩
      · exact refl
    · rintro _ world ⟨rfl, _⟩
      exact refl
  · refine Triple.of_state fun middle same => ?_
    refine (runNftCommand_spec env .addChain true middle).weaken (fun _ same => same) ?_ ?_
    · rintro _ world (⟨_, ruleset, added, rfl⟩ | ⟨_, rfl⟩)
      · obtain ⟨rules, next⟩ := Ruleset.addChain_some added
        exact ⟨rules.trans same.rules, next.trans same.nextHandle, same.tracked⟩
      · exact same
    · rintro _ world ⟨rfl, _⟩
      exact same

section Removal
variable (nft : Listing) (env : Env)

def searched (marker : Text) (world : World) : List Nat := markedHandles marker (nft.text world.ruleset)

theorem findHandles_spec (reply : Reply) (marker : Text) (start : World) :
    Triple (· = start) (findHandles nft env reply marker)
      (fun handles world => world = start ∧ reply = .accepted ∧ handles = searched nft marker start)
      (fun _ world => world = start ∧ (reply ≠ .accepted ∨ start.ruleset.chain = false)) := by
  cases reply with
  | failed stage error => exact Triple.throw _ fun world same => ⟨same, Or.inl (by simp)⟩
  | refused stdout stderr => exact Triple.throw _ fun world same => ⟨same, Or.inl (by simp)⟩
  | accepted =>
    rintro world rfl
    have answer : findHandles nft env .accepted marker world = (if world.ruleset.chain then
        pure (searched nft marker world)
      else throw ("nft list -a failed: ".toList ++ env.complaint) : Ctl (List Nat)) world := rfl
    rw [answer]
    cases present : world.ruleset.chain with
    | true => exact ⟨rfl, rfl, rfl⟩
    | false => exact ⟨rfl, Or.inr rfl⟩

def World.removed (key : Nat) (handles : List Nat) (world : World) : World :=
  ⟨world.ruleset.without handles, world.rulesByPid.erase key⟩

def World.trackedHandles (key : Nat) (world : World) : List Nat :=
  ((world.rulesByPid.lookup key).getD []).map RuleRef.handle

def targets (key : Nat) (marker : Text) (world : World) : List Nat :=
  if (world.trackedHandles key).isEmpty then searched nft marker world else world.trackedHandles key

/-- A deletion of a listed rule that stops the loop: nft refuses it or the rule is gone. -/
def Stuck (handle : Nat) (ruleset : Ruleset) : Prop :=
  env.reply (.deleteRule handle) ≠ .accepted ∨ handle ∉ ruleset.rules.map Rule.handle

theorem deleteRules_spec (handles : List Nat) (start : World) :
    Triple (· = start) (handles.forM fun handle => runNftCommand env (.deleteRule handle) false)
      (fun _ world => world = { start with ruleset := start.ruleset.without handles } ∧
        ∀ handle ∈ handles, env.reply (.deleteRule handle) = .accepted)
      (fun _ world => ∃ front handle back, handles = front ++ handle :: back ∧
        world = { start with ruleset := start.ruleset.without front } ∧
        Stuck env handle (start.ruleset.without front)) := by
  induction handles generalizing start with
  | nil =>
    refine Triple.pure _ fun world same => ⟨?_, by simp⟩
    rw [same, Ruleset.without_nil]
  | cons handle handles ih =>
    refine Triple.bind (m := fun _ world => world = { start with ruleset := start.ruleset.without [handle] } ∧
      env.reply (.deleteRule handle) = .accepted) ?_ fun _ => ?_
    · refine (runNftCommand_spec env (.deleteRule handle) false start).weaken (fun _ same => same) ?_ ?_
      · rintro _ world (⟨accepted, ruleset, deleted, rfl⟩ | ⟨never, _⟩)
        · rw [(Ruleset.deleteRule_some deleted).2]
          exact ⟨rfl, accepted⟩
        · cases never
      · rintro _ world ⟨rfl, cause⟩
        refine ⟨[], handle, handles, rfl, by rw [Ruleset.without_nil], ?_⟩
        rw [Ruleset.without_nil]
        refine cause.imp_right fun impossible present => ?_
        simp [Command.effect, Ruleset.deleteRule, present] at impossible
    · rintro middle ⟨same, accepted⟩
      refine (ih { start with ruleset := start.ruleset.without [handle] }).weaken (fun _ same => same) ?_ ?_ middle same
      · rintro _ world ⟨rfl, all⟩
        rw [Ruleset.without_without, List.singleton_append]
        exact ⟨rfl, List.forall_mem_cons.mpr ⟨accepted, all⟩⟩
      · rintro _ world ⟨front, stuck, back, rfl, rfl, cause⟩
        rw [Ruleset.without_without] at cause
        refine ⟨handle :: front, stuck, back, rfl, ?_, cause⟩
        rw [Ruleset.without_without, List.singleton_append]

def RemovalDone (key : Nat) (reply : Reply) (marker : Text) (start world : World) : Prop :=
  world = start.removed key (targets nft key marker start) ∧
    (start.trackedHandles key = [] → reply = .accepted) ∧
    ∀ handle ∈ targets nft key marker start, env.reply (.deleteRule handle) = .accepted

/-- How a removal ends early: unanswered, or stuck at one of its handles. -/
def RemovalFailed (key : Nat) (reply : Reply) (marker : Text) (start world : World) : Prop :=
  (world = start.removed key [] ∧ start.trackedHandles key = [] ∧
      (reply ≠ .accepted ∨ start.ruleset.chain = false)) ∨
    ∃ front handle back, targets nft key marker start = front ++ handle :: back ∧
      world = start.removed key front ∧ Stuck env handle (start.ruleset.without front)

theorem takeHandles_spec (key : Nat) (reply : Reply) (marker : Text) (start : World) :
    Triple (· = start) (takeHandles key (findHandles nft env reply marker))
      (fun handles world => world = { start with rulesByPid := start.rulesByPid.erase key } ∧
        handles = targets nft key marker start ∧ (start.trackedHandles key = [] → reply = .accepted))
      (fun _ world => world = start.removed key [] ∧ start.trackedHandles key = [] ∧
        (reply ≠ .accepted ∨ start.ruleset.chain = false)) := by
  rintro world rfl
  let untracked : World := { world with rulesByPid := world.rulesByPid.erase key }
  cases none : (world.trackedHandles key).isEmpty with
  | true =>
    have tracked : world.trackedHandles key = [] := List.isEmpty_iff.mp none
    have search : takeHandles key (findHandles nft env reply marker) world =
        findHandles nft env reply marker untracked := by
      simp only [World.trackedHandles] at none
      unfold takeHandles
      rw [bind_get, bind_set]
      simp only [none, if_true, untracked]
    rw [search]
    refine (findHandles_spec nft env reply marker untracked).weaken (fun _ same => same) ?_ ?_ untracked rfl
    · rintro handles world ⟨same, accepted, rfl⟩
      exact ⟨same, by simp [targets, none, searched, untracked], fun _ => accepted⟩
    · rintro error world ⟨rfl, cause⟩
      refine ⟨?_, tracked, cause⟩
      simp only [World.removed, Ruleset.without_nil, untracked]
  | false =>
    have kept : takeHandles key (findHandles nft env reply marker) world =
        .ok (world.trackedHandles key) untracked := by
      simp only [World.trackedHandles] at none
      unfold takeHandles
      rw [bind_get, bind_set]
      simp only [none, Bool.false_eq_true, if_false, untracked]
      rfl
    rw [kept]
    refine ⟨rfl, by simp [targets, none], fun nothing => ?_⟩
    simp [nothing] at none

theorem removeRules_spec (key : Nat) (reply : Reply) (marker : Text) (start : World) :
    Triple (· = start) (removeRules env key (findHandles nft env reply marker))
      (fun _ => RemovalDone nft env key reply marker start)
      (fun _ => RemovalFailed nft env key reply marker start) := by
  have taken := (takeHandles_spec nft env key reply marker start).weaken (fun _ same => same) (fun _ _ done => done)
    (fun _ world unanswered => (Or.inl unanswered : RemovalFailed nft env key reply marker start world))
  refine Triple.bind taken fun handles => ?_
  rintro world ⟨same, rfl, answered⟩
  refine (deleteRules_spec env (targets nft key marker start) _).weaken (fun _ same => same) ?_ ?_ world same
  · rintro _ _ ⟨rfl, accepted⟩
    exact ⟨rfl, answered, accepted⟩
  · rintro _ _ ⟨front, handle, back, split, rfl, stuck⟩
    exact Or.inr ⟨front, handle, back, split, rfl, stuck⟩

theorem removeRules_removed (key : Nat) (reply : Reply) (marker : Text) (start : World) :
    Triple (· = start) (removeRules env key (findHandles nft env reply marker))
      (fun _ world => world = start.removed key (targets nft key marker start))
      (fun _ world => ∃ front, front <+: targets nft key marker start ∧ world = start.removed key front) := by
  refine (removeRules_spec nft env key reply marker start).weaken (fun _ same => same) (fun _ _ done => done.1) ?_
  rintro error world (⟨rfl, _⟩ | ⟨front, handle, back, split, rfl, _⟩)
  · exact ⟨[], List.nil_prefix, rfl⟩
  · exact ⟨front, ⟨handle :: back, split.symm⟩, rfl⟩

end Removal

section Insertion
variable (nft : Listing) (env : Env)

def World.tracking (key : Nat) (handles : List Nat) (world : World) : World :=
  { world with rulesByPid := world.rulesByPid.insert key (handles.map RuleRef.mk) }

def Inserted (purpose : Purpose) (script : Except Text Text) (start world : World) : Prop :=
  ∃ rules, script = .ok rules ∧ Done env.script (scriptEffect env purpose rules) start world

/-- An insertion that returns has added rules and tracks what the search found
after it; one that fails has added nothing, or its search was of no avail. -/
theorem insertRules_spec (purpose : Purpose) (key : Nat) (script : Except Text Text) (reply : Reply)
    (marker noHandles : Text) (start : World) :
    Triple (· = start) (insertRules env purpose key script (findHandles nft env reply marker) noHandles)
      (fun _ world => ∃ middle, Inserted env purpose script start middle ∧ searched nft marker middle ≠ [] ∧
        world = middle.tracking key (searched nft marker middle))
      (fun _ world => (world = start ∧ ¬∃ middle, Inserted env purpose script start middle) ∨
        (Inserted env purpose script start world ∧
          (reply ≠ .accepted ∨ world.ruleset.chain = false ∨ searched nft marker world = []))) := by
  refine Triple.bind (m := fun rules world => world = start ∧ script = .ok rules) ?_ fun rules => ?_
  · cases script with
    | ok rules => exact Triple.pure _ fun world same => ⟨same, rfl⟩
    | error error =>
      refine Triple.throw _ fun world same => Or.inl ⟨same, ?_⟩
      rintro ⟨middle, rules, built, _⟩
      cases built
  refine Triple.bind (m := fun _ => Inserted env purpose script start) ?_ fun _ => ?_
  · rintro world ⟨same, rfl⟩
    refine (runNftScript_spec env purpose rules start).weaken (fun _ same => same) ?_ ?_ world same
    · exact fun _ world done => ⟨rules, rfl, done⟩
    · rintro _ world ⟨same, cause⟩
      refine Or.inl ⟨same, ?_⟩
      rintro ⟨middle, other, built, accepted, ruleset, added, _⟩
      cases built
      rcases cause with refused | impossible
      · exact refused accepted
      · simp [impossible] at added
  refine Triple.of_state fun middle inserted => ?_
  refine Triple.bind (m := fun handles world => world = middle ∧ handles = searched nft marker middle) ?_ ?_
  · refine (findHandles_spec nft env reply marker middle).weaken (fun _ same => same) ?_ ?_
    · exact fun handles world found => ⟨found.1, found.2.2⟩
    · rintro error world ⟨rfl, cause⟩
      exact Or.inr ⟨inserted, cause.imp_right Or.inl⟩
  rintro handles world ⟨rfl, rfl⟩
  cases found : (searched nft marker world).isEmpty with
  | true =>
    have nothing : searched nft marker world = [] := List.isEmpty_iff.mp found
    simp only [if_true]
    exact Or.inr ⟨inserted, Or.inr (Or.inr nothing)⟩
  | false =>
    have some : searched nft marker world ≠ [] := by simpa using found
    simp only [Bool.false_eq_true, if_false]
    exact ⟨world, inserted, some, rfl⟩

end Insertion

theorem not_mem_pidMarker {c : Char} {pid : Nat} (digit : c.isDigit = false) (letter : c ∉ ruleCommentPrefix)
    (dash : c ≠ '-') : c ∉ pidMarker pid := by
  simp only [pidMarker, List.mem_append, not_or]
  refine ⟨⟨letter, decimal_not_mem digit⟩, ?_⟩
  simpa using dash

theorem pidMarker_marks (pid : Nat) : ruleCommentPrefix <+: pidMarker pid :=
  ⟨decimal pid ++ "-".toList, by rw [pidMarker, List.append_assoc]⟩

theorem rateLimitMarker_marks (pid : Nat) : ruleCommentPrefix <+: rateLimitMarker pid :=
  (pidMarker_marks pid).trans (List.prefix_append _ _)

theorem pidMarker_closed (pid : Nat) : '"' ∉ pidMarker pid := not_mem_pidMarker rfl (by decide) (by decide)

theorem blockComment_closed (pid : Nat) (name : Text) : '"' ∉ blockComment pid name := by
  rw [blockComment, List.mem_append, not_or]
  exact ⟨not_mem_pidMarker rfl (by decide) (by decide), not_mem_replace name (by decide)⟩

theorem blockComment_single (pid : Nat) {name : Text} (single : '\n' ∉ name) : '\n' ∉ blockComment pid name := by
  rw [blockComment, List.mem_append, not_or]
  exact ⟨not_mem_pidMarker rfl (by decide) (by decide),
    fun member => single (mem_replace_of_ne member (by decide))⟩

theorem rateLimitMarker_closed (pid : Nat) : '"' ∉ rateLimitMarker pid := by
  rw [rateLimitMarker, List.mem_append, not_or]
  exact ⟨not_mem_pidMarker rfl (by decide) (by decide), by decide⟩

theorem rateLimitMarker_single (pid : Nat) : '\n' ∉ rateLimitMarker pid := by
  rw [rateLimitMarker, List.mem_append, not_or]
  exact ⟨not_mem_pidMarker rfl (by decide) (by decide), by decide⟩

theorem portScript_reads {env : Env} {pid : Nat} {limit : Option Nat} {comment rules : Text}
    (built : portScript env pid limit comment = .ok rules) (closed : '"' ∉ comment)
    (bound : ∀ rateKbps ∈ limit, rateKbps < 2^64) :
    ∃ specs, processSpecs env.read pid limit comment = some specs ∧ readScript rules = some specs := by
  unfold portScript at built
  unfold processSpecs
  simp only at built ⊢
  split at built
  · rename_i none
    rw [if_pos none]
    split at built
    · rename_i uid found
      cases built
      rw [found]
      exact ⟨_, rfl, readScript_skuidRule (readUidForPid_lt found) limit bound comment closed⟩
    · cases built
  · rename_i some
    cases built
    rw [if_neg some]
    exact ⟨_, rfl, readScript_portRuleset _ _ limit bound comment closed⟩

structure Appended (purpose : Purpose) (comment : Text) (new : List Rule) (start world : World) : Prop where
  rules : world.ruleset.rules = start.ruleset.rules ++ new
  tracked : world.rulesByPid = start.rulesByPid
  later : start.ruleset.nextHandle ≤ world.ruleset.nextHandle
  some : new ≠ []
  body : ∀ rule ∈ new, ∃ spec, rule.body = .netmon purpose spec ∧ spec.comment = comment
  fresh : ∀ rule ∈ new, start.ruleset.nextHandle ≤ rule.handle

theorem Inserted.specs {env : Env} {purpose : Purpose} {pid : Nat} {limit : Option Nat} {comment : Text}
    {start world : World} (inserted : Inserted env purpose (portScript env pid limit comment) start world)
    (closed : '"' ∉ comment) (bound : ∀ rateKbps ∈ limit, rateKbps < 2^64) :
    ∃ specs new, processSpecs env.read pid limit comment = some specs ∧
      new.map Rule.body = specs.map (.netmon purpose) ∧ Appended purpose comment new start world := by
  obtain ⟨rules, built, accepted, ruleset, effect, rfl⟩ := inserted
  obtain ⟨specs, meant, read⟩ := portScript_reads built closed bound
  rw [scriptEffect, read, Option.bind_some] at effect
  obtain ⟨filled, commented⟩ := processSpecs_some meant
  obtain ⟨new, appended, bodies, fresh, later⟩ := Ruleset.addRules_some effect
  refine ⟨specs, new, meant, bodies, appended, rfl, later, ?_, ?_, fresh⟩
  · rintro rfl
    exact filled (List.map_eq_nil_iff.mp bodies.symm)
  · intro rule member
    have mapped : rule.body ∈ specs.map (RuleBody.netmon purpose) := bodies ▸ List.mem_map_of_mem member
    obtain ⟨spec, inSpecs, same⟩ := List.mem_map.mp mapped
    exact ⟨spec, same.symm, commented spec inSpecs⟩

end Netmon.Controller
