import Mathlib.Data.List.Basic
import Mathlib.Data.List.Induction

/-! Runs of a state machine and rules of pre- and postconditions for fallible
actions. A failed action keeps the state it has reached, as a function that
returns early on an error does. -/
namespace Netmon.Library

section Machine
variable {σ ι : Type} (step : σ → ι → σ)

def run (start : σ) (inputs : List ι) : σ := inputs.foldl step start

/-- Every input of the list meets the condition in the state it is applied to. -/
def Meets (condition : σ → ι → Prop) : σ → List ι → Prop
  | _, [] => True
  | state, input :: inputs => condition state input ∧ Meets condition (step state input) inputs

instance instDecidableMeets {condition : σ → ι → Prop} [∀ state input, Decidable (condition state input)] :
    (state : σ) → (inputs : List ι) → Decidable (Meets step condition state inputs)
  | _, [] => inferInstanceAs (Decidable True)
  | state, input :: inputs =>
    have : Decidable (Meets step condition (step state input) inputs) := instDecidableMeets (step state input) inputs
    inferInstanceAs (Decidable (condition state input ∧ Meets step condition (step state input) inputs))

def observed {ω : Type} (observe : σ → ι → List ω) : σ → List ι → List ω
  | _, [] => []
  | state, input :: inputs => observe state input ++ observed observe (step state input) inputs

@[simp] theorem run_nil (start : σ) : run step start [] = start := rfl

@[simp] theorem run_cons (start : σ) (input : ι) (inputs : List ι) :
    run step start (input :: inputs) = run step (step start input) inputs := rfl

theorem run_append (start : σ) (first second : List ι) :
    run step start (first ++ second) = run step (run step start first) second := by
  simp [run]

theorem observed_append {ω : Type} (observe : σ → ι → List ω) (start : σ) (first second : List ι) :
    observed step observe start (first ++ second) =
      observed step observe start first ++ observed step observe (run step start first) second := by
  induction first generalizing start with
  | nil => rfl
  | cons input first ih => rw [List.cons_append, observed, observed, ih, List.append_assoc, run_cons]

theorem observed_map {ω υ : Type} (observe : σ → ι → List ω) (f : ω → υ) (start : σ) (inputs : List ι) :
    (observed step observe start inputs).map f = observed step (fun state input => (observe state input).map f) start inputs := by
  induction inputs generalizing start with
  | nil => rfl
  | cons input inputs ih => rw [observed, observed, List.map_append, ih]

theorem mem_observed {ω : Type} {observe : σ → ι → List ω} {start : σ} {inputs : List ι} {output : ω}
    (member : output ∈ observed step observe start inputs) :
    ∃ state, ∃ input ∈ inputs, output ∈ observe state input := by
  induction inputs generalizing start with
  | nil => exact absurd member List.not_mem_nil
  | cons input inputs ih =>
    obtain first | later := List.mem_append.mp member
    · exact ⟨start, input, List.mem_cons_self .., first⟩
    · obtain ⟨state, other, among, seen⟩ := ih later
      exact ⟨state, other, List.mem_cons_of_mem input among, seen⟩

theorem run_invariant (condition : σ → ι → Prop) (invariant : σ → Prop)
    (preserved : ∀ state input, invariant state → condition state input → invariant (step state input))
    (start : σ) (inputs : List ι) (initial : invariant start) (admitted : Meets step condition start inputs) :
    invariant (run step start inputs) := by
  induction inputs generalizing start with
  | nil => exact initial
  | cons input inputs ih => exact ih _ (preserved _ _ initial admitted.1) admitted.2

theorem run_keeps (invariant : σ → Prop) (preserved : ∀ state input, invariant state → invariant (step state input))
    (start : σ) (inputs : List ι) (initial : invariant start) : invariant (run step start inputs) := by
  induction inputs generalizing start with
  | nil => exact initial
  | cons input inputs ih => exact ih _ (preserved start input initial)

theorem forall_observed {ω : Type} {observe : σ → ι → List ω} {property : ω → Prop} (invariant : σ → Prop)
    (preserved : ∀ state input, invariant state → invariant (step state input))
    (holds : ∀ state input, invariant state → ∀ output ∈ observe state input, property output)
    (start : σ) (inputs : List ι) (initial : invariant start) :
    ∀ output ∈ observed step observe start inputs, property output := by
  induction inputs generalizing start with
  | nil => exact List.forall_mem_nil _
  | cons input inputs ih =>
    exact List.forall_mem_append.mpr ⟨holds start input initial, ih _ (preserved start input initial)⟩

theorem meets_append (condition : σ → ι → Prop) (start : σ) (first second : List ι) :
    Meets step condition start (first ++ second) ↔
      Meets step condition start first ∧ Meets step condition (run step start first) second := by
  induction first generalizing start with
  | nil => simp [Meets]
  | cons input first ih => simp [Meets, ih, and_assoc]

theorem meets_of_forall (condition : ι → Prop) (start : σ) (inputs : List ι)
    (all : ∀ input ∈ inputs, condition input) : Meets step (fun _ => condition) start inputs := by
  induction inputs generalizing start with
  | nil => trivial
  | cons input inputs ih =>
    exact ⟨all input (by simp), ih _ fun other member => all other (List.mem_cons_of_mem input member)⟩

variable {step} in
theorem Meets.and {first second : σ → ι → Prop} {start : σ} {inputs : List ι} (one : Meets step first start inputs)
    (two : Meets step second start inputs) :
    Meets step (fun state input => first state input ∧ second state input) start inputs := by
  induction inputs generalizing start with
  | nil => trivial
  | cons input inputs ih => exact ⟨⟨one.1, two.1⟩, ih one.2 two.2⟩

variable {step} in
theorem Meets.of_invariant {condition property : σ → ι → Prop} {invariant : σ → Prop} {start : σ} {inputs : List ι}
    (admitted : Meets step condition start inputs) (initial : invariant start)
    (preserved : ∀ state input, invariant state → condition state input → invariant (step state input))
    (holds : ∀ state input, invariant state → condition state input → property state input) :
    Meets step property start inputs := by
  induction inputs generalizing start with
  | nil => trivial
  | cons input inputs ih =>
    exact ⟨holds start input initial admitted.1, ih admitted.2 (preserved start input initial admitted.1)⟩

/-- A property that a run ends with, but does not begin with, has come to hold for the last time at some point. -/
theorem exists_since (p : σ → Prop) (start : σ) (inputs : List ι) (absent : ¬p start) (holds : p (run step start inputs)) :
    ∃ before since, inputs = before ++ since ∧ ¬p (run step start before) ∧
      Meets step (fun state input => p (step state input)) (run step start before) since := by
  induction inputs using List.reverseRecOn with
  | nil => exact absurd holds absent
  | append_singleton inputs input ih =>
    rw [run_append] at holds
    by_cases already : p (run step start inputs)
    · obtain ⟨before, since, rfl, none, kept⟩ := ih already
      refine ⟨before, since ++ [input], List.append_assoc .., none, ?_⟩
      rw [meets_append, ← run_append]
      exact ⟨kept, holds, trivial⟩
    · exact ⟨inputs, [input], rfl, already, holds, trivial⟩

variable {step} in
/-- Where every step of one machine is a run of another, so is every run. -/
theorem run_observed {τ κ : Type} {small : τ → κ → τ} {view : σ → τ} {inputsOf : σ → ι → List κ}
    (each : ∀ state input, view (step state input) = run small (view state) (inputsOf state input))
    (start : σ) (inputs : List ι) :
    view (run step start inputs) = run small (view start) (observed step inputsOf start inputs) := by
  induction inputs generalizing start with
  | nil => rfl
  | cons input inputs ih => rw [run_cons, ih, each, observed, run_append]

variable {step} in
/-- Where the condition keeps an invariant and decides the property, a run has the property when it meets the condition. -/
theorem meets_iff_of_invariant (invariant : σ → Prop) {condition property : σ → ι → Prop} {start : σ} {inputs : List ι}
    (initial : invariant start)
    (preserved : ∀ state input, invariant state → condition state input → invariant (step state input))
    (decides : ∀ state input, invariant state → (property state input ↔ condition state input)) :
    Meets step property start inputs ↔ Meets step condition start inputs := by
  induction inputs generalizing start with
  | nil => exact Iff.rfl
  | cons input inputs ih =>
    rw [Meets, Meets, decides start input initial]
    apply and_congr_right
    intro admitted
    exact ih (preserved start input initial admitted)

end Machine

section Triple
variable {ε σ α β : Type}

/-- From a state that satisfies `before` the action returns into `returned` or
fails into `failed`. -/
def Triple (before : σ → Prop) (action : EStateM ε σ α) (returned : α → σ → Prop)
    (failed : ε → σ → Prop) : Prop :=
  ∀ state, before state → match action state with
    | .ok value next => returned value next
    | .error error next => failed error next

def Keeps (invariant : σ → Prop) (action : EStateM ε σ α) : Prop :=
  Triple invariant action (fun _ => invariant) (fun _ => invariant)

/-- `let _ = action;`: the result and the error are dropped, the state is kept. -/
def attempt (action : EStateM ε σ α) : EStateM ε σ Unit := fun state =>
  match action state with
  | .ok _ next => .ok () next
  | .error _ next => .ok () next

def finalState (action : EStateM ε σ α) (state : σ) : σ :=
  match action state with
  | .ok _ next => next
  | .error _ next => next

/-- What has been collected in the state of an action that returns; an error drops it. -/
def collected (action : EStateM ε σ α) (start : σ) : Except ε σ :=
  match action start with
  | .ok _ final => .ok final
  | .error error _ => .error error

theorem bind_get (next : σ → EStateM ε σ β) (state : σ) : (get >>= next) state = next state state := rfl

theorem bind_set (value state : σ) (next : PUnit → EStateM ε σ β) : (set value >>= next) state = next ⟨⟩ value := rfl

theorem finalState_bind (action : EStateM ε σ α) (next : α → EStateM ε σ β) (state : σ) :
    finalState (action >>= next) state =
      match action state with
      | .ok value middle => finalState (next value) middle
      | .error _ middle => middle := by
  simp only [finalState, bind, EStateM.bind]
  cases action state <;> rfl

def returns (action : EStateM ε σ α) (state : σ) : Bool :=
  match action state with
  | .ok .. => true
  | .error .. => false

theorem eq_ok_of_returns {action : EStateM ε σ Unit} {state : σ} (returned : returns action state = true) :
    action state = .ok () (finalState action state) := by
  unfold finalState
  unfold returns at returned
  cases ended : action state with
  | ok value next => rfl
  | error error next => simp [ended] at returned

theorem Triple.of_state {before : σ → Prop} {action : EStateM ε σ α} {returned : α → σ → Prop}
    {failed : ε → σ → Prop} (each : ∀ start, before start → Triple (· = start) action returned failed) :
    Triple before action returned failed :=
  fun state holds => each state holds state rfl

theorem Triple.weaken {before before' : σ → Prop} {action : EStateM ε σ α}
    {returned returned' : α → σ → Prop} {failed failed' : ε → σ → Prop}
    (triple : Triple before action returned failed) (pre : ∀ state, before' state → before state)
    (post : ∀ value state, returned value state → returned' value state)
    (error : ∀ error state, failed error state → failed' error state) :
    Triple before' action returned' failed' := by
  intro state holds
  have result := triple state (pre state holds)
  split at result
  · exact post _ _ result
  · exact error _ _ result

theorem Triple.any {before : σ → Prop} (action : EStateM ε σ α) :
    Triple before action (fun _ _ => True) (fun _ _ => True) := by
  intro state holds
  cases action state <;> trivial

theorem Triple.pure {before : σ → Prop} {returned : α → σ → Prop} {failed : ε → σ → Prop} (value : α)
    (holds : ∀ state, before state → returned value state) :
    Triple before (pure value : EStateM ε σ α) returned failed :=
  holds

theorem Triple.throw {before : σ → Prop} {returned : α → σ → Prop} {failed : ε → σ → Prop} (error : ε)
    (holds : ∀ state, before state → failed error state) :
    Triple before (throw error : EStateM ε σ α) returned failed :=
  holds

theorem Triple.bind {before : σ → Prop} {action : EStateM ε σ α} {next : α → EStateM ε σ β}
    {m : α → σ → Prop} {returned : β → σ → Prop} {failed : ε → σ → Prop}
    (first : Triple before action m failed)
    (second : ∀ value, Triple (m value) (next value) returned failed) :
    Triple before (action >>= next) returned failed := by
  intro state holds
  have result := first state holds
  simp only [Bind.bind, EStateM.bind]
  cases ended : action state with
  | ok value middle =>
    rw [ended] at result
    exact second value middle result
  | error error middle =>
    rw [ended] at result
    exact result

section Keeps
variable {invariant : σ → Prop}

theorem Keeps.pure (value : α) : Keeps invariant (Pure.pure value : EStateM ε σ α) :=
  Triple.pure value fun _ holds => holds

theorem Keeps.throw (error : ε) : Keeps invariant (MonadExcept.throw error : EStateM ε σ α) :=
  Triple.throw error fun _ holds => holds

theorem Keeps.bind {action : EStateM ε σ α} {next : α → EStateM ε σ β} (first : Keeps invariant action)
    (second : ∀ value, Keeps invariant (next value)) : Keeps invariant (action >>= next) :=
  Triple.bind first second

theorem Keeps.modify {change : σ → σ} (kept : ∀ state, invariant state → invariant (change state)) :
    Keeps invariant (modify change : EStateM ε σ Unit) :=
  kept

theorem Keeps.forM {items : List α} {body : α → EStateM ε σ PUnit} (each : ∀ item, Keeps invariant (body item)) :
    Keeps invariant (items.forM body) := by
  induction items with
  | nil => exact Keeps.pure PUnit.unit
  | cons item items ih => exact Keeps.bind (each item) fun _ => ih

/-- A list begins with items that pass and then has one that fails. -/
theorem exists_split_cons_iff {passes fails : α → Prop} (item : α) (items : List α) :
    (∃ before other after, item :: items = before ++ other :: after ∧ (∀ earlier ∈ before, passes earlier) ∧ fails other) ↔
      fails item ∨ (passes item ∧
        ∃ before other after, items = before ++ other :: after ∧ (∀ earlier ∈ before, passes earlier) ∧ fails other) := by
  constructor
  · intro split
    obtain ⟨before, other, after, same, passed, failed⟩ := split
    cases before with
    | nil =>
      cases same
      exact Or.inl failed
    | cons first before =>
      cases same
      rw [List.forall_mem_cons] at passed
      exact Or.inr ⟨passed.1, before, other, after, rfl, passed.2, failed⟩
  · intro either
    obtain failed | ⟨passing, before, other, after, rfl, passed, failed⟩ := either
    · exact ⟨[], item, items, rfl, List.forall_mem_nil _, failed⟩
    · exact ⟨item :: before, other, after, rfl, List.forall_mem_cons.mpr ⟨passing, passed⟩, failed⟩

/-- A pass over a list fails so at the first item that does not pass, where each
item passes or fails whatever the state is. -/
theorem forM_fails_iff {items : List α} {body : α → EStateM ε σ PUnit} {such : ε → Prop} {passes fails : α → Prop}
    (pass : ∀ item state, (∃ next, body item state = .ok PUnit.unit next) ↔ passes item)
    (fail : ∀ item state, (∃ error next, such error ∧ body item state = .error error next) ↔ fails item) (start : σ) :
    (∃ error final, such error ∧ items.forM body start = .error error final) ↔
      ∃ before item after, items = before ++ item :: after ∧ (∀ earlier ∈ before, passes earlier) ∧ fails item := by
  induction items generalizing start with
  | nil =>
    apply iff_of_false
    · intro failed
      obtain ⟨_, _, _, ended⟩ := failed
      cases ended
    · intro split
      obtain ⟨before, _, _, same, _⟩ := split
      cases before <;> cases same
  | cons item items ih =>
    rw [exists_split_cons_iff, ← pass item start, ← fail item start]
    simp only [List.forM, bind, EStateM.bind]
    cases body item start with
    | ok value next =>
      simp only [reduceCtorEq, and_false, exists_false, false_or, EStateM.Result.ok.injEq, true_and, exists_eq']
      exact ih next
    | error error next => simp

theorem Keeps.collected {action : EStateM ε σ α} {start final : σ} (keeps : Keeps invariant action)
    (initial : invariant start) (returned : Library.collected action start = .ok final) : invariant final := by
  have result := keeps start initial
  unfold Library.collected at returned
  split at returned
  · rename_i ended
    cases returned
    rw [ended] at result
    exact result
  · cases returned

end Keeps

theorem Triple.attempt {before : σ → Prop} {action : EStateM ε σ α} {after : σ → Prop}
    {failed : ε → σ → Prop} (triple : Triple before action (fun _ => after) (fun _ => after)) :
    Triple before (attempt action) (fun _ => after) failed := by
  intro state holds
  have result := triple state holds
  unfold Library.attempt
  split at result <;> exact result

theorem Triple.finalState {before after : σ → Prop} {action : EStateM ε σ α}
    (triple : Triple before action (fun _ => after) (fun _ => after)) (state : σ) (holds : before state) :
    after (finalState action state) := by
  have result := triple state holds
  unfold Library.finalState
  split at result <;> simp_all

theorem Triple.outcome {action : EStateM ε σ α} {state : σ} (after : Bool → σ → Prop)
    (triple : Triple (· = state) action (fun _ => after true) (fun _ => after false)) :
    after (returns action state) (Library.finalState action state) := by
  have result := triple state rfl
  unfold returns Library.finalState
  cases ended : action state <;> rw [ended] at result <;> exact result

/-- A loop that asks for every item keeps what each question keeps. -/
theorem Triple.mapM {f : α → EStateM ε σ β} {invariant : σ → Prop} {answers : α → β → Prop} {failed : ε → σ → Prop}
    (items : List α)
    (each : ∀ item ∈ items, Triple invariant (f item) (fun answer state => answers item answer ∧ invariant state) failed) :
    Triple invariant (items.mapM f) (fun results state => List.Forall₂ answers items results ∧ invariant state) failed := by
  induction items with
  | nil =>
    intro state holds
    exact ⟨.nil, holds⟩
  | cons item items ih =>
    obtain ⟨first, later⟩ := List.forall_mem_cons.mp each
    rw [List.mapM_cons]
    refine Triple.bind first fun answer => ?_
    intro state holds
    obtain ⟨answered, kept⟩ := holds
    have collected (results : List β) :
        Triple (fun next => List.Forall₂ answers items results ∧ invariant next)
          (Pure.pure (answer :: results) : EStateM ε σ (List β))
          (fun all next => List.Forall₂ answers (item :: items) all ∧ invariant next) failed :=
      Triple.pure _ fun _ both => ⟨.cons answered both.1, both.2⟩
    exact Triple.bind (ih later) collected state kept

end Triple
end Netmon.Library
