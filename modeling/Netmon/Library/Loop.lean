import Netmon.Library.Run

/-! Loops that leave with a result, run for a bounded number of turns, and the
rule that a loop with a decreasing measure ends as its unbounded recursion does. -/
namespace Netmon.Library

section Loop
variable {σ ρ ε τ : Type} (turn : σ → EStateM ε τ (σ ⊕ ρ))

/-- A turn goes on with a new state or breaks with a result. -/
def repeatTurns : Nat → σ → EStateM ε τ (Option ρ)
  | 0, _ => pure none
  | turns + 1, state => do
    match ← turn state with
    | .inl next => repeatTurns turns next
    | .inr result => return some result

variable {turn}

/-- `whole` unfolds by one turn of the loop, and the measure bounds the turns that go on. -/
theorem repeatTurns_eq (whole : σ → EStateM ε τ ρ) {invariant : σ → Prop} {remaining : σ → Nat}
    (unfolds : ∀ state, invariant state → whole state = turn state >>= Sum.elim whole pure)
    (decreases : ∀ state, invariant state → Triple (fun _ => True) (turn state)
      (fun result _ => ∀ next, result = .inl next → invariant next ∧ remaining next < remaining state)
      (fun _ _ => True))
    {turns : Nat} {state : σ} (holds : invariant state) (enough : remaining state < turns) :
    repeatTurns turn turns state = some <$> whole state := by
  induction turns generalizing state with
  | zero => exact absurd enough (Nat.not_lt_zero _)
  | succ turns ih =>
    funext store
    have further := decreases state holds store trivial
    rw [unfolds state holds]
    simp only [repeatTurns, Functor.map, EStateM.map, bind, EStateM.bind]
    cases ended : turn state store with
    | error error after => rfl
    | ok result after =>
      rw [ended] at further
      cases result with
      | inr result => rfl
      | inl next =>
        obtain ⟨kept, smaller⟩ := further next rfl
        have tail := ih kept (by omega)
        exact congrFun tail after

end Loop
end Netmon.Library
