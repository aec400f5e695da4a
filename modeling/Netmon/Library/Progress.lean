import Netmon.Library.Run

/-! Progress of agents that take turns in any order: no turn raises a measure, and the
turn of an agent that the measure waits for lowers it. -/
namespace Netmon.Library

variable {σ ι κ : Type}

structure Progress (step : σ → ι → σ) (agent : ι → κ) (invariant : σ → Prop) (everyone : κ → Prop)
    (helps : σ → κ → Prop) (measure : σ → Nat) : Prop where
  kept : ∀ state input, invariant state → invariant (step state input)
  bounded : ∀ state input, invariant state → measure (step state input) ≤ measure state
  helped : ∀ state, invariant state → measure state ≠ 0 → ∃ who, everyone who ∧ helps state who
  lowers : ∀ state input, invariant state → helps state (agent input) → measure (step state input) < measure state
  /-- Who helps does so until it has its turn, unless the measure falls before. -/
  waits : ∀ state input who, invariant state → helps state who → agent input ≠ who →
    measure (step state input) < measure state ∨ helps (step state input) who

namespace Progress
variable {step : σ → ι → σ} {agent : ι → κ} {invariant : σ → Prop} {everyone : κ → Prop} {helps : σ → κ → Prop}
  {measure : σ → Nat} (progress : Progress step agent invariant everyone helps measure)
include progress

theorem run_bounded {start : σ} (initial : invariant start) (inputs : List ι) :
    measure (run step start inputs) ≤ measure start := by
  induction inputs generalizing start with
  | nil => exact Nat.le_refl _
  | cons input inputs ih =>
    have rest := ih (progress.kept start input initial)
    exact Nat.le_trans rest (progress.bounded start input initial)

theorem run_lowers {start : σ} (initial : invariant start) {who : κ} (helper : helps start who) {inputs : List ι}
    (acts : ∃ input ∈ inputs, agent input = who) : measure (run step start inputs) < measure start := by
  induction inputs generalizing start with
  | nil =>
    obtain ⟨input, member, _⟩ := acts
    cases member
  | cons input inputs ih =>
    have kept := progress.kept start input initial
    have rest := progress.run_bounded kept inputs
    rw [run_cons]
    by_cases turn : agent input = who
    · have fallen := progress.lowers start input initial (turn ▸ helper)
      omega
    · rcases progress.waits start input who initial helper turn with fallen | still
      · omega
      · obtain ⟨other, member, acted⟩ := acts
        rcases List.mem_cons.mp member with rfl | later
        · exact absurd acted turn
        · have fallen := ih kept still ⟨other, later, acted⟩
          have first := progress.bounded start input initial
          omega

/-- After as many rounds as the measure counts, each with a turn of everyone, nothing is left to do. -/
theorem rounds {start : σ} (initial : invariant start) (rounds : List (List ι))
    (everyones : ∀ round ∈ rounds, ∀ who, everyone who → ∃ input ∈ round, agent input = who)
    (enough : measure start ≤ rounds.length) : measure (run step start rounds.flatten) = 0 := by
  induction rounds generalizing start with
  | nil => exact Nat.le_zero.mp enough
  | cons round rounds ih =>
    rw [List.flatten_cons, run_append]
    have kept := run_keeps step invariant (fun state input => progress.kept state input) start round initial
    apply ih kept
    · intro other member
      exact everyones other (List.mem_cons_of_mem round member)
    · have fallen : measure (run step start round) < measure start ∨ measure start = 0 := by
        by_cases zero : measure start = 0
        · exact Or.inr zero
        · obtain ⟨who, one, helper⟩ := progress.helped start initial zero
          exact Or.inl (progress.run_lowers initial helper (everyones round List.mem_cons_self who one))
      have bounded := progress.run_bounded initial round
      rw [List.length_cons] at enough
      omega

end Progress
end Netmon.Library
