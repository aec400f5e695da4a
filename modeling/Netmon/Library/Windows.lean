import Mathlib.Algebra.BigOperators.Intervals

/-! A log of events that ticks cut into windows. The newest moment stands first, and
window 0 is the one that no tick has closed yet. -/
namespace Netmon.Library

inductive Moment (α : Type) where
  | event (a : α)
  | tick

abbrev Log (α : Type) := List (Moment α)

namespace Log
variable {α : Type}

def ticks : Log α → Nat
  | [] => 0
  | .event _ :: log => ticks log
  | .tick :: log => ticks log + 1

def events : Log α → List α
  | [] => []
  | .event a :: log => a :: events log
  | .tick :: log => events log

/-- The events after tick `i + 1` and up to tick `i`, counted back from the latest. -/
def window : Nat → Log α → List α
  | _, [] => []
  | 0, .event a :: log => a :: window 0 log
  | 0, .tick :: _ => []
  | i + 1, .event _ :: log => window (i + 1) log
  | i + 1, .tick :: log => window i log

def amount (weight : α → Nat) (events : List α) : Nat := (events.map weight).sum

@[simp] theorem amount_nil (weight : α → Nat) : amount weight [] = 0 := rfl

@[simp] theorem amount_cons (weight : α → Nat) (a : α) (events : List α) :
    amount weight (a :: events) = weight a + amount weight events := rfl

theorem window_of_ticks_lt {log : Log α} {i : Nat} (old : log.ticks < i) : window i log = [] := by
  induction log generalizing i with
  | nil => cases i <;> rfl
  | cons moment log ih =>
    obtain ⟨i, rfl⟩ := Nat.exists_eq_succ_of_ne_zero (Nat.ne_of_gt (Nat.zero_lt_of_lt old))
    cases moment with
    | event a => exact ih old
    | tick => exact ih (Nat.lt_of_succ_lt_succ old)

theorem sum_windows (weight : α → Nat) {log : Log α} {n : Nat} (enough : log.ticks ≤ n) :
    (∑ i ∈ Finset.range n, amount weight (log.window (i + 1))) + amount weight (log.window 0) =
      amount weight log.events := by
  rw [← Finset.sum_range_succ' (fun i => amount weight (log.window i))]
  induction log generalizing n with
  | nil => simp [window, events]
  | cons moment log ih =>
    cases moment with
    | event a =>
      have older := ih enough
      rw [Finset.sum_range_succ'] at older ⊢
      simp only [window, events, amount_cons]
      omega
    | tick =>
      obtain ⟨n, rfl⟩ := Nat.exists_eq_succ_of_ne_zero (Nat.ne_of_gt (Nat.zero_lt_of_lt enough))
      rw [Finset.sum_range_succ']
      exact ih (Nat.le_of_succ_le_succ enough)

theorem window_le_events (weight : α → Nat) (log : Log α) (i : Nat) :
    amount weight (log.window i) ≤ amount weight log.events := by
  induction log generalizing i with
  | nil => cases i <;> exact Nat.le_refl 0
  | cons moment log ih =>
    cases moment with
    | event a =>
      cases i with
      | zero => exact Nat.add_le_add_left (ih 0) _
      | succ i => exact (ih (i + 1)).trans (Nat.le_add_left _ _)
    | tick =>
      cases i with
      | zero => exact Nat.zero_le _
      | succ i => exact ih i

end Log
end Netmon.Library
