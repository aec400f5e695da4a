import Mathlib.Algebra.Order.BigOperators.Group.List
import Mathlib.Algebra.Order.Ring.Nat

/-! Sums of amounts that are cut off at a bound, each on its own, and averages. -/
namespace Netmon.Library

def cutSum (bound : Nat) (amounts : List Nat) : Nat := (amounts.map (min bound)).sum

/-- The amounts add up to no more than the bound, or at most one of them is not zero. -/
def SumsWithin (bound : Nat) (amounts : List Nat) : Prop := amounts.sum ≤ bound ∨ (amounts.filter (0 < ·)).length ≤ 1

section Cut
variable {bound : Nat} {amounts : List Nat}

@[simp] theorem cutSum_cons (bound amount : Nat) (amounts : List Nat) :
    cutSum bound (amount :: amounts) = min bound amount + cutSum bound amounts := rfl

theorem cutSum_le_sum (bound : Nat) (amounts : List Nat) : cutSum bound amounts ≤ amounts.sum := by
  induction amounts with
  | nil => exact Nat.le_refl 0
  | cons amount amounts ih =>
    rw [cutSum_cons, List.sum_cons]
    exact Nat.add_le_add (Nat.min_le_right _ _) ih

theorem cutSum_eq_sum (small : cutSum bound amounts < bound) : cutSum bound amounts = amounts.sum := by
  induction amounts with
  | nil => rfl
  | cons amount amounts ih =>
    rw [cutSum_cons] at small
    have rest := ih (by omega)
    rw [cutSum_cons, List.sum_cons, rest]
    omega

theorem filter_pos_eq_nil (nothing : amounts.sum = 0) : amounts.filter (0 < ·) = [] := by
  rw [List.filter_eq_nil_iff]
  intro amount member
  have zero := List.sum_eq_zero_iff.mp nothing amount member
  simp [zero]

/-- Cut off amounts add up to no more than the bound exactly when the whole ones do, or at most one of them is not zero. -/
theorem cutSum_le_iff (positive : 0 < bound) : cutSum bound amounts ≤ bound ↔ SumsWithin bound amounts := by
  induction amounts with
  | nil => exact iff_of_true (Nat.zero_le _) (Or.inl (Nat.zero_le _))
  | cons amount amounts ih =>
    rw [cutSum_cons, SumsWithin, List.sum_cons]
    rcases Nat.eq_zero_or_pos amount with rfl | some
    · rw [Nat.min_zero, Nat.zero_add, Nat.zero_add, ih]
      rfl
    · rw [List.filter_cons_of_pos (by simpa using some), List.length_cons]
      constructor
      · intro small
        by_cases nothing : cutSum bound amounts = 0
        · have whole : cutSum bound amounts = amounts.sum := cutSum_eq_sum (by omega)
          rw [filter_pos_eq_nil (whole.symm.trans nothing)]
          exact Or.inr (Nat.le_refl 1)
        · have whole : cutSum bound amounts = amounts.sum := cutSum_eq_sum (by omega)
          exact Or.inl (by omega)
      · rintro (small | single)
        · have less := cutSum_le_sum bound amounts
          omega
        · have zero : amounts.filter (0 < ·) = [] := List.eq_nil_of_length_eq_zero (by omega)
          have none : amounts.sum = 0 := by
            rw [List.sum_eq_zero_iff]
            intro other member
            have nothing := List.filter_eq_nil_iff.mp zero other member
            simpa using nothing
          have less := cutSum_le_sum bound amounts
          omega

end Cut

/-- An average is at most some of the amounts that it is taken of. -/
theorem exists_average_le {amounts : List Nat} (filled : amounts ≠ []) :
    ∃ amount ∈ amounts, amounts.sum / amounts.length ≤ amount := by
  have level : (amounts.map fun _ => amounts.sum / amounts.length).sum ≤ (amounts.map id).sum := by
    rw [List.map_const', List.sum_replicate_nat, List.map_id]
    exact Nat.mul_div_le amounts.sum amounts.length
  exact List.exists_le_of_sum_le filled _ _ level

end Netmon.Library
