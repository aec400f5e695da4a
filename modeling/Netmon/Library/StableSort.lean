import Mathlib.Data.List.Basic

/-! Stable sorting by a comparator, and grouping by a key. Items that compare equal stay in
the order they come in, so a list that has an order of its own is sorted by both. -/
namespace Netmon.Library

section StableSort
variable {α : Type} (cmp : α → α → Ordering)

def notLater (a b : α) : Bool := (cmp a b).isLE

/-- `slice::sort_by`. -/
def sortBy (items : List α) : List α := items.mergeSort (notLater cmp)

/-- `Ordering::reverse`, where the direction asks for it. -/
def directed (ascending : Bool) (a b : α) : Ordering :=
  if ascending then cmp a b
  else
    match cmp a b with
    | .lt => .gt
    | .eq => .eq
    | .gt => .lt

/-- The order of a stably sorted list: by the comparator, and where it makes no difference by the order before. -/
def Earlier (before : α → α → Prop) (a b : α) : Prop := cmp a b = .lt ∨ (cmp a b = .eq ∧ before a b)

variable {cmp}

theorem directed_false (a b : α) : directed cmp false a b = (cmp a b).swap := by
  simp only [directed, Bool.false_eq_true, if_false]
  cases cmp a b <;> rfl

@[simp] theorem directed_eq_eq {ascending : Bool} {a b : α} : directed cmp ascending a b = .eq ↔ cmp a b = .eq := by
  cases ascending with
  | true => exact Iff.rfl
  | false => rw [directed_false, Ordering.swap_eq_eq]

theorem sortBy_perm (items : List α) : (sortBy cmp items).Perm items := List.mergeSort_perm items _

variable [Std.TransCmp cmp]

instance (ascending : Bool) : Std.TransCmp (directed cmp ascending) := by
  cases ascending with
  | true => exact inferInstanceAs (Std.TransCmp cmp)
  | false =>
    have reversed : directed cmp false = fun a b => cmp b a := by
      funext a b
      rw [directed_false, ← Std.OrientedCmp.eq_swap]
    rw [reversed]
    exact Std.TransCmp.opposite

variable (cmp) in
theorem cmp_swap (a b : α) : cmp a b = (cmp b a).swap := Std.OrientedCmp.eq_swap

theorem notLater_trans (a b c : α) (first : notLater cmp a b = true) (second : notLater cmp b c = true) :
    notLater cmp a c = true :=
  Std.TransCmp.isLE_trans first second

theorem notLater_total (a b : α) : (notLater cmp a b || notLater cmp b a) = true := by
  rw [notLater, notLater, cmp_swap cmp b a]
  cases cmp a b <;> rfl

/-- The comparator comes first and the order of the items second. -/
theorem sortBy_earlier {before : α → α → Prop} {items : List α} (ordered : items.Pairwise before) :
    (sortBy cmp items).Pairwise (Earlier cmp before) := by
  induction items with
  | nil => simp [sortBy]
  | cons item items ih =>
    obtain ⟨first, rest⟩ := List.pairwise_cons.mp ordered
    obtain ⟨left, right, whole, parts, smaller⟩ :=
      @List.mergeSort_cons α (notLater cmp) notLater_trans notLater_total item items
    have sorted := @List.pairwise_mergeSort α (notLater cmp) notLater_trans notLater_total (item :: items)
    have others := ih rest
    rw [sortBy, parts, List.pairwise_append] at others
    rw [whole, List.pairwise_append, List.pairwise_cons] at sorted
    rw [sortBy, whole, List.pairwise_append, List.pairwise_cons]
    refine ⟨others.1, ⟨?_, others.2.1⟩, ?_⟩
    · -- what follows the new item came after it
      intro other member
      have present : other ∈ items := by
        have sortedAlone : other ∈ sortBy cmp items := by
          rw [sortBy, parts]
          exact List.mem_append_right left member
        exact (sortBy_perm items).mem_iff.mp sortedAlone
      have notAfter := sorted.2.1.1 other member
      cases compared : cmp item other with
      | lt => exact Or.inl compared
      | eq => exact Or.inr ⟨compared, first other present⟩
      | gt => simp [notLater, compared] at notAfter
    · intro other inLeft last inRest
      rcases List.mem_cons.mp inRest with rfl | inRight
      · have strictly := smaller other inLeft
        apply Or.inl
        rw [cmp_swap cmp]
        cases compared : cmp last other <;> simp [notLater, compared] at strictly ⊢
      · exact others.2.2 other inLeft last inRight

/-- No other arrangement of the items is so ordered. -/
theorem eq_of_earlier {before : α → α → Prop} (asymmetric : ∀ a b, before a b → ¬before b a) {first second : List α}
    (same : first.Perm second) (one : first.Pairwise (Earlier cmp before)) (two : second.Pairwise (Earlier cmp before)) :
    first = second := by
  refine List.Perm.eq_of_pairwise ?_ one two same
  intro a b _ _ forth back
  exfalso
  have reversed := cmp_swap cmp a b
  obtain less | ⟨equal, before⟩ := forth
  · obtain back | ⟨back, _⟩ := back <;> rw [less, back] at reversed <;> cases reversed
  · obtain back | ⟨_, after⟩ := back
    · rw [equal, back] at reversed
      cases reversed
    · exact asymmetric a b before after

end StableSort

/-- Taking the items of one key after another takes all items of these keys. -/
theorem flatMap_filter_perm {κ ι : Type} [DecidableEq κ] (key : ι → κ) (items : List ι) {keys : List κ}
    (distinct : keys.Nodup) :
    (keys.flatMap fun k => items.filter fun item => key item = k).Perm (items.filter fun item => key item ∈ keys) := by
  induction keys with
  | nil => simp
  | cons k keys ih =>
    obtain ⟨absent, rest⟩ := List.nodup_cons.mp distinct
    have divided := List.filter_append_perm (fun item => decide (key item = k)) (items.filter fun item => key item ∈ k :: keys)
    rw [List.filter_filter, List.filter_filter] at divided
    refine List.Perm.trans ?_ divided
    rw [List.flatMap_cons]
    have own : (items.filter fun item => key item = k) =
        items.filter fun item => decide (key item = k) && decide (key item ∈ k :: keys) := by
      apply List.filter_congr
      intro item _
      by_cases same : key item = k <;> simp [same]
    have others : (items.filter fun item => key item ∈ keys) =
        items.filter fun item => !decide (key item = k) && decide (key item ∈ k :: keys) := by
      apply List.filter_congr
      intro item _
      by_cases same : key item = k <;> simp [same, absent]
    rw [← own, ← others]
    exact (ih rest).append_left _

end Netmon.Library
