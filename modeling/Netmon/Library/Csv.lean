import Netmon.Library.Text
import Mathlib.Algebra.Order.BigOperators.Group.List

/-! Comma-separated values without quotes: a record is a line, and commas part its fields. -/
namespace Netmon.Library

def csvRecord (fields : List Text) : Text := List.intercalate [','] fields

theorem length_splitOn (c : Char) (text : Text) : (text.splitOn c).length = text.count c + 1 := by
  induction text with
  | nil => rfl
  | cons d text ih =>
    rw [List.splitOn_cons_eq_if_modifyHead]
    by_cases same : d = c
    · simp [same, ih]
    · simp [same, ih]

theorem splitOn_unlines (rows : List Text) (single : ∀ row ∈ rows, '\n' ∉ row) :
    (unlines rows).splitOn '\n' = rows ++ [[]] := by
  induction rows with
  | nil => rfl
  | cons row rows ih =>
    have tail := ih fun other member => single other (List.mem_cons_of_mem row member)
    rw [unlines] at tail
    rw [unlines, List.flatMap_cons, List.append_assoc, List.singleton_append,
      List.splitOn_append_cons_self_of_not_mem (single row (by simp)), tail, List.cons_append]

theorem count_unlines (rows : List Text) :
    (unlines rows).count '\n' = rows.length + (rows.map (List.count '\n')).sum := by
  induction rows with
  | nil => rfl
  | cons row rows ih =>
    rw [unlines] at ih
    simp only [unlines, List.flatMap_cons, List.count_append, ih, List.length_cons, List.map_cons, List.sum_cons,
      List.count_singleton_self]
    omega

/-- Split into as many lines as there are rows, a text of rows has no other newline. -/
theorem single_of_length_splitOn {rows : List Text} (lines : ((unlines rows).splitOn '\n').length = rows.length + 1) :
    ∀ row ∈ rows, '\n' ∉ row := by
  rw [length_splitOn, count_unlines] at lines
  have none : (rows.map (List.count '\n')).sum = 0 := by omega
  intro row member
  exact List.count_eq_zero.mp (List.sum_eq_zero_iff.mp none _ (List.mem_map_of_mem member))

theorem splitOn_csvRecord {fields : List Text} (filled : fields ≠ []) (plain : ∀ field ∈ fields, ',' ∉ field) :
    (csvRecord fields).splitOn ',' = fields :=
  List.splitOn_intercalate ',' plain filled

theorem mem_csvRecord {c : Char} (other : c ≠ ',') {fields : List Text} :
    c ∈ csvRecord fields ↔ ∃ field ∈ fields, c ∈ field := by
  induction fields with
  | nil => simp [csvRecord]
  | cons field fields ih =>
    cases fields with
    | nil => simp [csvRecord]
    | cons next fields =>
      have split : csvRecord (field :: next :: fields) = field ++ ',' :: csvRecord (next :: fields) := by
        simp [csvRecord, List.intercalate, List.intersperse]
      rw [split, List.mem_append, List.mem_cons, ih, List.exists_mem_cons_iff]
      simp [other]

/-- A field that every unsigned type wide enough for the value reads as the value. -/
def ParsesTo (field : Text) (value : Nat) : Prop := ∀ largest ≥ value, fromStrRadix 10 largest field = some value

theorem decimal_parsesTo (n : Nat) : ParsesTo (decimal n) n := fun largest bound => fromStrRadix_decimal largest n bound

end Netmon.Library
