import Netmon.Aggregator.Loop
import Netmon.Aggregator.Conservation

/-! The session history that the GUI exports. It is complete whatever becomes of the
writes to the history file, but only while there is such a file. -/
namespace Netmon.Aggregator
open Library Capture Resolver

/-- The mean of the newest slots. Their sum wraps around, as in a release build. -/
def newestMean (count : Nat) (history : History) : Nat := (history.toList.take count).sum % 2^64 / count

/-- A row with the identity, the totals and the averages of a thread. -/
structure RowDue (due : Nat × ThreadStats) (row : HistoryCsvRow) : Prop where
  timestamp : row.timestamp = due.1
  pid : row.pid = due.2.info.pid
  tid : row.tid = due.2.info.tid
  process : row.process = due.2.info.name
  thread : row.thread = due.2.info.threadName
  user : row.user = due.2.info.username
  uid : row.uid = due.2.info.uid
  txBytesTotal : row.txBytesTotal = due.2.txBytesTotal
  rxBytesTotal : row.rxBytesTotal = due.2.rxBytesTotal
  tx2sAvg : row.tx2sAvg = newestMean 2 due.2.txHistory
  rx2sAvg : row.rx2sAvg = newestMean 2 due.2.rxHistory
  tx10sAvg : row.tx10sAvg = newestMean 10 due.2.txHistory
  rx10sAvg : row.rx10sAvg = newestMean 10 due.2.rxHistory

/-- The threads that are live at a rotation, with the time that their rows bear. -/
def threadsDue (loop : LoopState) (iteration : Iteration) : List (Nat × ThreadStats) :=
  if (iteration.rotation loop).1 then
    (HashMap.values (iteration.rotation loop).2.statsByThread).map fun stats => (iteration.timestamp, stats)
  else []

def threadsDueIn (start : LoopState) (iterations : List Iteration) : List (Nat × ThreadStats) :=
  observed runIteration threadsDue start iterations

/-- A row for every rotation and every thread live at it, and no others. -/
def CompleteHistory (due : List (Nat × ThreadStats)) (rows : List HistoryCsvRow) : Prop :=
  ∃ order : List (Nat × ThreadStats), order.Perm due ∧ List.Forall₂ RowDue order rows

theorem CompleteHistory.nil_iff {due : List (Nat × ThreadStats)} : CompleteHistory due [] ↔ due = [] := by
  constructor
  · rintro ⟨order, permuted, rows⟩
    cases rows
    exact permuted.nil_eq.symm
  · rintro rfl
    exact ⟨[], List.Perm.refl _, List.Forall₂.nil⟩

theorem CompleteHistory.append {first second : List (Nat × ThreadStats)} {rows later : List HistoryCsvRow}
    (complete : CompleteHistory first rows) (others : CompleteHistory second later) :
    CompleteHistory (first ++ second) (rows ++ later) := by
  obtain ⟨order, permuted, each⟩ := complete
  obtain ⟨order', permuted', each'⟩ := others
  exact ⟨order ++ order', permuted.append permuted', List.rel_append each each'⟩

theorem twoSecondAvg_eq (history : History) : twoSecondAvg history = newestMean 2 history := by
  obtain ⟨⟨slots⟩, size⟩ := history
  match slots, size with
  | first :: second :: rest, _ =>
    have sum : (List.take 2 (first :: second :: rest)).sum = first + second := by simp
    rw [newestMean, Vector.toList_mk, sum]
    rfl

theorem historyRow_due (timestamp : Nat) (stats : ThreadStats) : RowDue (timestamp, stats) (historyRow timestamp stats) :=
  ⟨rfl, rfl, rfl, rfl, rfl, rfl, rfl, rfl, rfl, twoSecondAvg_eq _, twoSecondAvg_eq _, rfl, rfl⟩

section Iteration
variable (loop : LoopState) (iteration : Iteration)

theorem runIteration_file : (runIteration loop iteration).historyCsv.isSome = loop.historyCsv.isSome := by
  unfold runIteration
  obtain ⟨rotated, state⟩ := iteration.rotation loop
  cases rotated <;> cases loop.historyCsv <;> rfl

theorem runIteration_unsaved (unopened : loop.historyCsv = none) :
    (runIteration loop iteration).sessionHistory = loop.sessionHistory := by
  unfold runIteration
  rw [unopened]
  obtain ⟨rotated, state⟩ := iteration.rotation loop
  cases rotated <;> rfl

theorem runIteration_saved (opened : loop.historyCsv.isSome = true) :
    ∃ rows, (runIteration loop iteration).sessionHistory = loop.sessionHistory ++ rows ∧
      CompleteHistory (threadsDue loop iteration) rows := by
  obtain ⟨file, opened⟩ := Option.isSome_iff_exists.mp opened
  unfold runIteration threadsDue
  rw [opened]
  obtain ⟨rotated, state⟩ := iteration.rotation loop
  cases rotated with
  | false => exact ⟨[], (List.append_nil _).symm, CompleteHistory.nil_iff.mpr rfl⟩
  | true =>
    refine ⟨_, rfl, _, (iteration.order.values_perm state.statsByThread).map fun stats => (iteration.timestamp, stats), ?_⟩
    rw [List.forall₂_map_left_iff]
    change List.Forall₂ _ _ ((iteration.order.values state.statsByThread).map (historyRow iteration.timestamp))
    rw [List.forall₂_map_right_iff, List.forall₂_same]
    exact fun stats _ => historyRow_due iteration.timestamp stats

end Iteration

theorem run_unsaved (start : LoopState) (unopened : start.historyCsv = none) (iterations : List Iteration) :
    (run runIteration start iterations).sessionHistory = start.sessionHistory := by
  have kept := run_keeps runIteration
    (fun loop => loop.historyCsv = none ∧ loop.sessionHistory = start.sessionHistory) (by
      rintro loop iteration ⟨unopened, same⟩
      refine ⟨?_, (runIteration_unsaved loop iteration unopened).trans same⟩
      rw [← Option.isNone_iff_eq_none, ← Option.not_isSome, runIteration_file, unopened]
      rfl) start iterations ⟨unopened, rfl⟩
  exact kept.2

theorem run_saved (start : LoopState) (opened : start.historyCsv.isSome = true) (iterations : List Iteration) :
    ∃ rows, (run runIteration start iterations).sessionHistory = start.sessionHistory ++ rows ∧
      CompleteHistory (threadsDueIn start iterations) rows := by
  induction iterations generalizing start with
  | nil => exact ⟨[], (List.append_nil _).symm, CompleteHistory.nil_iff.mpr rfl⟩
  | cons iteration iterations ih =>
    obtain ⟨first, grown, complete⟩ := runIteration_saved start iteration opened
    obtain ⟨rest, ended, others⟩ := ih (runIteration start iteration) ((runIteration_file start iteration).trans opened)
    refine ⟨first ++ rest, ?_, complete.append others⟩
    rw [run_cons, ended, grown, List.append_assoc]

/-- The session history has a row for every rotation and every thread live at it exactly when the history file could be
opened, or no thread was live at any rotation. What the file takes of the lines does not matter. -/
theorem session_history_complete (now : Instant) (scanNow : Int) (opened : Option Text) (write : Text → Text × Bool)
    (iterations : List Iteration) :
    CompleteHistory (threadsDueIn (.start now scanNow (openHistoryCsv opened write)) iterations)
        (run runIteration (.start now scanNow (openHistoryCsv opened write)) iterations).sessionHistory ↔
      (openHistoryCsv opened write).isSome = true ∨
        threadsDueIn (.start now scanNow (openHistoryCsv opened write)) iterations = [] := by
  generalize file : openHistoryCsv opened write = historyCsv
  cases historyCsv with
  | some text =>
    obtain ⟨rows, ended, complete⟩ := run_saved (.start now scanNow (some text)) rfl iterations
    have all : (run runIteration (.start now scanNow (some text)) iterations).sessionHistory = rows := ended
    rw [all]
    exact iff_of_true complete (Or.inl rfl)
  | none =>
    rw [run_unsaved _ rfl]
    simp only [LoopState.start, Option.isSome_none, Bool.false_eq_true, false_or]
    exact CompleteHistory.nil_iff

/-- One thread has sent when the first second is over. -/
def curlIteration : Iteration := .atTime (10^9) [(tcpRecord clientAddr serverAddr 100 .tx, curl)]

theorem session_history_lost :
    openHistoryCsv none (fun text => (text, true)) = none ∧
    (run runIteration (.start 0 0 none) [curlIteration]).sessionHistory = [] ∧
    (threadsDueIn (.start 0 0 none) [curlIteration]).map (fun due => (due.2.info.pid, due.2.txBytesTotal)) = [(5, 100)] ∧
    ¬CompleteHistory (threadsDueIn (.start 0 0 none) [curlIteration])
      (run runIteration (.start 0 0 none) [curlIteration]).sessionHistory := by
  have due : (threadsDueIn (.start 0 0 none) [curlIteration]).map (fun due => (due.2.info.pid, due.2.txBytesTotal)) =
      [(5, 100)] := by
    decide +kernel
  refine ⟨rfl, run_unsaved _ rfl _, due, ?_⟩
  intro complete
  rw [run_unsaved _ rfl] at complete
  rw [CompleteHistory.nil_iff.mp complete] at due
  cases due

end Netmon.Aggregator
