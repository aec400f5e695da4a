import Netmon.Aggregator.State
import Netmon.Library.Csv

/-! The history of a session: one row for every thread at every tick, kept in memory and
written to a file of comma-separated values. -/
namespace Netmon.Aggregator
open Library Resolver

structure HistoryCsvRow where
  timestamp : Nat
  pid : Nat
  tid : Nat
  process : Text
  thread : Text
  user : Text
  uid : Nat
  txBytesTotal : Nat
  rxBytesTotal : Nat
  tx2sAvg : Nat
  rx2sAvg : Nat
  tx10sAvg : Nat
  rx10sAvg : Nat
deriving DecidableEq, Repr

-- The sums of both averages wrap around, as in a release build.
def twoSecondAvg (history : History) : Nat := (history.getD 0 0 + history.getD 1 0) % 2^64 / 2

def tenSecondAvg (history : History) : Nat := (history.toList.take 10).sum % 2^64 / 10

def sanitizeCsv (value : Text) : Text := replace ',' ' ' (replace '"' '\x27' value)

def historyRow (timestamp : Nat) (stats : ThreadStats) : HistoryCsvRow where
  timestamp := timestamp
  pid := stats.info.pid
  tid := stats.info.tid
  process := stats.info.name
  thread := stats.info.threadName
  user := stats.info.username
  uid := stats.info.uid
  txBytesTotal := stats.txBytesTotal
  rxBytesTotal := stats.rxBytesTotal
  tx2sAvg := twoSecondAvg stats.txHistory
  rx2sAvg := twoSecondAvg stats.rxHistory
  tx10sAvg := tenSecondAvg stats.txHistory
  rx10sAvg := tenSecondAvg stats.rxHistory

def historyHeader : Text := "timestamp,pid,tid,process,thread,user,uid,tx_bytes_total,rx_bytes_total,tx_2s_avg,rx_2s_avg,tx_10s_avg,rx_10s_avg".toList

/-- The columns of a line, names as the sanitizer leaves them. -/
def HistoryCsvRow.columns (sanitize : Text → Text) (row : HistoryCsvRow) : List Text :=
  [decimal row.timestamp, decimal row.pid, decimal row.tid, sanitize row.process, sanitize row.thread, sanitize row.user,
    decimal row.uid, decimal row.txBytesTotal, decimal row.rxBytesTotal, decimal row.tx2sAvg, decimal row.rx2sAvg,
    decimal row.tx10sAvg, decimal row.rx10sAvg]

def historyLine (row : HistoryCsvRow) : Text := csvRecord (row.columns sanitizeCsv) ++ ['\n']

/-- `opened` is the text of the file that is appended to; `write` is what reaches it of a text, and whether all does. -/
def openHistoryCsv (opened : Option Text) (write : Text → Text × Bool) : Option Text :=
  opened.bind fun text =>
    let (written, complete) := write (historyHeader ++ ['\n'])
    if complete then some (text ++ written) else none

/-- The file and the session history after a tick. `written` is what reaches the file of the line with a given number:
the error of a write is dropped. -/
def appendHistoryCsv (timestamp : Nat) (written : Nat → Text → Text) (threads : List ThreadStats) (file : Text)
    (sessionHistory : List HistoryCsvRow) : Text × List HistoryCsvRow :=
  (file ++ threads.zipIdx.flatMap (fun thread => written thread.2 (historyLine (historyRow timestamp thread.1))),
    sessionHistory ++ threads.map (historyRow timestamp))

def HistoryCsvRow.SingleLine (row : HistoryCsvRow) : Prop := '\n' ∉ row.process ∧ '\n' ∉ row.thread ∧ '\n' ∉ row.user

/-- The numeric fields with their columns. -/
def HistoryCsvRow.numbers (row : HistoryCsvRow) : List (Nat × Nat) :=
  [(0, row.timestamp), (1, row.pid), (2, row.tid), (6, row.uid), (7, row.txBytesTotal), (8, row.rxBytesTotal),
    (9, row.tx2sAvg), (10, row.rx2sAvg), (11, row.tx10sAvg), (12, row.rx10sAvg)]

structure HistoryCsvRow.ReadsFrom (row : HistoryCsvRow) (line : Text) : Prop where
  fields : (line.splitOn ',').length = 13
  numbers : ∀ number ∈ row.numbers, ParsesTo ((line.splitOn ',').getD number.1 []) number.2

/-- The header and one line for each row, every line with its newline. -/
def WellFormed (rows : List HistoryCsvRow) (text : Text) : Prop :=
  ∃ lines, text.splitOn '\n' = historyHeader :: lines ++ [[]] ∧ List.Forall₂ HistoryCsvRow.ReadsFrom rows lines

/-- The text of a table whose names a sanitizer has passed. -/
def historyTable (sanitize : Text → Text) (rows : List HistoryCsvRow) : Text :=
  unlines (historyHeader :: rows.map fun row => csvRecord (row.columns sanitize))

section Table
variable {sanitize : Text → Text} (plain : ∀ value, ',' ∉ sanitize value)

include plain in
theorem columns_read (row : HistoryCsvRow) : (csvRecord (row.columns sanitize)).splitOn ',' = row.columns sanitize := by
  apply splitOn_csvRecord
  · simp [HistoryCsvRow.columns]
  · have digits (n : Nat) : ',' ∉ decimal n := decimal_not_mem rfl
    simp [HistoryCsvRow.columns, plain, digits]

include plain in
theorem line_reads (row : HistoryCsvRow) : row.ReadsFrom (csvRecord (row.columns sanitize)) where
  fields := by
    rw [columns_read plain]
    rfl
  numbers := by
    rw [columns_read plain]
    simp [HistoryCsvRow.numbers, HistoryCsvRow.columns, decimal_parsesTo]

variable (newlines : ∀ value, '\n' ∈ sanitize value ↔ '\n' ∈ value)

include newlines in
theorem line_single_iff (row : HistoryCsvRow) : '\n' ∉ csvRecord (row.columns sanitize) ↔ row.SingleLine := by
  have digits (n : Nat) : '\n' ∉ decimal n := decimal_not_mem rfl
  rw [mem_csvRecord (by decide)]
  simp [HistoryCsvRow.columns, HistoryCsvRow.SingleLine, newlines, digits]

include plain newlines in
/-- A table is well formed exactly when no name in it has a line break. -/
theorem wellFormed_iff (rows : List HistoryCsvRow) :
    WellFormed rows (historyTable sanitize rows) ↔ ∀ row ∈ rows, row.SingleLine := by
  constructor
  · rintro ⟨lines, split, reads⟩
    have counted : ((historyTable sanitize rows).splitOn '\n').length =
        (historyHeader :: rows.map fun row => csvRecord (row.columns sanitize)).length + 1 := by
      rw [split]
      simp [reads.length_eq]
    have single := single_of_length_splitOn counted
    intro row member
    rw [← line_single_iff newlines]
    exact single _ (List.mem_cons_of_mem _ (List.mem_map_of_mem member))
  · intro single
    refine ⟨rows.map fun row => csvRecord (row.columns sanitize), ?_, ?_⟩
    · apply splitOn_unlines
      intro line member
      rcases List.mem_cons.mp member with rfl | line
      · decide
      · obtain ⟨row, inside, rfl⟩ := List.mem_map.mp line
        exact (line_single_iff newlines row).mpr (single row inside)
    · rw [List.forall₂_map_right_iff, List.forall₂_same]
      exact fun row _ => line_reads plain row

end Table

theorem appended_text (timestamp : Nat) (threads : List ThreadStats) (file : Text) (sessionHistory : List HistoryCsvRow) :
    (appendHistoryCsv timestamp (fun _ line => line) threads file sessionHistory).1 =
      file ++ unlines (threads.map fun stats => csvRecord ((historyRow timestamp stats).columns sanitizeCsv)) := by
  have lines : threads.zipIdx.flatMap (fun thread => historyLine (historyRow timestamp thread.1)) =
      threads.flatMap fun stats => historyLine (historyRow timestamp stats) := by
    rw [← List.flatMap_map Prod.fst fun stats => historyLine (historyRow timestamp stats), List.zipIdx_map_fst]
  rw [appendHistoryCsv, lines, unlines, List.flatMap_map]
  rfl

theorem sanitizeCsv_plain (value : Text) : ',' ∉ sanitizeCsv value := not_mem_replace _ (by decide)

theorem sanitizeCsv_newline (value : Text) : '\n' ∈ sanitizeCsv value ↔ '\n' ∈ value := by
  rw [sanitizeCsv, mem_replace_iff (by decide) (by decide), mem_replace_iff (by decide) (by decide)]

/-- A new file after some ticks, each with its time stamp and its threads, when every write is complete. -/
def sessionFile (ticks : List (Nat × List ThreadStats)) : Text :=
  ticks.foldl (fun file tick => (appendHistoryCsv tick.1 (fun _ line => line) tick.2 file []).1) (historyHeader ++ ['\n'])

def sessionRows (ticks : List (Nat × List ThreadStats)) : List HistoryCsvRow :=
  ticks.flatMap fun tick => tick.2.map (historyRow tick.1)

theorem sessionFile_eq (ticks : List (Nat × List ThreadStats)) :
    sessionFile ticks = historyTable sanitizeCsv (sessionRows ticks) := by
  have appended (start : Text) : ticks.foldl (fun file tick =>
      (appendHistoryCsv tick.1 (fun _ line => line) tick.2 file []).1) start =
        start ++ unlines ((sessionRows ticks).map fun row => csvRecord (row.columns sanitizeCsv)) := by
    induction ticks generalizing start with
    | nil => simp [sessionRows, unlines]
    | cons tick ticks ih =>
      rw [List.foldl_cons, ih, appended_text]
      simp [sessionRows, unlines, List.flatMap_map, Function.comp_def]
  rw [sessionFile, appended]
  simp [historyTable, unlines]

end Netmon.Aggregator
