import Netmon.Aggregator.HistoryCsv
import Netmon.Resolver.PidMap

/-! The export of the session history. It writes what the aggregator writes, by a
sanitizer of its own. -/
namespace Netmon.Gui
open Library Aggregator

def pcapExportPrefix : Text := "netmon_export_".toList

def sanitizeCsv (value : Text) : Text := replace ',' ' ' (replace '"' '\x27' value)

def exportHeader : Text :=
  "timestamp,pid,tid,process,thread,user,uid,tx_bytes_total,rx_bytes_total,tx_2s_avg,rx_2s_avg,tx_10s_avg,rx_10s_avg".toList

def exportLine (row : HistoryCsvRow) : Text := csvRecord (row.columns sanitizeCsv) ++ ['\n']

/-- The order of `(timestamp, pid, tid)`. -/
def exportOrder (a b : HistoryCsvRow) : Bool :=
  decide (a.timestamp < b.timestamp ∨ a.timestamp = b.timestamp ∧
    (a.pid < b.pid ∨ a.pid = b.pid ∧ a.tid ≤ b.tid))

/-- What reaches the file of a text, and whether all does; the writes are numbered. -/
abbrev Writer := Nat → Text → Text × Bool

/-- The loop over the rows, which ends at the first write that fails. -/
def writeRows (write : Writer) : Nat → List HistoryCsvRow → Text × Bool
  | _, [] => ([], true)
  | i, row :: rows =>
    let (written, complete) := write i (exportLine row)
    if complete then
      let (rest, done) := writeRows write (i + 1) rows
      (written ++ rest, done)
    else (written, false)

def exportedTo (home : Text) (timestamp : Nat) : Text :=
  "Exported CSV to ".toList ++ (home ++ "/".toList ++ pcapExportPrefix ++ decimal timestamp ++ ".csv".toList)

/-- The text of the file, if there is one, and the status. -/
def exportCsv (home : Text) (timestamp : Nat) (create : Except Text Unit) (write : Writer) (rows : List HistoryCsvRow) :
    Option Text × Text :=
  if rows = [] then (none, "No session history captured yet".toList)
  else
    match create with
    | .error error => (none, "CSV export failed: ".toList ++ error)
    | .ok () =>
      let (header, complete) := write 0 (exportHeader ++ ['\n'])
      if !complete then (some header, "CSV export failed while writing header".toList)
      else
        let (lines, done) := writeRows write 1 (rows.mergeSort exportOrder)
        if !done then (some (header ++ lines), "CSV export failed while writing rows".toList)
        else (some (header ++ lines), exportedTo home timestamp)

/-- A write that succeeds has written everything. -/
def Writer.Honest (write : Writer) : Prop := ∀ i text, (write i text).2 = true → (write i text).1 = text

theorem writeRows_complete {write : Writer} (honest : write.Honest) {i : Nat} {rows : List HistoryCsvRow}
    (done : (writeRows write i rows).2 = true) : (writeRows write i rows).1 = rows.flatMap exportLine := by
  induction rows generalizing i with
  | nil => rfl
  | cons row rows ih =>
    rw [writeRows] at done ⊢
    cases complete : (write i (exportLine row)).2 with
    | true =>
      have written := honest i (exportLine row) complete
      simp only [complete, if_true] at done ⊢
      rw [written, ih done, List.flatMap_cons]
    | false => simp [complete] at done

theorem exportHeader_eq : exportHeader = historyHeader := rfl

theorem sanitizeCsv_eq : sanitizeCsv = Aggregator.sanitizeCsv := rfl

theorem exportLines_eq (rows : List HistoryCsvRow) :
    exportHeader ++ ['\n'] ++ rows.flatMap exportLine = historyTable sanitizeCsv rows := by
  simp only [historyTable, unlines, exportHeader_eq, List.flatMap_cons, List.flatMap_map]
  rfl

theorem not_exported {status : Text} {c : Char} (second : status[1]? = some c) (other : c ≠ 'x') (home : Text)
    (timestamp : Nat) : status ≠ exportedTo home timestamp := by
  rintro rfl
  have starts : "Exported CSV to ".toList <+: exportedTo home timestamp := List.prefix_append _ _
  have expected := prefix_get starts (i := 1) (c := 'x') (by simp)
  rw [second] at expected
  exact other (Option.some.inj expected)

theorem exported_text {home : Text} {timestamp : Nat} {create : Except Text Unit} {write : Writer} (honest : write.Honest)
    {rows : List HistoryCsvRow} {text : Text}
    (exported : exportCsv home timestamp create write rows = (some text, exportedTo home timestamp)) :
    text = historyTable sanitizeCsv (rows.mergeSort exportOrder) := by
  unfold exportCsv at exported
  split at exported
  · cases exported
  cases create with
  | error error => cases exported
  | ok =>
    simp only at exported
    split at exported
    · exact absurd (congrArg Prod.snd exported) (not_exported (c := 'S') (by simp) (by decide) home timestamp)
    rename_i complete
    split at exported
    · exact absurd (congrArg Prod.snd exported) (not_exported (c := 'S') (by simp) (by decide) home timestamp)
    rename_i done
    obtain rfl := Option.some.inj (congrArg Prod.fst exported).symm
    rw [Bool.not_eq_true, Bool.not_eq_false'] at complete done
    rw [honest 0 _ complete, writeRows_complete honest done, exportLines_eq]

/-- An export that succeeds, and the file of a session, are well formed exactly when no name in them has a line break. -/
theorem csv_well_formed {home : Text} {timestamp : Nat} {create : Except Text Unit} {write : Writer} (honest : write.Honest)
    {rows : List HistoryCsvRow} {text : Text}
    (exported : exportCsv home timestamp create write rows = (some text, exportedTo home timestamp))
    (ticks : List (Nat × List ThreadStats)) :
    (WellFormed (rows.mergeSort exportOrder) text ↔ ∀ row ∈ rows, row.SingleLine) ∧
      (WellFormed (sessionRows ticks) (sessionFile ticks) ↔ ∀ row ∈ sessionRows ticks, row.SingleLine) := by
  have table := wellFormed_iff sanitizeCsv_plain sanitizeCsv_newline
  constructor
  · rw [exported_text honest exported, sanitizeCsv_eq, table]
    simp only [List.mem_mergeSort]
  · rw [sessionFile_eq, table]

def healthy : Writer := fun _ text => (text, true)

def rowOf (process : Text) : HistoryCsvRow := ⟨0, 5, 5, process, "curl".toList, "user".toList, 1000, 100, 0, 50, 0, 10, 0⟩

def curlThread : ThreadStats :=
  { ThreadStats.new ⟨5, 5, "curl".toList, "curl".toList, 1000, "user".toList⟩ 0 with txBytesTotal := 100, rxBytesTotal := 50 }

/-- An exported row, and a file to which a tick has written one. -/
theorem csv_well_formed_curl :
    WellFormed ([rowOf "curl".toList].mergeSort exportOrder) (historyTable sanitizeCsv [rowOf "curl".toList]) ∧
      WellFormed [historyRow 7 curlThread] (sessionFile [(7, [curlThread])]) := by
  have exported : exportCsv "/root".toList 0 (.ok ()) healthy [rowOf "curl".toList] =
      (some (historyTable sanitizeCsv [rowOf "curl".toList]), exportedTo "/root".toList 0) := by decide +kernel
  obtain ⟨table, file⟩ := csv_well_formed (fun _ _ _ => rfl) exported [(7, [curlThread])]
  have names : '\n' ∉ "curl".toList ∧ '\n' ∉ "user".toList := by decide
  exact ⟨table.mpr (List.forall_mem_singleton.mpr ⟨names.1, names.1, names.2⟩),
    file.mpr (List.forall_mem_singleton.mpr ⟨names.1, names.1, names.2⟩)⟩

/-- A process has set its name to `a`, a line break and `b`. -/
def brokenName : Text := "a\nb".toList

/-- The name is read with its line break, and the sanitizer lets it pass: the row takes two lines. -/
theorem csv_splits_row :
    Resolver.readComm ⟨fun _ => none, fun _ => none, fun _ => some "a\nb\n".toList⟩ 5 none = some brokenName ∧
    exportCsv "/root".toList 0 (.ok ()) healthy [rowOf brokenName] =
      (some (historyTable sanitizeCsv [rowOf brokenName]), exportedTo "/root".toList 0) ∧
    ((historyTable sanitizeCsv [rowOf brokenName]).splitOn '\n').map (fun line => (line.splitOn ',').length) =
      [13, 4, 10, 1] ∧
    ¬WellFormed [rowOf brokenName] (historyTable sanitizeCsv [rowOf brokenName]) := by
  refine ⟨by decide +kernel, by decide +kernel, by decide +kernel, fun formed => ?_⟩
  have single := (wellFormed_iff sanitizeCsv_plain sanitizeCsv_newline _).mp formed (rowOf brokenName) (by simp)
  exact single.1 (by decide)

end Netmon.Gui
