import Netmon.Controller.Script

/-! What the controller reads from `/proc`: the local ports in the socket tables
of a process's network namespace, and the effective uid of the process. -/
namespace Netmon.Controller
open Library

abbrev ProcFs := Text → Option Text

def procPath (pid : Nat) (entry : Text) : Text :=
  "/proc/".toList ++ decimal pid ++ "/".toList ++ entry

def parsePortFromProcAddr (procAddr : Text) : Option UInt16 :=
  match procAddr.splitOn ':' with
  | _ :: portHex :: _ => (parseU16Hex portHex).map UInt16.ofNat
  | _ => none

def rowPort (line : Text) : Option UInt16 :=
  match splitWhitespace line with
  | _ :: localAddr :: _ => parsePortFromProcAddr localAddr
  | _ => none

def insertPort (ports : PortSet) (line : Text) : PortSet :=
  match rowPort line with
  | some port => ports.insert port
  | none => ports

/-- One file of the loop: a file that cannot be read is skipped, as its header line is. -/
def collectFilePorts (read : ProcFs) (pid : Nat) (ports : PortSet) (file : Text) : PortSet :=
  match read (procPath pid ("net/".toList ++ file)) with
  | none => ports
  | some content => (lines content).tail.foldl insertPort ports

/-- The `Result` of the source is never an error. -/
def collectPidPorts (read : ProcFs) (pid : Nat) (files : List Text) : PortSet :=
  files.foldl (collectFilePorts read pid) ∅

def tcpFiles : List Text := ["tcp".toList, "tcp6".toList]
def udpFiles : List Text := ["udp".toList, "udp6".toList]

def uidOfLines : List Text → Option Nat
  | [] => none
  | line :: rest =>
    match line.dropPrefix? "Uid:".toList with
    | some columns => (splitWhitespace columns)[1]? >>= parseU32
    | none => uidOfLines rest

def readUidForPid (read : ProcFs) (pid : Nat) : Option Nat :=
  match read (procPath pid "status".toList) with
  | none => none
  | some content => uidOfLines (lines content)

theorem uidOfLines_lt {rows : List Text} {uid : Nat} (found : uidOfLines rows = some uid) : uid < 2^32 := by
  induction rows with
  | nil => cases found
  | cons line rest ih =>
    unfold uidOfLines at found
    split at found
    · obtain ⟨column, _, parsed⟩ := Option.bind_eq_some_iff.mp found
      exact Nat.lt_of_le_pred (by omega) (fromStrRadix_le parsed)
    · exact ih found

theorem readUidForPid_lt {read : ProcFs} {pid uid : Nat} (found : readUidForPid read pid = some uid) :
    uid < 2^32 := by
  unfold readUidForPid at found
  split at found
  · cases found
  · exact uidOfLines_lt found

def processSpecs (read : ProcFs) (pid : Nat) (limit : Option Nat) (comment : Text) : Option (List RuleSpec) :=
  let tcpPorts := collectPidPorts read pid tcpFiles
  let udpPorts := collectPidPorts read pid udpFiles
  if tcpPorts.isEmpty && udpPorts.isEmpty then
    (readUidForPid read pid).map fun uid => [⟨.skuid uid, limit, comment⟩]
  else some (portSpecs tcpPorts udpPorts limit comment)

theorem processSpecs_some {read : ProcFs} {pid : Nat} {limit : Option Nat} {comment : Text}
    {specs : List RuleSpec} (built : processSpecs read pid limit comment = some specs) :
    specs ≠ [] ∧ ∀ spec ∈ specs, spec.comment = comment := by
  unfold processSpecs at built
  simp only at built
  split at built
  · obtain ⟨uid, _, rfl⟩ := Option.map_eq_some_iff.mp built
    simp
  · rename_i some
    cases built
    refine ⟨fun nothing => some ?_, ?_⟩
    · simp only [portSpecs, List.append_eq_nil_iff, ite_eq_left_iff, List.cons_ne_self, imp_false,
        Bool.not_eq_true, Bool.not_eq_false] at nothing
      simpa using nothing
    · intro spec member
      simp only [portSpecs, List.mem_append] at member
      rcases member with member | member <;> split at member <;> simp_all

end Netmon.Controller
