import Netmon.Library.HashMap
import Netmon.Library.Text

/-! The threads behind socket inodes: a walk over `/proc`, its task directories and
their descriptor directories. A later write to an inode replaces an earlier one. -/
namespace Netmon.Resolver
open Library

structure InodePidEntry where
  pid : Nat
  tid : Nat
  processName : Text
  threadName : Text
  uid : Nat
deriving DecidableEq, Repr

abbrev InodePidMap := HashMap Nat InodePidEntry

/-- The file system, with the entries of a directory in the order of its enumeration.
An entry that cannot be read is `none`. -/
structure ProcTree where
  readDir : Text → Option (List (Option Text))
  readLink : Text → Option Text
  read : Text → Option Text

def procDir : Text := "/proc".toList

def joinPath (directory name : Text) : Text := directory ++ '/' :: name

def readComm (proc : ProcTree) (pid : Nat) (tid : Option Nat) : Option Text :=
  let path := match tid with
    | some tid => "/proc/".toList ++ decimal pid ++ "/task/".toList ++ decimal tid ++ "/comm".toList
    | none => "/proc/".toList ++ decimal pid ++ "/comm".toList
  (proc.read path).map trim

def effectiveUidOfLines : List Text → Option Nat
  | [] => none
  | line :: rest =>
    match line.dropPrefix? "Uid:".toList with
    | some text =>
      let columns := splitWhitespace text
      if columns.length ≥ 2 then parseU32 (columns.getD 1 []) else effectiveUidOfLines rest
    | none => effectiveUidOfLines rest

def readProcessEffectiveUid (proc : ProcTree) (pid : Nat) : Option Nat := do
  let status ← proc.read ("/proc/".toList ++ decimal pid ++ "/status".toList)
  effectiveUidOfLines (lines status)

def parseSocketInode (target : Text) : Option Nat :=
  let start := "socket:[".toList
  if !start.isPrefixOf target || target.getLast? ≠ some ']' then none
  else parseU64 (target.drop start.length).dropLast

section Walk
variable (proc : ProcTree)

def scanFd (fdPath : Text) (owner : InodePidEntry) (inodeToPid : InodePidMap) (fdEntry : Option Text) : InodePidMap :=
  match fdEntry.bind fun name => proc.readLink (joinPath fdPath name) with
  | none => inodeToPid
  | some symlinkTarget =>
    match parseSocketInode symlinkTarget with
    | some socketInode => inodeToPid.insert socketInode owner
    | none => inodeToPid

def scanFdDir (fdPath : Text) (owner : InodePidEntry) (inodeToPid : InodePidMap) : InodePidMap :=
  match proc.readDir fdPath with
  | none => inodeToPid
  | some fdEntries => fdEntries.foldl (scanFd proc fdPath owner) inodeToPid

def scanTask (taskPath : Text) (pid : Nat) (processName : Text) (processUid : Nat) (inodeToPid : InodePidMap)
    (taskEntry : Option Text) : InodePidMap :=
  match taskEntry with
  | none => inodeToPid
  | some name =>
    match parseU32 name with
    | none => inodeToPid
    | some tid =>
      let threadName := (readComm proc pid (some tid)).getD processName
      scanFdDir proc (joinPath (joinPath taskPath name) "fd".toList) ⟨pid, tid, processName, threadName, processUid⟩
        inodeToPid

def scanProcess (inodeToPid : InodePidMap) (procEntry : Option Text) : InodePidMap :=
  match procEntry with
  | none => inodeToPid
  | some name =>
    match parseU32 name with
    | none => inodeToPid
    | some pid =>
      match readComm proc pid none with
      | none => inodeToPid
      | some processName =>
        match readProcessEffectiveUid proc pid with
        | none => inodeToPid
        | some processUid =>
          let taskPath := joinPath (joinPath procDir name) "task".toList
          match proc.readDir taskPath with
          | none =>
            scanFdDir proc (joinPath (joinPath procDir name) "fd".toList) ⟨pid, pid, processName, processName, processUid⟩
              inodeToPid
          | some taskEntries => taskEntries.foldl (scanTask proc taskPath pid processName processUid) inodeToPid

def buildInodePidMap : InodePidMap :=
  match proc.readDir procDir with
  | none => ∅
  | some procEntries => procEntries.foldl (scanProcess proc) ∅

end Walk
end Netmon.Resolver
