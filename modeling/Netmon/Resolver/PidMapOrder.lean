import Netmon.Resolver.PidMap

/-! The order of enumeration: which descriptor directories the walk reads, for which
thread, and when the map depends on the order in which they come. -/
namespace Netmon.Resolver
open Library

structure ScannedThread where
  owner : InodePidEntry
  fdPath : Text
deriving DecidableEq

section Walk
variable (proc : ProcTree)

def taskThread (taskPath : Text) (pid : Nat) (processName : Text) (processUid : Nat) (taskEntry : Option Text) :
    List ScannedThread :=
  match taskEntry with
  | none => []
  | some name =>
    match parseU32 name with
    | none => []
    | some tid =>
      [⟨⟨pid, tid, processName, (readComm proc pid (some tid)).getD processName, processUid⟩,
        joinPath (joinPath taskPath name) "fd".toList⟩]

def processThreads (procEntry : Option Text) : List ScannedThread :=
  match procEntry with
  | none => []
  | some name =>
    match parseU32 name with
    | none => []
    | some pid =>
      match readComm proc pid none with
      | none => []
      | some processName =>
        match readProcessEffectiveUid proc pid with
        | none => []
        | some processUid =>
          let taskPath := joinPath (joinPath procDir name) "task".toList
          match proc.readDir taskPath with
          | none =>
            [⟨⟨pid, pid, processName, processName, processUid⟩, joinPath (joinPath procDir name) "fd".toList⟩]
          | some taskEntries => taskEntries.flatMap (taskThread proc taskPath pid processName processUid)

def scannedThreads : List ScannedThread := ((proc.readDir procDir).getD []).flatMap (processThreads proc)

def fdInode (fdPath : Text) (fdEntry : Option Text) : Option Nat :=
  (fdEntry.bind fun name => proc.readLink (joinPath fdPath name)).bind parseSocketInode

def fdInodes (fdPath : Text) : List Nat := ((proc.readDir fdPath).getD []).filterMap (fdInode proc fdPath)

def threadWrites (thread : ScannedThread) : List (Nat × InodePidEntry) :=
  (fdInodes proc thread.fdPath).map fun inode => (inode, thread.owner)

theorem scanFdDir_eq (fdPath : Text) (owner : InodePidEntry) (inodeToPid : InodePidMap) :
    scanFdDir proc fdPath owner inodeToPid = HashMap.insertAll (threadWrites proc ⟨owner, fdPath⟩) inodeToPid := by
  unfold scanFdDir threadWrites fdInodes
  cases proc.readDir fdPath with
  | none => rfl
  | some fdEntries =>
    have each (map : InodePidMap) (fdEntry : Option Text) : scanFd proc fdPath owner map fdEntry =
        HashMap.insertAll ((fdInode proc fdPath fdEntry).toList.map fun inode => (inode, owner)) map := by
      unfold scanFd fdInode
      cases fdEntry.bind fun name => proc.readLink (joinPath fdPath name) with
      | none => rfl
      | some symlinkTarget =>
        simp only [Option.bind_some]
        cases parseSocketInode symlinkTarget <;> rfl
    simp only [Option.getD_some, HashMap.foldl_insertAll each]
    congr 1
    induction fdEntries with
    | nil => rfl
    | cons fdEntry fdEntries ih =>
      rw [List.flatMap_cons, ih, List.filterMap_cons]
      cases fdInode proc fdPath fdEntry <;> rfl

theorem scanTask_eq (taskPath : Text) (pid : Nat) (processName : Text) (processUid : Nat) (inodeToPid : InodePidMap)
    (taskEntry : Option Text) :
    scanTask proc taskPath pid processName processUid inodeToPid taskEntry =
      HashMap.insertAll ((taskThread proc taskPath pid processName processUid taskEntry).flatMap (threadWrites proc))
        inodeToPid := by
  unfold scanTask taskThread
  cases taskEntry with
  | none => rfl
  | some name =>
    simp only
    cases parseU32 name with
    | none => rfl
    | some tid => simp [scanFdDir_eq]

theorem scanProcess_eq (inodeToPid : InodePidMap) (procEntry : Option Text) :
    scanProcess proc inodeToPid procEntry =
      HashMap.insertAll ((processThreads proc procEntry).flatMap (threadWrites proc)) inodeToPid := by
  unfold scanProcess processThreads
  cases procEntry with
  | none => rfl
  | some name =>
    simp only
    cases parseU32 name with
    | none => rfl
    | some pid =>
      simp only
      cases readComm proc pid none with
      | none => rfl
      | some processName =>
        simp only
        cases readProcessEffectiveUid proc pid with
        | none => rfl
        | some processUid =>
          simp only
          cases proc.readDir (joinPath (joinPath procDir name) "task".toList) with
          | none => simp [scanFdDir_eq]
          | some taskEntries =>
            simp only [List.flatMap_assoc]
            exact HashMap.foldl_insertAll (scanTask_eq proc _ pid processName processUid) taskEntries inodeToPid

theorem buildInodePidMap_eq :
    buildInodePidMap proc = HashMap.insertAll ((scannedThreads proc).flatMap (threadWrites proc)) ∅ := by
  unfold buildInodePidMap scannedThreads
  cases proc.readDir procDir with
  | none => rfl
  | some procEntries =>
    simp only [Option.getD_some, List.flatMap_assoc]
    exact HashMap.foldl_insertAll (scanProcess_eq proc) procEntries ∅

end Walk

/-- The same content, with the entries of every directory in any order. -/
structure Reordered (proc other : ProcTree) : Prop where
  readDir : ∀ path, Option.Rel List.Perm (other.readDir path) (proc.readDir path)
  readLink : other.readLink = proc.readLink
  read : other.read = proc.read

theorem Reordered.listing {proc other : ProcTree} (same : Reordered proc other) (path : Text) :
    ((other.readDir path).getD []).Perm ((proc.readDir path).getD []) := by
  have related := same.readDir path
  generalize other.readDir path = there at *
  generalize proc.readDir path = here at *
  cases related with
  | some permuted => exact permuted
  | none => exact List.Perm.refl []

theorem Reordered.readComm_eq {proc other : ProcTree} (same : Reordered proc other) : readComm other = readComm proc := by
  funext pid tid
  simp only [readComm, same.read]

theorem Reordered.readProcessEffectiveUid_eq {proc other : ProcTree} (same : Reordered proc other) :
    readProcessEffectiveUid other = readProcessEffectiveUid proc := by
  funext pid
  simp only [readProcessEffectiveUid, same.read]

theorem Reordered.taskThread_eq {proc other : ProcTree} (same : Reordered proc other) :
    taskThread other = taskThread proc := by
  funext taskPath pid processName processUid taskEntry
  simp only [taskThread, same.readComm_eq]

theorem Reordered.processThreads_perm {proc other : ProcTree} (same : Reordered proc other) (procEntry : Option Text) :
    (processThreads other procEntry).Perm (processThreads proc procEntry) := by
  simp only [processThreads, same.taskThread_eq, same.readProcessEffectiveUid_eq, same.readComm_eq]
  cases procEntry with
  | none => exact List.Perm.refl []
  | some name =>
    simp only
    cases parseU32 name with
    | none => exact List.Perm.refl []
    | some pid =>
      simp only
      cases readComm proc pid none with
      | none => exact List.Perm.refl []
      | some processName =>
        simp only
        cases readProcessEffectiveUid proc pid with
        | none => exact List.Perm.refl []
        | some processUid =>
          -- the task directory is listed in both or in neither
          have related := same.readDir (joinPath (joinPath procDir name) "task".toList)
          simp only
          generalize other.readDir (joinPath (joinPath procDir name) "task".toList) = there at *
          generalize proc.readDir (joinPath (joinPath procDir name) "task".toList) = here at *
          cases related with
          | none => exact List.Perm.refl _
          | some permuted => exact permuted.flatMap_right _

theorem Reordered.scannedThreads_perm {proc other : ProcTree} (same : Reordered proc other) :
    (scannedThreads other).Perm (scannedThreads proc) :=
  (same.listing procDir).flatMap fun procEntry _ => same.processThreads_perm procEntry

theorem Reordered.fdInodes_perm {proc other : ProcTree} (same : Reordered proc other) (fdPath : Text) :
    (fdInodes other fdPath).Perm (fdInodes proc fdPath) := by
  have links : fdInode other = fdInode proc := by
    funext fdPath fdEntry
    simp only [fdInode, same.readLink]
  rw [fdInodes, fdInodes, links]
  exact (same.listing fdPath).filterMap _

theorem Reordered.writes_perm {proc other : ProcTree} (same : Reordered proc other) :
    ((scannedThreads other).flatMap (threadWrites other)).Perm ((scannedThreads proc).flatMap (threadWrites proc)) :=
  same.scannedThreads_perm.flatMap fun thread _ => (same.fdInodes_perm thread.fdPath).map _

def moveLast (entry : Option Text) (entries : List (Option Text)) : List (Option Text) :=
  if entry ∈ entries then entries.erase entry ++ [entry] else entries

theorem moveLast_perm (entry : Option Text) (entries : List (Option Text)) : (moveLast entry entries).Perm entries := by
  unfold moveLast
  split
  · rename_i member
    exact (List.perm_append_singleton entry _).trans (List.perm_cons_erase member).symm
  · exact List.Perm.refl entries

def ProcTree.endingWith (proc : ProcTree) (procEntry taskEntry : Option Text) : ProcTree :=
  { proc with
    readDir := fun path => (proc.readDir path).map (moveLast (if path = procDir then procEntry else taskEntry)) }

theorem endingWith_reordered (proc : ProcTree) (procEntry taskEntry : Option Text) :
    Reordered proc (proc.endingWith procEntry taskEntry) where
  readDir path := by
    simp only [ProcTree.endingWith]
    cases proc.readDir path with
    | none => exact .none
    | some entries => exact .some (moveLast_perm _ entries)
  readLink := rfl
  read := rfl

theorem joinPath_ne_procDir (name file : Text) : joinPath (joinPath procDir name) file ≠ procDir := by
  intro equal
  have sizes := congrArg List.length equal
  simp only [joinPath, List.length_append, List.length_cons] at sizes
  omega

theorem taskThread_singleton {proc : ProcTree} {taskPath : Text} {pid : Nat} {processName : Text} {processUid : Nat}
    {taskEntry : Option Text} {thread : ScannedThread}
    (member : thread ∈ taskThread proc taskPath pid processName processUid taskEntry) :
    taskThread proc taskPath pid processName processUid taskEntry = [thread] := by
  unfold taskThread at member ⊢
  cases taskEntry with
  | none => cases member
  | some name =>
    simp only at member ⊢
    cases numeral : parseU32 name with
    | none => simp [numeral] at member
    | some tid =>
      simp only [numeral, List.mem_singleton] at member ⊢
      rw [member]

theorem flatMap_moveLast {tasks : Option Text → List ScannedThread} {thread : ScannedThread} {entry : Option Text}
    {entries : List (Option Text)} (member : entry ∈ entries) {front : List ScannedThread}
    (last : tasks entry = front ++ [thread]) :
    ∃ front, (moveLast entry entries).flatMap tasks = front ++ [thread] := by
  refine ⟨(entries.erase entry).flatMap tasks ++ front, ?_⟩
  rw [moveLast, if_pos member, List.flatMap_append, List.flatMap_singleton, last, List.append_assoc]

theorem processThreads_last {proc : ProcTree} {procEntry : Option Text} {thread : ScannedThread}
    (member : thread ∈ processThreads proc procEntry) :
    ∃ taskEntry front, processThreads (proc.endingWith procEntry taskEntry) procEntry = front ++ [thread] := by
  have same (taskEntry : Option Text) := endingWith_reordered proc procEntry taskEntry
  simp only [processThreads, (same _).taskThread_eq, (same _).readProcessEffectiveUid_eq, (same _).readComm_eq]
  unfold processThreads at member
  cases procEntry with
  | none => cases member
  | some name =>
    simp only [ProcTree.endingWith, if_neg (joinPath_ne_procDir name _)] at member ⊢
    cases numeral : parseU32 name with
    | none => simp [numeral] at member
    | some pid =>
      simp only [numeral] at member ⊢
      cases named : readComm proc pid none with
      | none => simp [named] at member
      | some processName =>
        simp only [named] at member ⊢
        cases owned : readProcessEffectiveUid proc pid with
        | none => simp [owned] at member
        | some processUid =>
          simp only [owned] at member ⊢
          cases listed : proc.readDir (joinPath (joinPath procDir name) "task".toList) with
          | none =>
            simp only [listed, List.mem_singleton] at member
            exact ⟨none, [], by simp [member]⟩
          | some taskEntries =>
            simp only [listed, List.mem_flatMap] at member
            obtain ⟨taskEntry, present, scanned⟩ := member
            have alone : _ = [] ++ [thread] := taskThread_singleton scanned
            obtain ⟨front, last⟩ := flatMap_moveLast present alone
            exact ⟨taskEntry, front, last⟩

theorem scannedThreads_last {proc : ProcTree} {thread : ScannedThread} (member : thread ∈ scannedThreads proc) :
    ∃ other, Reordered proc other ∧ ∃ front, scannedThreads other = front ++ [thread] := by
  obtain ⟨procEntry, present, scanned⟩ := List.mem_flatMap.mp member
  obtain ⟨taskEntry, front, last⟩ := processThreads_last scanned
  refine ⟨proc.endingWith procEntry taskEntry, endingWith_reordered proc procEntry taskEntry, ?_⟩
  have listing : ((proc.endingWith procEntry taskEntry).readDir procDir).getD [] =
      moveLast procEntry ((proc.readDir procDir).getD []) := by
    simp only [ProcTree.endingWith, if_true]
    cases proc.readDir procDir with
    | none => simp [moveLast]
    | some procEntries => rfl
  rw [scannedThreads, listing]
  exact flatMap_moveLast present last

def Shows (proc : ProcTree) (thread : ScannedThread) (inode : Nat) : Prop := inode ∈ fdInodes proc thread.fdPath

theorem mem_writes {proc : ProcTree} {inode : Nat} {owner : InodePidEntry} :
    (inode, owner) ∈ (scannedThreads proc).flatMap (threadWrites proc) ↔
      ∃ thread ∈ scannedThreads proc, Shows proc thread inode ∧ thread.owner = owner := by
  simp [threadWrites, Shows]

theorem lookup_buildInodePidMap (proc : ProcTree) (inode : Nat) :
    (buildInodePidMap proc).lookup inode =
      HashMap.lastWrite inode ((scannedThreads proc).flatMap (threadWrites proc)) := by
  rw [buildInodePidMap_eq, HashMap.lookup_insertAll]
  simp

/-- A thread that is read last owns every inode it shows. -/
theorem lookup_of_last {proc : ProcTree} {front : List ScannedThread} {thread : ScannedThread}
    (last : scannedThreads proc = front ++ [thread]) {inode : Nat} (shown : Shows proc thread inode) :
    (buildInodePidMap proc).lookup inode = some thread.owner := by
  have own : HashMap.lastWrite inode (threadWrites proc thread) = some thread.owner := by
    have written : (inode, thread.owner) ∈ threadWrites proc thread :=
      List.mem_map_of_mem (f := fun inode => (inode, thread.owner)) shown
    apply HashMap.lastWrite_of_agree written
    intro owner written
    obtain ⟨_, _, equal⟩ := List.mem_map.mp written
    exact (congrArg Prod.snd equal).symm
  rw [lookup_buildInodePidMap, last, List.flatMap_append, List.flatMap_singleton, HashMap.lastWrite_append, own,
    Option.some_or]

/-- The map is one for every order of enumeration exactly when the threads that show
an inode are one owner. -/
theorem ownership_order_independent (proc : ProcTree) :
    (∀ other, Reordered proc other → ∀ inode,
      (buildInodePidMap other).lookup inode = (buildInodePidMap proc).lookup inode) ↔
    ∀ first ∈ scannedThreads proc, ∀ second ∈ scannedThreads proc, ∀ inode,
      Shows proc first inode → Shows proc second inode → first.owner = second.owner := by
  constructor
  · intro independent first firstScanned second secondScanned inode firstShows secondShows
    have owned {thread : ScannedThread} (scanned : thread ∈ scannedThreads proc) (shown : Shows proc thread inode) :
        (buildInodePidMap proc).lookup inode = some thread.owner := by
      obtain ⟨other, same, front, last⟩ := scannedThreads_last scanned
      have stillShown : Shows other thread inode := (same.fdInodes_perm thread.fdPath).mem_iff.mpr shown
      rw [← independent other same inode, lookup_of_last last stillShown]
    have one := (owned firstScanned firstShows).symm.trans (owned secondScanned secondShows)
    exact Option.some.inj one
  · intro single other same inode
    rw [lookup_buildInodePidMap, lookup_buildInodePidMap]
    symm
    apply HashMap.lastWrite_perm same.writes_perm.symm
    intro owner owner' written written'
    obtain ⟨first, firstScanned, firstShows, rfl⟩ := mem_writes.mp written
    obtain ⟨second, secondScanned, secondShows, rfl⟩ := mem_writes.mp written'
    exact single first firstScanned second secondScanned inode firstShows secondShows

/-- A server with a worker thread: both descriptor directories show its one socket. -/
def threadedServer : ProcTree where
  readDir path :=
    if path = procDir then some [some "self".toList, some "7".toList]
    else if path = "/proc/7/task".toList then some [some "7".toList, some "8".toList]
    else if path = "/proc/7/task/7/fd".toList ∨ path = "/proc/7/task/8/fd".toList then some [some "3".toList]
    else none
  readLink _ := some "socket:[77]".toList
  read path :=
    if path = "/proc/7/status".toList then some "Name:\tserver\nUid:\t1000\t1000\t1000\t1000\n".toList
    else if path = "/proc/7/task/8/comm".toList then some "worker\n".toList
    else if path = "/proc/7/comm".toList ∨ path = "/proc/7/task/7/comm".toList then some "server\n".toList
    else none

theorem threadedServer_owner :
    (buildInodePidMap threadedServer).lookup 77 = some ⟨7, 8, "server".toList, "worker".toList, 1000⟩ := by
  decide +kernel

theorem threadedServer_order_dependent :
    ∃ other, Reordered threadedServer other ∧
      (buildInodePidMap threadedServer).lookup 77 =
        some ⟨7, 8, "server".toList, "worker".toList, 1000⟩ ∧
      (buildInodePidMap other).lookup 77 = some ⟨7, 7, "server".toList, "server".toList, 1000⟩ :=
  ⟨threadedServer.endingWith (some "7".toList) (some "7".toList), endingWith_reordered _ _ _,
    threadedServer_owner, by decide +kernel⟩

end Netmon.Resolver
