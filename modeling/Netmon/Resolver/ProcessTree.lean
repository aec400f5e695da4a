import Netmon.Library.Numeral
import Netmon.Resolver.PidMapOrder

/-! The processes of a kernel and the directories of `/proc` that show them. The walk
over the directories finds the socket descriptors of every thread it may look into. -/
namespace Netmon.Resolver
open Library

/-- What a descriptor refers to. -/
inductive Descriptor where
  | socket (inode : UInt64)
  | other (target : Text) (plain : ¬"socket:[".toList <+: target)

namespace Descriptor

def target : Descriptor → Text
  | socket inode => "socket:[".toList ++ (decimal inode.toNat ++ "]".toList)
  | other target _ => target

def inode? : Descriptor → Option Nat
  | socket inode => some inode.toNat
  | other .. => none

end Descriptor

structure KernelThread where
  tid : UInt32
  comm : Text
  /-- Whether the monitor may list the descriptors. -/
  readable : Bool
  descriptors : List Descriptor

/-- A process, with its threads in the order of their enumeration. -/
structure KernelProcess where
  pid : UInt32
  comm : Text
  realUid : UInt32
  effectiveUid : UInt32
  savedUid : UInt32
  fsUid : UInt32
  threads : List KernelThread

def KernelThread.inodes (thread : KernelThread) : List Nat :=
  if thread.readable then thread.descriptors.filterMap Descriptor.inode? else []

namespace KernelProcess

def owner (process : KernelProcess) (thread : KernelThread) : InodePidEntry :=
  ⟨process.pid.toNat, thread.tid.toNat, trim process.comm, trim thread.comm, process.effectiveUid.toNat⟩

/-- The sockets that its threads hold, thread by thread. -/
def holdings (process : KernelProcess) : List (Nat × InodePidEntry) :=
  process.threads.flatMap fun thread => thread.inodes.map fun inode => (inode, process.owner thread)

def uidColumns (process : KernelProcess) : List (Text × Text) :=
  [process.realUid, process.effectiveUid, process.savedUid, process.fsUid].map fun uid => (['\t'], decimal uid.toNat)

def uidLine (process : KernelProcess) : Text := "Uid:".toList ++ spaced process.uidColumns []

end KernelProcess

/-- A directory whose numbered entries are these, in this order. -/
inductive Numbered : List (Option Text) → List UInt32 → Prop where
  | nil : Numbered [] []
  | number (n : UInt32) {entries : List (Option Text)} {numbers : List UInt32} (rest : Numbered entries numbers) :
      Numbered (some (decimal n.toNat) :: entries) (n :: numbers)
  | named {name : Text} (letter : ∃ c ∈ name, c.isAlpha = true) {entries : List (Option Text)} {numbers : List UInt32}
      (rest : Numbered entries numbers) : Numbered (some name :: entries) numbers
  | unread {entries : List (Option Text)} {numbers : List UInt32} (rest : Numbered entries numbers) :
      Numbered (none :: entries) numbers

def processDir (pid : UInt32) : Text := joinPath procDir (decimal pid.toNat)

def taskDir (pid : UInt32) : Text := joinPath (processDir pid) "task".toList

def threadDir (pid tid : UInt32) : Text := joinPath (taskDir pid) (decimal tid.toNat)

section View
variable (proc : ProcTree)

/-- The links of a directory that can be read. -/
def linksIn (fdPath : Text) (entries : List (Option Text)) : List Text :=
  entries.filterMap fun entry => entry.bind fun name => proc.readLink (joinPath fdPath name)

structure ThreadView (process : KernelProcess) (thread : KernelThread) : Prop where
  hidden : thread.readable = false → proc.readDir (joinPath (threadDir process.pid thread.tid) "fd".toList) = none
  comm : thread.readable = true →
    proc.read (joinPath (threadDir process.pid thread.tid) "comm".toList) = some (thread.comm ++ ['\n'])
  links : thread.readable = true →
    ∃ entries, proc.readDir (joinPath (threadDir process.pid thread.tid) "fd".toList) = some entries ∧
      linksIn proc (joinPath (threadDir process.pid thread.tid) "fd".toList) entries =
        thread.descriptors.map Descriptor.target

structure ProcessView (process : KernelProcess) : Prop where
  comm : proc.read (joinPath (processDir process.pid) "comm".toList) = some (process.comm ++ ['\n'])
  /-- The lines of the status file before that of the uids begin otherwise. -/
  status : ∃ before after : List Text, (∀ line ∈ before, '\n' ∉ line ∧ ¬"Uid:".toList <+: line) ∧
    (∀ line ∈ after, '\n' ∉ line) ∧
    proc.read (joinPath (processDir process.pid) "status".toList) = some (unlines (before ++ process.uidLine :: after))
  tasks : ∃ entries, proc.readDir (taskDir process.pid) = some entries ∧
    Numbered entries (process.threads.map KernelThread.tid)
  threads : ∀ thread ∈ process.threads, ThreadView proc process thread

/-- A process that is gone by the time it is looked at is listed, and has no files. -/
def present (pid : UInt32) : Bool := (proc.read (joinPath (processDir pid) "comm".toList)).isSome

/-- The directory of a kernel with these processes, in the order of their enumeration. -/
structure ProcView (processes : List KernelProcess) : Prop where
  listed : ∃ entries numbers, proc.readDir procDir = some entries ∧ Numbered entries numbers ∧
    numbers.filter (present proc) = processes.map KernelProcess.pid
  shown : ∀ process ∈ processes, ProcessView proc process

end View

theorem isAlpha_bounds {c : Char} (letter : c.isAlpha = true) :
    (65 ≤ c.val.toNat ∧ c.val.toNat ≤ 90) ∨ (97 ≤ c.val.toNat ∧ c.val.toNat ≤ 122) := by
  have cased : (c.isUpper || c.isLower) = true := letter
  obtain upper | lower := (Bool.or_eq_true _ _).mp cased
  · exact Or.inl (of_decide_eq_true upper)
  · obtain ⟨least, most⟩ := (Bool.and_eq_true _ _).mp lower
    exact Or.inr ⟨of_decide_eq_true least, of_decide_eq_true most⟩

theorem toDigit_isAlpha {c : Char} (letter : c.isAlpha = true) : toDigit 10 c = none := by
  have small : ¬('0' ≤ c ∧ c ≤ '9') := by
    have bounds := isAlpha_bounds letter
    simp only [Char.le_def, UInt32.le_iff_toNat_le]
    change ¬(48 ≤ c.val.toNat ∧ c.val.toNat ≤ 57)
    omega
  unfold toDigit
  rw [if_neg small]
  split
  · simp
  · split
    · simp
    · rfl

theorem parseU32_named {name : Text} (letter : ∃ c ∈ name, c.isAlpha = true) : parseU32 name = none := by
  obtain ⟨c, member, alpha⟩ := letter
  have signless : c ∈ unsigned name := by
    unfold unsigned
    split
    · obtain rfl | later := List.mem_cons.mp member
      · simp at alpha
      · exact later
    · exact member
  have unvalued : digitsValue 10 (unsigned name) = none := by
    rw [← Option.not_isSome_iff_eq_none, digitsValue_isSome_iff]
    intro digits
    have digit := digits c signless
    simp [toDigit_isAlpha alpha] at digit
  rw [parseU32, fromStrRadix_digits, unvalued]
  simp

theorem Numbered.flatMap {α : Type} {entries : List (Option Text)} {numbers : List UInt32}
    (numbered : Numbered entries numbers) (scan : Option Text → List α) (unread : scan none = [])
    (named : ∀ name, parseU32 name = none → scan (some name) = []) :
    entries.flatMap scan = numbers.flatMap fun n => scan (some (decimal n.toNat)) := by
  induction numbered with
  | nil => rfl
  | number n rest ih => rw [List.flatMap_cons, List.flatMap_cons, ih]
  | named letter rest ih => rw [List.flatMap_cons, ih, named _ (parseU32_named letter), List.nil_append]
  | unread rest ih => rw [List.flatMap_cons, ih, unread, List.nil_append]

theorem readComm_process {proc : ProcTree} {process : KernelProcess} (view : ProcessView proc process) :
    readComm proc process.pid.toNat none = some (trim process.comm) := by
  have path : "/proc/".toList ++ decimal process.pid.toNat ++ "/comm".toList =
      joinPath (processDir process.pid) "comm".toList := by
    simp [joinPath, processDir, procDir]
  rw [readComm]
  simp only [path, view.comm, Option.map_some, trim_append_blank process.comm (c := '\n') rfl]

theorem readComm_thread {proc : ProcTree} {process : KernelProcess} {thread : KernelThread}
    (view : ThreadView proc process thread) (readable : thread.readable = true) :
    readComm proc process.pid.toNat (some thread.tid.toNat) = some (trim thread.comm) := by
  have path : "/proc/".toList ++ decimal process.pid.toNat ++ "/task/".toList ++ decimal thread.tid.toNat ++ "/comm".toList =
      joinPath (threadDir process.pid thread.tid) "comm".toList := by
    simp [joinPath, threadDir, taskDir, processDir, procDir]
  rw [readComm]
  simp only [path, view.comm readable, Option.map_some, trim_append_blank thread.comm (c := '\n') rfl]

theorem uidColumns_wellSpaced (process : KernelProcess) : WellSpaced process.uidColumns [] := by
  refine ⟨?_, ?_, by simp⟩
  · intro column member
    obtain ⟨uid, _, rfl⟩ := List.mem_map.mp member
    exact ⟨decimal_isWord _, List.forall_mem_singleton.mpr rfl⟩
  · intro column member
    obtain ⟨uid, _, rfl⟩ := List.mem_map.mp (List.mem_of_mem_tail member)
    exact List.cons_ne_nil _ _

theorem effectiveUidOfLines_skip {before rest : List Text} (other : ∀ line ∈ before, ¬"Uid:".toList <+: line) :
    effectiveUidOfLines (before ++ rest) = effectiveUidOfLines rest := by
  induction before with
  | nil => rfl
  | cons line before ih =>
    obtain ⟨first, later⟩ := List.forall_mem_cons.mp other
    have unmarked : line.dropPrefix? "Uid:".toList = none := by
      cases dropped : line.dropPrefix? "Uid:".toList with
      | none => rfl
      | some tail =>
        obtain ⟨front, split, same⟩ := List.dropPrefix?_eq_some_iff.mp dropped
        exact absurd ⟨tail, by rw [split, eq_of_beq same]⟩ first
    rw [List.cons_append, effectiveUidOfLines, unmarked]
    exact ih later

theorem effectiveUidOfLines_uidLine (process : KernelProcess) (after : List Text) :
    effectiveUidOfLines (process.uidLine :: after) = some process.effectiveUid.toNat := by
  have marked : process.uidLine.dropPrefix? "Uid:".toList = some (spaced process.uidColumns []) :=
    List.dropPrefix?_append_of_beq _ (beq_self_eq_true _)
  rw [effectiveUidOfLines, marked]
  simp only [splitWhitespace_spaced _ _ (uidColumns_wellSpaced process)]
  exact parseU32_decimal process.effectiveUid.toNat_lt

theorem uidLine_solid (process : KernelProcess) {c : Char} (mark : c ∉ "Uid:".toList) (gap : c ≠ '\t')
    (numeral : c.isDigit = false) : c ∉ process.uidLine := by
  rw [KernelProcess.uidLine, List.mem_append, spaced, List.append_nil]
  rintro (front | columns)
  · exact mark front
  · obtain ⟨column, listed, inside⟩ := List.mem_flatMap.mp columns
    obtain ⟨uid, _, rfl⟩ := List.mem_map.mp listed
    obtain blank | digit := List.mem_append.mp inside
    · exact gap (List.mem_singleton.mp blank)
    · exact decimal_not_mem numeral digit

theorem readProcessEffectiveUid_view {proc : ProcTree} {process : KernelProcess} (view : ProcessView proc process) :
    readProcessEffectiveUid proc process.pid.toNat = some process.effectiveUid.toNat := by
  have path : "/proc/".toList ++ decimal process.pid.toNat ++ "/status".toList =
      joinPath (processDir process.pid) "status".toList := by
    simp [joinPath, processDir, procDir]
  obtain ⟨before, after, others, single, content⟩ := view.status
  have chomped : chomp process.uidLine = process.uidLine :=
    chomp_of_not_mem (uidLine_solid process (by decide) (by decide) rfl)
  have listed : lines (unlines (before ++ process.uidLine :: after)) =
      before.map chomp ++ process.uidLine :: after.map chomp := by
    rw [lines_unlines, List.map_append, List.map_cons, chomped]
    intro line member
    obtain front | middle | back := by simpa only [List.mem_append, List.mem_cons] using member
    · exact (others line front).1
    · exact middle ▸ uidLine_solid process (by decide) (by decide) rfl
    · exact single line back
  rw [readProcessEffectiveUid]
  simp only [path, content, Option.bind_eq_bind, Option.bind_some, listed]
  rw [effectiveUidOfLines_skip, effectiveUidOfLines_uidLine]
  intro line member starts
  obtain ⟨row, inside, rfl⟩ := List.mem_map.mp member
  exact (others row inside).2 (starts.trans (chomp_prefix_line row))

theorem parseSocketInode_target (descriptor : Descriptor) : parseSocketInode descriptor.target = descriptor.inode? := by
  unfold parseSocketInode
  cases descriptor with
  | socket inode =>
    have starts : "socket:[".toList.isPrefixOf ("socket:[".toList ++ (decimal inode.toNat ++ [']'])) = true :=
      List.isPrefixOf_iff_prefix.mpr (List.prefix_append _ _)
    have ends : ("socket:[".toList ++ (decimal inode.toNat ++ [']'])).getLast? = some ']' := by
      rw [← List.append_assoc, List.getLast?_append_cons, List.getLast?_singleton]
    have between : (("socket:[".toList ++ (decimal inode.toNat ++ [']'])).drop "socket:[".toList.length).dropLast =
        decimal inode.toNat := by
      rw [List.drop_left, List.dropLast_concat]
    have target : (Descriptor.socket inode).target = "socket:[".toList ++ (decimal inode.toNat ++ [']']) := rfl
    have parsed : parseU64 (decimal inode.toNat) = some inode.toNat := parseU64_decimal inode.toNat_lt
    rw [target]
    dsimp only
    rw [starts, ends, between, parsed]
    rfl
  | other target plain =>
    have starts : "socket:[".toList.isPrefixOf target = false := by
      rw [← Bool.not_eq_true, List.isPrefixOf_iff_prefix]
      exact plain
    have same : (Descriptor.other target plain).target = target := rfl
    rw [same]
    dsimp only
    rw [starts]
    rfl

theorem fdInodes_links {proc : ProcTree} {fdPath : Text} {entries : List (Option Text)}
    (listed : proc.readDir fdPath = some entries) :
    fdInodes proc fdPath = (linksIn proc fdPath entries).filterMap parseSocketInode := by
  rw [fdInodes, listed, Option.getD_some, linksIn, List.filterMap_filterMap]
  rfl

theorem fdInodes_thread {proc : ProcTree} {process : KernelProcess} {thread : KernelThread}
    (view : ThreadView proc process thread) :
    fdInodes proc (joinPath (threadDir process.pid thread.tid) "fd".toList) = thread.inodes := by
  unfold KernelThread.inodes
  cases readable : thread.readable with
  | false => rw [fdInodes, view.hidden readable]; rfl
  | true =>
    obtain ⟨entries, listed, links⟩ := view.links readable
    have each : parseSocketInode ∘ Descriptor.target = Descriptor.inode? := funext parseSocketInode_target
    rw [fdInodes_links listed, links, List.filterMap_map, each]
    rfl

theorem threadWrites_view {proc : ProcTree} {process : KernelProcess} {thread : KernelThread}
    (view : ThreadView proc process thread) :
    (taskThread proc (taskDir process.pid) process.pid.toNat (trim process.comm) process.effectiveUid.toNat
        (some (decimal thread.tid.toNat))).flatMap (threadWrites proc) =
      thread.inodes.map fun inode => (inode, process.owner thread) := by
  have tid : parseU32 (decimal thread.tid.toNat) = some thread.tid.toNat := parseU32_decimal thread.tid.toNat_lt
  have held := fdInodes_thread view
  rw [threadDir] at held
  simp only [taskThread, tid, List.flatMap_singleton, threadWrites, held]
  cases readable : thread.readable with
  | false =>
    have none : thread.inodes = [] := by simp [KernelThread.inodes, readable]
    rw [none]
    rfl
  | true =>
    rw [readComm_thread view readable]
    rfl

theorem processWrites_view {proc : ProcTree} {process : KernelProcess} (view : ProcessView proc process) :
    (processThreads proc (some (decimal process.pid.toNat))).flatMap (threadWrites proc) = process.holdings := by
  have pid : parseU32 (decimal process.pid.toNat) = some process.pid.toNat := parseU32_decimal process.pid.toNat_lt
  obtain ⟨entries, listed, numbered⟩ := view.tasks
  have tasks : proc.readDir (joinPath (joinPath procDir (decimal process.pid.toNat)) "task".toList) = some entries := listed
  simp only [processThreads, pid, readComm_process view, readProcessEffectiveUid_view view, tasks]
  rw [numbered.flatMap, List.flatMap_map, List.flatMap_assoc, KernelProcess.holdings]
  · apply List.flatMap_congr
    intro thread member
    exact threadWrites_view (view.threads thread member)
  · rfl
  · intro name unnumbered
    simp [taskThread, unnumbered]

theorem processThreads_gone {proc : ProcTree} {pid : UInt32} (gone : present proc pid = false) :
    processThreads proc (some (decimal pid.toNat)) = [] := by
  have parsed : parseU32 (decimal pid.toNat) = some pid.toNat := parseU32_decimal pid.toNat_lt
  have path : "/proc/".toList ++ decimal pid.toNat ++ "/comm".toList = joinPath (processDir pid) "comm".toList := by
    simp [joinPath, processDir, procDir]
  have unread : proc.read (joinPath (processDir pid) "comm".toList) = none := by
    simpa [present] using gone
  have unnamed : readComm proc pid.toNat none = none := by
    rw [readComm]
    simp only [path, unread, Option.map_none]
  simp only [processThreads, parsed, unnamed]

def holdings (processes : List KernelProcess) : List (Nat × InodePidEntry) := processes.flatMap KernelProcess.holdings

theorem flatMap_filter_of_empty {α β : Type} (keep : α → Bool) (f : α → List β) (items : List α)
    (empty : ∀ item, keep item = false → f item = []) : (items.filter keep).flatMap f = items.flatMap f := by
  induction items with
  | nil => rfl
  | cons item items ih =>
    cases kept : keep item with
    | true => rw [List.filter_cons_of_pos kept, List.flatMap_cons, List.flatMap_cons, ih]
    | false =>
      rw [List.filter_cons_of_neg (by simp [kept]), List.flatMap_cons, empty item kept, List.nil_append, ih]

/-- The map has what the threads hold, and a later thread has the last word. -/
theorem buildInodePidMap_view {proc : ProcTree} {processes : List KernelProcess} (view : ProcView proc processes) :
    buildInodePidMap proc = HashMap.insertAll (holdings processes) ∅ := by
  obtain ⟨entries, numbers, listed, numbered, shown⟩ := view.listed
  rw [buildInodePidMap_eq, scannedThreads, listed, Option.getD_some]
  congr 1
  rw [numbered.flatMap (processThreads proc) rfl (fun name unnumbered => by simp [processThreads, unnumbered]),
    ← flatMap_filter_of_empty (present proc) _ numbers fun pid gone => processThreads_gone gone, shown,
    List.flatMap_map, List.flatMap_assoc, holdings]
  apply List.flatMap_congr
  intro process member
  exact processWrites_view (view.shown process member)

end Netmon.Resolver
