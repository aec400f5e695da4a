import Netmon.Controller.ProcNet

/-! The socket tables of `/proc/<pid>/net` as the kernel prints them, one row for
every socket of a network namespace, and the ports that the controller reads back. -/
namespace Netmon.Controller
open Library

structure OsSocket where
  inode : Nat
  protocol : Protocol
  v6 : Bool
  netns : Nat
  uid : Nat
  localPort : UInt16
deriving DecidableEq

structure OsProcess where
  pid : Nat
  /-- The effective uid. -/
  uid : Nat
  netns : Nat
  inodes : List Nat
deriving DecidableEq

structure Os where
  processes : List OsProcess
  sockets : List OsSocket
  /-- The network namespace whose packets the chain sees. -/
  firewallNs : Nat
  distinct : (processes.map OsProcess.pid).Nodup

def Os.Owns (os : Os) (pid : Nat) (socket : OsSocket) : Prop :=
  ∃ process ∈ os.processes, process.pid = pid ∧ socket.inode ∈ process.inodes

instance (os : Os) (pid : Nat) (socket : OsSocket) : Decidable (os.Owns pid socket) :=
  inferInstanceAs (Decidable (∃ process ∈ os.processes, process.pid = pid ∧ socket.inode ∈ process.inodes))

/-- A row of a socket table, with the local endpoint in column 1 and the owning inode in column 9. -/
structure ProcRow (socket : OsSocket) where
  columns : List (Text × Text)
  trailing : Text
  well : WellSpaced columns trailing
  oneLine : '\n' ∉ spaced columns trailing ∧ '\r' ∉ spaced columns trailing
  address : Text
  addressPlain : ':' ∉ address
  localColumn : (columns.map (·.2))[1]? = some (address ++ ':' :: hexadecimal 4 socket.localPort.toNat)
  inodeColumn : (columns.map (·.2))[9]? = some (decimal socket.inode)

def ProcRow.text {socket : OsSocket} (row : ProcRow socket) : Text := spaced row.columns row.trailing

def Tabulates (content : Text) (sockets : List OsSocket) : Prop :=
  ∃ (header : Text) (rows : List ((socket : OsSocket) × ProcRow socket)), '\n' ∉ header ∧
    rows.map (·.1) = sockets ∧ content = unlines (header :: rows.map (·.2.text))

/-- A table that cannot be read is one of no sockets. -/
def TableOf (sockets : List OsSocket) : Option Text → Prop
  | some content => Tabulates content sockets
  | none => sockets = []

def Os.table (os : Os) (netns : Nat) (protocol : Protocol) (v6 : Bool) : List OsSocket :=
  os.sockets.filter fun socket => socket.netns = netns ∧ socket.protocol = protocol ∧ socket.v6 = v6

/-- The first line of `status` that starts with `Uid:` has the effective uid in its second column. -/
def HasUid (uid : Nat) (content : Text) : Prop :=
  ∃ (front back : List Text) (columns : List (Text × Text)) (trailing : Text), WellSpaced columns trailing ∧
    (columns.map (·.2))[1]? = some (decimal uid) ∧ '\r' ∉ spaced columns trailing ∧
    (∀ row ∈ front, '\n' ∉ row ∧ (chomp row).dropPrefix? "Uid:".toList = none) ∧ '\n' ∉ spaced columns trailing ∧
    (∀ row ∈ back, '\n' ∉ row) ∧
    content = unlines (front ++ ("Uid:".toList ++ spaced columns trailing) :: back)

/-- What the kernel shows in `/proc` of a process. -/
structure KernelView (os : Os) (process : OsProcess) (read : ProcFs) : Prop where
  tcp : TableOf (os.table process.netns .tcp false) (read (procPath process.pid "net/tcp".toList))
  tcp6 : TableOf (os.table process.netns .tcp true) (read (procPath process.pid "net/tcp6".toList))
  udp : TableOf (os.table process.netns .udp false) (read (procPath process.pid "net/udp".toList))
  udp6 : TableOf (os.table process.netns .udp true) (read (procPath process.pid "net/udp6".toList))
  uidBound : process.uid < 2^32
  status : ∀ content, read (procPath process.pid "status".toList) = some content → HasUid process.uid content

theorem parsePortFromProcAddr_row {address : Text} (plain : ':' ∉ address) (port : UInt16) :
    parsePortFromProcAddr (address ++ ':' :: hexadecimal 4 port.toNat) = some port := by
  have bound := port.toNat_lt
  have digits : ':' ∉ hexadecimal 4 port.toNat := fun member => (hexadecimal_solid member).2.1 rfl
  have value : parseU16Hex (hexadecimal 4 port.toNat) = some port.toNat :=
    fromStrRadix_hexadecimal (2^16 - 1) 3 port.toNat (by omega) (by omega)
  rw [parsePortFromProcAddr, splitOn_pair plain digits]
  simp [value]

theorem rowPort_text {socket : OsSocket} (row : ProcRow socket) : rowPort row.text = some socket.localPort := by
  have columns := splitWhitespace_spaced row.columns row.trailing row.well
  have second := row.localColumn
  rw [rowPort, ProcRow.text, columns]
  generalize row.columns.map (·.2) = words at second
  rcases words with _ | ⟨first, _ | ⟨addr, rest⟩⟩
  · cases second
  · cases second
  · obtain rfl : addr = _ := Option.some.inj second
    exact parsePortFromProcAddr_row row.addressPlain socket.localPort

theorem mem_insertPort {ports : PortSet} {line : Text} {port : UInt16} :
    port ∈ insertPort ports line ↔ rowPort line = some port ∨ port ∈ ports := by
  unfold insertPort
  cases rowPort line with
  | none => simp
  | some found => simp [Std.TreeSet.mem_insert, Std.LawfulEqCmp.compare_eq_iff_eq]

theorem mem_foldl_insertPort {rows : List Text} {ports : PortSet} {port : UInt16} :
    port ∈ rows.foldl insertPort ports ↔ (∃ row ∈ rows, rowPort row = some port) ∨ port ∈ ports := by
  induction rows generalizing ports with
  | nil => simp
  | cons row rows ih =>
    rw [List.foldl_cons, ih, mem_insertPort, List.exists_mem_cons_iff, or_assoc, or_left_comm]

theorem mem_collectFilePorts {read : ProcFs} {pid : Nat} {ports : PortSet} {file : Text} {sockets : List OsSocket}
    (view : TableOf sockets (read (procPath pid ("net/".toList ++ file)))) {port : UInt16} :
    port ∈ collectFilePorts read pid ports file ↔ (∃ socket ∈ sockets, socket.localPort = port) ∨ port ∈ ports := by
  unfold collectFilePorts
  cases found : read (procPath pid ("net/".toList ++ file)) with
  | none =>
    rw [found] at view
    obtain rfl : sockets = [] := view
    simp
  | some content =>
    rw [found] at view
    obtain ⟨header, rows, single, rfl, rfl⟩ := view
    have printed : lines (unlines (header :: rows.map (·.2.text))) = chomp header :: rows.map (·.2.text) := by
      rw [lines_unlines, List.map_cons, List.map_map]
      · congr 1
        apply List.map_congr_left
        intro row _
        exact chomp_of_not_mem row.2.oneLine.2
      · intro line member
        rcases List.mem_cons.mp member with rfl | member
        · exact single
        · obtain ⟨row, _, rfl⟩ := List.mem_map.mp member
          exact row.2.oneLine.1
    simp only [printed, List.tail_cons, mem_foldl_insertPort, List.mem_map, exists_exists_and_eq_and, rowPort_text,
      Option.some.injEq]

theorem mem_tables {os : Os} {netns : Nat} {protocol : Protocol} {read : ProcFs} {pid : Nat} {v4File v6File : Text}
    (v4 : TableOf (os.table netns protocol false) (read (procPath pid ("net/".toList ++ v4File))))
    (v6 : TableOf (os.table netns protocol true) (read (procPath pid ("net/".toList ++ v6File)))) {port : UInt16} :
    port ∈ collectPidPorts read pid [v4File, v6File] ↔
      ∃ socket ∈ os.sockets, socket.netns = netns ∧ socket.protocol = protocol ∧ socket.localPort = port := by
  rw [collectPidPorts, List.foldl_cons, List.foldl_cons, List.foldl_nil, mem_collectFilePorts v6,
    mem_collectFilePorts v4]
  simp only [Os.table, List.mem_filter, decide_eq_true_eq, Std.TreeSet.not_mem_emptyc, or_false]
  constructor
  · rintro (⟨socket, ⟨present, inNs, proto, _⟩, same⟩ | ⟨socket, ⟨present, inNs, proto, _⟩, same⟩)
    · exact ⟨socket, present, inNs, proto, same⟩
    · exact ⟨socket, present, inNs, proto, same⟩
  · rintro ⟨socket, present, inNs, proto, same⟩
    cases family : socket.v6 with
    | true => exact Or.inl ⟨socket, ⟨present, inNs, proto, family⟩, same⟩
    | false => exact Or.inr ⟨socket, ⟨present, inNs, proto, family⟩, same⟩

theorem mem_tcpPorts {os : Os} {process : OsProcess} {read : ProcFs} (view : KernelView os process read)
    {port : UInt16} : port ∈ collectPidPorts read process.pid tcpFiles ↔
      ∃ socket ∈ os.sockets, socket.netns = process.netns ∧ socket.protocol = .tcp ∧ socket.localPort = port :=
  mem_tables view.tcp view.tcp6

theorem mem_udpPorts {os : Os} {process : OsProcess} {read : ProcFs} (view : KernelView os process read)
    {port : UInt16} : port ∈ collectPidPorts read process.pid udpFiles ↔
      ∃ socket ∈ os.sockets, socket.netns = process.netns ∧ socket.protocol = .udp ∧ socket.localPort = port :=
  mem_tables view.udp view.udp6

theorem uidOfLines_skip {front rest : List Text} (other : ∀ row ∈ front, row.dropPrefix? "Uid:".toList = none) :
    uidOfLines (front ++ rest) = uidOfLines rest := by
  induction front with
  | nil => rfl
  | cons row front ih =>
    rw [List.cons_append, uidOfLines, other row (by simp)]
    exact ih fun row member => other row (List.mem_cons_of_mem _ member)

theorem uidOfLines_status {uid : Nat} (bound : uid < 2^32) {content : Text} (status : HasUid uid content) :
    uidOfLines (lines content) = some uid := by
  obtain ⟨front, back, columns, trailing, well, second, noReturn, others, single, tail, rfl⟩ := status
  have uidLine : '\n' ∉ "Uid:".toList ++ spaced columns trailing := by
    rw [List.mem_append, not_or]
    exact ⟨by decide, single⟩
  have chomped : chomp ("Uid:".toList ++ spaced columns trailing) = "Uid:".toList ++ spaced columns trailing := by
    apply chomp_of_not_mem
    rw [List.mem_append, not_or]
    exact ⟨by decide, noReturn⟩
  rw [lines_unlines, List.map_append, List.map_cons, chomped, uidOfLines_skip, uidOfLines,
    List.dropPrefix?_append_of_beq _ (beq_self_eq_true _)]
  · simp only [splitWhitespace_spaced columns trailing well, second]
    exact parseU32_decimal bound
  · intro row member
    obtain ⟨line, inside, rfl⟩ := List.mem_map.mp member
    exact (others line inside).2
  · intro row member
    simp only [List.mem_append, List.mem_cons] at member
    rcases member with inFront | rfl | inBack
    · exact (others row inFront).1
    · exact uidLine
    · exact tail row inBack

theorem readUidForPid_view {os : Os} {process : OsProcess} {read : ProcFs} (view : KernelView os process read)
    {uid : Nat} (found : readUidForPid read process.pid = some uid) : uid = process.uid := by
  unfold readUidForPid at found
  cases content : read (procPath process.pid "status".toList) with
  | none =>
    rw [content] at found
    cases found
  | some text =>
    rw [content] at found
    have same := uidOfLines_status view.uidBound (view.status text content)
    exact Option.some.inj (found.symm.trans same)

def printWords (socket : OsSocket) : List Text :=
  ["0:".toList, "0100007F:".toList ++ hexadecimal 4 socket.localPort.toNat, "00000000:0000".toList, "0A".toList,
    "00000000:00000000".toList, "00:00000000".toList, "00000000".toList, decimal socket.uid, "0".toList,
    decimal socket.inode]

def blankBefore (words : List Text) : List (Text × Text) := words.map fun word => ([' '], word)

theorem blankBefore_words (words : List Text) : (blankBefore words).map (·.2) = words := by
  simp [blankBefore, Function.comp_def]

theorem wellSpaced_blankBefore {words : List Text} (solid : ∀ word ∈ words, IsWord word) :
    WellSpaced (blankBefore words) [] := by
  refine ⟨?_, ?_, by simp⟩
  · intro column member
    obtain ⟨word, inside, rfl⟩ := List.mem_map.mp member
    exact ⟨solid word inside, (by decide : ∀ c ∈ [' '], isWhitespace c = true)⟩
  · intro column member
    obtain ⟨word, _, rfl⟩ := List.mem_map.mp (List.mem_of_mem_tail member)
    exact List.cons_ne_nil _ _

theorem not_mem_spaced_blankBefore {words : List Text} (solid : ∀ word ∈ words, IsWord word) {c : Char}
    (blank : isWhitespace c = true) (other : c ≠ ' ') : c ∉ spaced (blankBefore words) [] := by
  simp only [spaced, blankBefore, List.append_nil, List.flatMap_map, List.mem_flatMap, not_exists, not_and]
  intro word inside member
  rcases List.mem_append.mp member with gap | member
  · exact other (List.mem_singleton.mp gap)
  · rw [(solid word inside).2 c member] at blank
    cases blank

theorem printWords_solid (socket : OsSocket) : ∀ word ∈ printWords socket, IsWord word := by
  have address : IsWord ("0100007F:".toList ++ hexadecimal 4 socket.localPort.toNat) := by
    refine ⟨List.append_ne_nil_of_left_ne_nil (by decide) _, ?_⟩
    intro c member
    rcases List.mem_append.mp member with ip | port
    · exact (by decide : ∀ c ∈ "0100007F:".toList, isWhitespace c = false) c ip
    · exact (hexadecimal_solid port).1
  simp only [printWords, List.forall_mem_cons, address, decimal_isWord, true_and]
  decide

def printRow (socket : OsSocket) : ProcRow socket where
  columns := blankBefore (printWords socket)
  trailing := []
  well := wellSpaced_blankBefore (printWords_solid socket)
  oneLine := ⟨not_mem_spaced_blankBefore (printWords_solid socket) (by decide) (by decide),
    not_mem_spaced_blankBefore (printWords_solid socket) (by decide) (by decide)⟩
  address := "0100007F".toList
  addressPlain := by decide
  localColumn := by
    rw [blankBefore_words]
    rfl
  inodeColumn := by
    rw [blankBefore_words]
    rfl

def printTable (sockets : List OsSocket) : Text :=
  unlines ("  sl  local_address rem_address   st".toList :: sockets.map fun socket => (printRow socket).text)

theorem printTable_tabulates (sockets : List OsSocket) : Tabulates (printTable sockets) sockets := by
  refine ⟨"  sl  local_address rem_address   st".toList, sockets.map fun socket => ⟨socket, printRow socket⟩,
    by decide, ?_, ?_⟩
  · rw [List.map_map]
    exact List.map_id _
  · rw [List.map_map]
    rfl

def printStatus (uid : Nat) : Text :=
  unlines ["Uid:".toList ++ spaced (blankBefore [decimal uid, decimal uid]) []]

theorem printStatus_hasUid (uid : Nat) : HasUid uid (printStatus uid) := by
  have solid : ∀ word ∈ [decimal uid, decimal uid], IsWord word := by simp [decimal_isWord]
  exact ⟨[], [], blankBefore [decimal uid, decimal uid], [], wellSpaced_blankBefore solid, rfl,
    not_mem_spaced_blankBefore solid (by decide) (by decide), by simp,
    not_mem_spaced_blankBefore solid (by decide) (by decide), by simp, rfl⟩

def printProc (os : Os) (process : OsProcess) : ProcFs := fun path =>
  if path = procPath process.pid "net/tcp".toList then some (printTable (os.table process.netns .tcp false))
  else if path = procPath process.pid "net/tcp6".toList then some (printTable (os.table process.netns .tcp true))
  else if path = procPath process.pid "net/udp".toList then some (printTable (os.table process.netns .udp false))
  else if path = procPath process.pid "net/udp6".toList then some (printTable (os.table process.netns .udp true))
  else if path = procPath process.pid "status".toList then some (printStatus process.uid)
  else none

theorem procPath_inj {pid : Nat} {first second : Text} : procPath pid first = procPath pid second ↔ first = second :=
  List.append_right_inj _

/-- Every host has such a kernel. -/
theorem printProc_view (os : Os) (process : OsProcess) (uidBound : process.uid < 2^32) :
    KernelView os process (printProc os process) where
  tcp := by
    unfold printProc
    rw [if_pos rfl]
    exact printTable_tabulates _
  tcp6 := by
    unfold printProc
    rw [if_neg (by rw [procPath_inj]; decide), if_pos rfl]
    exact printTable_tabulates _
  udp := by
    unfold printProc
    rw [if_neg (by rw [procPath_inj]; decide), if_neg (by rw [procPath_inj]; decide), if_pos rfl]
    exact printTable_tabulates _
  udp6 := by
    unfold printProc
    rw [if_neg (by rw [procPath_inj]; decide), if_neg (by rw [procPath_inj]; decide),
      if_neg (by rw [procPath_inj]; decide), if_pos rfl]
    exact printTable_tabulates _
  uidBound := uidBound
  status content found := by
    unfold printProc at found
    rw [if_neg (by rw [procPath_inj]; decide), if_neg (by rw [procPath_inj]; decide),
      if_neg (by rw [procPath_inj]; decide), if_neg (by rw [procPath_inj]; decide), if_pos rfl] at found
    exact Option.some.inj found ▸ printStatus_hasUid process.uid

end Netmon.Controller
