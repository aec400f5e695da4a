import Netmon.Resolver.KernelSockets

/-! The files of `/proc/net` as a little-endian kernel prints them, and the fallback
on them: every row is read back, with the address words in the right order. -/
namespace Netmon.Resolver
open Library

/-- `%08X` of four octets that the kernel reads as one word of the host. -/
def wordHex (octets : Bytes) : Text := hexadecimal 8 (Endian.little.value octets)

def procAddress : IpAddr → Text
  | .v4 address => wordHex address.octets
  | .v6 address =>
    wordHex (window address.octets 0 4) ++ (wordHex (window address.octets 4 4) ++
      (wordHex (window address.octets 8 4) ++ wordHex (window address.octets 12 4)))

def procEndpoint (addr : SocketAddr) : Text := procAddress addr.ip ++ ':' :: hexadecimal 4 addr.port.toNat

structure KernelRow (socket : KernelSocket) where
  columns : List (Text × Text)
  trailing : Text
  well : WellSpaced columns trailing
  oneLine : '\n' ∉ spaced columns trailing ∧ '\r' ∉ spaced columns trailing
  localColumn : (columns.map (·.2))[1]? = some (procEndpoint socket.localAddr)
  remoteColumn : (columns.map (·.2))[2]? = some (procEndpoint socket.remoteAddr)
  stateColumn : (columns.map (·.2))[3]? = some (hexadecimal 2 socket.state.toNat)
  inodeColumn : (columns.map (·.2))[9]? = some (decimal socket.inode.toNat)

def KernelRow.text {socket : KernelSocket} (row : KernelRow socket) : Text := spaced row.columns row.trailing

def fileContent (header : Text) (rows : List ((socket : KernelSocket) × KernelRow socket)) : Text :=
  unlines (header :: rows.map (·.2.text))

@[simp] theorem given_some {α : Type} (value : α) : given (some value) = pure value := rfl

theorem wordHex_plain {octets : Bytes} {c : Char} (member : c ∈ wordHex octets) : c ≠ ':' :=
  (hexadecimal_solid member).2.1

theorem procAddress_plain (ip : IpAddr) : ':' ∉ procAddress ip := by
  intro member
  cases ip with
  | v4 address => exact wordHex_plain member rfl
  | v6 address =>
    simp only [procAddress, List.mem_append] at member
    rcases member with member | member | member | member <;> exact wordHex_plain member rfl

theorem endpointParts_endpoint (addr : SocketAddr) :
    endpointParts (procEndpoint addr) = some (procAddress addr.ip, hexadecimal 4 addr.port.toNat) := by
  have digits : ':' ∉ hexadecimal 4 addr.port.toNat := fun member => (hexadecimal_solid member).2.1 rfl
  rw [endpointParts, procEndpoint, splitOn_pair (procAddress_plain addr.ip) digits]

theorem parseU16Hex_port (port : UInt16) : parseU16Hex (hexadecimal 4 port.toNat) = some port.toNat := by
  have bound := port.toNat_lt
  exact fromStrRadix_hexadecimal (2^16 - 1) 3 port.toNat (by omega) (by omega)

theorem parseU32Hex_word {octets : Bytes} (size : octets.length = 4) :
    parseU32Hex (wordHex octets) = some (Endian.little.value octets) := by
  have bound := Endian.value_lt .little octets
  rw [size] at bound
  exact fromStrRadix_hexadecimal (2^32 - 1) 7 _ (by omega) (by omega)

theorem little_bytes_value {octets : Bytes} (size : octets.length = 4) :
    Endian.little.bytes 4 (Endian.little.value octets) = octets := by
  have back := Endian.bytes_value .little octets
  rwa [size] at back

@[simp] theorem byteLength_wordHex (octets : Bytes) : byteLength (wordHex octets) = 8 :=
  byteLength_hexadecimal 8 _

theorem ipv4FromLeWord_value (address : Ipv4Addr) :
    ipv4FromLeWord (Endian.little.value address.octets) = address := by
  rw [ipv4FromLeWord, little_bytes_value rfl]
  rfl

theorem wordAt_append (before : Text) (octets : Bytes) (back : Text) (wordIndex : Nat) (size : octets.length = 4)
    (place : byteLength before = wordIndex * 8) :
    wordAt (before ++ (wordHex octets ++ back)) wordIndex = pure (Endian.little.value octets) := by
  have cut := sliceBytes_append before (wordHex octets) back
  rw [place, byteLength_wordHex] at cut
  rw [wordAt, cut]
  simp [parseU32Hex_word size]

theorem windows_octets (address : Ipv6Addr) :
    window address.octets 0 4 ++ (window address.octets 4 4 ++
      (window address.octets 8 4 ++ window address.octets 12 4)) = address.octets := by
  have size := address.size
  have last : (address.octets.drop 12).take 4 = address.octets.drop 12 := List.take_of_length_le (by simp [size])
  have third := List.take_append_drop 4 (address.octets.drop 8)
  have second := List.take_append_drop 4 (address.octets.drop 4)
  have first := List.take_append_drop 4 address.octets
  rw [List.drop_drop] at second third
  simp only [window, last, List.drop_zero, third, second, first]

theorem parseIpv6Words_words {a b c d : Bytes} (first : a.length = 4) (second : b.length = 4) (third : c.length = 4)
    (fourth : d.length = 4) :
    parseIpv6Words (wordHex a ++ (wordHex b ++ (wordHex c ++ wordHex d))) = pure (ipv6FromLeWords
      (Endian.little.value a) (Endian.little.value b) (Endian.little.value c) (Endian.little.value d)) := by
  have readA := wordAt_append [] a (wordHex b ++ (wordHex c ++ wordHex d)) 0 first rfl
  have readB := wordAt_append (wordHex a) b (wordHex c ++ wordHex d) 1 second (by simp)
  have readC := wordAt_append (wordHex a ++ wordHex b) c (wordHex d) 2 third (by simp)
  have readD := wordAt_append (wordHex a ++ (wordHex b ++ wordHex c)) d [] 3 fourth (by simp)
  simp only [List.nil_append, List.append_nil, List.append_assoc] at readA readB readC readD
  simp only [parseIpv6Words, readA, readB, readC, readD, pure_bind]

theorem parseIpv6Words_address (address : Ipv6Addr) : parseIpv6Words (procAddress (.v6 address)) = pure address := by
  have size := address.size
  have sizes (start : Nat) (inside : start + 4 ≤ 16) : (window address.octets start 4).length = 4 :=
    window_length (by omega)
  have words := parseIpv6Words_words (sizes 0 (by omega)) (sizes 4 (by omega)) (sizes 8 (by omega)) (sizes 12 (by omega))
  rw [procAddress, words]
  congr 1
  simp only [ipv6FromLeWords, little_bytes_value (sizes 0 (by omega)), little_bytes_value (sizes 4 (by omega)),
    little_bytes_value (sizes 8 (by omega)), little_bytes_value (sizes 12 (by omega)), windows_octets]

theorem parseProcSocketAddr_v4 (address : Ipv4Addr) (port : UInt16) :
    parseProcSocketAddr (procEndpoint ⟨.v4 address, port⟩) true = pure ⟨.v4 address, port⟩ := by
  have parts := endpointParts_endpoint ⟨.v4 address, port⟩
  simp only [parseProcSocketAddr, parts, given_some, pure_bind, parseU16Hex_port, procAddress, byteLength_wordHex,
    procIpv4HexLen, parseU32Hex_word (rfl : address.octets.length = 4), ipv4FromLeWord_value]
  simp

theorem parseProcSocketAddr_v6 (address : Ipv6Addr) (port : UInt16) :
    parseProcSocketAddr (procEndpoint ⟨.v6 address, port⟩) false = pure ⟨.v6 address, port⟩ := by
  have parts := endpointParts_endpoint ⟨.v6 address, port⟩
  have size : byteLength (procAddress (.v6 address)) = procIpv6HexLen := by simp [procAddress, procIpv6HexLen]
  simp only [parseProcSocketAddr, parts, given_some, pure_bind, parseU16Hex_port, size, parseIpv6Words_address]
  simp

theorem parseProcSocketAddr_local (socket : KernelSocket) :
    parseProcSocketAddr (procEndpoint socket.localAddr) socket.addresses.isIpv4 = pure socket.localAddr := by
  unfold KernelSocket.localAddr
  cases socket.addresses with
  | v4 src dst => exact parseProcSocketAddr_v4 src _
  | v6 src dst => exact parseProcSocketAddr_v6 src _

theorem parseProcSocketAddr_remote (socket : KernelSocket) :
    parseProcSocketAddr (procEndpoint socket.remoteAddr) socket.addresses.isIpv4 = pure socket.remoteAddr := by
  unfold KernelSocket.remoteAddr
  cases socket.addresses with
  | v4 src dst => exact parseProcSocketAddr_v4 dst _
  | v6 src dst => exact parseProcSocketAddr_v6 dst _

theorem tcpStateToStr_unlisted {state : UInt8} (unlisted : 12 ≤ state.toNat) : tcpStateToStr state = "UNKNOWN".toList := by
  unfold tcpStateToStr
  split <;> first | exact absurd unlisted (by decide) | rfl

theorem parseTcpState_value (stateHex : Text) (state : UInt8) (value : parseU8Hex stateHex = some state.toNat) :
    parseTcpState stateHex .tcp = tcpStateToStr state := by
  have whole : UInt8.ofNat state.toNat = state := UInt8.ofNat_toNat
  by_cases listed : state.toNat < 12
  · rw [← whole]
    generalize state.toNat = n at *
    simp only [parseTcpState, value, ne_eq, not_true, if_false]
    interval_cases n <;> rfl
  · rw [tcpStateToStr_unlisted (by omega)]
    generalize state.toNat = n at *
    simp only [parseTcpState, value, ne_eq, not_true, if_false]
    split <;> first | omega | rfl

theorem parseTcpState_hex (state : UInt8) (transport : Transport) :
    parseTcpState (hexadecimal 2 state.toNat) transport.protocol =
      if transport.protocol ≠ .tcp then "UNCONN".toList else tcpStateToStr state := by
  have bound := state.toNat_lt
  have value : parseU8Hex (hexadecimal 2 state.toNat) = some state.toNat :=
    fromStrRadix_hexadecimal (2^8 - 1) 1 _ (by omega) (by omega)
  cases transport with
  | tcp => exact parseTcpState_value _ state value
  | udp => rfl

section File
variable (filePath : Text)

@[simp] theorem orParseLine_pure {α : Type} (line : Text) (value : α) :
    orParseLine filePath line (pure value) = .ok value := rfl

theorem parseRow_text {socket : KernelSocket} (row : KernelRow socket) :
    parseRow filePath socket.transport.protocol socket.addresses.isIpv4 row.text = .ok socket.entry.asFallback := by
  have words := splitWhitespace_spaced row.columns row.trailing row.well
  have inodeBound := socket.inode.toNat_lt
  obtain ⟨long, _⟩ := List.getElem?_eq_some_iff.mp row.inodeColumn
  have enough : ¬(row.columns.map (·.2)).length < procNetMinColumns := by
    simp only [procNetMinColumns]
    omega
  have inode : parseU64 (decimal socket.inode.toNat) = some socket.inode.toNat := parseU64_decimal inodeBound
  simp only [parseRow, KernelRow.text, words, if_neg enough, List.getD_eq_getElem?_getD, row.localColumn,
    row.remoteColumn, row.stateColumn, row.inodeColumn, Option.getD_some, parseProcSocketAddr_local,
    parseProcSocketAddr_remote, orParseLine_pure, parseTcpState_hex, inode, given_some]
  rfl

theorem lines_fileContent {header : Text} {rows : List ((socket : KernelSocket) × KernelRow socket)}
    (single : '\n' ∉ header) : (lines (fileContent header rows)).tail = rows.map (·.2.text) := by
  rw [fileContent, lines_unlines, List.map_cons, List.tail_cons, List.map_map]
  · apply List.map_congr_left
    intro row _
    exact chomp_of_not_mem row.2.oneLine.2
  · intro line member
    rcases List.mem_cons.mp member with rfl | member
    · exact single
    · obtain ⟨row, _, rfl⟩ := List.mem_map.mp member
      exact row.2.oneLine.1

theorem recordRows (rows : List ((socket : KernelSocket) × KernelRow socket)) (protocol : Protocol) (isIpv4 : Bool)
    (found : SocketsByInode)
    (kind : ∀ row ∈ rows, row.1.transport.protocol = protocol ∧ row.1.addresses.isIpv4 = isIpv4) :
    (rows.map (·.2.text)).forM (recordRow filePath protocol isIpv4) found =
      .ok () (HashMap.insertAll (writes SocketEntry.asFallback (rows.map (·.1))) found) := by
  induction rows generalizing found with
  | nil => rfl
  | cons row rows ih =>
    obtain ⟨rfl, rfl⟩ := kind row (by simp)
    have head : recordRow filePath row.1.transport.protocol row.1.addresses.isIpv4 row.2.text found =
        .ok () (found.insert row.1.entry.inode row.1.entry.asFallback) := by
      simp only [recordRow, parseRow_text]
      rfl
    have tail := ih (found.insert row.1.entry.inode row.1.entry.asFallback)
      fun other member => kind other (List.mem_cons_of_mem row member)
    simp only [List.forM_eq_forM] at tail
    simp only [List.map_cons, List.forM_eq_forM, List.forM_cons, bind, EStateM.bind, head, tail]
    rfl

theorem readProcFile_fileContent {read : Text → Except Text Text} {header : Text}
    {rows : List ((socket : KernelSocket) × KernelRow socket)} (single : '\n' ∉ header)
    (reads : read filePath = .ok (fileContent header rows)) (protocol : Protocol) (isIpv4 : Bool) (found : SocketsByInode)
    (kind : ∀ row ∈ rows, row.1.transport.protocol = protocol ∧ row.1.addresses.isIpv4 = isIpv4) :
    readProcFile read filePath protocol isIpv4 found =
      .ok () (HashMap.insertAll (writes SocketEntry.asFallback (rows.map (·.1))) found) := by
  rw [readProcFile, reads]
  simp only [lines_fileContent single]
  exact recordRows filePath rows protocol isIpv4 found kind

end File

/-- One file, listing the sockets in an order of the kernel's. Column 7 is the uid. -/
structure KernelFile (sockets : List KernelSocket) (answer : Except Text Text) where
  header : Text
  single : '\n' ∉ header
  rows : List ((socket : KernelSocket) × KernelRow socket)
  lists : (rows.map (·.1)).Perm sockets
  uidColumn : ∀ row ∈ rows, (row.2.columns.map (·.2))[7]? = some (decimal row.1.uid.toNat)
  content : answer = .ok (fileContent header rows)

structure ProcNetView (sockets : List KernelSocket) (read : Text → Except Text Text) where
  tcp : KernelFile (table sockets .tcp true) (read "/proc/net/tcp".toList)
  tcp6 : KernelFile (table sockets .tcp false) (read "/proc/net/tcp6".toList)
  udp : KernelFile (table sockets .udp true) (read "/proc/net/udp".toList)
  udp6 : KernelFile (table sockets .udp false) (read "/proc/net/udp6".toList)

theorem readProcFile_kernelFile {sockets : List KernelSocket} {transport : Transport} {isIpv4 : Bool}
    {read : Text → Except Text Text} {filePath : Text}
    (file : KernelFile (table sockets transport isIpv4) (read filePath)) (found : SocketsByInode) :
    readProcFile read filePath transport.protocol isIpv4 found =
      .ok () (HashMap.insertAll (writes SocketEntry.asFallback (file.rows.map (·.1))) found) := by
  apply readProcFile_fileContent filePath file.single file.content
  intro row member
  have listed := file.lists.mem_iff.mp (List.mem_map_of_mem member)
  obtain ⟨_, kind⟩ := List.mem_filter.mp listed
  obtain ⟨same, family⟩ := of_decide_eq_true kind
  exact ⟨congrArg Transport.protocol same, family⟩

theorem readProcNet_view {sockets : List KernelSocket} {read : Text → Except Text Text}
    (view : ProcNetView sockets read) :
    ∃ order : List KernelSocket, order.Perm sockets ∧
      readProcNet read = .ok (HashMap.insertAll (writes SocketEntry.asFallback order) ∅) := by
  obtain ⟨tcp, tcp6, udp, udp6⟩ := view
  refine ⟨tcp.rows.map (·.1) ++ (tcp6.rows.map (·.1) ++ (udp.rows.map (·.1) ++ udp6.rows.map (·.1))), ?_, ?_⟩
  · have listed := tcp.lists.append (tcp6.lists.append (udp.lists.append udp6.lists))
    have swapped : (table sockets .tcp false ++ (table sockets .udp true ++ table sockets .udp false)).Perm
        (table sockets .udp true ++ (table sockets .tcp false ++ table sockets .udp false)) := by
      rw [← List.append_assoc, ← List.append_assoc]
      exact List.perm_append_comm.append_right _
    exact (listed.trans (swapped.append_left _)).trans (tables_perm sockets)
  · have first := readProcFile_kernelFile tcp
    have second := readProcFile_kernelFile tcp6
    have third := readProcFile_kernelFile udp
    have fourth := readProcFile_kernelFile udp6
    simp only [Transport.protocol] at first second third fourth
    simp only [readProcNet, collected, readProcFiles, bind, EStateM.bind, first, second, third, fourth]
    simp only [writes, List.map_append, HashMap.insertAll_append]

end Netmon.Resolver
