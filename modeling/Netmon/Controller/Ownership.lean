import Netmon.Controller.Session
import Netmon.Controller.Ports

/-! Whose packets a block drops: the tables of a process list every socket of its
network namespace, so a block reaches the sockets of others that share a port. -/
namespace Netmon.Controller
open Library

def Selector.selects (socket : OsSocket) : Selector → Bool
  | .sport protocol ports => socket.protocol == protocol && ports.contains socket.localPort
  | .skuid uid => socket.uid == uid

def Rule.selector (rule : Rule) : Option Selector :=
  match rule.body with
  | .netmon _ spec => some spec.selector
  | .foreign .. => none

/-- Every selected packet leaves a socket of the process; a port is one of the
process, and a uid is one of no other process with sockets. -/
def Selector.Precise (os : Os) (process : OsProcess) (selector : Selector) : Prop :=
  (∀ socket ∈ os.sockets, socket.netns = os.firewallNs → selector.selects socket = true →
    os.Owns process.pid socket) ∧
  match selector with
  | .sport _ ports => ∀ port ∈ ports, ∃ socket ∈ os.sockets, os.Owns process.pid socket ∧ socket.localPort = port
  | .skuid uid => ∀ other ∈ os.processes, other.uid = uid → other.pid ≠ process.pid →
    ∀ socket ∈ os.sockets, ¬os.Owns other.pid socket

def Precise (os : Os) (process : OsProcess) (rules : List Rule) : Prop :=
  ∀ rule ∈ rules, ∀ selector ∈ rule.selector, selector.Precise os process

theorem precise_iff {os : Os} {process : OsProcess} {purpose : Purpose} {rules : List Rule} {specs : List RuleSpec}
    (bodies : rules.map Rule.body = specs.map (.netmon purpose)) :
    Precise os process rules ↔ ∀ spec ∈ specs, spec.selector.Precise os process := by
  constructor
  · intro precise spec member
    have mapped : RuleBody.netmon purpose spec ∈ rules.map Rule.body := bodies ▸ List.mem_map_of_mem member
    obtain ⟨rule, inside, body⟩ := List.mem_map.mp mapped
    exact precise rule inside spec.selector (by simp [Rule.selector, body])
  · intro precise rule member selector found
    have mapped : rule.body ∈ specs.map (RuleBody.netmon purpose) := bodies ▸ List.mem_map_of_mem member
    obtain ⟨spec, inside, body⟩ := List.mem_map.mp mapped
    obtain rfl : spec.selector = selector := by simpa [Rule.selector, ← body] using found
    exact precise spec inside

def inserted (start world : World) : List Rule :=
  world.ruleset.rules.filter fun rule => decide (start.ruleset.nextHandle ≤ rule.handle)

def Specified (env : Env) (pid : Nat) (processName : Text) (start world : World) : Prop :=
  inserted start world ≠ [] → ∃ specs, processSpecs env.read pid none (blockComment pid processName) = some specs ∧
    (inserted start world).map Rule.body = specs.map (.netmon (.block pid))

theorem inserted_eq_nil {start world : World} (next : world.ruleset.nextHandle = start.ruleset.nextHandle) :
    inserted start world = [] := by
  rw [inserted, List.filter_eq_nil_iff]
  intro rule member newer
  have older := world.ruleset.fresh rule member
  rw [next] at older
  exact Nat.not_lt_of_le (of_decide_eq_true newer) older

theorem inserted_appended {purpose : Purpose} {comment : Text} {new : List Rule} {start middle world : World}
    (next : middle.ruleset.nextHandle = start.ruleset.nextHandle)
    (appended : Appended purpose comment new middle world) : inserted start world = new := by
  have old := inserted_eq_nil next
  have recent : new.filter (fun rule => decide (start.ruleset.nextHandle ≤ rule.handle)) = new := by
    apply List.filter_eq_self.mpr
    intro rule member
    rw [← next]
    exact decide_eq_true (appended.fresh rule member)
  rw [inserted] at old ⊢
  rw [appended.rules, List.filter_append, old, recent, List.nil_append]

/-- What a call has inserted, if anything, is what its script stands for. -/
def Scripted (env : Env) (purpose : Purpose) (limit : Option Nat) (comment : Text) (start world : World) : Prop :=
  inserted start world ≠ [] → ∃ specs, processSpecs env.read purpose.pid limit comment = some specs ∧
    (inserted start world).map Rule.body = specs.map (.netmon purpose)

section Scripts
variable (nft : Listing) (env : Env)

theorem removeRules_nextHandle (key : Nat) (reply : Reply) (marker : Text) (start : World) :
    Triple (· = start) (removeRules env key (findHandles nft env reply marker))
      (fun _ world => world.ruleset.nextHandle = start.ruleset.nextHandle)
      (fun _ world => world.ruleset.nextHandle = start.ruleset.nextHandle) := by
  refine (removeRules_removed nft env key reply marker start).weaken (fun _ same => same) ?_ ?_
  · rintro _ _ rfl
    rfl
  · rintro _ _ ⟨front, _, rfl⟩
    rfl

theorem insertRules_scripted (purpose : Purpose) (key : Nat) (limit : Option Nat)
    (bound : ∀ rateKbps ∈ limit, rateKbps < 2^64) {comment : Text} (closed : '"' ∉ comment) (reply : Reply)
    (marker noHandles : Text) {start middle : World}
    (next : middle.ruleset.nextHandle = start.ruleset.nextHandle) :
    Triple (· = middle)
      (insertRules env purpose key (portScript env purpose.pid limit comment) (findHandles nft env reply marker) noHandles)
      (fun _ => Scripted env purpose limit comment start) (fun _ => Scripted env purpose limit comment start) := by
  have added (world : World) (done : Inserted env purpose (portScript env purpose.pid limit comment) middle world) :
      Scripted env purpose limit comment start world := by
    obtain ⟨specs, new, meant, bodies, appended⟩ := done.specs closed bound
    intro _
    rw [inserted_appended next appended]
    exact ⟨specs, meant, bodies⟩
  refine (insertRules_spec nft env purpose key _ reply marker noHandles middle).weaken (fun _ same => same) ?_ ?_
  · rintro _ _ ⟨world, done, _, rfl⟩
    exact added world done
  · rintro _ world (⟨rfl, _⟩ | ⟨done, _⟩)
    · exact fun some => absurd (inserted_eq_nil next) some
    · exact added world done

theorem blockProcess_specified (pid : Nat) (processName : Text) (start : World) :
    Triple (· = start) (blockProcess nft env pid processName)
      (fun _ => Specified env pid processName start) (fun _ => Specified env pid processName start) := by
  refine Triple.bind (Triple.attempt (setupNftables_spec env start)) fun _ => ?_
  refine Triple.of_state fun ready same => ?_
  refine Triple.bind (Triple.attempt (removeRules_nextHandle nft env pid env.listBefore (pidMarker pid) ready)) fun _ => ?_
  refine Triple.of_state fun middle kept => ?_
  exact insertRules_scripted nft env (.block pid) pid none (by simp) (blockComment_closed pid processName) env.listAfter
    (pidMarker pid) _ (kept.trans same.nextHandle)

theorem blockProcess_inserted (pid : Nat) (processName : Text) (start : World) :
    Specified env pid processName start (finalState (blockProcess nft env pid processName) start) :=
  Triple.finalState (blockProcess_specified nft env pid processName start) start rfl

end Scripts

def InTables (process : OsProcess) (socket : OsSocket) : Prop :=
  socket.netns = process.netns ∧ (socket.protocol = .tcp ∨ socket.protocol = .udp)

/-- Behind the port of a listed socket stands the process, and for packets of
the protocol that the chain sees, nobody else. -/
def OwnPort (os : Os) (process : OsProcess) (listed : OsSocket) : Prop :=
  (∃ socket ∈ os.sockets, os.Owns process.pid socket ∧ socket.localPort = listed.localPort) ∧
  ∀ socket ∈ os.sockets, socket.netns = os.firewallNs → socket.protocol = listed.protocol →
    socket.localPort = listed.localPort → os.Owns process.pid socket

def OwnUid (os : Os) (process : OsProcess) : Prop :=
  (∀ socket ∈ os.sockets, socket.netns = os.firewallNs → socket.uid = process.uid → os.Owns process.pid socket) ∧
  ∀ other ∈ os.processes, other.uid = process.uid → other.pid ≠ process.pid →
    ∀ socket ∈ os.sockets, ¬os.Owns other.pid socket

def BlocksAlone (os : Os) (process : OsProcess) : Prop :=
  (∀ listed ∈ os.sockets, InTables process listed → OwnPort os process listed) ∧
  ((∀ socket ∈ os.sockets, ¬InTables process socket) → OwnUid os process)

section Sharing
variable {os : Os} {process : OsProcess}

theorem sport_precise_iff {protocol : Protocol} {ports : PortSet} (meaning : ∀ port, port ∈ ports ↔
      ∃ socket ∈ os.sockets, socket.netns = process.netns ∧ socket.protocol = protocol ∧ socket.localPort = port) :
    (Selector.sport protocol ports.toList).Precise os process ↔ ∀ listed ∈ os.sockets,
      listed.netns = process.netns → listed.protocol = protocol → OwnPort os process listed := by
  constructor
  · rintro ⟨packets, used⟩ listed present inNs rfl
    have port : listed.localPort ∈ ports := (meaning _).mpr ⟨listed, present, inNs, rfl, rfl⟩
    refine ⟨used _ (Std.TreeSet.mem_toList.mpr port), ?_⟩
    intro socket other seen sameProtocol samePort
    apply packets socket other seen
    simp [Selector.selects, sameProtocol, samePort, port]
  · intro own
    constructor
    · intro socket present seen selected
      obtain ⟨rfl, port⟩ : socket.protocol = protocol ∧ socket.localPort ∈ ports := by
        simpa [Selector.selects] using selected
      obtain ⟨listed, inside, inNs, sameProtocol, samePort⟩ := (meaning _).mp port
      exact (own listed inside inNs sameProtocol).2 socket present seen sameProtocol.symm samePort.symm
    · intro port member
      obtain ⟨listed, inside, inNs, sameProtocol, rfl⟩ := (meaning _).mp (Std.TreeSet.mem_toList.mp member)
      exact (own listed inside inNs sameProtocol).1

theorem portSpecs_precise_iff (tcpPorts udpPorts : PortSet) (limit : Option Nat) (comment : Text) :
    (∀ spec ∈ portSpecs tcpPorts udpPorts limit comment, spec.selector.Precise os process) ↔
      (Selector.sport .tcp tcpPorts.toList).Precise os process ∧
      (Selector.sport .udp udpPorts.toList).Precise os process := by
  have nothing (protocol : Protocol) {ports : PortSet} (empty : ports.isEmpty = true) :
      (Selector.sport protocol ports.toList).Precise os process := by
    have none : ports.toList = [] := by rwa [← List.isEmpty_iff, Std.TreeSet.isEmpty_toList]
    simp [Selector.Precise, Selector.selects, none]
  cases tcp : tcpPorts.isEmpty <;> cases udp : udpPorts.isEmpty <;>
    simp [portSpecs, tcp, udp, nothing]

section View
variable {read : ProcFs} (view : KernelView os process read)
include view

theorem ports_precise_iff : ((Selector.sport .tcp (collectPidPorts read process.pid tcpFiles).toList).Precise os process ∧
      (Selector.sport .udp (collectPidPorts read process.pid udpFiles).toList).Precise os process) ↔
    ∀ listed ∈ os.sockets, InTables process listed → OwnPort os process listed := by
  rw [sport_precise_iff fun _ => mem_tcpPorts view, sport_precise_iff fun _ => mem_udpPorts view]
  constructor
  · rintro ⟨overTcp, overUdp⟩ listed present ⟨inNs, isTcp | isUdp⟩
    · exact overTcp listed present inNs isTcp
    · exact overUdp listed present inNs isUdp
  · intro own
    exact ⟨fun listed present inNs isTcp => own listed present ⟨inNs, Or.inl isTcp⟩,
      fun listed present inNs isUdp => own listed present ⟨inNs, Or.inr isUdp⟩⟩

theorem noPorts_iff : ((collectPidPorts read process.pid tcpFiles).isEmpty &&
      (collectPidPorts read process.pid udpFiles).isEmpty) = true ↔
    ∀ socket ∈ os.sockets, ¬InTables process socket := by
  rw [Bool.and_eq_true, Std.TreeSet.isEmpty_iff_forall_not_mem, Std.TreeSet.isEmpty_iff_forall_not_mem]
  constructor
  · rintro ⟨noTcp, noUdp⟩ socket present ⟨inNs, isTcp | isUdp⟩
    · exact noTcp _ ((mem_tcpPorts view).mpr ⟨socket, present, inNs, isTcp, rfl⟩)
    · exact noUdp _ ((mem_udpPorts view).mpr ⟨socket, present, inNs, isUdp, rfl⟩)
  · intro absent
    constructor
    · intro port member
      obtain ⟨socket, present, inNs, isTcp, _⟩ := (mem_tcpPorts view).mp member
      exact absent socket present ⟨inNs, Or.inl isTcp⟩
    · intro port member
      obtain ⟨socket, present, inNs, isUdp, _⟩ := (mem_udpPorts view).mp member
      exact absent socket present ⟨inNs, Or.inr isUdp⟩

theorem processSpecs_precise_iff {comment : Text} {specs : List RuleSpec}
    (meant : processSpecs read process.pid none comment = some specs) :
    (∀ spec ∈ specs, spec.selector.Precise os process) ↔ BlocksAlone os process := by
  unfold processSpecs at meant
  simp only at meant
  split at meant
  · rename_i none
    obtain ⟨uid, found, rfl⟩ := Option.map_eq_some_iff.mp meant
    obtain rfl := readUidForPid_view view found
    have absent := (noPorts_iff view).mp none
    rw [List.forall_mem_singleton, BlocksAlone]
    constructor
    · rintro ⟨packets, others⟩
      refine ⟨fun listed present inTables => absurd inTables (absent listed present), fun _ => ⟨?_, others⟩⟩
      intro socket present seen sameUid
      exact packets socket present seen (beq_iff_eq.mpr sameUid)
    · rintro ⟨_, own⟩
      obtain ⟨packets, others⟩ := own absent
      refine ⟨?_, others⟩
      intro socket present seen selected
      exact packets socket present seen (beq_iff_eq.mp selected)
  · rename_i some
    cases meant
    rw [portSpecs_precise_iff, ports_precise_iff view, BlocksAlone]
    refine (and_iff_left ?_).symm
    intro absent
    exact absurd ((noPorts_iff view).mpr absent) some

end View

/-- Seen from the chain, the condition is that the process owns all that is listed. -/
theorem blocksAlone_sameNs (seen : process.netns = os.firewallNs)
    (some : ∃ socket ∈ os.sockets, InTables process socket) :
    BlocksAlone os process ↔ ∀ listed ∈ os.sockets, InTables process listed → os.Owns process.pid listed := by
  constructor
  · rintro ⟨own, _⟩ listed present inTables
    exact (own listed present inTables).2 listed present (inTables.1.trans seen) rfl rfl
  · intro own
    constructor
    · intro listed present inTables
      refine ⟨⟨listed, present, own listed present inTables, rfl⟩, ?_⟩
      intro socket other inNs sameProtocol _
      apply own socket other
      rw [InTables, sameProtocol]
      exact ⟨inNs.trans seen.symm, inTables.2⟩
    · intro absent
      obtain ⟨socket, present, inTables⟩ := some
      exact absurd inTables (absent socket present)

end Sharing

/-- The rules that a block inserts drop the packets of its process only, exactly
when the process shares no listed port and, without ports, no uid with another. -/
theorem blockProcess_precise (nft : Listing) (env : Env) (os : Os) (process : OsProcess) (processName : Text)
    (start world : World) (view : KernelView os process env.read)
    (ended : finalState (blockProcess nft env process.pid processName) start = world)
    (some : inserted start world ≠ []) :
    Precise os process (inserted start world) ↔ BlocksAlone os process := by
  subst ended
  obtain ⟨specs, meant, bodies⟩ := blockProcess_inserted nft env process.pid processName start some
  rw [precise_iff bodies]
  exact processSpecs_precise_iff view meant

def printingHost (os : Os) (process : OsProcess) : Env :=
  { quietHost process.pid with read := printProc os process }

def webServer : OsProcess := ⟨5, 1000, 0, [100]⟩
def database : OsProcess := ⟨6, 1000, 0, [101]⟩

def singleOs : Os where
  processes := [webServer]
  sockets := [⟨100, .tcp, false, 0, 1000, 8080⟩]
  firewallNs := 0
  distinct := by decide

def sharedOs : Os where
  processes := [webServer, database]
  sockets := [⟨100, .tcp, false, 0, 1000, 8080⟩, ⟨101, .tcp, false, 0, 1000, 5432⟩]
  firewallNs := 0
  distinct := by decide

theorem blockProcess_precise_single :
    Precise singleOs webServer (inserted emptyWorld
      (finalState (blockProcess nftListing.toListing (printingHost singleOs webServer) 5 "web".toList) emptyWorld)) ↔
      BlocksAlone singleOs webServer :=
  blockProcess_precise nftListing.toListing (printingHost singleOs webServer) singleOs webServer "web".toList
    emptyWorld _ (printProc_view singleOs webServer (by decide)) rfl (by decide +kernel)

/-- Blocking the web server drops the packets of the database. -/
theorem blockProcess_drops_other : KernelView sharedOs webServer (printingHost sharedOs webServer).read ∧
    ∃ rule ∈ inserted emptyWorld (finalState (blockProcess nftListing.toListing (printingHost sharedOs webServer) 5
        "web".toList) emptyWorld), ∃ selector ∈ rule.selector, ∃ socket ∈ sharedOs.sockets,
      socket.netns = sharedOs.firewallNs ∧ selector.selects socket = true ∧ ¬sharedOs.Owns 5 socket :=
  ⟨printProc_view sharedOs webServer (by decide), by decide +kernel⟩

end Netmon.Controller
