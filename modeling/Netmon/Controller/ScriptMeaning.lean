import Netmon.Controller.Effects

/-! What the script of a block means to nft: one complete command for each set of ports that
is not empty, whatever the process is called. -/
namespace Netmon.Controller
open Library

/-- The sets that a block asks for, the empty ones left out. -/
def asked (tcpPorts udpPorts : PortSet) : List (Protocol × PortSet) :=
  (if tcpPorts.isEmpty then [] else [(.tcp, tcpPorts)]) ++ (if udpPorts.isEmpty then [] else [(.udp, udpPorts)])

/-- A single command that adds a rule, which drops what is sent from these ports and is marked as the process's. -/
structure DropsPorts (pid : Nat) (set : Protocol × PortSet) (command : List Token) : Prop where
  single : .mark '\n' ∉ command
  reads : ∃ ports comment, readCommand command = some ⟨.sport set.1 ports, none, comment⟩ ∧
    (∀ port, port ∈ ports ↔ port ∈ set.2) ∧ pidMarker pid <+: comment

def portCommand (comment : Text) : Protocol × PortSet → List Token
  | (.udp, ports) => sportTokens "udp".toList ports.toList none comment
  | (_, ports) => sportTokens "tcp".toList ports.toList none comment

theorem dropsPorts_of_command {name : Text} {protocol : Protocol} (known : readProtocol name = some protocol)
    {ports : PortSet} (filled : ports.isEmpty = false) (pid : Nat) {comment : Text} (marks : pidMarker pid <+: comment) :
    DropsPorts pid (protocol, ports) (sportTokens name ports.toList none comment) where
  single := newline_not_mem_sportTokens name ports.toList none comment
  reads := ⟨ports.toList, comment, readCommand_sportTokens filled known (by simp) comment,
    fun _ => Std.TreeSet.mem_toList, marks⟩

section Script
variable (tcpPorts udpPorts : PortSet)

theorem tokens_buildBlockRuleset {comment : Text} (closed : '"' ∉ comment) :
    tokens isMark (buildBlockRuleset tcpPorts udpPorts comment) =
      ((asked tcpPorts udpPorts).map (portCommand comment)).flatMap fun command => command ++ [.mark '\n'] := by
  have tcp (filled : tcpPorts.isEmpty = false) (rest : Text) :
      tokens isMark (sportRule "tcp".toList tcpPorts none comment ++ rest) =
        sportTokens "tcp".toList tcpPorts.toList none comment ++ .mark '\n' :: tokens isMark rest :=
    tokens_sportRule filled (by decide) (by decide) none closed rest
  have udp (filled : udpPorts.isEmpty = false) : tokens isMark (sportRule "udp".toList udpPorts none comment) =
      sportTokens "udp".toList udpPorts.toList none comment ++ [.mark '\n'] := by
    have lexed : tokens isMark (sportRule "udp".toList udpPorts none comment ++ []) =
        sportTokens "udp".toList udpPorts.toList none comment ++ .mark '\n' :: tokens isMark [] :=
      tokens_sportRule filled (by decide) (by decide) none closed []
    rwa [List.append_nil] at lexed
  cases noTcp : tcpPorts.isEmpty <;> cases noUdp : udpPorts.isEmpty <;>
    simp only [buildBlockRuleset, portRuleset, asked, noTcp, noUdp, if_true, Bool.false_eq_true, if_false, List.nil_append,
      List.append_nil, List.singleton_append, List.map_cons, List.map_nil, List.flatMap_cons, List.flatMap_nil, portCommand]
  · rw [tcp noTcp, udp noUdp]
    simp
  · have lexed := tcp noTcp []
    rwa [List.append_nil] at lexed
  · exact udp noUdp
  · rfl

theorem asked_dropped (pid : Nat) {comment : Text} (marks : pidMarker pid <+: comment) :
    List.Forall₂ (DropsPorts pid) (asked tcpPorts udpPorts) ((asked tcpPorts udpPorts).map (portCommand comment)) := by
  rw [List.forall₂_map_right_iff, List.forall₂_same]
  intro set member
  rcases List.mem_append.mp member with tcp | udp
  · cases noTcp : tcpPorts.isEmpty with
    | true => simp [noTcp] at tcp
    | false =>
      rw [noTcp, if_neg Bool.false_ne_true, List.mem_singleton] at tcp
      subst tcp
      exact dropsPorts_of_command rfl noTcp pid marks
  · cases noUdp : udpPorts.isEmpty with
    | true => simp [noUdp] at udp
    | false =>
      rw [noUdp, if_neg Bool.false_ne_true, List.mem_singleton] at udp
      subst udp
      exact dropsPorts_of_command rfl noUdp pid marks

/-- For every process and every name, the script that is sent when ports were found is one complete command for each set
that is not empty, dropping its ports under the marker of the process, and nothing else. -/
theorem block_script_means (filled : tcpPorts.isEmpty = false ∨ udpPorts.isEmpty = false) (pid : Nat) (processName : Text) :
    let script := buildBlockRuleset tcpPorts udpPorts (blockComment pid processName)
    (∀ env : Env, collectPidPorts env.read pid tcpFiles = tcpPorts → collectPidPorts env.read pid udpFiles = udpPorts →
      portScript env pid none (blockComment pid processName) = .ok script) ∧
    ∃ commands : List (List Token), tokens isMark script = commands.flatMap (fun command => command ++ [.mark '\n']) ∧
      List.Forall₂ (DropsPorts pid) (asked tcpPorts udpPorts) commands := by
  intro script
  refine ⟨?_, (asked tcpPorts udpPorts).map (portCommand (blockComment pid processName)), ?_, ?_⟩
  · rintro env rfl rfl
    have found : ((collectPidPorts env.read pid tcpFiles).isEmpty && (collectPidPorts env.read pid udpFiles).isEmpty) = false := by
      rcases filled with tcp | udp
      · rw [tcp, Bool.false_and]
      · rw [udp, Bool.and_false]
    rw [portScript, found, if_neg Bool.false_ne_true]
    rfl
  · exact tokens_buildBlockRuleset tcpPorts udpPorts (blockComment_closed pid processName)
  · exact asked_dropped tcpPorts udpPorts pid (List.prefix_append _ _)

end Script

def webPorts : PortSet := ((∅ : PortSet).insert 80).insert 443

/-- A name that tries to end the comment and to flush the chain. -/
def hostileName : Text := "x\" drop\nflush ruleset\n".toList

theorem block_script_means_hostile :
    let script := buildBlockRuleset webPorts ∅ (blockComment 42 hostileName)
    (∀ env : Env, collectPidPorts env.read 42 tcpFiles = webPorts → collectPidPorts env.read 42 udpFiles = ∅ →
      portScript env 42 none (blockComment 42 hostileName) = .ok script) ∧
    ∃ commands : List (List Token), tokens isMark script = commands.flatMap (fun command => command ++ [.mark '\n']) ∧
      List.Forall₂ (DropsPorts 42) (asked webPorts ∅) commands :=
  block_script_means webPorts ∅ (Or.inl Std.TreeSet.isEmpty_insert) 42 hostileName

end Netmon.Controller
