import Netmon.Controller.Invariant
import Netmon.Controller.Ownership
import Netmon.Controller.ScriptMeaning
import Mathlib.Algebra.Order.BigOperators.Group.List
import Mathlib.Order.Bounds.Basic

/-! What rules with a rate let through, each by itself, and the most that the rules of one
rate limit let through of the traffic on its ports. -/
namespace Netmon.Controller
open Library

/-- What a socket sends, in bits a second. -/
structure Stream where
  socket : OsSocket
  bits : Nat

/-- A kilobyte of nft has 1024 bytes. -/
def kbyteBits : Nat := 1024 * 8

def Selector.load (offered : List Stream) (selector : Selector) : Nat :=
  ((offered.filter fun stream => selector.selects stream.socket).map Stream.bits).sum

/-- A rule drops its packets above its rate, and all of them where it has none. -/
def RuleSpec.passes (offered : List Stream) (spec : RuleSpec) : Nat :=
  match spec.limit with
  | none => 0
  | some rateKbytes => min (spec.selector.load offered) (rateKbytes * kbyteBits)

def Rule.spec (rule : Rule) : Option RuleSpec :=
  match rule.body with
  | .netmon _ spec => some spec
  | .foreign .. => none

def passed (offered : List Stream) (rules : List Rule) : Nat :=
  ((rules.filterMap Rule.spec).map (RuleSpec.passes offered)).sum

def Stream.OnPorts (tcpPorts udpPorts : PortSet) (stream : Stream) : Prop :=
  (stream.socket.protocol = .tcp ∧ stream.socket.localPort ∈ tcpPorts) ∨
    (stream.socket.protocol = .udp ∧ stream.socket.localPort ∈ udpPorts)

instance (tcpPorts udpPorts : PortSet) (stream : Stream) : Decidable (stream.OnPorts tcpPorts udpPorts) :=
  inferInstanceAs (Decidable (_ ∨ _))

/-- The amounts of traffic on the ports that the rules can let through. -/
def Throughput (tcpPorts udpPorts : PortSet) (rules : List Rule) : Set Nat :=
  {total | ∃ offered, (∀ stream ∈ offered, stream.OnPorts tcpPorts udpPorts) ∧ passed offered rules = total}

theorem specs_of_bodies {rules : List Rule} {purpose : Purpose} {specs : List RuleSpec}
    (bodies : rules.map Rule.body = specs.map (.netmon purpose)) : rules.filterMap Rule.spec = specs := by
  induction rules generalizing specs with
  | nil => exact (List.map_eq_nil_iff.mp bodies.symm).symm
  | cons rule rules ih =>
    cases specs with
    | nil => cases bodies
    | cons spec specs =>
      rw [List.map_cons, List.map_cons, List.cons.injEq] at bodies
      have head : rule.spec = some spec := by rw [Rule.spec, bodies.1]
      rw [List.filterMap_cons_some head, ih bodies.2]

section Limit
variable {tcpPorts udpPorts : PortSet} {rateKbytes : Nat}

theorem portSpecs_asked (limit : Option Nat) (comment : Text) : portSpecs tcpPorts udpPorts limit comment =
    (asked tcpPorts udpPorts).map fun set => ⟨.sport set.1 set.2.toList, limit, comment⟩ := by
  rw [portSpecs, asked, List.map_append]
  congr 1 <;> split <;> rfl

theorem mem_asked {set : Protocol × PortSet} (member : set ∈ asked tcpPorts udpPorts) :
    set.2.isEmpty = false ∧ (set = (.tcp, tcpPorts) ∨ set = (.udp, udpPorts)) := by
  rcases List.mem_append.mp member with tcp | udp
  · split at tcp
    · cases tcp
    · rename_i filled
      obtain rfl := List.mem_singleton.mp tcp
      exact ⟨by simpa using filled, Or.inl rfl⟩
  · split at udp
    · cases udp
    · rename_i filled
      obtain rfl := List.mem_singleton.mp udp
      exact ⟨by simpa using filled, Or.inr rfl⟩

theorem asked_eq_nil : asked tcpPorts udpPorts = [] ↔ tcpPorts.isEmpty = true ∧ udpPorts.isEmpty = true := by
  rw [asked, List.append_eq_nil_iff]
  simp only [ite_eq_left_iff, List.cons_ne_nil, imp_false, not_not]

/-- Traffic that fills the rate of a rule, sent from the first of its ports. -/
def fullStream (rateKbytes : Nat) (set : Protocol × PortSet) : Stream where
  socket := ⟨0, set.1, false, 0, 0, set.2.toList.head?.getD 0⟩
  bits := rateKbytes * kbyteBits

theorem fullStream_port (rateKbytes : Nat) {set : Protocol × PortSet} (filled : set.2.isEmpty = false) :
    (fullStream rateKbytes set).socket.localPort ∈ set.2.toList := by
  obtain ⟨port, ports, split⟩ := List.exists_cons_of_ne_nil (ports_ne_nil filled)
  simp [fullStream, split]

theorem fullStream_onPorts {set : Protocol × PortSet} (member : set ∈ asked tcpPorts udpPorts) :
    (fullStream rateKbytes set).OnPorts tcpPorts udpPorts := by
  obtain ⟨filled, which⟩ := mem_asked member
  have port := Std.TreeSet.mem_toList.mp (fullStream_port rateKbytes filled)
  rcases which with rfl | rfl
  · exact Or.inl ⟨rfl, port⟩
  · exact Or.inr ⟨rfl, port⟩

theorem passes_le (offered : List Stream) (selector : Selector) (comment : Text) :
    RuleSpec.passes offered ⟨selector, some rateKbytes, comment⟩ ≤ rateKbytes * kbyteBits :=
  Nat.min_le_right _ _

theorem passes_full {offered : List Stream} {set : Protocol × PortSet} (filled : set.2.isEmpty = false)
    (sent : fullStream rateKbytes set ∈ offered) (comment : Text) :
    RuleSpec.passes offered ⟨.sport set.1 set.2.toList, some rateKbytes, comment⟩ = rateKbytes * kbyteBits := by
  apply Nat.min_eq_right
  apply List.le_sum_of_mem
  rw [List.mem_map]
  refine ⟨fullStream rateKbytes set, List.mem_filter.mpr ⟨sent, ?_⟩, rfl⟩
  rw [Selector.selects, Bool.and_eq_true, List.contains_iff_mem]
  exact ⟨beq_self_eq_true set.1, fullStream_port rateKbytes filled⟩

variable {rules : List Rule} {purpose : Purpose} {comment : Text}

theorem portSpecs_throughput
    (bodies : rules.map Rule.body = (portSpecs tcpPorts udpPorts (some rateKbytes) comment).map (.netmon purpose)) :
    IsGreatest (Throughput tcpPorts udpPorts rules) ((asked tcpPorts udpPorts).length * (rateKbytes * kbyteBits)) := by
  have total (offered : List Stream) : passed offered rules =
      ((asked tcpPorts udpPorts).map fun set =>
        RuleSpec.passes offered ⟨.sport set.1 set.2.toList, some rateKbytes, comment⟩).sum := by
    rw [passed, specs_of_bodies bodies, portSpecs_asked, List.map_map]
    rfl
  constructor
  · refine ⟨(asked tcpPorts udpPorts).map (fullStream rateKbytes), ?_, ?_⟩
    · rw [List.forall_mem_map]
      intro set member
      exact fullStream_onPorts member
    · rw [total, List.sum_eq_card_nsmul _ (rateKbytes * kbyteBits), List.length_map, Nat.nsmul_eq_mul]
      rw [List.forall_mem_map]
      intro set member
      exact passes_full (mem_asked member).1 (List.mem_map_of_mem member) comment
  · rintro _ ⟨offered, _, rfl⟩
    rw [total]
    refine (List.sum_le_card_nsmul _ (rateKbytes * kbyteBits) ?_).trans (by rw [List.length_map, Nat.nsmul_eq_mul])
    rw [List.forall_mem_map]
    intro set _
    exact passes_le offered _ comment

theorem noPorts_throughput (noTcp : tcpPorts.isEmpty = true) (noUdp : udpPorts.isEmpty = true) (uid : Nat)
    (bodies : rules.map Rule.body = [RuleBody.netmon purpose ⟨.skuid uid, some rateKbytes, comment⟩]) :
    IsGreatest (Throughput tcpPorts udpPorts rules) 0 := by
  have nothing : passed [] rules = 0 := by
    have specs : rules.filterMap Rule.spec = [⟨.skuid uid, some rateKbytes, comment⟩] := specs_of_bodies bodies
    rw [passed, specs]
    simp [RuleSpec.passes, Selector.load]
  refine ⟨⟨[], by simp, nothing⟩, ?_⟩
  rintro _ ⟨offered, onPorts, rfl⟩
  have none : offered = [] := by
    apply List.eq_nil_iff_forall_not_mem.mpr
    intro stream member
    rcases onPorts stream member with ⟨_, port⟩ | ⟨_, port⟩
    · exact Std.TreeSet.isEmpty_iff_forall_not_mem.mp noTcp _ port
    · exact Std.TreeSet.isEmpty_iff_forall_not_mem.mp noUdp _ port
  rw [none, nothing]

end Limit

section Call
variable (nft : Listing) (env : Env) (pid : Nat) (rateKbps : UInt32)

theorem rateLimitProcess_scripted (start : World) :
    Triple (· = start) (rateLimitProcess nft env pid rateKbps)
      (fun _ => Scripted env (.rateLimit pid) (some rateKbps.toNat) (rateLimitMarker pid) start)
      (fun _ => Scripted env (.rateLimit pid) (some rateKbps.toNat) (rateLimitMarker pid) start) := by
  refine Triple.bind (Triple.attempt (setupNftables_spec env start)) fun _ => ?_
  refine Triple.of_state fun ready same => ?_
  refine Triple.bind ((removeRules_nextHandle nft env (rateLimitSentinel pid) env.listBefore (rateLimitMarker pid)
    ready).weaken (fun _ same => same) (fun _ _ kept => kept) ?_) fun _ => ?_
  · intro _ world kept some
    exact absurd (inserted_eq_nil (kept.trans same.nextHandle)) some
  · refine Triple.of_state fun middle kept => ?_
    exact insertRules_scripted nft env (.rateLimit pid) (rateLimitSentinel pid) (some rateKbps.toNat)
      (toNat_bound rateKbps) (rateLimitMarker_closed pid) env.listAfter (rateLimitMarker pid) _
      (kept.trans same.nextHandle)

/-- The most that the rules of a rate limit let through of the traffic on the ports found for the process: the whole
rate, in kilobytes, for each set of ports that is not empty. -/
theorem rateLimitProcess_throughput (start : World)
    (some : inserted start (finalState (rateLimitProcess nft env pid rateKbps) start) ≠ []) :
    let tcpPorts := collectPidPorts env.read pid tcpFiles
    let udpPorts := collectPidPorts env.read pid udpFiles
    IsGreatest (Throughput tcpPorts udpPorts (inserted start (finalState (rateLimitProcess nft env pid rateKbps) start)))
      ((asked tcpPorts udpPorts).length * (rateKbps.toNat * kbyteBits)) := by
  intro tcpPorts udpPorts
  have scripted := Triple.finalState (rateLimitProcess_scripted nft env pid rateKbps start) start rfl
  obtain ⟨specs, meant, bodies⟩ := scripted some
  rw [processSpecs] at meant
  split at meant
  · rename_i none
    obtain ⟨noTcp, noUdp⟩ := Bool.and_eq_true_iff.mp none
    obtain ⟨uid, _, rfl⟩ := Option.map_eq_some_iff.mp meant
    have unasked : asked tcpPorts udpPorts = [] := asked_eq_nil.mpr ⟨noTcp, noUdp⟩
    rw [unasked, List.length_nil, Nat.zero_mul]
    exact noPorts_throughput noTcp noUdp uid bodies
  · cases meant
    exact portSpecs_throughput bodies

end Call
end Netmon.Controller
