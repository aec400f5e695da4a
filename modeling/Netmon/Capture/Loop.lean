import Netmon.Capture.PacketExact
import Netmon.Library.Text

/-! The capture thread: turn by turn it handles commands and reads a frame, and it
sends the records of the frames it accepts. -/
namespace Netmon.Capture
open Library

inductive CaptureCommand where
  | applyFilter (filterExpression : Text)
  | stop
deriving DecidableEq, Repr

inductive ReadResult where
  | packet (data : Bytes) (len : UInt32) (now : Instant)
  | timeoutExpired
  | error
deriving DecidableEq, Repr

structure Turn where
  running : Bool
  commands : List CaptureCommand
  /-- Nobody holds the sending end for commands any longer. -/
  disconnected : Bool
  filter : Text → Except Text Unit
  read : ReadResult
  /-- The receiving end for records is there. -/
  receiving : Bool

structure Delivery where
  packetBytes : Bytes
  packetLen : UInt32
  record : FlowRecord
deriving DecidableEq, Repr

structure CaptureTrace where
  deliveries : List Delivery
  statuses : List Text
  /-- The thread has cleared its own running flag. -/
  clearedRunning : Bool
deriving DecidableEq, Repr

def CaptureTrace.ended (statuses : List Text) : CaptureTrace := ⟨[], statuses, false⟩

def CaptureTrace.after (deliveries : List Delivery) (statuses : List Text) (trace : CaptureTrace) : CaptureTrace :=
  { trace with deliveries := deliveries ++ trace.deliveries, statuses := statuses ++ trace.statuses }

def captureStopped : Text := "Capture stopped: interface went down. Select an interface and click Start.".toList

/-- Whether the loop stops, and the messages sent. -/
def handlePendingCommands (filter : Text → Except Text Unit) (disconnected : Bool) :
    List CaptureCommand → Bool × List Text
  | [] => (disconnected, [])
  | .stop :: _ => (true, [])
  | .applyFilter filterExpression :: rest =>
    let status := match filter filterExpression with
      | .ok () => "Filter applied: ".toList ++ filterExpression
      | .error error => "BPF error: ".toList ++ error
    let (stop, statuses) := handlePendingCommands filter disconnected rest
    (stop, status :: statuses)

def runCaptureLoop (localIps : List IpAddr) : List Turn → Except Panic CaptureTrace
  | [] => .ok (.ended [])
  | turn :: turns =>
    if !turn.running then .ok (.ended [])
    else
      let (stop, statuses) := handlePendingCommands turn.filter turn.disconnected turn.commands
      if stop then .ok (.ended statuses)
      else
        match turn.read with
        | .timeoutExpired => (runCaptureLoop localIps turns).map (.after [] statuses)
        | .error => .ok ⟨[], statuses ++ [captureStopped], true⟩
        | .packet data len now =>
          match (parsePacket data len localIps now).run with
          | .error panic => .error panic
          | .ok none => (runCaptureLoop localIps turns).map (.after [] statuses)
          | .ok (some record) =>
            if turn.receiving then (runCaptureLoop localIps turns).map (.after [⟨data, len, record⟩] statuses)
            else .ok (.ended statuses)

def Delivery.Accepted (localIps : List IpAddr) (delivery : Delivery) : Prop :=
  ∃ now, (parsePacket delivery.packetBytes delivery.packetLen localIps now).run = .ok (some delivery.record)

/-- The loop never panics, and all that it sends are records of accepted frames. -/
theorem runCaptureLoop_accepted (localIps : List IpAddr) (turns : List Turn) :
    ∃ trace, runCaptureLoop localIps turns = .ok trace ∧
      ∀ delivery ∈ trace.deliveries, delivery.Accepted localIps := by
  induction turns with
  | nil => exact ⟨_, rfl, by simp [CaptureTrace.ended]⟩
  | cons turn turns ih =>
    obtain ⟨trace, looped, accepted⟩ := ih
    unfold runCaptureLoop
    rw [looped]
    generalize handlePendingCommands turn.filter turn.disconnected turn.commands = pending
    obtain ⟨stop, statuses⟩ := pending
    simp only
    split
    · exact ⟨_, rfl, by simp [CaptureTrace.ended]⟩
    split
    · exact ⟨_, rfl, by simp [CaptureTrace.ended]⟩
    cases turn.read with
    | timeoutExpired => exact ⟨_, rfl, by simpa [CaptureTrace.after] using accepted⟩
    | error => exact ⟨_, rfl, by simp⟩
    | packet data len now =>
      rcases parsePacket_total len localIps now data with skipped | ⟨key, carries, read⟩
      · simp only [skipped]
        exact ⟨_, rfl, by simpa [CaptureTrace.after] using accepted⟩
      · simp only [read]
        split
        · refine ⟨_, rfl, ?_⟩
          rw [CaptureTrace.after, List.forall_mem_append, List.forall_mem_singleton]
          exact ⟨⟨now, read⟩, accepted⟩
        · exact ⟨_, rfl, by simp [CaptureTrace.ended]⟩

theorem Delivery.Accepted.record {localIps : List IpAddr} {delivery : Delivery} (accepted : delivery.Accepted localIps) :
    delivery.record.byteCount = delivery.packetLen ∧ delivery.record.direction =
      classifyDirection localIps delivery.record.key.srcIp delivery.record.key.dstIp := by
  obtain ⟨now, read⟩ := accepted
  obtain ⟨_, length, _, label⟩ := (parsePacket_iff _ _ _ _ _).mp read
  exact ⟨length, label⟩

end Netmon.Capture
