import Netmon.Capture.Thread
import Netmon.Library.Run

/-! The recording of a session: every packet that is read is written to the savefile,
which is flushed after each hundred packets and when the loop has ended. What libpcap
makes of these calls is left open, up to what it promises. -/
namespace Netmon.Capture
open Library

structure Packet where
  data : Bytes
  len : UInt32
deriving DecidableEq, Repr

/-- A call on the savefile; a flush with its answer, which is dropped. -/
inductive SavefileCall where
  | write (packet : Packet)
  | flush (done : Bool)
deriving DecidableEq, Repr

def SavefileCall.packet? : SavefileCall → Option Packet
  | .write packet => some packet
  | .flush _ => none

def written (calls : List SavefileCall) : List Packet := calls.filterMap SavefileCall.packet?

@[simp] theorem written_write (calls : List SavefileCall) (packet : Packet) :
    written (calls ++ [.write packet]) = written calls ++ [packet] := by
  rw [written, List.filterMap_append]
  rfl

@[simp] theorem written_flush (calls : List SavefileCall) (done : Bool) :
    written (calls ++ [.flush done]) = written calls := by
  rw [written, List.filterMap_append]
  exact List.append_nil _

/-- The header of the file, a packet as it stands in the file, and the bytes that a reader finds in it after the calls
so far. -/
structure SavefileWriter where
  header : Bytes
  encode : Packet → Bytes
  file : List SavefileCall → Bytes

namespace SavefileWriter

def image (writer : SavefileWriter) (packets : List Packet) : Bytes := writer.header ++ packets.flatMap writer.encode

/-- As long as no flush has failed, what is written gets into the file in order, at any time up to any byte, and stays
there; and a flush that succeeds leaves nothing out. -/
structure Lawful (writer : SavefileWriter) : Prop where
  ordered : ∀ calls, .flush false ∉ calls → writer.file calls <+: writer.image (written calls)
  stays : ∀ calls call, .flush false ∉ calls ++ [call] → writer.file calls <+: writer.file (calls ++ [call])
  flushed : ∀ calls, .flush false ∉ calls → writer.file (calls ++ [.flush true]) = writer.image (written calls)

variable {writer : SavefileWriter}

/-- What was written before a flush is in the file from then on. -/
theorem Lawful.since_flush (lawful : writer.Lawful) (front back : List SavefileCall)
    (clean : .flush false ∉ front ++ .flush true :: back) :
    writer.image (written front) <+: writer.file (front ++ .flush true :: back) := by
  induction back using List.reverseRecOn with
  | nil =>
    rw [lawful.flushed front fun failed => clean (List.mem_append_left _ failed)]
  | append_singleton back call ih =>
    have split : front ++ .flush true :: (back ++ [call]) = (front ++ .flush true :: back) ++ [call] := by simp
    rw [split] at clean ⊢
    exact (ih fun failed => clean (List.mem_append_left _ failed)).trans (lawful.stays _ call clean)

end SavefileWriter

section Blocks
variable (calls : List SavefileCall)

def pcapHeader : Bytes :=
  Endian.little.bytes 4 0xa1b2c3d4 ++ Endian.little.bytes 2 2 ++ Endian.little.bytes 2 4 ++ List.replicate 8 0 ++
    Endian.little.bytes 4 65535 ++ Endian.little.bytes 4 1

/-- A packet that was taken at time zero. -/
def pcapRecord (packet : Packet) : Bytes :=
  List.replicate 8 0 ++ Endian.little.bytes 4 packet.data.length ++ Endian.little.bytes 4 packet.len.toNat ++ packet.data

/-- How much has been handed over, and how much of it is in the file. -/
def handOver (lengths : Nat × Nat) : SavefileCall → Nat × Nat
  | .write packet =>
    let handed := lengths.1 + (pcapRecord packet).length
    (handed, lengths.2 + (handed - lengths.2) / 4096 * 4096)
  | .flush _ => (lengths.1, lengths.1)

def handedOver : Nat × Nat := run handOver (pcapHeader.length, 0) calls

/-- A file that is written in blocks between the flushes. -/
def blockWriter : SavefileWriter where
  header := pcapHeader
  encode := pcapRecord
  file calls := (pcapHeader ++ (written calls).flatMap pcapRecord).take (handedOver calls).2

theorem handedOver_append (call : SavefileCall) : handedOver (calls ++ [call]) = handOver (handedOver calls) call :=
  run_append handOver _ calls [call]

theorem handedOver_spec : (handedOver calls).1 = (blockWriter.image (written calls)).length ∧
    (handedOver calls).2 ≤ (handedOver calls).1 := by
  induction calls using List.reverseRecOn with
  | nil => exact ⟨rfl, Nat.zero_le _⟩
  | append_singleton calls call ih =>
    obtain ⟨handed, within⟩ := ih
    rw [handedOver_append]
    cases call with
    | flush done =>
      rw [written_flush]
      exact ⟨handed, Nat.le_refl _⟩
    | write packet =>
      refine ⟨?_, ?_⟩
      · rw [written_write]
        simp only [handOver, handed]
        simp [SavefileWriter.image, blockWriter, Nat.add_assoc]
      · simp only [handOver]
        have blocks := Nat.div_mul_le_self ((handedOver calls).1 + (pcapRecord packet).length - (handedOver calls).2) 4096
        omega

theorem blockWriter_lawful : blockWriter.Lawful where
  ordered calls _ := List.take_prefix _ _
  stays calls call _ := by
    have longer : blockWriter.image (written calls) <+: blockWriter.image (written (calls ++ [call])) := by
      rw [SavefileWriter.image, SavefileWriter.image, written, written, List.filterMap_append, List.flatMap_append,
        ← List.append_assoc]
      exact List.prefix_append _ _
    have more : (handedOver calls).2 ≤ (handedOver (calls ++ [call])).2 := by
      rw [handedOver_append]
      cases call with
      | write packet => exact Nat.le_add_right _ _
      | flush done => exact (handedOver_spec calls).2
    have start : blockWriter.file calls <+: blockWriter.image (written (calls ++ [call])) :=
      (List.take_prefix _ _).trans longer
    refine List.prefix_of_prefix_length_le start (List.take_prefix _ _) ?_
    have bound := longer.length_le
    change (List.take _ (blockWriter.image _)).length ≤ (List.take _ (blockWriter.image _)).length
    rw [List.length_take, List.length_take]
    omega
  flushed calls _ := by
    change (blockWriter.image (written (calls ++ [.flush true]))).take (handedOver (calls ++ [.flush true])).2 = _
    rw [written_flush, handedOver_append]
    exact List.take_of_length_le (Nat.le_of_eq (handedOver_spec calls).1.symm)

end Blocks

structure Recording where
  path : Text
  /-- The calls on the savefile so far. -/
  calls : List SavefileCall
  -- 32 bits wide, and never above a hundred
  packetsSinceFlush : Nat
deriving DecidableEq, Repr

namespace Recording

/-- Opening the savefile truncates it. -/
def opened (path : Text) : Recording := ⟨path, [], 0⟩

def record (flushed : Bool) (packet : Packet) (recording : Recording) : Recording :=
  let calls := recording.calls ++ [.write packet]
  let packetsSinceFlush := recording.packetsSinceFlush + 1
  if packetsSinceFlush ≥ 100 then { recording with calls := calls ++ [.flush flushed], packetsSinceFlush := 0 }
  else { recording with calls, packetsSinceFlush }

/-- An action of the thread: what it has read, and whether it leaves the loop. -/
def turn (read : Option Packet) (leaves : Bool) (atHundred atExit : Bool) (recording : Recording) : Recording :=
  let recording := match read with
    | some packet => recording.record atHundred packet
    | none => recording
  if leaves then { recording with calls := recording.calls ++ [.flush atExit] } else recording

/-- The packets are written in batches of a hundred, each with a flush behind it, and so is the rest at the end. -/
def Batched (packets : List Packet) (ended : Bool) (recording : Recording) : Prop :=
  ∃ (batches : List (List Packet)) (rest : List Packet), packets = batches.flatten ++ rest ∧ (∀ batch ∈ batches, batch.length = 100) ∧
    rest.length = recording.packetsSinceFlush ∧ rest.length < 100 ∧
    recording.calls.map SavefileCall.packet? =
      batches.flatMap (fun batch => batch.map some ++ [none]) ++ rest.map some ++ if ended then [none] else []

variable {recording : Recording} {packets : List Packet}

theorem record_path (flushed : Bool) (packet : Packet) :
    (recording.record flushed packet).path = recording.path := by
  unfold record
  simp only
  split <;> rfl

@[simp] theorem turn_path (read : Option Packet) (leaves : Bool) (atHundred atExit : Bool) :
    (recording.turn read leaves atHundred atExit).path = recording.path := by
  cases read with
  | none =>
    simp only [turn]
    split <;> rfl
  | some packet =>
    simp only [turn]
    split <;> exact record_path atHundred packet

theorem opened_batched (path : Text) : (opened path).Batched [] false :=
  ⟨[], [], rfl, by simp, rfl, by simp, rfl⟩

theorem Batched.record (batched : recording.Batched packets false) (flushed : Bool) (packet : Packet) :
    (recording.record flushed packet).Batched (packets ++ [packet]) false := by
  obtain ⟨batches, rest, rfl, full, counted, below, calls⟩ := batched
  unfold Recording.record
  simp only
  split
  · rename_i hundred
    refine ⟨batches ++ [rest ++ [packet]], [], by simp, ?_, rfl, by simp, ?_⟩
    · intro batch member
      rcases List.mem_append.mp member with earlier | last
      · exact full batch earlier
      · rw [List.mem_singleton.mp last, List.length_append, List.length_singleton]
        omega
    · simp [calls, SavefileCall.packet?]
  · rename_i fewer
    refine ⟨batches, rest ++ [packet], by simp, full, by simp [counted], ?_, ?_⟩
    · rw [List.length_append, List.length_singleton]
      omega
    · simp [calls, SavefileCall.packet?]

theorem Batched.turn (batched : recording.Batched packets false) (read : Option Packet) (leaves atHundred atExit : Bool) :
    (recording.turn read leaves atHundred atExit).Batched (packets ++ read.toList) leaves := by
  have recorded : (match read with
      | some packet => recording.record atHundred packet
      | none => recording).Batched (packets ++ read.toList) false := by
    cases read with
    | none => simpa using batched
    | some packet => exact batched.record atHundred packet
  simp only [Recording.turn]
  cases leaves with
  | false => exact recorded
  | true =>
    obtain ⟨batches, rest, same, full, counted, below, calls⟩ := recorded
    refine ⟨batches, rest, same, full, counted, below, ?_⟩
    simp only [if_true, List.map_append, calls]
    simp [SavefileCall.packet?]

theorem filterMap_id_some (packets : List Packet) : (packets.map some).filterMap id = packets := by
  rw [List.filterMap_map, Function.id_comp, List.filterMap_some]

theorem filterMap_id_batches (batches : List (List Packet)) :
    (batches.flatMap fun batch => batch.map some ++ [none]).filterMap id = batches.flatten := by
  induction batches with
  | nil => rfl
  | cons batch batches ih =>
    rw [List.flatMap_cons, List.filterMap_append, ih, List.filterMap_append, filterMap_id_some, List.flatten_cons]
    simp

theorem Batched.written {ended : Bool} (batched : recording.Batched packets ended) :
    written recording.calls = packets := by
  obtain ⟨batches, rest, rfl, _, _, _, calls⟩ := batched
  have mapped : Capture.written recording.calls = (recording.calls.map SavefileCall.packet?).filterMap id := by
    rw [List.filterMap_map, Function.id_comp, Capture.written]
  rw [mapped, calls, List.filterMap_append, List.filterMap_append, filterMap_id_batches, filterMap_id_some]
  cases ended <;> simp

/-- Little of what was read is missing in the file, and nothing once the thread has ended. Its end may lie inside a
packet. -/
structure UpToDate (writer : SavefileWriter) (packets : List Packet) (ended : Bool) (file : Bytes) : Prop where
  inside : file <+: writer.image packets
  near : ∃ front back, packets = front ++ back ∧ back.length < 100 ∧ (front ≠ [] → writer.image front <+: file)
  whole : ended = true → file = writer.image packets

theorem flush_at {calls : List SavefileCall} {before behind : List (Option Packet)} (clean : .flush false ∉ calls)
    (split : calls.map SavefileCall.packet? = before ++ none :: behind) :
    ∃ front back, calls = front ++ .flush true :: back ∧ Capture.written front = before.filterMap id ∧
      back.map SavefileCall.packet? = behind := by
  obtain ⟨front, rest, rfl, rfl, tail⟩ := List.map_eq_append_iff.mp split
  obtain ⟨call, back, rfl, flush, remaining⟩ := List.map_eq_cons_iff.mp tail
  cases call with
  | write packet => cases flush
  | flush done =>
    cases done with
    | false => exact absurd (by simp) clean
    | true =>
      refine ⟨front, back, rfl, ?_, remaining⟩
      rw [List.filterMap_map, Function.id_comp, Capture.written]

theorem Batched.upToDate {writer : SavefileWriter} {ended : Bool} (batched : recording.Batched packets ended)
    (lawful : writer.Lawful) (clean : .flush false ∉ recording.calls) :
    UpToDate writer packets ended (writer.file recording.calls) := by
  have whole := batched.written
  obtain ⟨batches, rest, rfl, full, counted, below, calls⟩ := batched
  refine ⟨whole ▸ lawful.ordered _ clean, ⟨batches.flatten, rest, rfl, below, fun filled => ?_⟩, ?_⟩
  · -- The last batch has a flush behind it.
    rcases List.eq_nil_or_concat' batches with rfl | ⟨earlier, last, rfl⟩
    · exact absurd rfl filled
    · have split : recording.calls.map SavefileCall.packet? =
          (earlier.flatMap (fun batch => batch.map some ++ [none]) ++ last.map some) ++
            none :: (rest.map some ++ if ended then [none] else []) := by
        rw [calls]
        simp
      obtain ⟨front, back, same, before, _⟩ := flush_at clean split
      have image : (earlier ++ [last]).flatten = Capture.written front := by
        rw [before, List.filterMap_append, filterMap_id_batches, filterMap_id_some]
        simp
      rw [image, same]
      exact lawful.since_flush front back (same ▸ clean)
  · rintro rfl
    obtain ⟨front, back, same, before, nothing⟩ := flush_at clean calls
    obtain rfl := List.map_eq_nil_iff.mp nothing
    have all : batches.flatten ++ rest = Capture.written front := by
      rw [before, List.filterMap_append, filterMap_id_batches, filterMap_id_some]
    rw [all, same]
    exact lawful.flushed front fun failed => clean (same ▸ List.mem_append_left _ failed)

end Recording

/-- The packet that the thread takes from the interface in its next action. -/
def readPacket (answer : Answer) (thread : CaptureThread) : Option Packet :=
  match thread.phase, answer.read with
  | .reading, .packet data len _ => some ⟨data, len⟩
  | _, _ => none

theorem readPacket_other {thread : CaptureThread} (other : thread.phase ≠ .reading) (answer : Answer) :
    readPacket answer thread = none := by
  unfold readPacket
  split
  · rename_i reading _
    exact absurd reading other
  · rfl

end Netmon.Capture
