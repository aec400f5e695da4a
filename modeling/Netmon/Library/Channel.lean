import Netmon.Library.Run

/-! A bounded channel: a queue that never holds more than its capacity, and what goes
through it in a run. -/
namespace Netmon.Library

structure Channel (α : Type) (capacity : Nat) where
  queue : List α
  bounded : queue.length ≤ capacity

namespace Channel
variable {α : Type} {capacity : Nat}

def empty : Channel α capacity := ⟨[], Nat.zero_le capacity⟩

theorem length_append_le {queue : List α} (room : queue.length < capacity) (value : α) :
    (queue ++ [value]).length ≤ capacity := by
  rw [List.length_append, List.length_singleton]
  exact room

/-- Refused while the channel is full. -/
def send? (value : α) (channel : Channel α capacity) : Option (Channel α capacity) :=
  if room : channel.queue.length < capacity then some ⟨channel.queue ++ [value], length_append_le room value⟩
  else none

theorem length_tail_le (channel : Channel α capacity) : channel.queue.tail.length ≤ capacity := by
  rw [List.length_tail]
  exact Nat.le_trans (Nat.sub_le _ _) channel.bounded

def front? (channel : Channel α capacity) : Option α := channel.queue.head?

/-- The channel without its front. -/
def rest (channel : Channel α capacity) : Channel α capacity := ⟨channel.queue.tail, channel.length_tail_le⟩

variable {channel later : Channel α capacity} {value : α}

theorem send?_some (accepted : channel.send? value = some later) : later.queue = channel.queue ++ [value] := by
  unfold send? at accepted
  split at accepted
  · cases accepted
    rfl
  · cases accepted

theorem send?_none : channel.send? value = none ↔ channel.queue.length = capacity := by
  have bounded := channel.bounded
  unfold send?
  split
  · simp only [reduceCtorEq, false_iff]
    omega
  · simp only [true_iff]
    omega

theorem front?_rest (front : channel.front? = some value) : channel.queue = value :: channel.rest.queue := by
  obtain ⟨rest, queue⟩ := List.head?_eq_some_iff.mp front
  have tail : channel.rest.queue = rest := congrArg List.tail queue
  rw [tail, queue]

end Channel

section Traffic
variable {σ ι α : Type} {step : σ → ι → σ} {queue : σ → List α} {sends receives : σ → ι → List α}

/-- Where each step takes from the front of a queue and adds at its end, all that was ever received, and then the
queue, is all that was ever sent. -/
theorem run_fifo
    (each : ∀ state input, queue state ++ sends state input = receives state input ++ queue (step state input))
    (start : σ) (inputs : List ι) :
    queue start ++ observed step sends start inputs =
      observed step receives start inputs ++ queue (run step start inputs) := by
  induction inputs generalizing start with
  | nil => simp [observed]
  | cons input inputs ih =>
    rw [observed, observed, run_cons, ← List.append_assoc, each, List.append_assoc, ih, List.append_assoc]

end Traffic
end Netmon.Library
