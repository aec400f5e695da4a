import Netmon.Aggregator.RecordedTotals

/-! The account of a thread. What it has counted, its evicted generations included, is
what its records say. -/
namespace Netmon.Aggregator
open Library Capture Resolver

section Account
variable (direction : Direction) (key : ThreadKey)

/-- What an operation takes away with the thread. -/
def dropped (state : State) (op : Op) : List Nat :=
  if op.evictsThread key state then [threadTotal direction key state] else []

def droppedIn (start : State) (ops : List Op) : Nat := (observed step (dropped direction key) start ops).sum

theorem evictStaleThreads_account (now : ThreadKey → Instant) (state : State) :
    threadTotal direction key (evictStaleThreads now state) +
        (dropped direction key state (.evictStaleThreads now)).sum = threadTotal direction key state := by
  rw [dropped, Op.evictsThread, threadTotal, evictStaleThreads, HashMap.lookup_retain, threadTotal]
  cases state.statsByThread.lookup key with
  | none => rfl
  | some stats =>
    by_cases active : stillActive now key stats = true
    · have young : ¬elapsed (now key) stats.lastSeen > processEvictionTimeout :=
        Nat.not_lt.mpr (of_decide_eq_true active)
      rw [Option.filter_some, if_pos active]
      simp [young]
    · have stale : elapsed (now key) stats.lastSeen > processEvictionTimeout :=
        Nat.lt_of_not_le (of_decide_eq_false (Bool.not_eq_true _ ▸ active))
      rw [Option.filter_some, if_neg active]
      simp [stale]

theorem step_account (state : State) (op : Op)
    (fits : threadTotal direction key state + directionBytes direction (op.attributed key) < 2^64) :
    threadTotal direction key (step state op) + (dropped direction key state op).sum =
      threadTotal direction key state + directionBytes direction (op.attributed key) := by
  cases op with
  | processRecord record resolved connectionCache now connectionNow =>
    rw [directionBytes_attributed key direction] at fits ⊢
    rw [step, processRecord_threadTotal_saturates]
    split
    · rename_i own
      rw [if_pos own] at fits
      rw [saturatingAdd_exact fits]
      rfl
    · rfl
  | markExitedThreads resolves =>
    obtain ⟨f, threads, infos⟩ := markExitedThreads_infos resolves state
    have same : threadTotal direction key (step state (.markExitedThreads resolves)) = threadTotal direction key state := by
      apply mapValues_threadTotal threads
      intro stats
      obtain ⟨info, marked⟩ := infos key stats
      rw [marked]
      cases direction <;> rfl
    rw [same]
    rfl
  | evictStaleThreads now => exact evictStaleThreads_account direction key now state
  | pruneConnectionStats now => rfl
  | rotateHistoriesIfDue checked rotated =>
    have same : threadTotal direction key (step state (.rotateHistoriesIfDue checked rotated)) =
        threadTotal direction key state := by
      obtain ⟨_, early⟩ | ⟨_, peakBw, rotation⟩ := rotateHistoriesIfDue_cases checked rotated state
      · rw [step, early]
      · rw [step, rotation]
        have threads : (rotateInterfaceSecond { state with
            statsByThread := HashMap.mapValues (fun _ stats => stats.rotateSecond) state.statsByThread }).statsByThread =
              HashMap.mapValues (fun _ stats => ThreadStats.rotateSecond stats) state.statsByThread := rfl
        apply mapValues_threadTotal threads
        intro stats
        cases direction <;> rfl
    rw [same]
    rfl

theorem run_account (start : State) (ops : List Op)
    (fits : threadTotal direction key start + directionBytes direction (attributed key ops) < 2^64) :
    threadTotal direction key (run step start ops) + droppedIn direction key start ops =
      threadTotal direction key start + directionBytes direction (attributed key ops) := by
  induction ops generalizing start with
  | nil => rfl
  | cons op ops ih =>
    have split : directionBytes direction (attributed key (op :: ops)) =
        directionBytes direction (op.attributed key) + directionBytes direction (attributed key ops) := by
      rw [attributed, List.flatMap_cons, directionBytes_append, attributed]
    rw [split] at fits ⊢
    have first := step_account direction key start op (by omega)
    have rest := ih (step start op) (by omega)
    rw [run_cons, droppedIn, observed, List.sum_append]
    rw [droppedIn] at rest
    omega

end Account
end Netmon.Aggregator
