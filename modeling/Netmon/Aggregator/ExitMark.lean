import Netmon.Aggregator.Owners
import Netmon.Aggregator.Attribution

/-! The mark of an exited process, against the sockets that the resolver has cached. A
pass sets the mark and only a later record of the thread takes it away. -/
namespace Netmon.Aggregator
open Library Capture Resolver

/-- What the call of `process_by_pid` for each visited thread is given. -/
structure ExitPass where
  outside : ThreadKey → Outside
  order : ThreadKey → HashMap.Iteration Nat ProcessInfo

def ExitPass.resolves (pass : ExitPass) (cache : ResolverCache) (key : ThreadKey) : Bool :=
  match processByPid (pass.outside key) (pass.order key) key.pid cache with
  | .ok answer _ => answer.isSome
  | .error .. => false

/-- No refresh falls due during the pass, so that every call leaves the cache as it is. -/
def ExitPass.Quiet (pass : ExitPass) (cache : ResolverCache) : Prop :=
  ∀ key, isFresh cache (pass.outside key).checked = true

/-- Some cached socket belongs to the process. -/
def OwnsSocket (cache : ResolverCache) (pid : Nat) : Prop :=
  ∃ entry ∈ HashMap.values cache.socketEntries, ∃ info,
    cache.inodeToProcess.lookup entry.inode = some info ∧ info.pid = pid

theorem processByPid_eq {outside : Outside} {before cache : ResolverCache} (walks : Walks outside before cache)
    (order : HashMap.Iteration Nat ProcessInfo) (pid : Nat) :
    processByPid outside order pid before =
      .ok ((order.values cache.inodeToProcess).find? fun info => info.pid == pid) cache := by
  simp only [processByPid, bind, EStateM.bind]
  rw [walks]
  rfl

/-- A value of the second map is the owner of a cached socket, and the other way round. -/
theorem ownsSocket_iff {cache : ResolverCache} (coherent : Coherent cache) (pid : Nat) :
    OwnsSocket cache pid ↔ ∃ info ∈ HashMap.values cache.inodeToProcess, info.pid = pid := by
  constructor
  · rintro ⟨entry, _, info, owned, same⟩
    exact ⟨info, HashMap.mem_values.mpr ⟨entry.inode, owned⟩, same⟩
  · rintro ⟨info, listed, same⟩
    obtain ⟨inode, owned⟩ := HashMap.mem_values.mp listed
    have joined : inode ∈ cache.inodeToProcess := by
      rw [← AList.lookup_isSome, owned]
      rfl
    obtain ⟨entry, stored⟩ := Option.isSome_iff_exists.mp (AList.lookup_isSome.mpr ((coherent.keys inode).mp joined))
    refine ⟨entry, HashMap.mem_values.mpr ⟨inode, stored⟩, info, ?_, same⟩
    rw [coherent.ownInode inode entry stored]
    exact owned

theorem ExitPass.resolves_iff {pass : ExitPass} {cache : ResolverCache} (coherent : Coherent cache)
    (quiet : pass.Quiet cache) (key : ThreadKey) : pass.resolves cache key = true ↔ OwnsSocket cache key.pid := by
  rw [ExitPass.resolves, processByPid_eq (walks_of_fresh (quiet key)), ownsSocket_iff coherent]
  apply List.find?_isSome.trans
  apply exists_congr
  intro info
  rw [((pass.order key).values_perm cache.inodeToProcess).mem_iff, beq_iff_eq]

section Truth
variable (cache : ResolverCache) (ops : List Op) (state : State)

/-- Every row of a process whose own name has no mark shows that name with at most one mark, and has it exactly when the
process owns no cached socket. -/
def TruthfulMarks : Prop :=
  ∀ key stats owner, state.statsByThread.lookup key = some stats → key.pid ≠ 0 → latestOwner key ops = some owner →
    ¬exitedSuffix <:+ owner.name →
      (stats.info.name = owner.name ∨ stats.info.name = owner.name ++ exitedSuffix) ∧
      (exitedSuffix <:+ stats.info.name ↔ ¬OwnsSocket cache stats.info.pid)

/-- No row is still marked by an earlier pass though its process owns a cached socket. -/
def NoneReturned : Prop :=
  ∀ key stats owner, state.statsByThread.lookup key = some stats → key.pid ≠ 0 → latestOwner key ops = some owner →
    ¬exitedSuffix <:+ owner.name → exitedSuffix <:+ stats.info.name → ¬OwnsSocket cache key.pid

end Truth

theorem ShowsOwner.name {owner shown : ProcessInfo} (shows : ShowsOwner owner shown) :
    shown.name = owner.name ∨ shown.name = owner.name ++ exitedSuffix := by
  rcases shows with rfl | ⟨_, rfl⟩
  · exact Or.inl rfl
  · exact Or.inr rfl

/-- What a quiet pass leaves in an entry: the mark stays, and is set where the process owns no socket. -/
theorem marked_after {pass : ExitPass} {cache : ResolverCache} (coherent : Coherent cache) (quiet : pass.Quiet cache)
    {key : ThreadKey} (process : key.pid ≠ 0) (info : ProcessInfo) :
    exitedSuffix <:+ (shownAfter (pass.resolves cache key) key info).name ↔
      exitedSuffix <:+ info.name ∨ ¬OwnsSocket cache key.pid := by
  by_cases already : exitedSuffix <:+ info.name
  · rw [shownAfter_kept _ (Or.inr (Or.inr already))]
    exact ⟨Or.inl, fun _ => already⟩
  · rw [← ExitPass.resolves_iff coherent quiet key]
    cases answer : pass.resolves cache key with
    | true =>
      rw [shownAfter_kept true (Or.inr (Or.inl rfl))]
      simp [already]
    | false =>
      rw [shownAfter_marked process already]
      simp [markedExited, List.suffix_append]

/-- Directly after a quiet pass the marks are true exactly when no row was still marked whose process owns a socket. -/
theorem exit_mark_truthful_iff (now : Instant) (ops : List Op) (uidMap : UidMap) (start : Int) (calls : List Call)
    (pass : ExitPass) (quiet : pass.Quiet (run Resolver.step (.empty uidMap start) calls)) :
    let cache := run Resolver.step (.empty uidMap start) calls
    let marking := [Op.markExitedThreads (pass.resolves cache)]
    TruthfulMarks cache (ops ++ marking) (run step (.initial now) (ops ++ marking)) ↔
      NoneReturned cache ops (run step (.initial now) ops) := by
  intro cache marking
  have coherent : Coherent cache := (run_coherent uidMap start calls).1
  have latest (key : ThreadKey) : latestOwner key (ops ++ marking) = latestOwner key ops := latestOwner_unrecorded rfl key ops
  have marked (key : ThreadKey) : (run step (.initial now) (ops ++ marking)).statsByThread.lookup key =
      ((run step (.initial now) ops).statsByThread.lookup key).map fun stats =>
        { stats with info := shownAfter (pass.resolves cache key) key stats.info } := by
    rw [run_append]
    exact lookup_markExitedThreads (pass.resolves cache) (run step (.initial now) ops) key
  constructor
  · intro truthful key stats owner stored process recorded plain still owns
    have found := marked key
    rw [stored, Option.map_some, shownAfter_kept _ (Or.inr (Or.inr still))] at found
    have shown : ownerKey stats.info = key := run_keyed now ops stored
    have mark := (truthful key stats owner found process ((latest key).trans recorded) plain).2.mp still
    rw [show stats.info.pid = key.pid from congrArg ThreadKey.pid shown] at mark
    exact mark owns
  · intro none key stats owner found process recorded plain
    have shown : ownerKey stats.info = key := run_keyed now (ops ++ marking) found
    obtain ⟨named, sameName, shows⟩ := run_named now (ops ++ marking) key stats found
    obtain rfl : named = owner := Option.some.inj (sameName.symm.trans recorded)
    refine ⟨shows.name, ?_⟩
    rw [marked, Option.map_eq_some_iff] at found
    obtain ⟨before, stored, rfl⟩ := found
    rw [show (shownAfter (pass.resolves cache key) key before.info).pid = key.pid from congrArg ThreadKey.pid shown,
      marked_after coherent quiet process before.info]
    rw [latest] at recorded
    exact ⟨fun either => either.elim (none key before named stored process recorded plain) id, Or.inr⟩

def outsideAt (sockets : List KernelSocket) (time : Int) : Outside :=
  { outsideOf sockets loopbackProc with
    checked := time
    refreshed := time }

/-- The only socket of a process is there, then gone, then there again, each seen by a refresh. -/
def returningCalls : List Call :=
  [.refreshIfNeeded (outsideAt [ownedSocket] 0), .refreshIfNeeded (outsideAt [] (10^9)),
    .refreshIfNeeded (outsideAt [ownedSocket] (2 * 10^9))]

abbrev returningCache (count : Nat) : ResolverCache := run Resolver.step (.empty ∅ 0) (returningCalls.take count)

/-- What a refresh leaves when the files list these sockets. -/
def listedCache (sockets : List KernelSocket) (time : Int) : ResolverCache :=
  (ResolverCache.empty ∅ 0).installed (outsideAt sockets time) (HashMap.insertAll (writes SocketEntry.asFallback sockets) ∅)

theorem step_outsideAt {cache : ResolverCache} (users : cache.uidMap = ∅) {time : Int} (stale : isFresh cache time = false)
    {sockets : List KernelSocket} (few : sockets.length ≤ 1) :
    Resolver.step cache (.refreshIfNeeded (outsideAt sockets time)) = listedCache sockets time := by
  have shows : (outsideAt sockets time).Shows sockets :=
    ⟨by simp [outsideAt, outsideOf, querySockets], ⟨plainProcNet sockets⟩⟩
  obtain ⟨order, listed, inodes⟩ := socketInodes_shown shows
  obtain rfl : order = sockets := by
    cases sockets with
    | nil => exact List.perm_nil.mp listed
    | cons socket rest =>
      obtain rfl : rest = [] := List.length_eq_zero_iff.mp (Nat.le_zero.mp (Nat.le_of_succ_le_succ few))
      exact List.perm_singleton.mp listed
  have old : ¬isFresh cache (outsideAt order time).checked = true := ne_true_of_eq_false stale
  rw [Resolver.step, finalState_refreshIfNeeded, if_neg old, finalState_refresh, inodes]
  simp only [listedCache, ResolverCache.installed, users]
  rfl

theorem returningCache_first : returningCache 1 = listedCache [ownedSocket] 0 := by
  have taken : returningCalls.take 1 = [.refreshIfNeeded (outsideAt [ownedSocket] 0)] := rfl
  have stale : isFresh (.empty ∅ 0) 0 = false := by decide
  rw [returningCache, taken, run_cons, run_nil]
  exact step_outsideAt rfl stale (Nat.le_refl 1)

theorem returningCache_second : returningCache 2 = listedCache [] (10^9) := by
  have taken : returningCalls.take 2 = returningCalls.take 1 ++ [.refreshIfNeeded (outsideAt [] (10^9))] := rfl
  have stale : isFresh (listedCache [ownedSocket] 0) (10^9) = false := by decide
  rw [returningCache, taken, run_append, run_cons, run_nil, show run Resolver.step _ _ = _ from returningCache_first]
  exact step_outsideAt rfl stale (Nat.zero_le 1)

theorem returningCache_third : returningCache 3 = listedCache [ownedSocket] (2 * 10^9) := by
  have taken : returningCalls.take 3 =
      returningCalls.take 2 ++ [.refreshIfNeeded (outsideAt [ownedSocket] (2 * 10^9))] := rfl
  have stale : isFresh (listedCache [] (10^9)) (2 * 10^9) = false := by decide
  rw [returningCache, taken, run_append, run_cons, run_nil, show run Resolver.step _ _ = _ from returningCache_second]
  exact step_outsideAt rfl stale (Nat.le_refl 1)

theorem returningCache_fresh : isFresh (returningCache 2) (10^9) = true := by
  rw [returningCache_second]
  decide

def quietPass (time : Int) : ExitPass := ⟨fun _ => outsideAt [] time, fun _ => .plain⟩

def curlThread : ProcessInfo := ⟨10, 10, "curl".toList, "curl".toList, 1000, unknownLabel⟩

def curlRecorded : List Op := [.processRecord ownedRecord (some curlThread) [] 0 0]

theorem exit_mark_truthful_iff_gone :
    let marking := [Op.markExitedThreads ((quietPass (10^9)).resolves (returningCache 2))]
    TruthfulMarks (returningCache 2) (curlRecorded ++ marking) (run step (.initial 0) (curlRecorded ++ marking)) ↔
      NoneReturned (returningCache 2) curlRecorded (run step (.initial 0) curlRecorded) := by
  apply exit_mark_truthful_iff 0 curlRecorded ∅ 0 (returningCalls.take 2) (quietPass (10^9))
  intro key
  exact returningCache_fresh

/-- The mark outlives the return of the socket: the owner of the record is the resolver's, both passes are quiet, and the
row is still marked after the second of them. -/
theorem exit_mark_outlives_return :
    let first := Op.markExitedThreads ((quietPass (10^9)).resolves (returningCache 2))
    let second := Op.markExitedThreads ((quietPass (2 * 10^9)).resolves (returningCache 3))
    let ops := curlRecorded ++ [first, second]
    resolveFlowOwner (outsideAt [] 0) .plain ownedRecord.key (returningCache 1) = .ok (some curlThread) (returningCache 1) ∧
      (quietPass (10^9)).Quiet (returningCache 2) ∧ (quietPass (2 * 10^9)).Quiet (returningCache 3) ∧
      OwnsSocket (returningCache 3) 10 ∧
      ((run step (.initial 0) ops).statsByThread.lookup ⟨10, 10⟩).map (·.info.name) = some "curl [exited]".toList ∧
      ¬TruthfulMarks (returningCache 3) ops (run step (.initial 0) ops) := by
  intro first second ops
  have owns : OwnsSocket (returningCache 3) 10 := by
    rw [returningCache_third]
    exact ⟨ownedSocket.entry.asFallback, by decide +kernel, curlThread, by decide +kernel, rfl⟩
  have shown : ((run step (.initial 0) ops).statsByThread.lookup ⟨10, 10⟩).map (·.info.name) =
      some "curl [exited]".toList := by
    simp only [ops, first, second, returningCache_second, returningCache_third]
    decide +kernel
  have fresh : isFresh (returningCache 1) (outsideAt [] 0).checked = true := by
    rw [returningCache_first]
    decide
  have owner : ownerAmong (returningCache 1).inodeToProcess ownedRecord.key
      (HashMap.Iteration.plain.values (returningCache 1).socketEntries) = some curlThread := by
    rw [returningCache_first]
    decide +kernel
  refine ⟨?_, ?_, ?_, owns, shown, ?_⟩
  · rw [resolveFlowOwner_eq (walks_of_fresh fresh), owner]
  · intro key
    exact returningCache_fresh
  · intro key
    rw [returningCache_third]
    exact (by decide : isFresh (listedCache [ownedSocket] (2 * 10^9)) (2 * 10^9) = true)
  · intro truthful
    obtain ⟨stats, stored, name⟩ := Option.map_eq_some_iff.mp shown
    have unmarked := (truthful ⟨10, 10⟩ stats curlThread stored (by decide) (by decide +kernel) (by decide)).2.mp
      (name ▸ (by decide : exitedSuffix <:+ "curl [exited]".toList))
    have pid : stats.info.pid = 10 := congrArg ThreadKey.pid (run_keyed 0 ops stored)
    exact unmarked (pid ▸ owns)

end Netmon.Aggregator
