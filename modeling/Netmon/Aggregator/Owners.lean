import Netmon.Aggregator.Conservation

/-! Whom a thread's entry names: the owner that its latest record was attributed to, with at
most the mark of an exited process behind the name. -/
namespace Netmon.Aggregator
open Library Capture Resolver

def Op.owner? : Op → Option ProcessInfo
  | .processRecord record resolved connectionCache .. => some (flowOwner record.key resolved connectionCache)
  | _ => none

/-- The owner, as the resolver gave it, of the latest record of a thread. -/
def latestOwner (key : ThreadKey) (ops : List Op) : Option ProcessInfo :=
  ((ops.filterMap Op.owner?).filter fun info => ownerKey info = key).getLast?

def markedExited (info : ProcessInfo) : ProcessInfo := { info with name := info.name ++ exitedSuffix }

/-- An entry shows its owner, or its owner with one mark. -/
def ShowsOwner (owner shown : ProcessInfo) : Prop :=
  shown = owner ∨ (¬exitedSuffix <:+ owner.name ∧ shown = markedExited owner)

theorem ShowsOwner.key {owner shown : ProcessInfo} (shows : ShowsOwner owner shown) : ownerKey shown = ownerKey owner := by
  rcases shows with rfl | ⟨_, rfl⟩ <;> rfl

theorem latestOwner_key {key : ThreadKey} {ops : List Op} {owner : ProcessInfo} (latest : latestOwner key ops = some owner) :
    ownerKey owner = key :=
  of_decide_eq_true (List.mem_filter.mp (List.mem_of_getLast? latest)).2

theorem latestOwner_recorded {op : Op} {owner : ProcessInfo} (recorded : op.owner? = some owner) (key : ThreadKey)
    (ops : List Op) :
    latestOwner key (ops ++ [op]) = if ownerKey owner = key then some owner else latestOwner key ops := by
  rw [latestOwner, List.filterMap_append, List.filterMap_cons_some recorded, List.filterMap_nil, List.filter_append]
  split
  · rename_i same
    rw [List.filter_cons_of_pos (by simpa using same), List.filter_nil, List.getLast?_concat]
  · rename_i other
    rw [List.filter_cons_of_neg (by simpa using other), List.filter_nil, List.append_nil, latestOwner]

theorem latestOwner_unrecorded {op : Op} (unrecorded : op.owner? = none) (key : ThreadKey) (ops : List Op) :
    latestOwner key (ops ++ [op]) = latestOwner key ops := by
  rw [latestOwner, List.filterMap_append, List.filterMap_cons_none unrecorded, List.filterMap_nil, List.append_nil,
    latestOwner]

/-- What the pass over the threads makes of one entry. -/
def shownAfter (resolves : Bool) (key : ThreadKey) (info : ProcessInfo) : ProcessInfo :=
  if key.pid = 0 then info
  else if !resolves && !exitedSuffix.isSuffixOf info.name then markedExited info
  else info

theorem lookup_markExitedThreads (resolves : ThreadKey → Bool) (state : State) (key : ThreadKey) :
    (markExitedThreads resolves state).statsByThread.lookup key =
      (state.statsByThread.lookup key).map fun stats =>
        { stats with info := shownAfter (resolves key) key stats.info } := by
  rw [markExitedThreads, HashMap.lookup_mapValues]
  apply congrArg fun change => Option.map change (state.statsByThread.lookup key)
  funext stats
  unfold shownAfter
  split
  · rfl
  · split <;> rfl

theorem shownAfter_kept (resolves : Bool) {key : ThreadKey} {info : ProcessInfo}
    (kept : key.pid = 0 ∨ resolves = true ∨ exitedSuffix <:+ info.name) : shownAfter resolves key info = info := by
  unfold shownAfter
  rcases kept with unknown | known | marked
  · rw [if_pos unknown]
  · simp [known]
  · have suffix : exitedSuffix.isSuffixOf info.name = true := List.isSuffixOf_iff_suffix.mpr marked
    simp [suffix]

theorem shownAfter_marked {key : ThreadKey} {info : ProcessInfo} (process : key.pid ≠ 0)
    (unmarked : ¬exitedSuffix <:+ info.name) : shownAfter false key info = markedExited info := by
  have suffix : exitedSuffix.isSuffixOf info.name = false := by
    rw [← Bool.not_eq_true, List.isSuffixOf_iff_suffix]
    exact unmarked
  simp [shownAfter, process, suffix]

theorem ShowsOwner.shownAfter {owner shown : ProcessInfo} (shows : ShowsOwner owner shown) (resolves : Bool)
    (key : ThreadKey) : ShowsOwner owner (shownAfter resolves key shown) := by
  by_cases kept : key.pid = 0 ∨ resolves = true ∨ exitedSuffix <:+ shown.name
  · rw [shownAfter_kept resolves kept]
    exact shows
  · simp only [not_or, Bool.not_eq_true] at kept
    obtain ⟨process, rfl, unmarked⟩ := kept
    rw [shownAfter_marked process unmarked]
    rcases shows with rfl | ⟨_, rfl⟩
    · exact Or.inr ⟨unmarked, rfl⟩
    · exact absurd (List.suffix_append _ _) unmarked

/-- Every live thread has had a record, and shows the owner of the latest one. -/
def Named (ops : List Op) (state : State) : Prop :=
  ∀ key stats, state.statsByThread.lookup key = some stats →
    ∃ owner, latestOwner key ops = some owner ∧ ShowsOwner owner stats.info

theorem Named.of_infos {ops : List Op} {state after : State} {op : Op} (named : Named ops state) (unrecorded : op.owner? = none)
    (infos : ∀ key stats, after.statsByThread.lookup key = some stats →
      ∃ before, state.statsByThread.lookup key = some before ∧ stats.info = before.info) : Named (ops ++ [op]) after := by
  intro key stats found
  obtain ⟨before, stored, same⟩ := infos key stats found
  rw [latestOwner_unrecorded unrecorded, same]
  exact named key before stored

theorem Named.step {ops : List Op} {state : State} (named : Named ops state) (op : Op) :
    Named (ops ++ [op]) (step state op) := by
  cases op with
  | processRecord record resolved connectionCache now connectionNow =>
    obtain ⟨entry, inserted, info, _⟩ := processRecord_entry record resolved connectionCache now connectionNow state .tx
    intro key stats found
    rw [Aggregator.step, inserted] at found
    rw [latestOwner_recorded rfl]
    by_cases same : ownerKey (flowOwner record.key resolved connectionCache) = key
    · rw [if_pos same]
      rw [← same, AList.lookup_insert] at found
      cases found
      exact ⟨_, rfl, Or.inl info⟩
    · rw [if_neg same]
      rw [AList.lookup_insert_ne (Ne.symm same)] at found
      exact named key stats found
  | markExitedThreads resolves =>
    intro key stats found
    rw [Aggregator.step, lookup_markExitedThreads, Option.map_eq_some_iff] at found
    obtain ⟨before, stored, rfl⟩ := found
    obtain ⟨owner, latest, shows⟩ := named key before stored
    exact ⟨owner, (latestOwner_unrecorded rfl key ops).trans latest, shows.shownAfter (resolves key) key⟩
  | evictStaleThreads now =>
    exact named.of_infos rfl fun key stats found => ⟨stats, (evictStaleThreads_kept found).1, rfl⟩
  | pruneConnectionStats now => exact named.of_infos rfl fun key stats found => ⟨stats, found, rfl⟩
  | rotateHistoriesIfDue checked rotated =>
    apply named.of_infos rfl
    intro key stats found
    rw [Aggregator.step] at found
    rcases rotateHistoriesIfDue_cases checked rotated state with ⟨_, early⟩ | ⟨_, peakBw, rotation⟩
    · rw [early] at found
      exact ⟨stats, found, rfl⟩
    · rw [rotation] at found
      have moved := (HashMap.lookup_mapValues (fun _ stats => ThreadStats.rotateSecond stats) state.statsByThread key).symm
      obtain ⟨before, stored, rfl⟩ := Option.map_eq_some_iff.mp (moved.trans found)
      exact ⟨before, stored, rfl⟩

theorem run_named (now : Instant) (ops : List Op) : Named ops (run step (.initial now) ops) := by
  induction ops using List.reverseRecOn with
  | nil =>
    intro key stats found
    cases found
  | append_singleton ops op ih =>
    rw [run_append]
    exact ih.step op

theorem run_keyed (now : Instant) (ops : List Op) {key : ThreadKey} {stats : ThreadStats}
    (found : (run step (.initial now) ops).statsByThread.lookup key = some stats) : ownerKey stats.info = key := by
  obtain ⟨owner, latest, shows⟩ := run_named now ops key stats found
  exact shows.key.trans (latestOwner_key latest)

end Netmon.Aggregator
