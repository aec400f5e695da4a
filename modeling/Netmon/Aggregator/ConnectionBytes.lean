import Netmon.Aggregator.Publish
import Netmon.Aggregator.Conservation

/-! The bytes of a connection: records are counted under a key that follows their
label, and a published connection shows the counters of one key only. -/
namespace Netmon.Aggregator
open Library Capture Resolver

def Op.attributed (thread : ThreadKey) : Op → List FlowRecord
  | .processRecord record resolved connectionCache _ _ =>
    if ownerKey (flowOwner record.key resolved connectionCache) = thread then [record] else []
  | _ => []

def attributed (thread : ThreadKey) (ops : List Op) : List FlowRecord := ops.flatMap (Op.attributed thread)

def bytesOf (records : List FlowRecord) : Nat := (records.map fun record => record.byteCount.toNat).sum

def between (first second : SocketAddr) (protocol : Protocol) (record : FlowRecord) : Bool :=
  decide (record.key.protocol = protocol ∧
    ((source record = first ∧ destination record = second) ∨ (source record = second ∧ destination record = first)))

/-- By its label, the record belongs to the connection with this local and this remote endpoint. -/
def labelled (near far : SocketAddr) (protocol : Protocol) (record : FlowRecord) : Bool :=
  decide (record.key.protocol = protocol ∧ localEnd record = near ∧ remoteEnd record = far)

theorem between_eq (first second : SocketAddr) (protocol : Protocol) (record : FlowRecord) :
    between first second protocol record =
      (labelled first second protocol record || labelled second first protocol record) := by
  rw [Bool.eq_iff_iff, Bool.or_eq_true]
  simp only [between, labelled, decide_eq_true_eq, ← and_or_left]
  apply and_congr_right
  intro _
  cases label : record.direction with
  | tx => simp only [localEnd, remoteEnd, label]
  | rx =>
    simp only [localEnd, remoteEnd, label]
    rw [or_comm, and_comm, and_comm (a := source record = first)]

theorem labelled_exclusive {first second : SocketAddr} (different : first ≠ second) (protocol : Protocol)
    (record : FlowRecord) (near : labelled first second protocol record = true) :
    labelled second first protocol record = false := by
  have isFirst := (of_decide_eq_true near).2.1
  apply decide_eq_false
  rintro ⟨_, isSecond, _⟩
  exact different (isFirst.symm.trans isSecond)

theorem bytesOf_append (first second : List FlowRecord) :
    bytesOf (first ++ second) = bytesOf first + bytesOf second := by
  simp [bytesOf]

theorem bytesOf_filter_or {p q : FlowRecord → Bool} (exclusive : ∀ record, p record = true → q record = false)
    (records : List FlowRecord) :
    bytesOf (records.filter fun record => p record || q record) =
      bytesOf (records.filter p) + bytesOf (records.filter q) := by
  induction records with
  | nil => rfl
  | cons record records ih =>
    simp only [bytesOf] at ih ⊢
    cases one : p record with
    | true => simp [one, exclusive record one, ih, Nat.add_assoc]
    | false => cases other : q record <;> simp [one, other, ih, Nat.add_left_comm]

theorem bytesOf_between {first second : SocketAddr} (different : first ≠ second) (protocol : Protocol)
    (records : List FlowRecord) :
    bytesOf (records.filter (between first second protocol)) =
      bytesOf (records.filter (labelled first second protocol)) +
        bytesOf (records.filter (labelled second first protocol)) := by
  rw [← bytesOf_filter_or (labelled_exclusive different protocol)]
  simp only [← between_eq]

theorem between_self (endpoint : SocketAddr) (protocol : Protocol) :
    between endpoint endpoint protocol = labelled endpoint endpoint protocol := by
  funext record
  rw [between_eq, Bool.or_self]

def Op.counted (key : ConnectionKey) (op : Op) : List FlowRecord :=
  (op.attributed key.thread).filter (labelled key.localAddr key.remoteAddr key.protocol)

def counted (key : ConnectionKey) (ops : List Op) : List FlowRecord :=
  (attributed key.thread ops).filter (labelled key.localAddr key.remoteAddr key.protocol)

theorem counted_cons (key : ConnectionKey) (op : Op) (ops : List Op) :
    counted key (op :: ops) = op.counted key ++ counted key ops := by
  simp [counted, attributed, Op.counted]

def ConnectionStats.bytes : Direction → ConnectionStats → Nat
  | .tx, stats => stats.txBytes
  | .rx, stats => stats.rxBytes

def directionBytes (direction : Direction) (records : List FlowRecord) : Nat :=
  bytesOf (records.filter fun record => decide (record.direction = direction))

theorem directionBytes_append (direction : Direction) (first second : List FlowRecord) :
    directionBytes direction (first ++ second) = directionBytes direction first + directionBytes direction second := by
  rw [directionBytes, List.filter_append, bytesOf_append, directionBytes, directionBytes]

theorem directionBytes_sum (records : List FlowRecord) :
    directionBytes .tx records + directionBytes .rx records = bytesOf records := by
  rw [directionBytes, directionBytes, ← bytesOf_filter_or]
  · congr 1
    apply List.filter_eq_self.mpr
    intro record _
    cases record.direction <;> rfl
  · intro record sent
    simp [of_decide_eq_true sent]

theorem recordedBytes_eq (direction : Direction) (ops : List Op) :
    recordedBytes direction ops = directionBytes direction (ops.filterMap Op.record?) := by
  induction ops with
  | nil => rfl
  | cons op ops ih =>
    rw [recordedBytes] at ih ⊢
    rw [List.map_cons, List.sum_cons, ih]
    cases op with
    | processRecord record resolved connectionCache now connectionNow =>
      by_cases label : record.direction = direction <;>
        simp [Op.bytes, Op.record?, directionBytes, bytesOf, label]
    | _ => exact Nat.zero_add _

/-- The counters of a key hold the records; without records there are no counters. -/
def Holds (key : ConnectionKey) (state : State) (records : List FlowRecord) : Prop :=
  match state.connectionStats.lookup key with
  | none => records = []
  | some stats => records ≠ [] ∧ ∀ direction, stats.bytes direction = directionBytes direction records

def isTx : Direction → Bool
  | .tx => true
  | .rx => false

def recordKey (info : ProcessInfo) (record : FlowRecord) : ConnectionKey :=
  ⟨info.pid, info.tid, localEnd record, remoteEnd record, record.key.protocol⟩

theorem connectionKey_eq (info : ProcessInfo) (record : FlowRecord) :
    connectionKey record.key info (isTx record.direction) = recordKey info record := by
  unfold recordKey localEnd remoteEnd
  cases record.direction <;> rfl

theorem recordKey_eq_iff (info : ProcessInfo) (record : FlowRecord) (key : ConnectionKey) :
    recordKey info record = key ↔ ownerKey info = key.thread ∧
      labelled key.localAddr key.remoteAddr key.protocol record = true := by
  obtain ⟨pid, tid, near, far, protocol⟩ := key
  simp only [recordKey, ownerKey, ConnectionKey.thread, labelled, decide_eq_true_eq, ThreadKey.mk.injEq,
    ConnectionKey.mk.injEq]
  constructor
  · rintro ⟨samePid, sameTid, sameNear, sameFar, sameProtocol⟩
    exact ⟨⟨samePid, sameTid⟩, sameProtocol, sameNear, sameFar⟩
  · rintro ⟨⟨samePid, sameTid⟩, sameProtocol, sameNear, sameFar⟩
    exact ⟨samePid, sameTid, sameNear, sameFar, sameProtocol⟩

theorem updateConnectionStats_eq (connectionStats : HashMap ConnectionKey ConnectionStats) (record : FlowRecord)
    (info : ProcessInfo) (bytes : Nat) (now : Instant) : ∃ entry,
    updateConnectionStats connectionStats record info bytes (isTx record.direction) now =
      connectionStats.insert (recordKey info record) entry ∧
    ∀ direction, entry.bytes direction =
      let old := (connectionStats.lookup (recordKey info record)).elim 0 (ConnectionStats.bytes direction)
      if record.direction = direction then saturatingAdd old bytes else old := by
  unfold updateConnectionStats
  rw [← connectionKey_eq]
  simp only
  generalize connectionKey record.key info (isTx record.direction) = key
  cases found : connectionStats.lookup key <;> cases label : record.direction <;>
    exact ⟨_, rfl, fun direction => by cases direction <;> rfl⟩

theorem processRecord_connectionStats (record : FlowRecord) (resolved : Option ProcessInfo)
    (connectionCache : List ResolvedConnection) (now connectionNow : Instant) (state : State) :
    (processRecord record resolved connectionCache now connectionNow state).connectionStats =
      updateConnectionStats state.connectionStats record (flowOwner record.key resolved connectionCache)
        record.byteCount.toNat (isTx record.direction) connectionNow := by
  unfold processRecord
  cases record.direction <;> rfl

def prunedBy (state : State) : Op → List ConnectionKey
  | .pruneConnectionStats now =>
    (HashMap.retain (fun key stats => !keepsConnection now state.statsByThread key stats)
      state.connectionStats).entries.map (·.1)
  | _ => []

def prunedIn : State → List Op → List ConnectionKey := observed step prunedBy

theorem Holds.elim_bytes {key : ConnectionKey} {state : State} {records : List FlowRecord}
    (holds : Holds key state records) (direction : Direction) :
    (state.connectionStats.lookup key).elim 0 (ConnectionStats.bytes direction) = directionBytes direction records := by
  rw [Holds] at holds
  cases found : state.connectionStats.lookup key with
  | none =>
    rw [found] at holds
    obtain rfl : records = [] := holds
    rfl
  | some stats =>
    rw [found] at holds
    exact holds.2 direction

theorem processRecord_holds {key : ConnectionKey} {state : State} {records : List FlowRecord}
    (holds : Holds key state records) (record : FlowRecord) (resolved : Option ProcessInfo)
    (connectionCache : List ResolvedConnection) (now connectionNow : Instant)
    (fits : ∀ direction, directionBytes direction (records ++
      (Op.processRecord record resolved connectionCache now connectionNow).counted key) < 2^64) :
    Holds key (processRecord record resolved connectionCache now connectionNow state)
      (records ++ (Op.processRecord record resolved connectionCache now connectionNow).counted key) := by
  obtain ⟨entry, inserted, counters⟩ := updateConnectionStats_eq state.connectionStats record
    (flowOwner record.key resolved connectionCache) record.byteCount.toNat connectionNow
  rw [Op.counted, Op.attributed] at fits ⊢
  rw [Holds, processRecord_connectionStats, inserted]
  by_cases same : recordKey (flowOwner record.key resolved connectionCache) record = key
  · obtain ⟨owner, label⟩ := (recordKey_eq_iff _ record key).mp same
    rw [if_pos owner, List.filter_cons_of_pos label, List.filter_nil] at fits ⊢
    rw [same, AList.lookup_insert]
    refine ⟨List.append_ne_nil_of_right_ne_nil _ (List.cons_ne_nil _ _), fun direction => ?_⟩
    have fits := fits direction
    rw [directionBytes_append] at fits ⊢
    rw [counters, same, holds.elim_bytes direction]
    simp only
    split
    · rename_i label
      have single : directionBytes direction [record] = record.byteCount.toNat := by
        simp [directionBytes, bytesOf, label]
      rw [single] at fits ⊢
      exact saturatingAdd_exact fits
    · rename_i label
      simp [directionBytes, bytesOf, label]
  · have uncounted : (if ownerKey (flowOwner record.key resolved connectionCache) = key.thread then [record]
        else []).filter (labelled key.localAddr key.remoteAddr key.protocol) = [] := by
      split
      · rename_i owner
        rw [recordKey_eq_iff, not_and] at same
        rw [List.filter_cons_of_neg (same owner), List.filter_nil]
      · rfl
    rw [uncounted, List.append_nil, AList.lookup_insert_ne (Ne.symm same)]
    exact holds

theorem pruneConnectionStats_lookup {now : ConnectionKey → Instant} {state : State} {key : ConnectionKey}
    (kept : key ∉ prunedBy state (.pruneConnectionStats now)) :
    (pruneConnectionStats now state).connectionStats.lookup key = state.connectionStats.lookup key := by
  rw [pruneConnectionStats, HashMap.lookup_retain]
  cases found : state.connectionStats.lookup key with
  | none => rfl
  | some stats =>
    rw [Option.filter_some_eq_some]
    by_contra dropped
    apply kept
    rw [prunedBy]
    have entry : ⟨key, stats⟩ ∈ (HashMap.retain (fun key stats => !keepsConnection now state.statsByThread key stats)
        state.connectionStats).entries := by
      rw [← HashMap.lookup_mem_entries, HashMap.lookup_retain, found]
      simpa using dropped
    exact List.mem_map_of_mem (f := fun entry => entry.1) entry

/-- An operation that does not prune the counters of a key adds its records to them. -/
theorem step_holds {key : ConnectionKey} {state : State} {records : List FlowRecord}
    (holds : Holds key state records) (op : Op) (kept : key ∉ prunedBy state op)
    (fits : ∀ direction, directionBytes direction (records ++ op.counted key) < 2^64) :
    Holds key (step state op) (records ++ op.counted key) := by
  have unchanged {after : State} (same : after.connectionStats.lookup key = state.connectionStats.lookup key) :
      Holds key after (records ++ []) := by
    rw [Holds, same, List.append_nil]
    exact holds
  cases op with
  | processRecord record resolved connectionCache now connectionNow =>
    exact processRecord_holds holds record resolved connectionCache now connectionNow fits
  | markExitedThreads resolves => exact unchanged rfl
  | evictStaleThreads now => exact unchanged rfl
  | pruneConnectionStats now => exact unchanged (pruneConnectionStats_lookup kept)
  | rotateHistoriesIfDue checked rotated =>
    rcases rotateHistoriesIfDue_cases checked rotated state with ⟨_, early⟩ | ⟨_, peakBw, rotation⟩
    · rw [step, early]
      exact unchanged rfl
    · rw [step, rotation]
      exact unchanged rfl

theorem run_holds {key : ConnectionKey} (start : State) (ops : List Op) (records : List FlowRecord)
    (holds : Holds key start records) (kept : key ∉ prunedIn start ops)
    (fits : ∀ direction, directionBytes direction (records ++ counted key ops) < 2^64) :
    Holds key (run step start ops) (records ++ counted key ops) := by
  induction ops generalizing start records with
  | nil =>
    have nothing : counted key [] = [] := rfl
    rw [nothing, List.append_nil]
    exact holds
  | cons op ops ih =>
    rw [counted_cons, ← List.append_assoc] at fits ⊢
    rw [prunedIn, observed, List.mem_append, not_or] at kept
    apply ih
    · apply step_holds holds op kept.1
      intro direction
      have all := fits direction
      rw [directionBytes_append] at all
      exact Nat.lt_of_le_of_lt (Nat.le_add_right _ _) all
    · exact kept.2
    · exact fits

/-- No counter of the key was pruned in the run, and none is saturated. -/
structure Intact (start : State) (ops : List Op) (key : ConnectionKey) : Prop where
  kept : key ∉ prunedIn start ops
  fits : ∀ direction, directionBytes direction (counted key ops) < 2^64

theorem Intact.holds {now : Instant} {ops : List Op} {key : ConnectionKey}
    (intact : Intact (State.initial now) ops key) : Holds key (run step (State.initial now) ops) (counted key ops) :=
  run_holds (State.initial now) ops [] rfl intact.kept intact.fits

theorem Holds.bytes {key : ConnectionKey} {state : State} {records : List FlowRecord}
    (holds : Holds key state records) {stats : ConnectionStats}
    (found : state.connectionStats.lookup key = some stats) :
    records ≠ [] ∧ stats.txBytes + stats.rxBytes = bytesOf records := by
  rw [Holds, found] at holds
  refine ⟨holds.1, ?_⟩
  rw [← directionBytes_sum, ← holds.2 .tx, ← holds.2 .rx]
  rfl

theorem Holds.none {key : ConnectionKey} {state : State} {records : List FlowRecord}
    (holds : Holds key state records) (absent : state.connectionStats.lookup key = none) : records = [] := by
  rwa [Holds, absent] at holds

/-- A published connection has the bytes counted under its own key, or else those under the reverse key. -/
theorem connectionBytes_sum {conn : ResolvedConnection} {state : State} {forward reverse : List FlowRecord}
    (own : Holds (statsKey conn) state forward) (other : Holds (reverseKey conn) state reverse) :
    (connectionBytes state.connectionStats conn).1 + (connectionBytes state.connectionStats conn).2 =
      if forward = [] then bytesOf reverse else bytesOf forward := by
  unfold connectionBytes
  cases found : state.connectionStats.lookup (statsKey conn) with
  | some stats =>
    obtain ⟨filled, sum⟩ := own.bytes found
    rw [if_neg filled]
    exact sum
  | none =>
    rw [if_pos (own.none found)]
    cases second : state.connectionStats.lookup (reverseKey conn) with
    | some stats => exact (Nat.add_comm _ _).trans (other.bytes second).2
    | none =>
      rw [other.none second]
      rfl

def connectionRecords (conn : ResolvedConnection) (ops : List Op) : List FlowRecord :=
  (attributed (connThread conn) ops).filter (between conn.localAddr conn.remoteAddr conn.protocol)

/-- The records carry one label only, or those labelled the other way no bytes. -/
def OneWay (conn : ResolvedConnection) (ops : List Op) : Prop :=
  conn.localAddr = conn.remoteAddr ∨ counted (statsKey conn) ops = [] ∨ bytesOf (counted (reverseKey conn) ops) = 0

theorem connectionBytes_iff {conn : ResolvedConnection} {now : Instant} {ops : List Op}
    (forward : Intact (State.initial now) ops (statsKey conn))
    (reverse : Intact (State.initial now) ops (reverseKey conn)) :
    (connectionBytes (run step (State.initial now) ops).connectionStats conn).1 +
        (connectionBytes (run step (State.initial now) ops).connectionStats conn).2 =
      bytesOf (connectionRecords conn ops) ↔ OneWay conn ops := by
  rw [connectionBytes_sum forward.holds reverse.holds, OneWay]
  by_cases same : conn.localAddr = conn.remoteAddr
  · have keys : reverseKey conn = statsKey conn := by simp only [reverseKey, statsKey, same]
    have all : connectionRecords conn ops = counted (statsKey conn) ops := by
      rw [connectionRecords, ← same, between_self, counted, statsKey, ← same]
      rfl
    rw [keys, all, ite_self]
    exact iff_of_true rfl (Or.inl same)
  · have parts : bytesOf (connectionRecords conn ops) =
        bytesOf (counted (statsKey conn) ops) + bytesOf (counted (reverseKey conn) ops) :=
      bytesOf_between same conn.protocol _
    rw [parts]
    split
    · rename_i none
      rw [none]
      exact iff_of_true (Nat.zero_add _).symm (Or.inr (Or.inl rfl))
    · rename_i some
      simp only [same, some, false_or]
      omega

def ConnectionEntry.Shows (entry : ConnectionEntry) (conn : ResolvedConnection) : Prop :=
  entry.pid = conn.pid ∧ entry.tid = conn.tid ∧ entry.localAddr = conn.localAddr ∧
    entry.remoteAddr = conn.remoteAddr ∧ entry.protocol = conn.protocol

theorem ConnectionEntry.Shows.bytes {entry : ConnectionEntry} {conn other : ResolvedConnection}
    {connectionStats : HashMap ConnectionKey ConnectionStats} (made : connectionEntry connectionStats other = entry)
    (shows : entry.Shows conn) : entry.txBytes + entry.rxBytes =
      (connectionBytes connectionStats conn).1 + (connectionBytes connectionStats conn).2 := by
  subst made
  obtain ⟨pid, tid, near, far, protocol⟩ := shows
  have forward : statsKey other = statsKey conn := by
    rw [statsKey, statsKey, ConnectionKey.mk.injEq]
    exact ⟨pid, tid, near, far, protocol⟩
  have reverse : reverseKey other = reverseKey conn := by
    rw [reverseKey, reverseKey, ConnectionKey.mk.injEq]
    exact ⟨pid, tid, far, near, protocol⟩
  have same : connectionBytes connectionStats other = connectionBytes connectionStats conn := by
    unfold connectionBytes
    rw [forward, reverse]
  rw [← same]
  rfl

/-- Every cached connection of a thread with a row is published, and its bytes are
those of all its records exactly when the records carry one label. -/
theorem publishSnapshots_bytes (now : Instant) (ops : List Op) (final : State)
    (threads : List ((_ : ThreadKey) × ThreadStats)) (connectionCache : List ResolvedConnection)
    (blocked : Finset Nat) (conn : ResolvedConnection) (ended : run step (State.initial now) ops = final)
    (order : threads.Perm final.statsByThread.entries) (cached : conn ∈ connectionCache)
    (live : (final.statsByThread.lookup (connThread conn)).isSome)
    (forward : Intact (State.initial now) ops (statsKey conn))
    (reverse : Intact (State.initial now) ops (reverseKey conn)) :
    (∃ row ∈ (publishSnapshots threads connectionCache blocked final).1, ∃ entry ∈ row.connections,
      entry.Shows conn) ∧
    ∀ row ∈ (publishSnapshots threads connectionCache blocked final).1, ∀ entry ∈ row.connections,
      entry.Shows conn →
        (entry.txBytes + entry.rxBytes = bytesOf (connectionRecords conn ops) ↔ OneWay conn ops) := by
  subst ended
  constructor
  · obtain ⟨stats, found⟩ := Option.isSome_iff_exists.mp live
    have owned : conn ∈ connectionCache.filter fun other => connThread other = connThread conn :=
      List.mem_filter.mpr ⟨cached, decide_eq_true rfl⟩
    exact ⟨_, (mem_publishSnapshots order).mpr ⟨connThread conn, stats, found, rfl⟩, _, List.mem_map_of_mem owned,
      rfl, rfl, rfl, rfl, rfl⟩
  · intro row member entry inside shows
    obtain ⟨key, stats, _, rfl⟩ := (mem_publishSnapshots order).mp member
    obtain ⟨other, _, made⟩ := List.mem_map.mp inside
    rw [shows.bytes made]
    exact connectionBytes_iff forward reverse

def curlConnection : ResolvedConnection where
  localAddr := clientAddr
  remoteAddr := serverAddr
  protocol := .tcp
  state := "ESTABLISHED".toList
  inode := 100
  pid := 5
  tid := 5
  process := curl.name
  threadName := curl.threadName
  uid := curl.uid
  username := curl.username

def exchange (requestLabel answerLabel : Direction) : List Op :=
  [.processRecord (tcpRecord clientAddr serverAddr 100 requestLabel) (some curl) [] 0 0,
    .processRecord (tcpRecord serverAddr clientAddr 50 answerLabel) (some curl) [] 0 0]

theorem intact_exchange (answerLabel : Direction) (key : ConnectionKey)
    (either : key = statsKey curlConnection ∨ key = reverseKey curlConnection) :
    Intact (State.initial 0) (exchange .tx answerLabel) key where
  kept := List.not_mem_nil
  fits direction := by
    rcases either with rfl | rfl <;> cases answerLabel <;> cases direction <;> decide

theorem publishSnapshots_bytes_exchange :
    (∃ row ∈ (publishSnapshots (run step (State.initial 0) (exchange .tx .rx)).statsByThread.entries [curlConnection] ∅
        (run step (State.initial 0) (exchange .tx .rx))).1, ∃ entry ∈ row.connections, entry.Shows curlConnection) ∧
    ∀ row ∈ (publishSnapshots (run step (State.initial 0) (exchange .tx .rx)).statsByThread.entries [curlConnection] ∅
        (run step (State.initial 0) (exchange .tx .rx))).1, ∀ entry ∈ row.connections, entry.Shows curlConnection →
      (entry.txBytes + entry.rxBytes = bytesOf (connectionRecords curlConnection (exchange .tx .rx)) ↔
        OneWay curlConnection (exchange .tx .rx)) :=
  publishSnapshots_bytes 0 (exchange .tx .rx) _ _ [curlConnection] ∅ curlConnection rfl (List.Perm.refl _)
    (List.mem_singleton.mpr rfl) (by decide) (intact_exchange .rx _ (Or.inl rfl)) (intact_exchange .rx _ (Or.inr rfl))

/-- With both records labelled as sent, the answer is missing from the published connection. -/
theorem publishSnapshots_loses_answer :
    Intact (State.initial 0) (exchange .tx .tx) (statsKey curlConnection) ∧
    Intact (State.initial 0) (exchange .tx .tx) (reverseKey curlConnection) ∧
    bytesOf (connectionRecords curlConnection (exchange .tx .tx)) = 150 ∧
    ∃ row ∈ (publishSnapshots (run step (State.initial 0) (exchange .tx .tx)).statsByThread.entries [curlConnection] ∅
        (run step (State.initial 0) (exchange .tx .tx))).1, ∃ entry ∈ row.connections,
      entry.localAddr = clientAddr ∧ entry.remoteAddr = serverAddr ∧ entry.txBytes = 100 ∧ entry.rxBytes = 0 :=
  ⟨intact_exchange .tx _ (Or.inl rfl), intact_exchange .tx _ (Or.inr rfl), by decide, by decide +kernel⟩

end Netmon.Aggregator
