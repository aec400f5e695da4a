import Netmon.Resolver.Coherence
import Netmon.Resolver.Rendering

/-! The times at which the resolver enumerates the sockets. The age of the cache keeps two
enumerations apart when the first of them succeeds, and nothing does when it fails. -/
namespace Netmon.Resolver
open Library

/-- A call with the time at which its enumeration starts, if it makes one. -/
structure TimedCall where
  call : Call
  started : Int

def TimedCall.checked (timed : TimedCall) : Int := timed.call.outside.checked

def TimedCall.refreshed (timed : TimedCall) : Int := timed.call.outside.refreshed

/-- Not `refresh` itself, which is called with no test of the age. -/
def Call.gated : Call → Bool
  | .refresh _ => false
  | _ => true

/-- Calls of one resolver that do not overlap, on a clock that does not run backwards. -/
structure OnClock (calls : List TimedCall) : Prop where
  gated : ∀ timed ∈ calls, timed.call.gated = true
  within : ∀ timed ∈ calls, timed.checked ≤ timed.started ∧ timed.started ≤ timed.refreshed
  onward : calls.Pairwise fun earlier later => earlier.refreshed ≤ later.checked

def stepTimed (cache : ResolverCache) (timed : TimedCall) : ResolverCache := step cache timed.call

def scanStart (cache : ResolverCache) (timed : TimedCall) : List Int :=
  if timed.call.attempts cache then [timed.started] else []

/-- The start of an enumeration for which neither source has an answer. -/
def failedStart (cache : ResolverCache) (timed : TimedCall) : List Int :=
  match socketInodes timed.call.outside with
  | .ok _ => []
  | .error _ => scanStart cache timed

section Starts
variable (cache : ResolverCache) (calls : List TimedCall)

def scanStarts : List Int := observed stepTimed scanStart cache calls

def failedStarts : List Int := observed stepTimed failedStart cache calls

theorem scanStarts_append (timed : TimedCall) :
    scanStarts cache (calls ++ [timed]) = scanStarts cache calls ++ scanStart (run stepTimed cache calls) timed := by
  rw [scanStarts, observed_append, observed, observed, List.append_nil, scanStarts]

theorem failedStarts_append (timed : TimedCall) :
    failedStarts cache (calls ++ [timed]) = failedStarts cache calls ++ failedStart (run stepTimed cache calls) timed := by
  rw [failedStarts, observed_append, observed, observed, List.append_nil, failedStarts]

end Starts

/-- Every two enumerations start a refresh period apart. -/
def Spread (starts : List Int) : Prop := starts.Pairwise fun earlier later => earlier + resolverRefreshPeriod ≤ later

/-- No call starts within a refresh period of an enumeration that failed. -/
def Patient (cache : ResolverCache) (calls : List TimedCall) : Prop :=
  ∀ done timed, done ++ [timed] <+: calls → ∀ failed ∈ failedStarts cache done,
    failed + resolverRefreshPeriod ≤ timed.started

theorem patient_append {cache : ResolverCache} {calls : List TimedCall} {timed : TimedCall} :
    Patient cache (calls ++ [timed]) ↔
      Patient cache calls ∧ ∀ failed ∈ failedStarts cache calls, failed + resolverRefreshPeriod ≤ timed.started := by
  constructor
  · intro patient
    exact ⟨fun done other front => patient done other (front.trans (List.prefix_append calls [timed])),
      patient calls timed (List.prefix_refl _)⟩
  · rintro ⟨patient, last⟩ done other front
    rcases List.prefix_concat_iff.mp front with whole | earlier
    · obtain ⟨rfl, single⟩ := List.append_inj' whole rfl
      cases single
      exact last
    · exact patient done other earlier

/-- A call finds the cache fresh, or enumerates the sockets without success, or with. -/
inductive Scan (cache : ResolverCache) (timed : TimedCall) : Prop where
  | fresh (young : timed.checked < cache.lastRefresh + resolverRefreshPeriod) (nothing : scanStart cache timed = [])
    (unfailed : failedStart cache timed = []) (kept : stepTimed cache timed = cache)
  | failed (due : cache.lastRefresh + resolverRefreshPeriod ≤ timed.checked) (once : scanStart cache timed = [timed.started])
    (recorded : failedStart cache timed = [timed.started]) (kept : stepTimed cache timed = cache)
  | done (due : cache.lastRefresh + resolverRefreshPeriod ≤ timed.checked) (once : scanStart cache timed = [timed.started])
    (unfailed : failedStart cache timed = []) (renewed : (stepTimed cache timed).lastRefresh = timed.refreshed)

theorem isFresh_iff (cache : ResolverCache) (checked : Int) :
    isFresh cache checked = true ↔ checked < cache.lastRefresh + resolverRefreshPeriod := by
  rw [isFresh, decide_eq_true_eq, resolverRefreshPeriod]
  omega

theorem attempts_gated {call : Call} (gated : call.gated = true) (cache : ResolverCache) :
    call.attempts cache = !isFresh cache call.outside.checked := by
  cases call with
  | refresh outside => cases gated
  | _ => rfl

theorem scan_cases (cache : ResolverCache) {timed : TimedCall} (gated : timed.call.gated = true) : Scan cache timed := by
  have attempt := attempts_gated gated cache
  have stepped := step_eq cache timed.call
  cases fresh : isFresh cache timed.call.outside.checked with
  | true =>
    rw [fresh] at attempt
    have nothing : scanStart cache timed = [] := if_neg (ne_true_of_eq_false attempt)
    refine .fresh ((isFresh_iff cache _).mp fresh) nothing ?_ (stepped.trans (if_neg (ne_true_of_eq_false attempt)))
    unfold failedStart
    split
    · rfl
    · exact nothing
  | false =>
    rw [fresh] at attempt
    have due : cache.lastRefresh + resolverRefreshPeriod ≤ timed.checked :=
      Int.not_lt.mp fun young => ne_true_of_eq_false fresh ((isFresh_iff cache _).mpr young)
    have once : scanStart cache timed = [timed.started] := if_pos attempt
    rw [attempt, Bool.not_false, if_pos rfl, finalState_refresh] at stepped
    cases listed : socketInodes timed.call.outside with
    | error halt =>
      rw [listed] at stepped
      apply Scan.failed due once _ stepped
      rw [failedStart, listed]
      exact once
    | ok inodes =>
      rw [listed] at stepped
      apply Scan.done due once
      · rw [failedStart, listed]
      · exact congrArg ResolverCache.lastRefresh stepped

theorem OnClock.before {calls : List TimedCall} {timed : TimedCall} (clock : OnClock (calls ++ [timed])) :
    OnClock calls where
  gated other member := clock.gated other (List.mem_append_left _ member)
  within other member := clock.within other (List.mem_append_left _ member)
  onward := (List.pairwise_append.mp clock.onward).1

theorem OnClock.last {calls : List TimedCall} {timed : TimedCall} (clock : OnClock (calls ++ [timed])) :
    timed.call.gated = true ∧ timed.checked ≤ timed.started ∧ timed.started ≤ timed.refreshed ∧
      ∀ earlier ∈ calls, earlier.started ≤ timed.checked := by
  have listed : timed ∈ calls ++ [timed] := List.mem_append_right _ (List.mem_singleton_self timed)
  refine ⟨clock.gated timed listed, (clock.within timed listed).1, (clock.within timed listed).2, ?_⟩
  intro earlier member
  have ended := (clock.within earlier (List.mem_append_left _ member)).2
  exact ended.trans ((List.pairwise_append.mp clock.onward).2.2 earlier member timed (List.mem_singleton_self timed))

section Runs
variable {cache : ResolverCache} {calls : List TimedCall}

/-- An enumeration that did not fail has set the time of the latest refresh, which later ones only raise. -/
theorem starts_done (clock : OnClock calls) :
    ∀ scan ∈ scanStarts cache calls, scan ∈ failedStarts cache calls ∨ scan ≤ (run stepTimed cache calls).lastRefresh := by
  induction calls using List.reverseRecOn with
  | nil =>
    intro scan member
    cases member
  | append_singleton calls timed ih =>
    obtain ⟨gated, started, ended, _⟩ := clock.last
    have earlier := ih clock.before
    intro scan member
    rw [scanStarts_append, List.mem_append] at member
    rw [failedStarts_append, List.mem_append, run_append, run_cons, run_nil]
    rcases scan_cases (run stepTimed cache calls) gated with ⟨_, nothing, _, kept⟩ | ⟨_, once, recorded, kept⟩ |
        ⟨due, once, _, renewed⟩
    · rw [nothing] at member
      rw [kept]
      have old := member.resolve_right (List.not_mem_nil)
      exact (earlier scan old).imp_left Or.inl
    · rw [once] at member
      rw [kept, recorded]
      rcases member with old | new
      · exact (earlier scan old).imp_left Or.inl
      · exact Or.inl (Or.inr new)
    · rw [once] at member
      rw [renewed]
      unfold resolverRefreshPeriod at due
      rcases member with old | new
      · exact (earlier scan old).imp Or.inl (by omega)
      · rw [List.mem_singleton.mp new]
        exact Or.inr ended

theorem failedStart_subset (timed : TimedCall) : failedStart cache timed ⊆ scanStart cache timed := by
  unfold failedStart
  split
  · exact List.nil_subset _
  · exact List.Subset.refl _

theorem failedStarts_subset : failedStarts cache calls ⊆ scanStarts cache calls := by
  unfold failedStarts scanStarts
  induction calls generalizing cache with
  | nil => exact List.nil_subset _
  | cons timed calls ih =>
    rw [observed, observed]
    apply List.append_subset.mpr
    refine ⟨?_, ?_⟩
    · exact List.Subset.trans (failedStart_subset timed) (List.subset_append_left _ _)
    · exact List.Subset.trans ih (List.subset_append_right _ _)

/-- After a failure the cache stays due, until an enumeration that is a period away from it succeeds. -/
theorem failed_settled (clock : OnClock calls) (spread : Spread (scanStarts cache calls)) :
    ∀ failed ∈ failedStarts cache calls, ∃ timed ∈ calls,
      (run stepTimed cache calls).lastRefresh + resolverRefreshPeriod ≤ timed.started ∨
        failed + resolverRefreshPeriod ≤ timed.started := by
  induction calls using List.reverseRecOn with
  | nil =>
    intro failed member
    cases member
  | append_singleton calls timed ih =>
    obtain ⟨gated, started, _, _⟩ := clock.last
    rw [scanStarts_append, Spread, List.pairwise_append] at spread
    have earlier := ih clock.before spread.1
    have listed : timed ∈ calls ++ [timed] := List.mem_append_right _ (List.mem_singleton_self timed)
    intro failed member
    rw [failedStarts_append, List.mem_append] at member
    rw [run_append, run_cons, run_nil]
    rcases scan_cases (run stepTimed cache calls) gated with ⟨_, _, unfailed, kept⟩ | ⟨due, _, _, kept⟩ |
        ⟨_, once, unfailed, _⟩
    · rw [unfailed] at member
      rw [kept]
      obtain ⟨other, present, settled⟩ := earlier failed (member.resolve_right (List.not_mem_nil))
      exact ⟨other, List.mem_append_left _ present, settled⟩
    · rw [kept]
      exact ⟨timed, listed, Or.inl (due.trans started)⟩
    · rw [unfailed] at member
      rw [once] at spread
      have old := member.resolve_right (List.not_mem_nil)
      exact ⟨timed, listed, Or.inr (spread.2.2 failed (failedStarts_subset old) timed.started (List.mem_singleton_self _))⟩

theorem scanStart_spread (timed : TimedCall) : Spread (scanStart cache timed) := by
  unfold scanStart
  split
  · exact List.pairwise_singleton _ _
  · exact List.Pairwise.nil

/-- One more call keeps its distance from the enumerations before it exactly when it keeps it from the failed ones. -/
theorem last_apart_iff {timed : TimedCall} (clock : OnClock (calls ++ [timed])) (spread : Spread (scanStarts cache calls)) :
    (∀ scan ∈ scanStarts cache calls, ∀ next ∈ scanStart (run stepTimed cache calls) timed,
      scan + resolverRefreshPeriod ≤ next) ↔
      ∀ failed ∈ failedStarts cache calls, failed + resolverRefreshPeriod ≤ timed.started := by
  obtain ⟨gated, started, _, onward⟩ := clock.last
  have passed (failed : Int) (member : failed ∈ failedStarts cache calls)
      (young : timed.checked < (run stepTimed cache calls).lastRefresh + resolverRefreshPeriod) :
      failed + resolverRefreshPeriod ≤ timed.started := by
    obtain ⟨other, present, settled⟩ := failed_settled clock.before spread failed member
    have before := onward other present
    rcases settled with due | apart
    · omega
    · exact apart.trans (before.trans started)
  have done (patient : ∀ failed ∈ failedStarts cache calls, failed + resolverRefreshPeriod ≤ timed.started)
      (due : (run stepTimed cache calls).lastRefresh + resolverRefreshPeriod ≤ timed.checked) (scan : Int)
      (member : scan ∈ scanStarts cache calls) : scan + resolverRefreshPeriod ≤ timed.started := by
    rcases starts_done clock.before scan member with failed | refreshed
    · exact patient scan failed
    · omega
  rcases scan_cases (run stepTimed cache calls) gated with ⟨young, nothing, _, _⟩ | ⟨due, once, _, _⟩ | ⟨due, once, _, _⟩
  · rw [nothing]
    exact ⟨fun _ failed member => passed failed member young, fun _ _ _ _ none => absurd none List.not_mem_nil⟩
  all_goals
    rw [once]
    simp only [List.mem_singleton, forall_eq]
    exact ⟨fun apart failed member => apart failed (failedStarts_subset member), fun patient => done patient due⟩

/-- The enumerations are a refresh period apart exactly when no call follows a failed one within the period. -/
theorem scans_limited_iff (uidMap : UidMap) (start : Int) (calls : List TimedCall) (clock : OnClock calls) :
    Spread (scanStarts (.empty uidMap start) calls) ↔ Patient (.empty uidMap start) calls := by
  generalize ResolverCache.empty uidMap start = cache
  induction calls using List.reverseRecOn with
  | nil =>
    refine ⟨fun _ done timed front => ?_, fun _ => List.Pairwise.nil⟩
    cases List.append_eq_nil_iff.mp (List.prefix_nil.mp front) |>.2
  | append_singleton calls timed ih =>
    rw [patient_append, ← ih clock.before, scanStarts_append, Spread, List.pairwise_append]
    constructor
    · rintro ⟨spread, _, apart⟩
      exact ⟨spread, (last_apart_iff clock spread).mp apart⟩
    · rintro ⟨spread, patient⟩
      exact ⟨spread, scanStart_spread timed, (last_apart_iff clock spread).mpr patient⟩

end Runs

/-- Netlink is not there, and the files are what `procNet` says. -/
def outsideWithout (procNet : Text → Except Text Text) (time : Int) : Outside where
  host := .little
  netlink := .error "Protocol not supported (os error 93)".toList
  procNet := procNet
  proc := ⟨fun _ => none, fun _ => none, fun _ => none⟩
  keyOrder := .plain
  valueOrder := .plain
  checked := time
  refreshed := time

def listingAt (procNet : Text → Except Text Text) (time : Int) : TimedCall :=
  ⟨.listConnections (outsideWithout procNet time), time⟩

def noFiles (_ : Text) : Except Text Text := .error "Permission denied (os error 13)".toList

theorem scans_limited_iff_twice :
    Spread (scanStarts (.empty ∅ 0) [listingAt (plainRead []) 0, listingAt noFiles (10^8), listingAt noFiles (10^9)]) ↔
      Patient (.empty ∅ 0) [listingAt (plainRead []) 0, listingAt noFiles (10^8), listingAt noFiles (10^9)] :=
  scans_limited_iff ∅ 0 _ ⟨by decide, by decide, by decide⟩

/-- The sockets are enumerated again a tenth of a second after a failure. -/
theorem failure_not_limited :
    OnClock [listingAt noFiles 0, listingAt noFiles (10^8)] ∧
      scanStarts (.empty ∅ 0) [listingAt noFiles 0, listingAt noFiles (10^8)] = [0, 10^8] ∧
      ¬Spread (scanStarts (.empty ∅ 0) [listingAt noFiles 0, listingAt noFiles (10^8)]) := by
  have starts : scanStarts (.empty ∅ 0) [listingAt noFiles 0, listingAt noFiles (10^8)] = [0, 10^8] := by
    decide +kernel
  refine ⟨⟨by decide, by decide, by decide⟩, starts, ?_⟩
  rw [starts]
  unfold Spread
  decide

end Netmon.Resolver
