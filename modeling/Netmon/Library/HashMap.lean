import Mathlib.Data.Finmap
import Mathlib.Algebra.GroupWithZero.Nat
import Mathlib.Algebra.BigOperators.Group.List.Basic
import Mathlib.Data.List.Pairwise

/-! Finite maps without an order of their own: Mathlib's association lists, with
the bulk operations of a hash map (`retain`, in-place update of every value) and
sums over the values. -/
namespace Netmon.Library

abbrev HashMap (K V : Type) := AList (fun _ : K => V)

namespace HashMap
variable {K V : Type}

/-- `HashMap::retain`. -/
def retain (keep : K → V → Bool) (map : HashMap K V) : HashMap K V :=
  ⟨map.entries.filter (fun entry => keep entry.1 entry.2),
    map.nodupKeys.sublist List.filter_sublist⟩

/-- One pass of `iter_mut` or `values_mut`. -/
def mapValues {W : Type} (f : K → V → W) (map : HashMap K V) : HashMap K W :=
  ⟨map.entries.map (fun entry => ⟨entry.1, f entry.1 entry.2⟩), by
    have same : (map.entries.map (fun entry => (⟨entry.1, f entry.1 entry.2⟩ : Sigma fun _ : K => W))).keys =
        map.entries.keys := by simp [List.keys, Function.comp_def]
    rw [List.NodupKeys, same]
    exact map.nodupKeys⟩

def total (f : K → V → Nat) (map : HashMap K V) : Nat :=
  (map.entries.map fun entry => f entry.1 entry.2).sum

@[simp] theorem total_empty (f : K → V → Nat) : total f (∅ : HashMap K V) = 0 := rfl

theorem total_mapValues {W : Type} (f : K → W → Nat) (g : K → V → W) (map : HashMap K V) :
    total f (mapValues g map) = total (fun k v => f k (g k v)) map := by
  simp [total, mapValues, Function.comp_def]

theorem total_retain (f : K → V → Nat) (keep : K → V → Bool) (map : HashMap K V) :
    total f map = total f (retain keep map) + total f (retain (fun k v => !keep k v) map) := by
  obtain ⟨entries, nodup⟩ := map
  simp only [total, retain]
  clear nodup
  induction entries with
  | nil => rfl
  | cons entry entries ih =>
    cases kept : keep entry.1 entry.2 <;> simp [kept, ih] <;> omega

theorem lookup_mem_entries [DecidableEq K] {map : HashMap K V} {k : K} {v : V} :
    map.lookup k = some v ↔ ⟨k, v⟩ ∈ map.entries :=
  AList.mem_lookup_iff

theorem lookup_retain [DecidableEq K] (keep : K → V → Bool) (map : HashMap K V) (k : K) :
    (retain keep map).lookup k = (map.lookup k).filter (keep k) := by
  apply Option.ext
  intro v
  rw [lookup_mem_entries, Option.filter_eq_some_iff, lookup_mem_entries]
  simp [retain]

theorem lookup_mapValues [DecidableEq K] {W : Type} (f : K → V → W) (map : HashMap K V) (k : K) :
    (mapValues f map).lookup k = (map.lookup k).map (f k) := by
  apply Option.ext
  intro w
  rw [lookup_mem_entries, Option.map_eq_some_iff]
  constructor
  · intro member
    obtain ⟨⟨k, v⟩, listed, same⟩ := List.mem_map.mp member
    cases same
    exact ⟨v, lookup_mem_entries.mpr listed, rfl⟩
  · rintro ⟨v, found, rfl⟩
    exact List.mem_map.mpr ⟨⟨k, v⟩, lookup_mem_entries.mp found, rfl⟩

theorem total_erase [DecidableEq K] (f : K → V → Nat) (map : HashMap K V) (k : K) :
    total f map = (map.lookup k).elim 0 (f k) + total f (map.erase k) := by
  cases found : map.lookup k with
  | none =>
    have absent : k ∉ map.entries.keys := AList.lookup_eq_none.mp found
    simp [total, AList.erase, List.kerase_of_notMem_keys absent]
  | some v =>
    have present : k ∈ map.entries.keys :=
      List.mem_keys_of_mem (lookup_mem_entries.mp found)
    obtain ⟨w, before, after, _, whole, erased⟩ := List.exists_of_kerase present
    have stored : map.lookup k = some w := lookup_mem_entries.mpr (by rw [whole]; simp)
    have same : w = v := Option.some.inj (stored.symm.trans found)
    subst w
    simp only [total, AList.erase, erased]
    rw [whole]
    simp only [List.map_append, List.map_cons, List.sum_append, List.sum_cons, Option.elim_some]
    omega

theorem total_insert [DecidableEq K] (f : K → V → Nat) (map : HashMap K V) (k : K) (v : V) :
    total f (map.insert k v) = f k v + total f (map.erase k) := by
  simp [total, AList.entries_insert, AList.erase]

theorem total_insert_add [DecidableEq K] (f : K → V → Nat) (map : HashMap K V) (k : K) (v : V) :
    total f (map.insert k v) + (map.lookup k).elim 0 (f k) = total f map + f k v := by
  rw [total_insert, total_erase f map k]
  omega

theorem elim_le_total [DecidableEq K] (f : K → V → Nat) (map : HashMap K V) (k : K) :
    (map.lookup k).elim 0 (f k) ≤ total f map := by
  rw [total_erase f map k]
  exact Nat.le_add_right _ _

theorem total_insert_raised [DecidableEq K] {f : K → V → Nat} {map : HashMap K V} {k : K} {v : V} {amount : Nat}
    (raised : f k v = (map.lookup k).elim 0 (f k) + amount) : total f (map.insert k v) = total f map + amount := by
  have balance := total_insert_add f map k v
  omega

section Writes
variable [DecidableEq K]

def insertAll (writes : List (K × V)) (map : HashMap K V) : HashMap K V :=
  writes.foldl (fun map write => map.insert write.1 write.2) map

/-- The value of the last write to a key. -/
def lastWrite (k : K) : List (K × V) → Option V
  | [] => none
  | write :: writes => (lastWrite k writes).or (if write.1 = k then some write.2 else none)

theorem lookup_insertAll (writes : List (K × V)) (map : HashMap K V) (k : K) :
    (insertAll writes map).lookup k = (lastWrite k writes).or (map.lookup k) := by
  induction writes generalizing map with
  | nil => rfl
  | cons write writes ih =>
    rw [insertAll, List.foldl_cons]
    have tail := ih (map.insert write.1 write.2)
    rw [insertAll] at tail
    rw [tail, lastWrite, Option.or_assoc]
    by_cases same : write.1 = k
    · subst same
      simp
    · simp [same, AList.lookup_insert_ne (Ne.symm same)]

theorem insertAll_append (first second : List (K × V)) (map : HashMap K V) :
    insertAll (first ++ second) map = insertAll second (insertAll first map) := by
  simp [insertAll]

theorem lookup_foldl_insert (f : K → V) (keys : List K) (map : HashMap K V) (k : K) :
    (keys.foldl (fun map k => map.insert k (f k)) map).lookup k = if k ∈ keys then some (f k) else map.lookup k := by
  induction keys generalizing map with
  | nil => rfl
  | cons key keys ih =>
    rw [List.foldl_cons, ih]
    by_cases same : k = key
    · subst same
      simp
    · simp [same]

/-- A loop whose every round is a run of writes is the run of all its writes. -/
theorem foldl_insertAll {α : Type} {round : HashMap K V → α → HashMap K V} {writes : α → List (K × V)}
    (each : ∀ map a, round map a = insertAll (writes a) map) (rounds : List α) (map : HashMap K V) :
    rounds.foldl round map = insertAll (rounds.flatMap writes) map := by
  induction rounds generalizing map with
  | nil => rfl
  | cons a rounds ih => rw [List.foldl_cons, ih, each, List.flatMap_cons, insertAll_append]

theorem lastWrite_append (k : K) (first second : List (K × V)) :
    lastWrite k (first ++ second) = (lastWrite k second).or (lastWrite k first) := by
  induction first with
  | nil => simp [lastWrite]
  | cons write first ih => rw [List.cons_append, lastWrite, ih, lastWrite, Option.or_assoc]

theorem mem_of_lastWrite {k : K} {v : V} {writes : List (K × V)} (last : lastWrite k writes = some v) :
    (k, v) ∈ writes := by
  induction writes with
  | nil => cases last
  | cons write writes ih =>
    rcases Option.or_eq_some_iff.mp last with later | ⟨_, here⟩
    · exact List.mem_cons_of_mem write (ih later)
    · obtain ⟨rfl, value⟩ := Option.ite_none_right_eq_some.mp here
      cases value
      exact List.mem_cons_self

theorem exists_lastWrite {k : K} {v : V} {writes : List (K × V)} (member : (k, v) ∈ writes) :
    ∃ last, lastWrite k writes = some last := by
  apply Option.isSome_iff_exists.mp
  induction writes with
  | nil => cases member
  | cons write writes ih =>
    rw [lastWrite, Option.isSome_or]
    rcases List.mem_cons.mp member with rfl | later
    · simp
    · simp [ih later]

theorem lastWrite_of_agree {k : K} {v : V} {writes : List (K × V)} (member : (k, v) ∈ writes)
    (agree : ∀ w, (k, w) ∈ writes → w = v) : lastWrite k writes = some v := by
  obtain ⟨last, found⟩ := exists_lastWrite member
  rw [found, agree last (mem_of_lastWrite found)]

/-- Writes that give a key one value give it that value in every order. -/
theorem lastWrite_perm {k : K} {first second : List (K × V)} (permuted : first.Perm second)
    (agree : ∀ v w, (k, v) ∈ first → (k, w) ∈ first → v = w) : lastWrite k first = lastWrite k second := by
  cases found : lastWrite k first with
  | some v =>
    have member := mem_of_lastWrite found
    symm
    apply lastWrite_of_agree (permuted.mem_iff.mp member)
    intro w other
    exact agree w v (permuted.mem_iff.mpr other) member
  | none =>
    cases there : lastWrite k second with
    | none => rfl
    | some v =>
      have member := permuted.mem_iff.mpr (mem_of_lastWrite there)
      obtain ⟨last, here⟩ := exists_lastWrite member
      rw [found] at here
      cases here

/-- A table keeps the items that no later one replaces. -/
theorem lastWrite_eq_some_iff {α : Type} (key : α → K) (value : α → V) (items : List α) (k : K) (v : V) :
    lastWrite k (items.map fun item => (key item, value item)) = some v ↔
      ∃ item ∈ items.pwFilter fun a b => key a ≠ key b, key item = k ∧ value item = v := by
  induction items generalizing v with
  | nil => simp [lastWrite]
  | cons item items ih =>
    rw [List.map_cons, lastWrite, Option.or_eq_some_iff, ih]
    by_cases kept : ∀ other ∈ items.pwFilter (fun a b => key a ≠ key b), key item ≠ key other
    · rw [List.pwFilter_cons_of_pos kept]
      have later : key item = k → lastWrite k (items.map fun item => (key item, value item)) = none := by
        intro same
        rw [Option.eq_none_iff_forall_ne_some]
        intro w written
        obtain ⟨other, member, equal, _⟩ := (ih w).mp written
        exact kept other member (same.trans equal.symm)
      simp only [List.mem_cons, exists_eq_or_imp, Option.ite_none_right_eq_some, Option.some.injEq]
      constructor
      · rintro (found | ⟨_, here⟩)
        · exact Or.inr found
        · exact Or.inl here
      · rintro (here | found)
        · exact Or.inr ⟨later here.1, here⟩
        · exact Or.inl found
    · rw [List.pwFilter_cons_of_neg kept]
      push Not at kept
      obtain ⟨other, member, equal⟩ := kept
      constructor
      · rintro (found | ⟨nothing, here⟩)
        · exact found
        · obtain ⟨same, _⟩ := Option.ite_none_right_eq_some.mp here
          have written := (ih (value other)).mpr ⟨other, member, equal.symm.trans same, rfl⟩
          rw [nothing] at written
          cases written
      · exact Or.inl

end Writes

def values (map : HashMap K V) : List V := map.entries.map (·.2)

/-- The order in which a hash map happens to be walked. -/
structure Iteration (K V : Type) where
  entries : HashMap K V → List (Sigma fun _ : K => V)
  permuted : ∀ map, (entries map).Perm map.entries

namespace Iteration

def plain : Iteration K V := ⟨fun map => map.entries, fun _ => List.Perm.refl _⟩

def reversed : Iteration K V := ⟨fun map => map.entries.reverse, fun map => map.entries.reverse_perm⟩

def keys (iteration : Iteration K V) (map : HashMap K V) : List K := (iteration.entries map).map (·.1)

def values (iteration : Iteration K V) (map : HashMap K V) : List V := (iteration.entries map).map (·.2)

theorem exists_of_perm {map : HashMap K V} {entries : List (Sigma fun _ : K => V)} (permuted : entries.Perm map.entries) :
    ∃ iteration : Iteration K V, iteration.entries map = entries := by
  classical
  refine ⟨⟨fun other => if other = map then entries else other.entries, ?_⟩, by simp⟩
  intro other
  split
  · rename_i same
    exact same ▸ permuted
  · exact List.Perm.refl _

theorem values_perm (iteration : Iteration K V) (map : HashMap K V) :
    (iteration.values map).Perm (HashMap.values map) :=
  (iteration.permuted map).map _

theorem mem_keys [DecidableEq K] (iteration : Iteration K V) (map : HashMap K V) (k : K) :
    k ∈ iteration.keys map ↔ k ∈ map := by
  rw [keys, ((iteration.permuted map).map _).mem_iff]
  rfl

end Iteration

theorem mem_values [DecidableEq K] {map : HashMap K V} {v : V} : v ∈ values map ↔ ∃ k, map.lookup k = some v := by
  simp only [values, List.mem_map, lookup_mem_entries]
  constructor
  · rintro ⟨⟨k, w⟩, member, rfl⟩
    exact ⟨k, member⟩
  · rintro ⟨k, member⟩
    exact ⟨⟨k, v⟩, member, rfl⟩

theorem values_insertAll_perm [DecidableEq K] {α : Type} (key : α → K) (value : α → V) (items : List α) :
    (values (insertAll (items.map fun item => (key item, value item)) ∅)).Perm
      ((items.pwFilter fun a b => key a ≠ key b).map value) := by
  let entry (item : α) : Sigma fun _ : K => V := ⟨key item, value item⟩
  have entries : (insertAll (items.map fun item => (key item, value item)) ∅).entries.Perm
      ((items.pwFilter fun a b => key a ≠ key b).map entry) := by
    rw [List.perm_ext_iff_of_nodup]
    · rintro ⟨k, v⟩
      rw [← lookup_mem_entries, lookup_insertAll, AList.lookup_empty, Option.or_none, lastWrite_eq_some_iff,
        List.mem_map]
      simp only [entry, Sigma.mk.injEq, heq_eq_eq]
    · exact List.NodupKeys.nodup (AList.nodupKeys _)
    · apply List.Pairwise.map entry _ (List.pairwise_pwFilter items)
      intro a b different same
      exact different (congrArg Sigma.fst same)
  have valued := entries.map Sigma.snd
  rwa [List.map_map] at valued

section FirstHit
variable {α β : Type} {hit : α → Bool} {answer : α → Option β}

theorem firstHit_eq {items : List α} {x : α} (member : x ∈ items) (hits : hit x = true)
    (same : ∀ y ∈ items, hit y = true → answer y = answer x) : (items.find? hit).bind answer = answer x := by
  cases found : items.find? hit with
  | none => exact absurd hits (List.find?_eq_none.mp found x member)
  | some y => exact same y (List.mem_of_find?_eq_some found) (List.find?_some found)

theorem firstHit_perm {first second : List α} (permuted : first.Perm second)
    (same : ∀ x ∈ first, ∀ y ∈ first, hit x = true → hit y = true → answer x = answer y) :
    (first.find? hit).bind answer = (second.find? hit).bind answer := by
  cases found : first.find? hit with
  | none =>
    have nothing : second.find? hit = none := by
      rw [List.find?_eq_none] at found ⊢
      exact fun x member => found x (permuted.mem_iff.mpr member)
    rw [nothing]
  | some x =>
    have member := List.mem_of_find?_eq_some found
    have hits := List.find?_some found
    symm
    apply firstHit_eq (permuted.mem_iff.mp member) hits
    intro y other otherHits
    exact same y (permuted.mem_iff.mpr other) x member otherHits hits

/-- The first hit of every order gives one answer exactly when all hits do. -/
theorem firstHit_order_independent (hit : α → Bool) (answer : α → Option β) (items : List α) :
    (∀ order : List α, order.Perm items → (order.find? hit).bind answer = (items.find? hit).bind answer) ↔
      ∀ x ∈ items, ∀ y ∈ items, hit x = true → hit y = true → answer x = answer y := by
  classical
  constructor
  · intro independent x one y two hitsX hitsY
    have first {z : α} (member : z ∈ items) (hits : hit z = true) : answer z = (items.find? hit).bind answer := by
      have moved := independent (z :: items.erase z) (List.perm_cons_erase member).symm
      rwa [List.find?_cons_of_pos hits, Option.bind_some] at moved
    exact (first one hitsX).trans (first two hitsY).symm
  · intro same order permuted
    exact (firstHit_perm permuted.symm same).symm

theorem Iteration.firstHit_independent [DecidableEq K] (hit : V → Bool) (answer : V → Option β) (map : HashMap K V) :
    (∀ first second : Iteration K V,
      ((first.values map).find? hit).bind answer = ((second.values map).find? hit).bind answer) ↔
      ∀ v ∈ HashMap.values map, ∀ w ∈ HashMap.values map, hit v = true → hit w = true → answer v = answer w := by
  classical
  constructor
  · intro independent v one w two hitsV hitsW
    have leading {u : V} (member : u ∈ HashMap.values map) (hits : hit u = true) :
        ∃ iteration : Iteration K V, ((iteration.values map).find? hit).bind answer = answer u := by
      obtain ⟨k, stored⟩ := mem_values.mp member
      obtain ⟨iteration, entries⟩ := exists_of_perm (List.perm_cons_erase (lookup_mem_entries.mp stored)).symm
      refine ⟨iteration, ?_⟩
      rw [values, entries, List.map_cons, List.find?_cons_of_pos hits, Option.bind_some]
    obtain ⟨first, firstAnswer⟩ := leading one hitsV
    obtain ⟨second, secondAnswer⟩ := leading two hitsW
    rw [← firstAnswer, ← secondAnswer, independent first second]
  · intro same first second
    have permuted := (first.values_perm map).trans (second.values_perm map).symm
    apply firstHit_perm permuted
    intro v one w two
    exact same v ((first.values_perm map).mem_iff.mp one) w ((first.values_perm map).mem_iff.mp two)

end FirstHit

end HashMap
end Netmon.Library
