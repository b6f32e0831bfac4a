import FortressQL.Lib.Runs
import FortressQL.Tde.KeyCache

/-!
# Runs of the key cache

Sequences of `tde_keycache_insert` and `tde_keycache_invalidate`, against the map from tablespaces
to what was inserted last. A call that raises an error leaves the table as it was.
-/

namespace FortressQL.Tde.KeyCacheRuns

open List hiding Vector
open Elog Lib.Runs Storage.BlockAddress Tde.KeyCache

variable {cache : TdeKeyCache}

inductive CacheCall where
  | insert (entry : TdeKeyEntry)
  | invalidate

def perform (shmem : Option TdeKeyCache) : CacheCall → Raises (Option TdeKeyCache)
  | .insert entry => tdeKeycacheInsert shmem entry
  | .invalidate => tdeKeycacheInvalidate shmem

def afterCall (shmem : Option TdeKeyCache) (call : CacheCall) : Option TdeKeyCache :=
  match perform shmem call with
  | .ok next => next
  | .error _ => shmem

def returnedCalls : Option TdeKeyCache → List CacheCall → List CacheCall
  | _, [] => []
  | shmem, call :: rest =>
    match perform shmem call with
    | .ok next => call :: returnedCalls next rest
    | .error _ => returnedCalls shmem rest

section Map

def record (last : Oid → Option TdeKeyEntry) : CacheCall → Oid → Option TdeKeyEntry
  | .insert entry => fun spcOid => if spcOid = entry.spcOid then some entry else last spcOid
  | .invalidate => fun _ => none

/-- The last entry inserted for a tablespace since the last invalidation. -/
def lastInserted (calls : List CacheCall) (spcOid : Oid) : Option TdeKeyEntry :=
  run record (fun _ => none) calls spcOid

/-- The map that only insertions of active entries change. -/
def recordActive (last : Oid → Option TdeKeyEntry) : CacheCall → Oid → Option TdeKeyEntry
  | .insert entry => if entry.active then record last (.insert entry) else last
  | .invalidate => record last .invalidate

def lastInsertedActive (calls : List CacheCall) (spcOid : Oid) : Option TdeKeyEntry :=
  run recordActive (fun _ => none) calls spcOid

/-- The table answers with the active entries of the map. -/
def Answers (cache : TdeKeyCache) (last : Oid → Option TdeKeyEntry) : Prop :=
  ∀ spcOid, cache.find spcOid = (last spcOid).filter TdeKeyEntry.active

theorem empty_answers : Answers .empty fun _ => none :=
  fun _ => rfl

variable {last : Oid → Option TdeKeyEntry}

theorem insert_answers {next : TdeKeyCache} {entry : TdeKeyEntry} (answers : Answers cache last)
    (inserted : cache.insert entry = .ok next) : Answers next (record last (.insert entry)) := by
  intro spcOid
  rw [find_insert inserted, record]
  dsimp only
  by_cases own : spcOid = entry.spcOid
  · rw [if_pos own, if_pos own, Option.filter_some]
  · rw [if_neg own, if_neg own]
    exact answers spcOid

theorem call_answers (answers : Answers cache last) (call : CacheCall) :
    (∃ report, perform (some cache) call = .error report) ∨
      ∃ next, perform (some cache) call = .ok (some next) ∧ Answers next (record last call) := by
  cases call with
  | insert entry =>
    cases inserted : cache.insert entry with
    | error report =>
      left
      exact ⟨report, by rw [perform, tdeKeycacheInsert, inserted]; rfl⟩
    | ok next =>
      right
      refine ⟨next, ?_, insert_answers answers inserted⟩
      rw [perform, tdeKeycacheInsert, inserted]
      rfl
  | invalidate =>
    right
    exact ⟨.empty, rfl, empty_answers⟩

theorem run_answers (answers : Answers cache last) (calls : List CacheCall) :
    ∃ final, run afterCall (some cache) calls = some final ∧
      Answers final (run record last (returnedCalls (some cache) calls)) := by
  induction calls generalizing cache last with
  | nil => exact ⟨cache, rfl, answers⟩
  | cons call rest ih =>
    rcases call_answers answers call with ⟨report, raised⟩ | ⟨next, returned, follows⟩
    · have stays : afterCall (some cache) call = some cache := by rw [afterCall, raised]
      obtain ⟨final, reached, holds⟩ := ih answers
      refine ⟨final, ?_, ?_⟩
      · rw [run, foldl_cons, stays]
        exact reached
      · rw [returnedCalls, raised]
        exact holds
    · have goesOn : afterCall (some cache) call = some next := by rw [afterCall, returned]
      obtain ⟨final, reached, holds⟩ := ih follows
      refine ⟨final, ?_, ?_⟩
      · rw [run, foldl_cons, goesOn]
        exact reached
      · rw [returnedCalls, returned]
        exact holds

end Map

def activeEntries (cache : TdeKeyCache) (spcOid : Oid) : List TdeKeyEntry :=
  cache.entries.filter fun entry => entry.spcOid == spcOid && entry.active

theorem one_active_entry (cache : TdeKeyCache) (spcOid : Oid) :
    (activeEntries cache spcOid).length ≤ 1 := by
  have distinct : ((activeEntries cache spcOid).map TdeKeyEntry.spcOid).Nodup :=
    cache.distinct.sublist (filter_sublist.map TdeKeyEntry.spcOid)
  have same : ∀ other ∈ (activeEntries cache spcOid).map TdeKeyEntry.spcOid, other = spcOid := by
    intro other member
    obtain ⟨entry, kept, rfl⟩ := mem_map.mp member
    have matched := (mem_filter.mp kept).2
    rw [Bool.and_eq_true, beq_iff_eq] at matched
    exact matched.1
  have repeated := eq_replicate_of_mem same
  rw [repeated] at distinct
  rw [← length_map (f := TdeKeyEntry.spcOid)]
  exact nodup_replicate.mp distinct

theorem insert_keeps_others {entry other : TdeKeyEntry} (member : other ∈ cache.entries)
    (active : other.active = true) (differs : other.spcOid ≠ entry.spcOid) :
    ∃ next, afterCall (some cache) (.insert entry) = some next ∧ other ∈ next.entries := by
  cases inserted : cache.insert entry with
  | error report =>
    refine ⟨cache, ?_, member⟩
    rw [afterCall, perform, tdeKeycacheInsert, inserted]
    rfl
  | ok next =>
    refine ⟨next, ?_, (mem_insert_iff inserted other active).mpr (Or.inr ⟨member, differs⟩)⟩
    rw [afterCall, perform, tdeKeycacheInsert, inserted]
    rfl

/-- The table against the map, after every run from the empty table. -/
theorem key_cache_refines_map (calls : List CacheCall) :
    ∃ cache, run afterCall (some .empty) calls = some cache ∧
      (∀ spcOid, tdeKeycacheLookup (some cache) spcOid =
        .ok ((lastInserted (returnedCalls (some .empty) calls) spcOid).filter
          TdeKeyEntry.active)) ∧
      (∀ spcOid, (activeEntries cache spcOid).length ≤ 1) ∧
      cache.entries.length ≤ tdeMaxCachedKeys ∧
      (∀ entry other, other ∈ cache.entries → other.active = true →
        other.spcOid ≠ entry.spcOid →
        ∃ next, afterCall (some cache) (.insert entry) = some next ∧ other ∈ next.entries) ∧
      ∀ entry report, tdeKeycacheInsert (some cache) entry = .error report → ∀ spcOid,
        tdeKeycacheLookup (afterCall (some cache) (.insert entry)) spcOid =
          tdeKeycacheLookup (some cache) spcOid := by
  obtain ⟨cache, reached, answers⟩ := run_answers empty_answers calls
  refine ⟨cache, reached, ?_, one_active_entry cache, cache.bounded, ?_, ?_⟩
  · intro spcOid
    exact congrArg Except.ok (answers spcOid)
  · intro entry other member active differs
    exact insert_keeps_others member active differs
  · intro entry report raised spcOid
    rw [afterCall, perform, raised]

def entryOf (active : Bool) : TdeKeyEntry where
  spcOid := 16384
  key := Vector.replicate _ 7
  version := 1
  active := active

/-- An entry inserted as inactive takes the place of the active one. -/
theorem deactivated_key_not_found :
    ∃ calls spcOid,
      tdeKeycacheLookup (run afterCall (some .empty) calls) spcOid = .ok none ∧
        lastInsertedActive (returnedCalls (some .empty) calls) spcOid = some (entryOf true) := by
  refine ⟨[.insert (entryOf true), .insert (entryOf false)], 16384, ?_, ?_⟩
  · rfl
  · rfl

end FortressQL.Tde.KeyCacheRuns
