import FortressQL.Elog
import FortressQL.Storage.BlockAddress
import Mathlib.Data.List.Nodup

/-!
# The shared-memory key cache

`tde_keycache.c`: at most `TDE_MAX_CACHED_KEYS` decrypted tablespace keys, found by linear scan. The
size bound and the absence of duplicates are fields of the table.
-/

namespace FortressQL.Tde.KeyCache

open List hiding Vector

open Elog Storage.BlockAddress

abbrev tdeAesKeyLen : Nat := 32

abbrev Key := Vector UInt8 tdeAesKeyLen

def tdeMaxCachedKeys : Nat := 256

structure TdeKeyEntry where
  spcOid : Oid
  key : Key
  version : Int
  active : Bool
  deriving DecidableEq

structure TdeKeyCache where
  entries : List TdeKeyEntry
  bounded : entries.length ≤ tdeMaxCachedKeys
  distinct : (entries.map TdeKeyEntry.spcOid).Nodup

/-- `tde_keycache_shmem_init`, and the table `tde_keycache_invalidate` leaves. -/
def TdeKeyCache.empty : TdeKeyCache where
  entries := []
  bounded := Nat.zero_le _
  distinct := List.nodup_nil

def notInitialized : ErrorReport :=
  { elevel := .error, errcode := .internalError, errmsg := "TDE key cache not initialized" }

def TdeKeyCache.find (cache : TdeKeyCache) (spcOid : Oid) : Option TdeKeyEntry :=
  cache.entries.find? fun entry => entry.spcOid == spcOid && entry.active

/-- `tde_keycache_lookup`; `none` stands for the unset shared-memory pointer. -/
def tdeKeycacheLookup (shmem : Option TdeKeyCache) (spcOid : Oid) :
    Raises (Option TdeKeyEntry) :=
  match shmem with
  | none => .error notInitialized
  | some cache => .ok (cache.find spcOid)

/-- The update branch of the insertion scan: the first slot with the same tablespace
takes over key, version and activity. -/
def updateExisting (entry : TdeKeyEntry) : List TdeKeyEntry → Option (List TdeKeyEntry)
  | [] => none
  | cached :: rest =>
    if cached.spcOid = entry.spcOid then
      some ({ cached with
        key := entry.key, version := entry.version, active := entry.active } :: rest)
    else (updateExisting entry rest).map (cached :: ·)

def inactiveSlot (entries : List TdeKeyEntry) : Option Nat :=
  entries.findIdx? fun cached => !cached.active

def cacheFull : ErrorReport :=
  { elevel := .error
    errcode := .configurationLimitExceeded
    errmsg := s!"TDE key cache is full ({tdeMaxCachedKeys} entries)"
    errhint := "Consider reducing the number of encrypted tablespaces." }

variable {entry : TdeKeyEntry} {entries updated : List TdeKeyEntry}

theorem update_existing_of_absent (absent : updateExisting entry entries = none) :
    entry.spcOid ∉ entries.map TdeKeyEntry.spcOid := by
  induction entries with
  | nil => simp
  | cons cached rest ih =>
    unfold updateExisting at absent
    split_ifs at absent with same
    simp only [Option.map_eq_none_iff] at absent
    simp only [map_cons, mem_cons, not_or]
    exact ⟨fun equal => same equal.symm, ih absent⟩

theorem update_existing_oids (found : updateExisting entry entries = some updated) :
    updated.map TdeKeyEntry.spcOid = entries.map TdeKeyEntry.spcOid := by
  induction entries generalizing updated with
  | nil => simp [updateExisting] at found
  | cons cached rest ih =>
    unfold updateExisting at found
    split_ifs at found with same
    · cases found
      rfl
    · simp only [Option.map_eq_some_iff] at found
      obtain ⟨tail, tailFound, rfl⟩ := found
      simp [ih tailFound]

theorem update_existing_length (found : updateExisting entry entries = some updated) :
    updated.length = entries.length := by
  simpa using congrArg List.length (update_existing_oids found)

theorem nodup_oids_append (distinct : (entries.map TdeKeyEntry.spcOid).Nodup)
    (absent : entry.spcOid ∉ entries.map TdeKeyEntry.spcOid) :
    ((entries ++ [entry]).map TdeKeyEntry.spcOid).Nodup := by
  rw [map_append]
  exact distinct.append (nodup_singleton _) (disjoint_singleton.mpr absent)

theorem nodup_oids_set (slot : Nat) (distinct : (entries.map TdeKeyEntry.spcOid).Nodup)
    (absent : entry.spcOid ∉ entries.map TdeKeyEntry.spcOid) :
    ((entries.set slot entry).map TdeKeyEntry.spcOid).Nodup := by
  rw [map_set]
  exact distinct.set absent

/-- `tde_keycache_insert`: update in place, else append, else reuse an inactive slot, else full. -/
def TdeKeyCache.insert (cache : TdeKeyCache) (entry : TdeKeyEntry) : Raises TdeKeyCache :=
  match found : updateExisting entry cache.entries with
  | some updated =>
    .ok { entries := updated
          bounded := (update_existing_length found).trans_le cache.bounded
          distinct := by rw [update_existing_oids found]; exact cache.distinct }
  | none =>
    if room : cache.entries.length < tdeMaxCachedKeys then
      .ok { entries := cache.entries ++ [entry]
            bounded := by simpa using Nat.succ_le_of_lt room
            distinct := nodup_oids_append cache.distinct (update_existing_of_absent found) }
    else
      match inactiveSlot cache.entries with
      | some slot =>
        .ok { entries := cache.entries.set slot entry
              bounded := by simpa using cache.bounded
              distinct := nodup_oids_set slot cache.distinct
                (update_existing_of_absent found) }
      | none => .error cacheFull

def tdeKeycacheInsert (shmem : Option TdeKeyCache) (entry : TdeKeyEntry) :
    Raises (Option TdeKeyCache) :=
  match shmem with
  | none => .error notInitialized
  | some cache => (cache.insert entry).map some

def tdeKeycacheInvalidate (shmem : Option TdeKeyCache) : Raises (Option TdeKeyCache) :=
  match shmem with
  | none => .error notInitialized
  | some _ => .ok (some .empty)

theorem find_eq_some_iff (cache : TdeKeyCache) (spcOid : Oid) (entry : TdeKeyEntry) :
    cache.find spcOid = some entry ↔
      entry ∈ cache.entries ∧ entry.spcOid = spcOid ∧ entry.active = true := by
  constructor
  · intro found
    have matched := List.find?_some found
    simp only [Bool.and_eq_true, beq_iff_eq] at matched
    exact ⟨mem_of_find?_eq_some found, matched⟩
  · rintro ⟨member, rfl, active⟩
    cases scanned : cache.find entry.spcOid with
    | none =>
      have missed := List.find?_eq_none.mp scanned entry member
      simp [active] at missed
    | some other =>
      have matched := List.find?_some scanned
      simp only [Bool.and_eq_true, beq_iff_eq] at matched
      have same := inj_on_of_nodup_map cache.distinct
        (mem_of_find?_eq_some scanned) member matched.1
      rw [same]

theorem mem_update_existing_iff (distinct : (entries.map TdeKeyEntry.spcOid).Nodup)
    (found : updateExisting entry entries = some updated) (other : TdeKeyEntry) :
    other ∈ updated ↔ other = entry ∨ (other ∈ entries ∧ other.spcOid ≠ entry.spcOid) := by
  induction entries generalizing updated with
  | nil => simp [updateExisting] at found
  | cons cached rest ih =>
    rw [map_cons, nodup_cons] at distinct
    unfold updateExisting at found
    -- The first slot with the tablespace is the only one, so the rest of the table stays.
    split_ifs at found with same
    · cases found
      have replaced : ({ cached with
          key := entry.key, version := entry.version, active := entry.active } :
            TdeKeyEntry) = entry := by
        rw [same]
      have keepsRest : other ∈ rest → other.spcOid ≠ entry.spcOid := by
        intro member equal
        exact distinct.1 (same ▸ equal ▸ mem_map_of_mem member)
      rw [replaced, mem_cons, mem_cons]
      constructor
      · rintro (rfl | member)
        · exact .inl rfl
        · exact .inr ⟨.inr member, keepsRest member⟩
      · rintro (rfl | ⟨rfl | member, differs⟩)
        · exact .inl rfl
        · exact absurd same differs
        · exact .inr member
    · simp only [Option.map_eq_some_iff] at found
      obtain ⟨tail, tailFound, rfl⟩ := found
      rw [mem_cons, mem_cons, ih distinct.2 tailFound]
      constructor
      · rintro (rfl | rfl | ⟨member, differs⟩)
        · exact .inr ⟨.inl rfl, same⟩
        · exact .inl rfl
        · exact .inr ⟨.inr member, differs⟩
      · rintro (rfl | ⟨rfl | member, differs⟩)
        · exact .inr (.inl rfl)
        · exact .inl rfl
        · exact .inr (.inr ⟨member, differs⟩)

theorem mem_set_inactive_slot_iff {slot : Nat} (inactive : inactiveSlot entries = some slot)
    (entry other : TdeKeyEntry) (active : other.active = true) :
    other ∈ entries.set slot entry ↔ other = entry ∨ other ∈ entries := by
  obtain ⟨inRange, slotInactive, -⟩ := List.findIdx?_eq_some_iff_getElem.mp inactive
  constructor
  · intro member
    exact (mem_or_eq_of_mem_set member).symm
  · rintro (rfl | member)
    · exact mem_set inRange _
    · obtain ⟨index, bound, rfl⟩ := mem_iff_getElem.mp member
      have apart : slot ≠ index := by
        rintro rfl
        simp [active] at slotInactive
      exact mem_iff_getElem.mpr ⟨index, by simpa using bound, getElem_set_ne apart _⟩

theorem mem_insert_iff {cache next : TdeKeyCache} (inserted : cache.insert entry = .ok next)
    (other : TdeKeyEntry) (active : other.active = true) :
    other ∈ next.entries ↔
      other = entry ∨ (other ∈ cache.entries ∧ other.spcOid ≠ entry.spcOid) := by
  have absentElsewhere (found : updateExisting entry cache.entries = none) :
      other ∈ cache.entries ↔ other ∈ cache.entries ∧ other.spcOid ≠ entry.spcOid := by
    refine ⟨fun member => ⟨member, fun equal => ?_⟩, And.left⟩
    exact update_existing_of_absent found (equal ▸ mem_map_of_mem member)
  unfold TdeKeyCache.insert at inserted
  split at inserted
  case h_1 updated found =>
    cases inserted
    exact mem_update_existing_iff cache.distinct found other
  case h_2 found =>
    rw [← absentElsewhere found]
    split_ifs at inserted with room
    · cases inserted
      rw [mem_append, mem_singleton, or_comm]
    · split at inserted
      case h_1 slot inactive =>
        cases inserted
        exact mem_set_inactive_slot_iff inactive entry other active
      case h_2 => cases inserted

theorem find_insert {cache next : TdeKeyCache} (inserted : cache.insert entry = .ok next)
    (spcOid : Oid) :
    next.find spcOid = if spcOid = entry.spcOid then (if entry.active then some entry else none)
      else cache.find spcOid := by
  refine Option.ext fun other => ?_
  rw [find_eq_some_iff]
  constructor
  · rintro ⟨member, rfl, active⟩
    rcases (mem_insert_iff inserted other active).mp member with rfl | ⟨kept, differs⟩
    · simp [active]
    · rw [if_neg differs, find_eq_some_iff]
      exact ⟨kept, rfl, active⟩
  · intro found
    split_ifs at found with same active
    · cases found
      exact ⟨(mem_insert_iff inserted _ active).mpr (.inl rfl), same.symm, active⟩
    · rw [find_eq_some_iff] at found
      obtain ⟨kept, rfl, active⟩ := found
      exact ⟨(mem_insert_iff inserted _ active).mpr (.inr ⟨kept, same⟩), rfl, active⟩

end FortressQL.Tde.KeyCache
