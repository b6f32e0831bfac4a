import FortressQL.Tde.PageCrypt

/-!
# Key management

`tde_generate_tablespace_key`, `tde_rotate_master_key` and the start-up sequence of `ipci.c`. Master
keys and the random source appear through their outcome.
-/

namespace FortressQL.Tde.KeyManage

open Elog Storage.BlockAddress Tde.KeyCache

/-- `MasterKey` with `MasterKeyLoaded`, and the shared key cache. -/
structure KeyState where
  masterKey : Option Key
  shmem : Option TdeKeyCache

/-- A call either returns or raises; what it changed before stays changed. -/
structure Outcome where
  state : KeyState
  raised : Option ErrorReport

def returned (state : KeyState) : Outcome := { state := state, raised := none }

def raise (state : KeyState) (report : ErrorReport) : Outcome :=
  { state := state, raised := some report }

def insertKey (state : KeyState) (entry : TdeKeyEntry) : Outcome :=
  match tdeKeycacheInsert state.shmem entry with
  | .error report => raise state report
  | .ok shmem => returned { state with shmem := shmem }

def masterKeyNotLoaded : ErrorReport :=
  { elevel := .error
    errcode := .internalError
    errmsg := "TDE: master key is not loaded"
    errhint := "Call tde_unwrap_master_key() first." }

def tablespaceKeyGenerationFailed : ErrorReport :=
  { elevel := .error
    errcode := .internalError
    errmsg := "TDE: failed to generate tablespace key" }

/-- `tde_generate_tablespace_key`; `random` is what `RAND_bytes` produced, if anything. -/
def tdeGenerateTablespaceKey (state : KeyState) (spcOid : Oid) (random : Option Key) : Outcome :=
  match state.masterKey with
  | none => raise state masterKeyNotLoaded
  | some _ =>
    match random with
    | none => raise state tablespaceKeyGenerationFailed
    | some tdek =>
      insertKey state { spcOid := spcOid, key := tdek, version := 1, active := true }

def rotateNotLoaded : ErrorReport :=
  { elevel := .error
    errcode := .internalError
    errmsg := "TDE: cannot rotate master key - current key not loaded" }

/-- `tde_rotate_master_key`; `generated` is the outcome of `tde_generate_master_key`. -/
def tdeRotateMasterKey (state : KeyState) (generated : Raises Key) : Outcome :=
  match state.masterKey with
  | none => raise state rotateNotLoaded
  | some _ =>
    match generated with
    | .error report => raise state report
    | .ok newKey =>
      match tdeKeycacheInvalidate state.shmem with
      | .error report => raise { state with masterKey := some newKey } report
      | .ok shmem => returned { masterKey := some newKey, shmem := shmem }

/-- A server restart with `tde_enabled`: shared memory is set up anew, then the master key
is unwrapped. -/
def restart (unwrapped : Raises Key) : Outcome :=
  match unwrapped with
  | .error report => raise { masterKey := none, shmem := some .empty } report
  | .ok key => returned { masterKey := some key, shmem := some .empty }

def KeyState.tdek (state : KeyState) (spcOid : Oid) : Option Key :=
  (state.shmem.bind fun cache => cache.find spcOid).map TdeKeyEntry.key

theorem insert_key_cases (state : KeyState) (entry : TdeKeyEntry) :
    (∃ report, insertKey state entry = raise state report) ∨
      ∃ cache next, state.shmem = some cache ∧ cache.insert entry = .ok next ∧
        insertKey state entry = returned { state with shmem := some next } := by
  cases attached : state.shmem with
  | none => exact .inl ⟨notInitialized, by simp [insertKey, tdeKeycacheInsert, attached]⟩
  | some cache =>
    cases inserted : cache.insert entry with
    | error report =>
      exact .inl ⟨report, by simp [insertKey, tdeKeycacheInsert, attached, inserted, Except.map]⟩
    | ok next =>
      exact .inr ⟨cache, next, rfl, inserted, by
        simp [insertKey, tdeKeycacheInsert, attached, inserted, Except.map]⟩

theorem insert_key_tdek (state : KeyState) (entry : TdeKeyEntry) (spcOid : Oid) :
    (insertKey state entry).state.tdek spcOid =
      if (insertKey state entry).raised = none ∧ spcOid = entry.spcOid then
        (if entry.active then some entry.key else none)
      else state.tdek spcOid := by
  rcases insert_key_cases state entry with failed | succeeded
  · obtain ⟨report, outcome⟩ := failed
    simp [outcome, raise]
  · obtain ⟨cache, next, attached, inserted, outcome⟩ := succeeded
    have found := find_insert inserted spcOid
    simp only [outcome, returned, true_and, KeyState.tdek, attached, Option.bind_some, found]
    split_ifs <;> rfl

end FortressQL.Tde.KeyManage
