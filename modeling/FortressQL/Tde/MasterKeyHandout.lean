import FortressQL.Tde.KeyProvider
import FortressQL.Tde.MasterKeyRotation

/-!
# What a new master key leaves behind

A process that generates or rotates its master key writes the wrapped key and two lines of the log,
and frees the secret key that unwraps it.
-/

namespace FortressQL.Tde.MasterKeyHandout

open Option
open Elog Lib.ByteStrings Pqc.Kem Tde.KeyCache Tde.KeyManage Tde.KeyProvider Tde.KeyText
open Tde.MasterKeyFile Tde.MasterKeyRotation

inductive MasterKeyCall where
  | generate
  | rotate
  deriving DecidableEq

/-- `tde_generate_master_key` with the key it leaves in memory; it is replaced last. -/
def tdeGenerateMasterKeyState (library : KemLibrary) (gcm : TdeGcm) (dataDir : String)
    (calls : GenerateCalls) (fileCalls : FileCalls) (state : KeyState) (file : Option Bytes) :
    Option Bytes × Option Outcome :=
  match tdeGenerateMasterKey library gcm dataDir calls fileCalls file with
  | (after, .returned generated) =>
    (after, some (returned { state with masterKey := some generated.masterKey }))
  | (after, .raised report) => (after, some (raise state report))
  | (after, .crashed) => (after, none)

def performCall (library : KemLibrary) (gcm : TdeGcm) (dataDir : String) (calls : GenerateCalls)
    (fileCalls : FileCalls) (state : KeyState) (file : Option Bytes) :
    MasterKeyCall → Option Bytes × Option Outcome
  | .generate => tdeGenerateMasterKeyState library gcm dataDir calls fileCalls state file
  | .rotate => tdeRotateMasterKeyFile library gcm dataDir calls fileCalls state file

def generatedMessage : Bytes := ascii "TDE: master key generated and wrapped with ML-KEM-768"

def generatedHint : Bytes :=
  ascii ("The ML-KEM secret key must be backed up securely. " ++
    "It is required to unwrap the master key after restart.")

def rotatedMessage : Bytes := ascii "TDE: master key rotation complete"

/-- Everything that leaves a successful call: the functions return nothing, they write entries
of the log and the file. -/
def handedOut (after : Option Bytes) : List Bytes :=
  [generatedMessage, generatedHint, rotatedMessage] ++ after.toList

/-- The call returns, with this file on disk and this master key in memory. -/
def Succeeds (result : Option Bytes × Option Outcome) (after : Option Bytes) (held : Key) : Prop :=
  ∃ outcome, result = (after, some outcome) ∧ outcome.raised = none ∧
    outcome.state.masterKey = some held

def RecoverableFrom (library : KemLibrary) (gcm : TdeGcm) (dataDir : String)
    (materials : List Bytes) (after : Option Bytes) (held : Key) : Prop :=
  ∃ sources material, KeySources.material sources = some material ∧ material ∈ materials ∧
    tdeUnwrapMasterKey library gcm gcmWorks (tdeMasterKeyPath dataDir) after
      (tdeKeyProviderFetch sources) = .ok held

structure Unhindered (library : KemLibrary) (calls : GenerateCalls) (fileCalls : FileCalls)
    (state : KeyState) (call : MasterKeyCall) : Prop where
  prepared : calls.Succeed library
  allocate : fileCalls.allocate = .succeeds
  undisturbed : fileCalls.Undisturbed 6
  rotatable : call = .rotate → state.masterKey.isSome ∧ state.shmem.isSome

/-- What every provider makes of the material is not hexadecimal. -/
def Undecodable (material : Bytes) : Prop :=
  (decodeSecretKey (cString material)).toOption = none ∧
    (decodeSecretKey (stripWhitespace (cString (material.take tdeMaxHexKeyLen)))).toOption = none

instance (material : Bytes) : Decidable (Undecodable material) :=
  inferInstanceAs (Decidable (_ ∧ _))

theorem messages_undecodable :
    ∀ message ∈ [generatedMessage, generatedHint, rotatedMessage], Undecodable message := by
  decide +kernel

theorem content_start (wrapped : WrappedKey) :
    ∃ rest, wrapped.content = [0x31, 0x45, 0x44, 0x54, 1, 0] ++ rest := by
  have magic : encodeWord32 tdeMasterKeyMagic = [0x31, 0x45, 0x44, 0x54] := by decide
  have version : encodeWord32 tdeVersion = [1, 0, 0, 0] := by decide
  rw [content_header, encodeHeader]
  simp only [WrappedKey.header]
  exact ⟨_, rfl⟩

theorem content_undecodable (wrapped : WrappedKey) : Undecodable wrapped.content := by
  obtain ⟨rest, content⟩ := content_start wrapped
  have text : ∀ rest, cString ([0x31, 0x45, 0x44, 0x54, 1, 0] ++ rest) =
    [0x31, 0x45, 0x44, 0x54, 1] := fun _ => rfl
  have buffer : ([0x31, 0x45, 0x44, 0x54, 1, 0] ++ rest).take tdeMaxHexKeyLen =
      [0x31, 0x45, 0x44, 0x54, 1, 0] ++ rest.take (tdeMaxHexKeyLen - 6) := by
    rfl
  rw [Undecodable, content, buffer, text, text]
  decide

theorem undecodable_not_unwrapped {library : KemLibrary} {gcm : TdeGcm} {path : String}
    {file : Option Bytes} {sources : KeySources} {material : Bytes} {held : Key}
    (read : sources.material = some material) (undecodable : Undecodable material) :
    tdeUnwrapMasterKey library gcm gcmWorks path file (tdeKeyProviderFetch sources) ≠
      .ok held := by
  intro unwrapped
  cases file with
  | none => simp [tdeUnwrapMasterKey] at unwrapped
  | some data =>
    simp only [tdeUnwrapMasterKey, sequence_returns] at unwrapped
    obtain ⟨_, -, text, fetched, seckey, decoded, -⟩ := unwrapped
    obtain ⟨found, sameMaterial, shape⟩ := tde_key_provider_fetch_returns fetched
    obtain rfl : material = found := some.inj (read.symm.trans sameMaterial)
    rcases shape with rfl | rfl
    · simp [Undecodable, decoded, Except.toOption] at undecodable
    · simp [Undecodable, decoded, Except.toOption] at undecodable

section Calls

variable {library : KemLibrary} {gcm : TdeGcm} {dataDir : String} {calls : GenerateCalls}
  {fileCalls : FileCalls} {state : KeyState} {file after : Option Bytes} {held : Key}
  {call : MasterKeyCall}

theorem generate_returns {generated : Generated}
    (result : tdeGenerateMasterKey library gcm dataDir calls fileCalls file =
      (after, .returned generated)) :
    prepareMasterKey library gcm dataDir calls = .ok generated ∧
      fileCalls.allocate = .succeeds ∧ fileCalls.Undisturbed 6 ∧
        after = some generated.wrapped.content := by
  rw [tdeGenerateMasterKey] at result
  cases prepared : prepareMasterKey library gcm dataDir calls with
  | error report => simp [prepared] at result
  | ok made =>
    simp only [prepared] at result
    split at result
    next wrote =>
      obtain ⟨rfl, rfl⟩ := result
      exact ⟨rfl, write_file_returns_iff.mp wrote⟩
    all_goals simp at result

theorem generate_succeeds (file : Option Bytes) {generated : Generated}
    (prepared : prepareMasterKey library gcm dataDir calls = .ok generated)
    (opened : fileCalls.allocate = .succeeds) (undisturbed : fileCalls.Undisturbed 6) :
    tdeGenerateMasterKey library gcm dataDir calls fileCalls file =
      (some generated.wrapped.content, .returned generated) := by
  have wrote : tdeWriteMasterKeyFile (tdeMasterKeyPath dataDir) fileCalls file
      generated.wrapped.fields = (some generated.wrapped.content, .returned) :=
    write_file_returns_iff.mpr ⟨opened, undisturbed, rfl⟩
  simp [tdeGenerateMasterKey, prepared, wrote]

theorem unhindered_succeeds (gcm : TdeGcm) (dataDir : String) (file : Option Bytes)
    (unhindered : Unhindered library calls fileCalls state call) :
    ∃ after held, Succeeds (performCall library gcm dataDir calls fileCalls state file call)
      after held := by
  obtain ⟨generated, prepared⟩ := prepare_succeeds gcm dataDir unhindered.prepared
  have ended := generate_succeeds file prepared unhindered.allocate unhindered.undisturbed
  refine ⟨some generated.wrapped.content, generated.masterKey, ?_⟩
  cases call with
  | generate =>
    refine ⟨returned { state with masterKey := some generated.masterKey }, ?_, rfl, rfl⟩
    simp [performCall, tdeGenerateMasterKeyState, ended]
  | rotate =>
    obtain ⟨loaded, attached⟩ := unhindered.rotatable rfl
    obtain ⟨oldKey, loaded⟩ := Option.isSome_iff_exists.mp loaded
    obtain ⟨cache, attached⟩ := Option.isSome_iff_exists.mp attached
    refine ⟨returned { masterKey := some generated.masterKey, shmem := some .empty }, ?_, rfl, rfl⟩
    simp [performCall, tdeRotateMasterKeyFile, loaded, ended, tdeRotateMasterKey,
      tdeKeycacheInvalidate, attached]

section

variable (succeeded :
  Succeeds (performCall library gcm dataDir calls fileCalls state file call) after held)

include succeeded

/-- What a call that succeeds has done: nothing has failed, the file is that of a generated key
and the process holds this key. -/
theorem succeeded_call :
    Unhindered library calls fileCalls state call ∧
      ∃ generated, prepareMasterKey library gcm dataDir calls = .ok generated ∧
        after = some generated.wrapped.content ∧ held = generated.masterKey := by
  obtain ⟨outcome, result, quiet, holds⟩ := succeeded
  cases call with
  | generate =>
    rw [performCall, tdeGenerateMasterKeyState] at result
    split at result
    next generated ended =>
      obtain ⟨prepared, opened, undisturbed, rfl⟩ := generate_returns ended
      obtain ⟨rfl, rfl⟩ := result
      refine ⟨⟨(prepare_returns prepared).1, opened, undisturbed, nofun⟩, generated, prepared,
        rfl, ?_⟩
      exact (some.inj holds).symm
    next =>
      simp only [Prod.mk.injEq, some.injEq] at result
      rw [← result.2] at quiet
      simp [raise] at quiet
    next => simp at result
  | rotate =>
    rw [performCall, tdeRotateMasterKeyFile] at result
    cases loaded : state.masterKey with
    | none =>
      simp only [loaded, Prod.mk.injEq, some.injEq] at result
      rw [← result.2] at quiet
      simp [raise] at quiet
    | some oldKey =>
      simp only [loaded] at result
      split at result
      next generated ended =>
        obtain ⟨prepared, opened, undisturbed, rfl⟩ := generate_returns ended
        obtain ⟨rfl, rfl⟩ := result
        cases attached : state.shmem with
        | none =>
          simp [tdeRotateMasterKey, loaded, tdeKeycacheInvalidate, attached, raise] at quiet
        | some cache =>
          simp only [tdeRotateMasterKey, loaded, tdeKeycacheInvalidate, attached, returned,
            some.injEq] at holds
          exact ⟨⟨(prepare_returns prepared).1, opened, undisturbed,
            fun _ => by simp [loaded, attached]⟩, generated, prepared, rfl, holds.symm⟩
      next =>
        simp only [Prod.mk.injEq, some.injEq, tdeRotateMasterKey, loaded] at result
        rw [← result.2] at quiet
        simp [raise] at quiet
      next => simp at result

theorem succeeded_call_unwraps
    (standard : ∀ kem, library.kemNew "ML-KEM-768" = some kem → MlKem768 kem) :
    ∃ generated, prepareMasterKey library gcm dataDir calls = .ok generated ∧
      Unwraps library gcm dataDir after generated.secretKey held := by
  obtain ⟨-, generated, prepared, rfl, rfl⟩ := succeeded_call succeeded
  obtain ⟨-, kem, sharedSecret, supported, wraps⟩ := prepare_returns prepared
  exact ⟨generated, prepared, unwrap_content supported (standard kem supported) wraps _⟩

/-- Nothing that a successful call hands out serves as the secret key. -/
theorem succeeded_call_unrecoverable :
    ¬ RecoverableFrom library gcm dataDir (handedOut after) after held := by
  obtain ⟨-, generated, -, rfl, -⟩ := succeeded_call succeeded
  rintro ⟨sources, material, read, member, unwrapped⟩
  rcases List.mem_append.mp member with message | content
  · exact undecodable_not_unwrapped read (messages_undecodable material message) unwrapped
  · obtain rfl : material = generated.wrapped.content := by simpa using content
    exact undecodable_not_unwrapped read (content_undecodable generated.wrapped) unwrapped

end

end Calls

theorem sample_call_succeeds :
    Succeeds (performCall sampleLibrary sampleGcm "data" (sampleCalls 2) allSucceed sampleState none
      .generate) (sampleFile 2) (sampleGenerated 2).masterKey := by
  have undisturbed : allSucceed.Undisturbed 6 := ⟨fun _ _ => rfl, by decide, rfl⟩
  refine ⟨returned { sampleState with masterKey := some (sampleGenerated 2).masterKey }, ?_, rfl,
    rfl⟩
  simp only [performCall, tdeGenerateMasterKeyState,
    generate_succeeds none (sample_prepared 2) rfl undisturbed]
  rfl

end FortressQL.Tde.MasterKeyHandout
