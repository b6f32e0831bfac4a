import FortressQL.Tde.KeyManage
import FortressQL.Tde.MasterKeyFile

/-!
# Rotating the master key on disk

`tde_generate_master_key` and `tde_rotate_master_key` with the file they leave behind. A rotation
that stops while it writes leaves a file that no secret key opens.
-/

namespace FortressQL.Tde.MasterKeyRotation

open Option
open List hiding Vector

open Elog Lib.Authenticated Lib.ByteStrings Pqc.Kem Tde.KeyCache Tde.KeyManage Tde.KeyText
open Tde.MasterKeyFile

structure GenerateCalls where
  directory : Bool
  randomKey : Option Key
  keygenCoins : Bytes
  encapsCoins : Bytes
  randomIv : Option (Vector UInt8 tdeGcmIvLen)
  gcm : GcmCalls

structure Generated where
  masterKey : Key
  secretKey : Bytes
  wrapped : WrappedKey

def couldNotCreateDirectory (path : String) : ErrorReport :=
  { elevel := .error
    errcode := .fileAccess
    errmsg := s!"TDE: could not create directory \"{path}\"" }

def internalError (message : String) : ErrorReport :=
  { elevel := .error, errcode := .internalError, errmsg := message }

def gcmContextFailed : ErrorReport :=
  { elevel := .error, errcode := .outOfMemory, errmsg := "TDE: failed to allocate GCM context" }

def required {Value : Type} (value : Option Value) (report : ErrorReport) : Raises Value :=
  match value with
  | none => .error report
  | some value => .ok value

def keyDirectory (dataDir : String) : String := s!"{dataDir}/global/pg_encryption"

def tdeMasterKeyPath (dataDir : String) : String := s!"{keyDirectory dataDir}/master.key"

def prepareMasterKey (library : KemLibrary) (gcm : TdeGcm) (dataDir : String)
    (calls : GenerateCalls) : Raises Generated := do
  ensure (calls.directory = true) (couldNotCreateDirectory (keyDirectory dataDir))
  let masterKey ← required calls.randomKey
    (internalError "TDE: failed to generate random master key")
  let ctx ← pqcKemNew library mlKem768Number
  let (publicKey, secretKey) ← required (pqcKemKeygen ctx calls.keygenCoins)
    (internalError "TDE: ML-KEM-768 key generation failed")
  let encapsulated ← pqcKemEncaps ctx calls.encapsCoins publicKey
  let (kemCiphertext, sharedSecret) ← required encapsulated
    (internalError "TDE: ML-KEM-768 encapsulation failed")
  let gcmIv ← required calls.randomIv (internalError "TDE: failed to generate GCM IV")
  ensure (calls.gcm.context = true) gcmContextFailed
  ensure (calls.gcm.cipher = true)
    (internalError "TDE: AES-256-GCM wrapping of master key failed")
  let (encryptedMk, gcmTag) := gcm.encrypt sharedSecret gcmIv.toList masterKey.toList
  return ⟨masterKey, secretKey, ⟨publicKey, kemCiphertext, gcmIv.toList, encryptedMk, gcmTag⟩⟩

inductive GenerateEnd where
  | returned (generated : Generated)
  | raised (report : ErrorReport)
  | crashed

def tdeGenerateMasterKey (library : KemLibrary) (gcm : TdeGcm) (dataDir : String)
    (calls : GenerateCalls) (fileCalls : FileCalls) (file : Option Bytes) :
    Option Bytes × GenerateEnd :=
  match prepareMasterKey library gcm dataDir calls with
  | .error report => (file, .raised report)
  | .ok generated =>
    match tdeWriteMasterKeyFile (tdeMasterKeyPath dataDir) fileCalls file
        generated.wrapped.fields with
    | (after, .returned) => (after, .returned generated)
    | (after, .raised report) => (after, .raised report)
    | (after, .crashed) => (after, .crashed)

/-- `tde_rotate_master_key`: the file it leaves, and what becomes of the keys in memory unless
the process ends. -/
def tdeRotateMasterKeyFile (library : KemLibrary) (gcm : TdeGcm) (dataDir : String)
    (calls : GenerateCalls) (fileCalls : FileCalls) (state : KeyState) (file : Option Bytes) :
    Option Bytes × Option Outcome :=
  match state.masterKey with
  | none => (file, some (raise state rotateNotLoaded))
  | some _ =>
    match tdeGenerateMasterKey library gcm dataDir calls fileCalls file with
    | (after, .returned generated) =>
      (after, some (tdeRotateMasterKey state (.ok generated.masterKey)))
    | (after, .raised report) => (after, some (tdeRotateMasterKey state (.error report)))
    | (after, .crashed) => (after, none)

theorem required_returns {Value : Type} {value : Option Value} {report : ErrorReport}
    {result : Value} : required value report = .ok result ↔ value = some result := by
  cases value <;> simp [required]

/-- The public key and the ciphertext of ML-KEM-768 have the sizes of the standard, and
decapsulation inverts encapsulation. -/
structure MlKem768 (kem : OqsKem) : Prop where
  lengthPublicKey : kem.lengthPublicKey = 1184
  lengthCiphertext : kem.lengthCiphertext = 1088
  decapsulates : kem.Decapsulates

/-- How a generated key hangs together with what is written for it. -/
structure Wraps (kem : OqsKem) (gcm : TdeGcm) (generated : Generated) (sharedSecret : Bytes) :
    Prop where
  keypair : ∃ coins, kem.keypair coins =
    some (generated.wrapped.publicKey, generated.secretKey)
  encaps : ∃ coins, kem.encaps coins generated.wrapped.publicKey =
    some (generated.wrapped.kemCiphertext, sharedSecret)
  gcmIv : generated.wrapped.gcmIv.length = tdeGcmIvLen
  encrypted : gcm.encrypt sharedSecret generated.wrapped.gcmIv generated.masterKey.toList =
    (generated.wrapped.encryptedMk, generated.wrapped.gcmTag)

structure GenerateCalls.Succeed (library : KemLibrary) (calls : GenerateCalls) : Prop where
  directory : calls.directory = true
  randomKey : calls.randomKey.isSome
  kem : ∃ kem publicKey secretKey, library.kemNew "ML-KEM-768" = some kem ∧
    kem.keypair calls.keygenCoins = some (publicKey, secretKey) ∧
    (kem.encaps calls.encapsCoins publicKey).isSome
  randomIv : calls.randomIv.isSome
  context : calls.gcm.context = true
  cipher : calls.gcm.cipher = true

section Preparing

variable {library : KemLibrary} {gcm : TdeGcm} {dataDir : String} {calls : GenerateCalls}
  {generated : Generated} {kem : OqsKem} {sharedSecret : Bytes}

theorem prepare_returns (prepared : prepareMasterKey library gcm dataDir calls = .ok generated) :
    calls.Succeed library ∧ ∃ kem sharedSecret, library.kemNew "ML-KEM-768" = some kem ∧
      Wraps kem gcm generated sharedSecret := by
  simp only [prepareMasterKey, sequence_returns, ensure_returns, required_returns,
    pqc_kem_new_ml_kem_768, pqcKemEncaps] at prepared
  obtain ⟨_, directory, masterKey, randomKey, ctx, created, pair, keypair, encapsulated,
    ⟨_, -, encaps⟩, secret, found, gcmIv, randomIv, _, context, _, cipher, done⟩ := prepared
  cases supported : library.kemNew "ML-KEM-768" with
  | none => simp [supported] at created
  | some kem =>
    simp only [supported, Except.ok.injEq] at created
    subst created
    obtain rfl := Except.ok.inj encaps
    obtain rfl := Except.ok.inj done
    constructor
    · exact ⟨directory, isSome_of_mem randomKey,
        ⟨kem, pair.1, pair.2, supported, keypair, isSome_of_mem found⟩,
        isSome_of_mem randomIv, context, cipher⟩
    · exact ⟨kem, secret.2, rfl, ⟨_, keypair⟩, ⟨_, found⟩, Vector.length_toList, rfl⟩

theorem prepare_succeeds (gcm : TdeGcm) (dataDir : String) (succeed : calls.Succeed library) :
    ∃ generated, prepareMasterKey library gcm dataDir calls = .ok generated := by
  obtain ⟨masterKey, randomKey⟩ := isSome_iff_exists.mp succeed.randomKey
  obtain ⟨gcmIv, randomIv⟩ := isSome_iff_exists.mp succeed.randomIv
  obtain ⟨kem, publicKey, secretKey, supported, keypair, encapsulated⟩ := succeed.kem
  obtain ⟨secret, encaps⟩ := isSome_iff_exists.mp encapsulated
  have publicLength := (kem.keypairLengths _ _ _ keypair).1
  simp only [prepareMasterKey, ensure_holds succeed.directory, required, randomKey,
    pqc_kem_new_ml_kem_768, supported, pqcKemKeygen, keypair, pqcKemEncaps,
    ensure_holds publicLength, encaps, randomIv, ensure_holds succeed.context,
    ensure_holds succeed.cipher, ok_then]
  exact ⟨_, rfl⟩

theorem Wraps.key_lengths (wraps : Wraps kem gcm generated sharedSecret) (standard : MlKem768 kem) :
    generated.wrapped.publicKey.length = 1184 ∧
      generated.wrapped.kemCiphertext.length = 1088 := by
  obtain ⟨_, keypair⟩ := wraps.keypair
  obtain ⟨_, encaps⟩ := wraps.encaps
  rw [← standard.lengthPublicKey, ← standard.lengthCiphertext]
  exact ⟨(kem.keypairLengths _ _ _ keypair).1, (kem.encapsLengths _ _ _ _ encaps).1⟩

theorem Wraps.sized (wraps : Wraps kem gcm generated sharedSecret) (standard : MlKem768 kem) :
    generated.wrapped.Sized := by
  have ⟨publicKey, kemCiphertext⟩ := wraps.key_lengths standard
  have encryptedMk := gcm.cipherLength sharedSecret generated.wrapped.gcmIv
    generated.masterKey.toList
  have gcmTag := gcm.tagLength sharedSecret generated.wrapped.gcmIv generated.masterKey.toList
  rw [wraps.encrypted] at encryptedMk gcmTag
  constructor
  · omega
  · omega
  · exact wraps.gcmIv
  · rw [encryptedMk, Vector.length_toList]
  · exact gcmTag

theorem to_key_list (key : Key) : toKey key.toList = key := by
  simp [toKey]

theorem unwrap_content (supported : library.kemNew "ML-KEM-768" = some kem)
    (standard : MlKem768 kem) (wraps : Wraps kem gcm generated sharedSecret) (path : String) :
    tdeUnwrapMasterKey library gcm gcmWorks path (some generated.wrapped.content)
      (.ok (bytesToHex generated.secretKey)) = .ok generated.masterKey := by
  obtain ⟨_, keypair⟩ := wraps.keypair
  obtain ⟨_, encaps⟩ := wraps.encaps
  have secretLength := (kem.keypairLengths _ _ _ keypair).2
  have ciphertextLength := (kem.encapsLengths _ _ _ _ encaps).1
  have decaps := standard.decapsulates _ _ _ keypair _ _ _ encaps
  have decrypted := gcm.decryptEncrypt sharedSecret generated.wrapped.gcmIv
    generated.masterKey.toList
  rw [wraps.encrypted] at decrypted
  simp only [tdeUnwrapMasterKey, parse_content (wraps.sized standard), ok_then,
    decode_secret_key_hex, pqc_kem_new_ml_kem_768, supported, pqcKemDecaps,
    ensure_holds ciphertextLength, ensure_holds secretLength, pure_bind, decaps, gcmWorks,
    decrypted, to_key_list]
  rfl

theorem unwrap_truncated (library : KemLibrary) (standard : MlKem768 kem)
    (wraps : Wraps kem gcm generated sharedSecret) {count : Nat}
    (short : count < generated.wrapped.content.length) (path : String) (text : Raises Bytes) :
    ∃ report, tdeUnwrapMasterKey library gcm gcmWorks path
      (some (generated.wrapped.content.take count)) text = .error report := by
  obtain ⟨report, refused⟩ := parse_truncated (wraps.sized standard) short
  exact ⟨report, by simp [tdeUnwrapMasterKey, refused]⟩

theorem Wraps.last_field (wraps : Wraps kem gcm generated sharedSecret) (standard : MlKem768 kem) :
    ∃ init last, generated.wrapped.fields = init ++ [last] ∧ last ≠ [] := by
  refine ⟨_, generated.wrapped.gcmTag, (dropLast_append_getLast (cons_ne_nil _ _)).symm, ?_⟩
  intro empty
  have gcmTag := (wraps.sized standard).gcmTag
  rw [empty] at gcmTag
  exact absurd gcmTag (by decide)

def masterKeyFileSize : Nat :=
  headerSize + 1184 + 1088 + tdeGcmIvLen + tdeAesKeyLen + tdeGcmTagLen

theorem Wraps.content_length (wraps : Wraps kem gcm generated sharedSecret)
    (standard : MlKem768 kem) : generated.wrapped.content.length = masterKeyFileSize := by
  have ⟨publicKey, kemCiphertext⟩ := wraps.key_lengths standard
  have sized := wraps.sized standard
  have gcmIv := sized.gcmIv
  have encryptedMk := sized.encryptedMk
  have gcmTag := sized.gcmTag
  rw [content_header, length_append, encode_header_length]
  simp only [WrappedKey.body, flatten_cons, flatten_nil, length_append, length_nil]
  unfold masterKeyFileSize
  omega

end Preparing

section Rotating

variable {library : KemLibrary} {gcm : TdeGcm} {dataDir : String} {calls : GenerateCalls}
  {fileCalls : FileCalls} {state : KeyState} {file : Option Bytes} {generated : Generated}

/-- The file parses, and the secret key opens it to the master key. -/
def Unwraps (library : KemLibrary) (gcm : TdeGcm) (dataDir : String) (file : Option Bytes)
    (secretKey : Bytes) (masterKey : Key) : Prop :=
  tdeUnwrapMasterKey library gcm gcmWorks (tdeMasterKeyPath dataDir) file
    (.ok (bytesToHex secretKey)) = .ok masterKey

theorem rotate_file {masterKey : Key} (loaded : state.masterKey = some masterKey) :
    (tdeRotateMasterKeyFile library gcm dataDir calls fileCalls state file).1 =
      (tdeGenerateMasterKey library gcm dataDir calls fileCalls file).1 := by
  rw [tdeRotateMasterKeyFile, loaded]
  rcases tdeGenerateMasterKey library gcm dataDir calls fileCalls file with ⟨-, ended⟩
  cases ended <;> rfl

theorem generate_file (prepared : prepareMasterKey library gcm dataDir calls = .ok generated) :
    (tdeGenerateMasterKey library gcm dataDir calls fileCalls file).1 =
      (tdeWriteMasterKeyFile (tdeMasterKeyPath dataDir) fileCalls file
        generated.wrapped.fields).1 := by
  simp only [tdeGenerateMasterKey, prepared]
  rcases tdeWriteMasterKeyFile (tdeMasterKeyPath dataDir) fileCalls file
    generated.wrapped.fields with ⟨-, ended⟩
  cases ended <;> rfl

theorem write_file_unopened {path : String} {fields : List Bytes}
    (closed : fileCalls.allocate ≠ .succeeds) :
    (tdeWriteMasterKeyFile path fileCalls file fields).1 = file := by
  cases ended : fileCalls.allocate with
  | succeeds => exact absurd ended closed
  | fails => rw [tdeWriteMasterKeyFile, ended]
  | crashes => rw [tdeWriteMasterKeyFile, ended]

def StopsEarly (library : KemLibrary) (calls : GenerateCalls) (fileCalls : FileCalls)
    (state : KeyState) : Prop :=
  state.masterKey = none ∨ ¬ calls.Succeed library ∨ fileCalls.allocate ≠ .succeeds

theorem stops_early_file (early : StopsEarly library calls fileCalls state) :
    (tdeRotateMasterKeyFile library gcm dataDir calls fileCalls state file).1 = file := by
  cases loaded : state.masterKey with
  | none => rw [tdeRotateMasterKeyFile, loaded]
  | some masterKey =>
    rw [rotate_file loaded]
    cases prepared : prepareMasterKey library gcm dataDir calls with
    | error report => rw [tdeGenerateMasterKey, prepared]
    | ok generated =>
      rw [generate_file prepared]
      rcases early with missing | failed | closed
      · exact absurd (loaded.symm.trans missing) (some_ne_none _)
      · exact absurd (prepare_returns prepared).1 failed
      · exact write_file_unopened closed

theorem opened_file (gcm : TdeGcm) (dataDir : String) (file : Option Bytes)
    (standard : ∀ kem, library.kemNew "ML-KEM-768" = some kem → MlKem768 kem)
    (opened : ¬ StopsEarly library calls fileCalls state) :
    ∃ kem generated sharedSecret count, library.kemNew "ML-KEM-768" = some kem ∧
      prepareMasterKey library gcm dataDir calls = .ok generated ∧
      Wraps kem gcm generated sharedSecret ∧
      (tdeRotateMasterKeyFile library gcm dataDir calls fileCalls state file).1 =
        some (generated.wrapped.content.take count) ∧
      (generated.wrapped.content.length ≤ count ↔ fileCalls.Delivers 6 masterKeyFileSize) := by
  simp only [StopsEarly, not_or, not_not] at opened
  obtain ⟨loaded, succeed, allocated⟩ := opened
  obtain ⟨masterKey, loaded⟩ := ne_none_iff_exists'.mp loaded
  obtain ⟨generated, prepared⟩ := prepare_succeeds gcm dataDir succeed
  obtain ⟨-, kem, sharedSecret, supported, wraps⟩ := prepare_returns prepared
  have meets := standard kem supported
  obtain ⟨count, written, whole⟩ := write_file_opened (tdeMasterKeyPath dataDir) file
    allocated (wraps.last_field meets)
  refine ⟨kem, generated, sharedSecret, count, supported, prepared, wraps, ?_, ?_⟩
  · rw [rotate_file loaded, generate_file prepared, written]
    rfl
  · rw [← wraps.content_length meets]
    exact whole

/-- Rotation leaves a file that opens to the old or the new key exactly if it stops before the file
is open or all of the new content gets there. -/
theorem rotation_recoverable_iff
    (standard : ∀ kem, library.kemNew "ML-KEM-768" = some kem → MlKem768 kem) {oldSecret : Bytes}
    {oldKey : Key} (before : Unwraps library gcm dataDir file oldSecret oldKey) :
    (Unwraps library gcm dataDir
        (tdeRotateMasterKeyFile library gcm dataDir calls fileCalls state file).1
        oldSecret oldKey ∨
      ∃ generated, prepareMasterKey library gcm dataDir calls = .ok generated ∧
        Unwraps library gcm dataDir
          (tdeRotateMasterKeyFile library gcm dataDir calls fileCalls state file).1
          generated.secretKey generated.masterKey) ↔
      StopsEarly library calls fileCalls state ∨ fileCalls.Delivers 6 masterKeyFileSize := by
  by_cases early : StopsEarly library calls fileCalls state
  · rw [stops_early_file early]
    exact iff_of_true (.inl before) (.inl early)
  · obtain ⟨kem, generated, sharedSecret, count, supported, prepared, wraps, after, whole⟩ :=
      opened_file gcm dataDir file standard early
    have meets := standard kem supported
    rw [after, ← whole]
    constructor
    · intro recovered
      refine .inr (Nat.le_of_not_lt fun short => ?_)
      have refused := fun text => unwrap_truncated library meets wraps short
        (tdeMasterKeyPath dataDir) text
      rcases recovered with old | ⟨_, -, new⟩
      · obtain ⟨report, raised⟩ := refused (.ok (bytesToHex oldSecret))
        exact absurd (raised.symm.trans old) (by simp)
      · obtain ⟨report, raised⟩ := refused (.ok (bytesToHex _))
        exact absurd (raised.symm.trans new) (by simp)
    · rintro (stopped | arrived)
      · exact absurd stopped early
      · refine .inr ⟨generated, prepared, ?_⟩
        rw [take_of_length_le arrived]
        exact unwrap_content supported meets wraps _

end Rotating

def sampleKem : OqsKem where
  lengthPublicKey := 1184
  lengthSecretKey := 2400
  lengthCiphertext := 1088
  lengthSharedSecret := 1
  keypair coins := some (List.replicate 1184 (coins.headD 0), List.replicate 2400 (coins.headD 0))
  encaps coins publicKey :=
    some (List.replicate 1088 (coins.headD 0 ^^^ publicKey.headD 0), [coins.headD 0])
  decaps ciphertext secretKey := some [ciphertext.headD 0 ^^^ secretKey.headD 0]
  keypairLengths := by
    intro coins publicKey secretKey generated
    simp only [Option.some.injEq, Prod.mk.injEq] at generated
    rw [← generated.1, ← generated.2, List.length_replicate, List.length_replicate]
    exact ⟨rfl, rfl⟩
  encapsLengths := by
    intro coins publicKey ciphertext sharedSecret encapsulated
    simp only [Option.some.injEq, Prod.mk.injEq] at encapsulated
    rw [← encapsulated.1, ← encapsulated.2, List.length_replicate]
    exact ⟨rfl, rfl⟩

theorem head_replicate (count : Nat) (byte : UInt8) :
    (replicate (count + 1) byte).headD 0 = byte := rfl

theorem sample_decapsulates : sampleKem.Decapsulates := by
  intro keyCoins publicKey secretKey generated coins ciphertext sharedSecret encapsulated
  simp only [sampleKem] at ⊢
  obtain ⟨rfl, rfl⟩ := generated
  obtain ⟨rfl, rfl⟩ := encapsulated
  rw [head_replicate 1087, head_replicate 1183, head_replicate 2399, UInt8.xor_assoc,
    UInt8.xor_self, UInt8.xor_zero]

def sampleLibrary : KemLibrary :=
  { kemNew := fun name => if name = "ML-KEM-768" then some sampleKem else none }

theorem sample_standard (kem : OqsKem)
    (supported : sampleLibrary.kemNew "ML-KEM-768" = some kem) : MlKem768 kem := by
  obtain rfl : sampleKem = kem := some.inj supported
  exact ⟨rfl, rfl, sample_decapsulates⟩

def sampleCalls (byte : UInt8) : GenerateCalls :=
  { directory := true
    randomKey := some (Vector.replicate tdeAesKeyLen byte)
    keygenCoins := [byte]
    encapsCoins := [byte]
    randomIv := some (Vector.replicate tdeGcmIvLen byte)
    gcm := gcmWorks }

def sampleGcm : TdeGcm := transparent tdeGcmTagLen

def sampleGenerated (byte : UInt8) : Generated :=
  let gcmIv := (Vector.replicate tdeGcmIvLen byte).toList
  let masterKey : Key := Vector.replicate tdeAesKeyLen byte
  let encrypted := sampleGcm.encrypt [byte] gcmIv masterKey.toList
  { masterKey := masterKey
    secretKey := List.replicate 2400 byte
    wrapped := ⟨List.replicate 1184 byte, List.replicate 1088 (byte ^^^ byte), gcmIv,
      encrypted.1, encrypted.2⟩ }

def sampleFile (byte : UInt8) : Option Bytes := some (sampleGenerated byte).wrapped.content

theorem sample_wraps (byte : UInt8) : Wraps sampleKem sampleGcm (sampleGenerated byte) [byte] :=
  ⟨⟨[byte], rfl⟩, ⟨[byte], rfl⟩, Vector.length_toList, rfl⟩

theorem sample_unwraps (byte : UInt8) :
    Unwraps sampleLibrary sampleGcm "data" (sampleFile byte) (sampleGenerated byte).secretKey
      (sampleGenerated byte).masterKey :=
  unwrap_content rfl (sample_standard sampleKem rfl) (sample_wraps byte) _

theorem sample_prepared (byte : UInt8) :
    prepareMasterKey sampleLibrary sampleGcm "data" (sampleCalls byte) =
      .ok (sampleGenerated byte) := by
  have publicLength : (replicate 1184 byte).length = sampleKem.lengthPublicKey :=
    length_replicate
  have keypair : sampleKem.keypair [byte] =
    some (replicate 1184 byte, replicate 2400 byte) := rfl
  have supported : sampleLibrary.kemNew "ML-KEM-768" = some sampleKem := rfl
  simp only [prepareMasterKey, sampleCalls, ok_then, required, pqc_kem_new_ml_kem_768, supported,
    pqcKemKeygen, keypair, pqcKemEncaps, ensure_holds publicLength]
  rfl

def sampleState : KeyState := { masterKey := some (sampleGenerated 1).masterKey, shmem := none }

def allSucceed : FileCalls :=
  { allocate := .succeeds, write := fun _ => .succeeds, fsync := .succeeds, free := .succeeds,
    reached := 0 }

def diskFull : FileCalls :=
  { allSucceed with write := fun index => if index = 2 then .fails else .succeeds }

theorem completed_rotation_recoverable :
    let after := (tdeRotateMasterKeyFile sampleLibrary sampleGcm "data" (sampleCalls 2) allSucceed
      sampleState (sampleFile 1)).1
    Unwraps sampleLibrary sampleGcm "data" after (sampleGenerated 1).secretKey
        (sampleGenerated 1).masterKey ∨
      ∃ generated, prepareMasterKey sampleLibrary sampleGcm "data" (sampleCalls 2) =
          .ok generated ∧
        Unwraps sampleLibrary sampleGcm "data" after generated.secretKey generated.masterKey :=
  (rotation_recoverable_iff sample_standard (sample_unwraps 1)).mpr
    (.inr (.inl ⟨fun _ _ => rfl, by decide, rfl⟩))

/-- A rotation that meets a full disk leaves an empty file that no secret key opens. -/
theorem full_disk_rotation_unrecoverable :
    Unwraps sampleLibrary sampleGcm "data" (sampleFile 1) (sampleGenerated 1).secretKey
        (sampleGenerated 1).masterKey ∧
      tdeRotateMasterKeyFile sampleLibrary sampleGcm "data" (sampleCalls 2) diskFull sampleState
          (sampleFile 1) =
        (some [], some (raise sampleState (couldNotWrite (tdeMasterKeyPath "data")))) ∧
      ∀ text, ∃ report, tdeUnwrapMasterKey sampleLibrary sampleGcm gcmWorks
        (tdeMasterKeyPath "data") (some []) text = .error report := by
  refine ⟨sample_unwraps 1, ?_, fun _ => ⟨_, rfl⟩⟩
  simp only [tdeRotateMasterKeyFile, tdeGenerateMasterKey, sample_prepared]
  rfl

end FortressQL.Tde.MasterKeyRotation
