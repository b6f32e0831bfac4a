import FortressQL.Lib.Authenticated
import FortressQL.Lib.ByteMemory
import FortressQL.Pgcrypto.AuditKeys
import FortressQL.Tde.MasterKeyRotation

/-!
# Encrypted column values

`pqc_encrypt_column`, `pqc_encrypt_text` and their decoders. The decoders take pieces of the
envelope by address, so they work on a memory in which the value stands at address 0.
-/

namespace FortressQL.Pgcrypto.ColumnCrypt

open List Elog Lib.Authenticated Lib.ByteMemory Lib.ByteStrings Pgcrypto.AuditKeys Pqc.Kem
open Pqc.Signatures Tde.MasterKeyRotation

variable {ctLen dataLen : Nat} {memory : Memory}

def aesGcmIvLen : Nat := 12

def aesGcmTagLen : Nat := 16

inductive CryptCall where
  | hkdfContext
  | hkdfSetup
  | hkdfDerive
  | cipherContext
  | cipher
  | tag

/-- What the functions call on; `hkdf` is HKDF-SHA256 of a salt, a secret and an info. -/
structure ColumnCrypto where
  library : KemLibrary
  hkdf : Bytes → Bytes → Bytes → Bytes
  gcm : Cipher aesGcmTagLen
  calls : CryptCall → Bool

def invalidParameter (errmsg : String) : ErrorReport :=
  { elevel := .error, errcode := .invalidParameterValue, errmsg := errmsg }

def unknownAlgorithm (algName : String) : ErrorReport :=
  { invalidParameter s!"unknown PQC algorithm: \"{algName}\"" with
    errhint := "Use SELECT * FROM pqc_algorithms() to list available algorithms." }

def parseAlgorithm (algName : String) : Raises PqcAlgorithm :=
  match pqcAlgorithmFromName algName with
  | none => .error (unknownAlgorithm algName)
  | some alg => .ok alg

def pqcAlgorithmIsKem (alg : PqcAlgorithm) : Bool :=
  match pqcGetAlgorithmInfo alg with
  | none => false
  | some info => info.type = .kem

/-- The tests that every function begins with, and the number for `pqc_kem_new`. -/
def kemAlgorithm (algName : String) : Raises UInt32 := do
  let alg ← parseAlgorithm algName
  ensure (pqcAlgorithmIsKem alg = true)
    (invalidParameter s!"\"{pqcAlgorithmName alg}\" is not a KEM algorithm")
  return UInt32.ofNat (algorithmNumber alg)

section Functions

variable (crypto : ColumnCrypto)

def deriveAesKey (sharedSecret : Bytes) : Raises Bytes := do
  ensure (crypto.calls .hkdfContext = true) (externalRoutine "HKDF initialization failed")
  ensure (crypto.calls .hkdfSetup = true) (externalRoutine "HKDF parameter setup failed")
  ensure (crypto.calls .hkdfDerive = true) (externalRoutine "HKDF key derivation failed")
  return crypto.hkdf (ascii "FortressQL-PQC-v1") sharedSecret (ascii "aes-256-gcm")

/-- `aes_gcm_encrypt`; `iv` is what `RAND_bytes` drew, if it did. -/
def aesGcmEncrypt (iv : Option Bytes) (plaintext key : Bytes) : Raises Bytes :=
  match iv with
  | none => .error (externalRoutine "failed to generate random IV")
  | some iv => do
      ensure (crypto.calls .cipherContext = true) (outOfMemory "failed to create cipher context")
      ensure (crypto.calls .cipher = true) (externalRoutine "AES-256-GCM encryption failed")
      ensure (crypto.calls .tag = true)
        (externalRoutine "failed to get GCM authentication tag")
      let sealedText := crypto.gcm.encrypt key iv plaintext
      return iv ++ (sealedText.1 ++ sealedText.2)

def authenticationFailed : ErrorReport :=
  { elevel := .error
    errcode := .dataCorrupted
    errmsg := "AES-256-GCM authentication failed: data has been tampered with" }

def aesGcmDecrypt (memory : Memory) (data dataLen : Nat) (key : Bytes) : Raises Bytes := do
  ensure (¬ dataLen < aesGcmIvLen + aesGcmTagLen) (invalidParameter "encrypted data too short")
  let ctLen := dataLen - aesGcmIvLen - aesGcmTagLen
  let ciphertext := data + aesGcmIvLen
  let tag := data + aesGcmIvLen + ctLen
  ensure (crypto.calls .cipherContext = true) (outOfMemory "failed to create cipher context")
  ensure (crypto.calls .cipher = true) (externalRoutine "AES-256-GCM decryption failed")
  ensure (crypto.calls .tag = true) (externalRoutine "failed to set GCM tag for verification")
  match crypto.gcm.decrypt key (load memory data aesGcmIvLen) (load memory ciphertext ctLen)
      (load memory tag aesGcmTagLen) with
  | none => .error authenticationFailed
  | some plaintext => return plaintext

def hton32 (value : UInt32) : Bytes := (encodeWord32 value).reverse

def ntoh32 (bytes : Bytes) : UInt32 := decodeWord32 bytes.reverse

/-- The body of both encoders; `purpose` is the word their error message ends with. -/
def sealEnvelope (purpose : String) (algName : String) (coins : Bytes) (iv : Option Bytes)
    (data publicKey : Bytes) : Raises Bytes := do
  let alg ← kemAlgorithm algName
  let ctx ← pqcKemNew crypto.library alg
  let encapsulated ← pqcKemEncaps ctx coins publicKey
  match encapsulated with
  | none => .error (externalRoutine s!"KEM encapsulation failed for {purpose} encryption")
  | some (ct, ss) => do
      let aesKey ← deriveAesKey crypto ss
      let aesEncrypted ← aesGcmEncrypt crypto iv data aesKey
      return hton32 (UInt32.ofNat ct.length) ++ (ct ++ aesEncrypted)

def pqcEncryptColumn := sealEnvelope crypto "column"

def pqcEncryptText := sealEnvelope crypto "text"

def sizeSub (left right : Nat) : Nat :=
  if right ≤ left then left - right else left + 2 ^ 64 - right

/-- The words in which the error messages of the two decoders differ. -/
structure DecoderTexts where
  value : String
  purpose : String

/-- The body of both decoders. The sum in the second length check is one of `uint32`. -/
def openEnvelope (texts : DecoderTexts) (algName : String) (memory : Memory) (dataLen : Nat)
    (secretKey : Bytes) : Raises Bytes := do
  let alg ← kemAlgorithm algName
  ensure (¬ dataLen < 4) (invalidParameter s!"{texts.value} too short")
  let ctLen := ntoh32 (load memory 0 4)
  ensure (¬ dataLen < (4 + ctLen + 12 + 16).toNat)
    (invalidParameter s!"{texts.value} too short for KEM ciphertext")
  let aesBlob := 4 + ctLen.toNat
  let aesBlobLen := sizeSub (sizeSub dataLen 4) ctLen.toNat
  let ctx ← pqcKemNew crypto.library alg
  let decapsulated ← pqcKemDecaps ctx (load memory 4 ctLen.toNat) secretKey
  match decapsulated with
  | none => .error (externalRoutine s!"KEM decapsulation failed for {texts.purpose} decryption")
  | some ss => do
      let aesKey ← deriveAesKey crypto ss
      aesGcmDecrypt crypto memory aesBlob aesBlobLen aesKey

def pqcDecryptColumn := openEnvelope crypto ⟨"encrypted column data", "column"⟩

def pqcDecryptText := openEnvelope crypto ⟨"encrypted data", "text"⟩

end Functions

theorem ntoh32_hton32 (value : UInt32) : ntoh32 (hton32 value) = value := by
  rw [ntoh32, hton32]
  simpa using decode_encode_word32 value []

theorem guard_sum {ctLen : UInt32} (small : ctLen.toNat + 32 < 2 ^ 32) :
    (4 + ctLen + 12 + 16).toNat = ctLen.toNat + 32 := by
  simp only [UInt32.toNat_add, UInt32.reduceToNat]
  omega

theorem blob_length (room : ctLen + 4 ≤ dataLen) :
    sizeSub (sizeSub dataLen 4) ctLen = dataLen - 4 - ctLen := by
  have four : sizeSub dataLen 4 = dataLen - 4 := if_pos (by omega)
  rw [four]
  exact if_pos (by omega)

section RoundTrip

variable {crypto : ColumnCrypto} {algName : String} {alg : UInt32} {ctx : PqcKemContext}
  {keyCoins publicKey secretKey coins ct ss iv plaintext key : Bytes}
  (works : ∀ call, crypto.calls call = true)

include works

def aesBlob (crypto : ColumnCrypto) (iv plaintext key : Bytes) : Bytes :=
  iv ++ ((crypto.gcm.encrypt key iv plaintext).1 ++ (crypto.gcm.encrypt key iv plaintext).2)

omit works in
theorem aes_blob_length (ivLength : iv.length = aesGcmIvLen) :
    (aesBlob crypto iv plaintext key).length = 12 + plaintext.length + 16 := by
  rw [aesBlob, length_append, length_append, ivLength, crypto.gcm.tagLength,
    crypto.gcm.cipherLength, add_assoc]
  rfl

theorem aes_gcm_decrypt_blob (ivLength : iv.length = aesGcmIvLen) {data : Nat}
    (loaded : load memory data (aesBlob crypto iv plaintext key).length =
      aesBlob crypto iv plaintext key) :
    aesGcmDecrypt crypto memory data (aesBlob crypto iv plaintext key).length key =
      .ok plaintext := by
  obtain ⟨ivLoaded, afterIv⟩ := load_pieces loaded
  obtain ⟨payloadLoaded, tagLoaded⟩ := load_pieces afterIv
  rw [crypto.gcm.tagLength] at tagLoaded
  rw [crypto.gcm.cipherLength] at payloadLoaded tagLoaded
  rw [ivLength] at ivLoaded payloadLoaded tagLoaded
  have long : ¬ 12 + plaintext.length + 16 < aesGcmIvLen + aesGcmTagLen := by
    simp only [aesGcmIvLen, aesGcmTagLen]
    omega
  have payloadLen : 12 + plaintext.length + 16 - aesGcmIvLen - aesGcmTagLen =
      plaintext.length := by
    simp only [aesGcmIvLen, aesGcmTagLen]
    omega
  simp only [aesGcmDecrypt, aes_blob_length ivLength, ensure_holds long, ensure_holds (works _),
    payloadLen, ivLoaded, payloadLoaded, tagLoaded, crypto.gcm.decryptEncrypt]
  rfl

variable (accepted : kemAlgorithm algName = .ok alg)
  (created : pqcKemNew crypto.library alg = .ok ctx)
  (generated : ctx.oqsKem.keypair keyCoins = some (publicKey, secretKey))
  (encapsulated : ctx.oqsKem.encaps coins publicKey = some (ct, ss))

include accepted created generated encapsulated

def envelope (crypto : ColumnCrypto) (ct ss iv plaintext : Bytes) : Bytes :=
  hton32 (UInt32.ofNat ct.length) ++ (ct ++ aesBlob crypto iv plaintext
    (crypto.hkdf (ascii "FortressQL-PQC-v1") ss (ascii "aes-256-gcm")))

theorem seal_returns (purpose : String) :
    sealEnvelope crypto purpose algName coins (some iv) plaintext publicKey =
      .ok (envelope crypto ct ss iv plaintext) := by
  have sized := (ctx.oqsKem.keypairLengths _ _ _ generated).1
  simp only [sealEnvelope, accepted, created, pqcKemEncaps, ensure_holds sized, encapsulated,
    deriveAesKey, aesGcmEncrypt, ensure_holds (works _), ok_then]
  rfl

theorem open_returns (texts : DecoderTexts) (decapsulates : ctx.oqsKem.Decapsulates)
    (small : ctx.oqsKem.lengthCiphertext + 32 < 2 ^ 32) (ivLength : iv.length = aesGcmIvLen)
    (stored : load memory 0 (envelope crypto ct ss iv plaintext).length =
      envelope crypto ct ss iv plaintext) :
    openEnvelope crypto texts algName memory (envelope crypto ct ss iv plaintext).length
      secretKey = .ok plaintext := by
  have secretLength := (ctx.oqsKem.keypairLengths _ _ _ generated).2
  have ctLength := (ctx.oqsKem.encapsLengths _ _ _ _ encapsulated).1
  have decapsulated := decapsulates _ _ _ generated _ _ _ encapsulated
  have ctLen : (UInt32.ofNat ct.length).toNat = ct.length := by
    rw [UInt32.toNat_ofNat', Nat.mod_eq_of_lt (by omega)]
  have four : (hton32 (UInt32.ofNat ct.length)).length = 4 := rfl
  obtain ⟨lengthLoaded, afterLength⟩ := load_pieces stored
  obtain ⟨ctLoaded, blobLoaded⟩ := load_pieces afterLength
  rw [four] at lengthLoaded
  rw [four] at ctLoaded
  have opened := aes_gcm_decrypt_blob works ivLength blobLoaded
  generalize dataLength : (envelope crypto ct ss iv plaintext).length = dataLen
  rw [envelope, length_append, length_append, aes_blob_length ivLength] at dataLength
  have long : ¬ dataLen < 4 := by omega
  have guarded : ¬ dataLen < (4 + UInt32.ofNat ct.length + 12 + 16).toNat := by
    rw [guard_sum (by omega)]
    omega
  have blobLen : sizeSub (sizeSub dataLen 4) ct.length = (aesBlob crypto iv plaintext
      (crypto.hkdf (ascii "FortressQL-PQC-v1") ss (ascii "aes-256-gcm"))).length := by
    rw [aes_blob_length ivLength, blob_length (by omega)]
    omega
  simp only [openEnvelope, accepted, created, ensure_holds long, ok_then]
  rw [lengthLoaded, ntoh32_hton32, ensure_holds guarded, ctLen, ctLoaded, blobLen, pqcKemDecaps,
    ensure_holds ctLength, ensure_holds secretLength, decapsulated]
  simp only [deriveAesKey, ensure_holds (works _)]
  exact opened

/-- Both encoders make the same envelope of a value, and both decoders return the value. -/
theorem column_round_trip (decapsulates : ctx.oqsKem.Decapsulates)
    (small : ctx.oqsKem.lengthCiphertext + 32 < 2 ^ 32) (ivLength : iv.length = aesGcmIvLen)
    (plaintext : Bytes) :
    ∃ sealedValue,
      pqcEncryptColumn crypto algName coins (some iv) plaintext publicKey = .ok sealedValue ∧
      pqcEncryptText crypto algName coins (some iv) plaintext publicKey = .ok sealedValue ∧
      ∀ memory, load memory 0 sealedValue.length = sealedValue →
        pqcDecryptColumn crypto algName memory sealedValue.length secretKey = .ok plaintext ∧
        pqcDecryptText crypto algName memory sealedValue.length secretKey = .ok plaintext := by
  refine ⟨envelope crypto ct ss iv plaintext,
    seal_returns works accepted created generated encapsulated _,
    seal_returns works accepted created generated encapsulated _, ?_⟩
  intro memory stored
  exact ⟨open_returns works accepted created generated encapsulated _ decapsulates small ivLength
      stored,
    open_returns works accepted created generated encapsulated _ decapsulates small ivLength stored⟩

end RoundTrip

def sampleCrypto : ColumnCrypto :=
  { library := sampleLibrary
    hkdf := fun salt secret info => salt ++ secret ++ info
    gcm := transparent aesGcmTagLen
    calls := fun _ => true }

theorem sample_column_round_trip :
    ∃ sealedValue,
      pqcEncryptColumn sampleCrypto "ML-KEM-768" [2] (some (List.replicate 12 3)) [7, 8, 9]
        (List.replicate 1184 1) = .ok sealedValue ∧
      pqcEncryptText sampleCrypto "ML-KEM-768" [2] (some (List.replicate 12 3)) [7, 8, 9]
        (List.replicate 1184 1) = .ok sealedValue ∧
      ∀ memory, load memory 0 sealedValue.length = sealedValue →
        pqcDecryptColumn sampleCrypto "ML-KEM-768" memory sealedValue.length
          (List.replicate 2400 1) = .ok [7, 8, 9] ∧
        pqcDecryptText sampleCrypto "ML-KEM-768" memory sealedValue.length
          (List.replicate 2400 1) = .ok [7, 8, 9] :=
  @column_round_trip sampleCrypto "ML-KEM-768" mlKem768Number ⟨sampleKem, .mlKem768⟩ [1]
    (replicate 1184 1) (replicate 2400 1) [2] _ _ (replicate 12 3)
    (fun _ => rfl) rfl rfl rfl rfl sample_decapsulates (by decide) rfl [7, 8, 9]

section Parsing

theorem pqc_kem_new_returns {library : KemLibrary} {number : UInt32} {ctx : PqcKemContext}
    (created : pqcKemNew library number = .ok ctx) :
    ∃ name, library.kemNew name = some ctx.oqsKem := by
  unfold pqcKemNew at created
  split at created
  · cases created
  split at created
  · cases created
  split at created
  · cases created
  · rename_i oqsKem found
    cases created
    exact ⟨_, found⟩

theorem ensure_fails {condition : Prop} [Decidable condition] {report : ErrorReport}
    (fails : ¬ condition) : ensure condition report = .error report :=
  if_neg fails

def slices (ctLen dataLen : Nat) : List (Nat × Nat) :=
  let aesBlob := 4 + ctLen
  let payloadLen := sizeSub (sizeSub dataLen 4) ctLen - aesGcmIvLen - aesGcmTagLen
  [(4, ctLen), (aesBlob, aesGcmIvLen), (aesBlob + aesGcmIvLen, payloadLen),
    (aesBlob + aesGcmIvLen + payloadLen, aesGcmTagLen)]

def InRange (pieces : List (Nat × Nat)) (dataLen : Nat) : Prop :=
  (∀ piece ∈ pieces, piece.1 + piece.2 ≤ dataLen) ∧
    pieces.Pairwise fun left right => left.1 + left.2 ≤ right.1

theorem slices_in_range (room : ctLen + 32 ≤ dataLen) : InRange (slices ctLen dataLen) dataLen := by
  simp only [InRange, slices, blob_length (by omega : ctLen + 4 ≤ dataLen), aesGcmIvLen,
    aesGcmTagLen]
  simp
  omega

/-- The call ends with a report whatever stands behind the length field. -/
def ReportsUnread (decode : Memory → Raises Bytes) (memory : Memory) : Prop :=
  ∃ report, ∀ other, load other 0 4 = load memory 0 4 → decode other = .error report

/-- Only the length field and the pieces are read, and they lie in the value. -/
def StaysInRange (decode : Memory → Raises Bytes) (memory : Memory) (dataLen : Nat) : Prop :=
  let pieces := slices (ntoh32 (load memory 0 4)).toNat dataLen
  (∀ other, (∀ piece ∈ (0, 4) :: pieces,
      load other piece.1 piece.2 = load memory piece.1 piece.2) →
    decode other = decode memory) ∧
  (InRange pieces dataLen ∨ ReportsUnread decode memory)

variable {crypto : ColumnCrypto}

theorem open_reads_slices (texts : DecoderTexts) (algName : String) {other : Memory}
    (secretKey : Bytes) (same : ∀ piece ∈ (0, 4) :: slices (ntoh32 (load memory 0 4)).toNat dataLen,
      load other piece.1 piece.2 = load memory piece.1 piece.2) :
    openEnvelope crypto texts algName other dataLen secretKey =
      openEnvelope crypto texts algName memory dataLen secretKey := by
  simp only [slices, forall_mem_cons] at same
  obtain ⟨length, ciphertext, iv, payload, tag, -⟩ := same
  simp [openEnvelope, aesGcmDecrypt, length, ciphertext, iv, payload, tag]

variable (small : ∀ name kem, crypto.library.kemNew name = some kem →
  kem.lengthCiphertext + 32 < 2 ^ 32)

include small

theorem open_in_range (texts : DecoderTexts) (algName : String) (memory : Memory) (dataLen : Nat)
    (secretKey : Bytes) :
    InRange (slices (ntoh32 (load memory 0 4)).toNat dataLen) dataLen ∨
      ReportsUnread (fun other => openEnvelope crypto texts algName other dataLen secretKey)
        memory := by
  by_cases room : (ntoh32 (load memory 0 4)).toNat + 32 ≤ dataLen
  · exact Or.inl (slices_in_range room)
  right
  unfold openEnvelope
  cases kemAlgorithm algName with
  | error report => exact ⟨report, fun _ _ => rfl⟩
  | ok alg =>
    by_cases short : dataLen < 4
    · apply Exists.intro
      intro _ _
      simp only [ensure_fails (not_not_intro short)]
      rfl
    by_cases refused : dataLen < (4 + ntoh32 (load memory 0 4) + 12 + 16).toNat
    · apply Exists.intro
      intro _ same
      simp only [ensure_holds short, same, ensure_fails (not_not_intro refused)]
      rfl
    -- the guard let a length pass whose sum has a carry; no mechanism has such ciphertexts
    cases created : pqcKemNew crypto.library alg with
    | error report =>
      apply Exists.intro report
      intro _ same
      simp only [ok_then, ensure_holds short, same, ensure_holds refused, created, error_then]
    | ok ctx =>
      obtain ⟨name, found⟩ := pqc_kem_new_returns created
      have ctLen : (ntoh32 (load memory 0 4)).toNat ≠ ctx.oqsKem.lengthCiphertext := by
        intro same
        have fits := small _ _ found
        rw [guard_sum (by omega)] at refused
        omega
      apply Exists.intro
      intro _ same
      simp only [ok_then, ensure_holds short, same, ensure_holds refused, created, pqcKemDecaps,
        load_length, ensure_fails ctLen]
      rfl

theorem column_slices_in_range (algName : String) (memory : Memory) (dataLen : Nat)
    (secretKey : Bytes) :
    StaysInRange (fun other => pqcDecryptColumn crypto algName other dataLen secretKey) memory
        dataLen ∧
      StaysInRange (fun other => pqcDecryptText crypto algName other dataLen secretKey) memory
        dataLen :=
  ⟨⟨fun _ => open_reads_slices _ _ _, open_in_range small _ _ _ _ _⟩,
    ⟨fun _ => open_reads_slices _ _ _, open_in_range small _ _ _ _ _⟩⟩

omit small in
theorem carried_slices_in_range :
    StaysInRange (fun other => pqcDecryptColumn sampleCrypto "ML-KEM-768" other 31 [])
        (fun _ => 255) 31 ∧
      StaysInRange (fun other => pqcDecryptText sampleCrypto "ML-KEM-768" other 31 [])
        (fun _ => 255) 31 := by
  apply column_slices_in_range
  intro name kem found
  simp only [sampleCrypto, sampleLibrary] at found
  split at found
  · cases found
    decide
  · cases found

end Parsing

end FortressQL.Pgcrypto.ColumnCrypt
