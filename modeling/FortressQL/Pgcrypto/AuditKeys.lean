import Mathlib.Data.List.MinMax
import FortressQL.Lib.ByteStrings
import FortressQL.Pqc.Signatures

/-!
# Audit signing keys

The table `pqc_audit_keys`, `load_audit_key` and `pqc_audit_init_keys`, with the Ed25519 helpers
around OpenSSL.
-/

namespace FortressQL.Pgcrypto.AuditKeys

open List Elog Lib.ByteStrings Pqc.Signatures

/-- The calls of OpenSSL whose failure the audit functions report. -/
inductive EvpCall where
  | keyContext
  | keygen
  | publicKeyLength
  | publicKey
  | privateKeyLength
  | privateKey
  | signContext
  | signInit
  | signSize
  | sign
  | verifyContext
  | verifyInit
  | messageContext
  | messageDigest
  | entryContext
  | entryInit
  | entryFinal
  deriving DecidableEq, Repr

/-- A signature key that does not load has no signature, a verification key verifies nothing. -/
structure OpenSsl where
  ed25519Keypair : Bytes → Bytes × Bytes
  ed25519Sign : Bytes → Bytes → Option Bytes
  ed25519Verify : Bytes → Bytes → Bytes → Bool
  sha384 : Bytes → Bytes
  sha384Length : ∀ data, (sha384 data).length = 48

def OpenSsl.VerifiesExactly (openssl : OpenSsl) : Prop :=
  ∀ coins publicKey secretKey, openssl.ed25519Keypair coins = (publicKey, secretKey) →
    ∀ message, ∃ signature, openssl.ed25519Sign message secretKey = some signature ∧
      ∀ other, openssl.ed25519Verify other signature publicKey = true ↔ other = message

abbrev Evp := EvpCall → Bool

def externalRoutine (errmsg : String) : ErrorReport :=
  { elevel := .error
    errcode := .externalRoutineException
    errmsg := errmsg }

def outOfMemory (errmsg : String) : ErrorReport :=
  { elevel := .error
    errcode := .outOfMemory
    errmsg := errmsg }

def ed25519Keygen (openssl : OpenSsl) (evp : Evp) (coins : Bytes) : Raises (Bytes × Bytes) := do
  ensure (evp .keyContext = true) (externalRoutine "Ed25519 context creation failed")
  ensure (evp .keygen = true) (externalRoutine "Ed25519 key generation failed")
  ensure (evp .publicKeyLength = true) (externalRoutine "failed to get Ed25519 public key length")
  ensure (evp .publicKey = true) (externalRoutine "failed to extract Ed25519 public key")
  ensure (evp .privateKeyLength = true)
    (externalRoutine "failed to get Ed25519 private key length")
  ensure (evp .privateKey = true) (externalRoutine "failed to extract Ed25519 private key")
  return openssl.ed25519Keypair coins

def ed25519Sign (openssl : OpenSsl) (evp : Evp) (message secretKey : Bytes) : Raises Bytes :=
  match openssl.ed25519Sign message secretKey with
  | none => .error (externalRoutine "failed to load Ed25519 private key")
  | some signature => do
      ensure (evp .signContext = true) (outOfMemory "failed to create digest context")
      ensure (evp .signInit = true) (externalRoutine "Ed25519 sign init failed")
      ensure (evp .signSize = true) (externalRoutine "Ed25519 sign size query failed")
      ensure (evp .sign = true) (externalRoutine "Ed25519 signature generation failed")
      return signature

def ed25519Verify (openssl : OpenSsl) (evp : Evp) (message signature publicKey : Bytes) : Bool :=
  evp .verifyContext && evp .verifyInit && openssl.ed25519Verify message signature publicKey

/-- The columns of `pqc_audit_keys` but for the creation time, which nothing reads. -/
structure AuditKey where
  keyId : Nat
  keyPurpose : String
  algorithm : String
  publicKey : Bytes
  encryptedSecretKey : Bytes
  isActive : Bool
  deriving DecidableEq

structure AuditKeyTable where
  rows : List AuditKey
  nextKeyId : Nat
  fresh : ∀ row ∈ rows, row.keyId < nextKeyId

def AuditKeyTable.empty : AuditKeyTable := ⟨[], 1, List.forall_mem_nil _⟩

/-- `WHERE key_purpose = $1 AND is_active = true ORDER BY key_id DESC LIMIT 1`. -/
def loadAuditKey (rows : List AuditKey) (purpose : String) : Option AuditKey :=
  (rows.filter fun row => row.keyPurpose = purpose ∧ row.isActive = true).argmax AuditKey.keyId

def AuditKeyTable.deactivate (table : AuditKeyTable) : AuditKeyTable :=
  { rows := table.rows.map fun row => { row with isActive := false }
    nextKeyId := table.nextKeyId
    fresh := by
      intro row member
      obtain ⟨old, present, rfl⟩ := List.mem_map.mp member
      exact table.fresh old present }

/-- `INSERT INTO pqc_audit_keys`; the identifier and the active flag are the defaults. -/
def AuditKeyTable.insert (table : AuditKeyTable) (purpose algorithm : String)
    (publicKey secretKey : Bytes) : AuditKeyTable :=
  { rows := table.rows ++
      [{ keyId := table.nextKeyId
         keyPurpose := purpose
         algorithm := algorithm
         publicKey := publicKey
         encryptedSecretKey := secretKey
         isActive := true }]
    nextKeyId := table.nextKeyId + 1
    fresh := by
      intro row member
      rcases List.mem_append.mp member with old | new
      · exact Nat.lt_succ_of_lt (table.fresh row old)
      · rw [List.mem_singleton.mp new]
        exact Nat.lt_succ_self _ }

def unsupportedClassical (name : String) : ErrorReport :=
  { elevel := .error
    errcode := .invalidParameterValue
    errmsg := s!"unsupported classical algorithm: \"{name}\""
    errhint := "Currently only \"Ed25519\" is supported." }

def unsupportedPqcSignature (name : String) : ErrorReport :=
  { elevel := .error
    errcode := .invalidParameterValue
    errmsg := s!"unsupported PQC signature algorithm: \"{name}\"" }

def pqcKeygenFailed (name : String) : ErrorReport :=
  externalRoutine s!"PQC signature key generation failed for {name}"

/-- The PQC key pair of `pqc_audit_init_keys`, once the name is resolved. -/
def pqcKeypair (liboqs : Liboqs) (name : String) (alg : PqcAlgorithm) (coins : Bytes) :
    Raises (Bytes × Bytes) := do
  let ctx ← (pqcSigNew liboqs true alg).2
  match pqcSigKeygen ctx coins with
  | none => .error (pqcKeygenFailed name)
  | some pair => return pair

def signatureAlgorithm (name : String) : Option PqcAlgorithm :=
  (pqcAlgorithmFromName name).filter pqcAlgorithmIsSig

structure KeyCoins where
  ed25519 : Bytes
  pqc : Bytes

def storeKeys (table : AuditKeyTable) (classicalAlg pqcAlg : String)
    (classical pqc : Bytes × Bytes) : AuditKeyTable :=
  (table.deactivate.insert "classical" classicalAlg classical.1 classical.2).insert
    "pqc" pqcAlg pqc.1 pqc.2

/-- A call that raises aborts its transaction, so the table changes only if it returns. -/
def pqcAuditInitKeys (openssl : OpenSsl) (evp : Evp) (liboqs : Liboqs) (coins : KeyCoins)
    (table : AuditKeyTable) (classicalAlg pqcAlg : String) : Raises AuditKeyTable := do
  ensure (pgStrcaseeq classicalAlg "Ed25519" = true) (unsupportedClassical classicalAlg)
  match signatureAlgorithm pqcAlg with
  | none => .error (unsupportedPqcSignature pqcAlg)
  | some alg => do
      let classical ← ed25519Keygen openssl evp coins.ed25519
      let pqc ← pqcKeypair liboqs pqcAlg alg coins.pqc
      return storeKeys table classicalAlg pqcAlg classical pqc

variable {openssl : OpenSsl} {evp : Evp} {pair : Bytes × Bytes} {liboqs : Liboqs}

theorem ed25519_keygen_returns {coins : Bytes}
    (returned : ed25519Keygen openssl evp coins = .ok pair) :
    openssl.ed25519Keypair coins = pair := by
  simp only [ed25519Keygen, sequence_returns] at returned
  obtain ⟨_, -, _, -, _, -, _, -, _, -, _, -, same⟩ := returned
  exact Except.ok.inj same

theorem ed25519_sign_returns {message secretKey signature : Bytes}
    (returned : ed25519Sign openssl evp message secretKey = .ok signature) :
    openssl.ed25519Sign message secretKey = some signature := by
  unfold ed25519Sign at returned
  cases signed : openssl.ed25519Sign message secretKey with
  | none => simp [signed] at returned
  | some found =>
    simp only [signed, sequence_returns] at returned
    obtain ⟨_, -, _, -, _, -, _, -, same⟩ := returned
    exact congrArg some (Except.ok.inj same)

theorem pqc_keypair_returns {name : String} {alg : PqcAlgorithm} {coins : Bytes}
    (returned : pqcKeypair liboqs name alg coins = .ok pair) :
    ∃ scheme, liboqs.Provides alg scheme ∧ scheme.keypair coins = some pair := by
  obtain ⟨ctx, created, generated⟩ := sequence_returns.mp returned
  have provided := pqc_sig_new_returns created
  cases drawn : ctx.oqsSig.keypair coins with
  | none => simp [pqcSigKeygen, drawn] at generated
  | some found =>
    simp only [pqcSigKeygen, drawn] at generated
    exact ⟨ctx.oqsSig, provided, drawn.trans (congrArg some (Except.ok.inj generated))⟩

theorem load_insert (table : AuditKeyTable) (purpose algorithm : String)
    (publicKey secretKey : Bytes) (wanted : String) :
    loadAuditKey (table.insert purpose algorithm publicKey secretKey).rows wanted =
      if purpose = wanted then
        some ⟨table.nextKeyId, purpose, algorithm, publicKey, secretKey, true⟩
      else loadAuditKey table.rows wanted := by
  unfold loadAuditKey AuditKeyTable.insert
  rw [filter_append]
  by_cases matching : purpose = wanted
  · simp only [filter_singleton, matching, and_self, decide_true, cond_true, argmax_concat]
    cases newest : List.argmax AuditKey.keyId (table.rows.filter fun row =>
        decide (row.keyPurpose = wanted ∧ row.isActive = true)) with
    | none => rfl
    | some found =>
      have older := table.fresh found (mem_of_mem_filter (argmax_mem newest))
      simp [older]
  · simp [matching]

theorem load_stored (table : AuditKeyTable) (classicalAlg pqcAlg : String)
    (classical pqc : Bytes × Bytes) :
    loadAuditKey (storeKeys table classicalAlg pqcAlg classical pqc).rows "classical" =
        some ⟨table.nextKeyId, "classical", classicalAlg, classical.1, classical.2, true⟩ ∧
      loadAuditKey (storeKeys table classicalAlg pqcAlg classical pqc).rows "pqc" =
        some ⟨table.nextKeyId + 1, "pqc", pqcAlg, pqc.1, pqc.2, true⟩ := by
  constructor
  · rw [storeKeys, load_insert, load_insert]
    rfl
  · rw [storeKeys, load_insert]
    rfl

structure Initialized (openssl : OpenSsl) (liboqs : Liboqs) (rows : List AuditKey) where
  classical : AuditKey
  pqc : AuditKey
  alg : PqcAlgorithm
  scheme : OqsSig
  classicalActive : loadAuditKey rows "classical" = some classical
  pqcActive : loadAuditKey rows "pqc" = some pqc
  classicalName : pgStrcaseeq classical.algorithm "Ed25519" = true
  classicalPair : ∃ coins,
    openssl.ed25519Keypair coins = (classical.publicKey, classical.encryptedSecretKey)
  pqcName : signatureAlgorithm pqc.algorithm = some alg
  provided : liboqs.Provides alg scheme
  pqcPair : ∃ coins, scheme.keypair coins = some (pqc.publicKey, pqc.encryptedSecretKey)

theorem pqc_audit_init_keys_returns {coins : KeyCoins} {table after : AuditKeyTable}
    {classicalAlg pqcAlg : String}
    (returned : pqcAuditInitKeys openssl evp liboqs coins table classicalAlg pqcAlg = .ok after) :
    Nonempty (Initialized openssl liboqs after.rows) := by
  simp only [pqcAuditInitKeys, sequence_returns, ensure_returns] at returned
  obtain ⟨_, named, returned⟩ := returned
  cases resolved : signatureAlgorithm pqcAlg with
  | none => simp [resolved] at returned
  | some alg =>
    simp only [resolved, sequence_returns] at returned
    obtain ⟨classical, edGenerated, pqc, pqcGenerated, same⟩ := returned
    obtain ⟨scheme, provided, drawn⟩ := pqc_keypair_returns pqcGenerated
    have stored := load_stored table classicalAlg pqcAlg classical pqc
    rw [Except.ok.inj same] at stored
    exact ⟨
      { classical := _
        pqc := _
        alg := alg
        scheme := scheme
        classicalActive := stored.1
        pqcActive := stored.2
        classicalName := named
        classicalPair := ⟨coins.ed25519, ed25519_keygen_returns edGenerated⟩
        pqcName := resolved
        provided := provided
        pqcPair := ⟨coins.pqc, drawn⟩ }⟩

end FortressQL.Pgcrypto.AuditKeys
