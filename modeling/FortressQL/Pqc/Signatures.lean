import FortressQL.Elog
import FortressQL.Lib.Files

/-!
# Signature algorithms

The algorithm registry of `pqc_common.c` and the wrappers of `pqc_sig.c` around liboqs. `pqc_init`
fills in the sizes of the registry.
-/

namespace FortressQL.Pqc.Signatures

open Elog Lib.Files

inductive PqcAlgorithm where
  | mlKem512
  | mlKem768
  | mlKem1024
  | mlDsa44
  | mlDsa65
  | mlDsa87
  | slhDsaSha2_128s
  | slhDsaSha2_128f
  | slhDsaSha2_192s
  | slhDsaSha2_192f
  | slhDsaSha2_256s
  | slhDsaSha2_256f
  | slhDsaShake_128s
  | slhDsaShake_128f
  | slhDsaShake_192s
  | slhDsaShake_192f
  | slhDsaShake_256s
  | slhDsaShake_256f
  deriving DecidableEq, Repr

inductive PqcAlgType where
  | kem
  | sig
  deriving DecidableEq, Repr

structure PqcAlgorithmInfo where
  algId : PqcAlgorithm
  name : String
  oqsName : String
  type : PqcAlgType

def pqcAlgorithms : List PqcAlgorithmInfo :=
  [ ⟨.mlKem512, "ML-KEM-512", "ML-KEM-512", .kem⟩,
    ⟨.mlKem768, "ML-KEM-768", "ML-KEM-768", .kem⟩,
    ⟨.mlKem1024, "ML-KEM-1024", "ML-KEM-1024", .kem⟩,
    ⟨.mlDsa44, "ML-DSA-44", "ML-DSA-44", .sig⟩,
    ⟨.mlDsa65, "ML-DSA-65", "ML-DSA-65", .sig⟩,
    ⟨.mlDsa87, "ML-DSA-87", "ML-DSA-87", .sig⟩,
    ⟨.slhDsaSha2_128s, "SLH-DSA-SHA2-128s", "SLH-DSA-SHA2-128s-FIPS205", .sig⟩,
    ⟨.slhDsaSha2_128f, "SLH-DSA-SHA2-128f", "SLH-DSA-SHA2-128f-FIPS205", .sig⟩,
    ⟨.slhDsaSha2_192s, "SLH-DSA-SHA2-192s", "SLH-DSA-SHA2-192s-FIPS205", .sig⟩,
    ⟨.slhDsaSha2_192f, "SLH-DSA-SHA2-192f", "SLH-DSA-SHA2-192f-FIPS205", .sig⟩,
    ⟨.slhDsaSha2_256s, "SLH-DSA-SHA2-256s", "SLH-DSA-SHA2-256s-FIPS205", .sig⟩,
    ⟨.slhDsaSha2_256f, "SLH-DSA-SHA2-256f", "SLH-DSA-SHA2-256f-FIPS205", .sig⟩,
    ⟨.slhDsaShake_128s, "SLH-DSA-SHAKE-128s", "SLH-DSA-SHAKE-128s-FIPS205", .sig⟩,
    ⟨.slhDsaShake_128f, "SLH-DSA-SHAKE-128f", "SLH-DSA-SHAKE-128f-FIPS205", .sig⟩,
    ⟨.slhDsaShake_192s, "SLH-DSA-SHAKE-192s", "SLH-DSA-SHAKE-192s-FIPS205", .sig⟩,
    ⟨.slhDsaShake_192f, "SLH-DSA-SHAKE-192f", "SLH-DSA-SHAKE-192f-FIPS205", .sig⟩,
    ⟨.slhDsaShake_256s, "SLH-DSA-SHAKE-256s", "SLH-DSA-SHAKE-256s-FIPS205", .sig⟩,
    ⟨.slhDsaShake_256f, "SLH-DSA-SHAKE-256f", "SLH-DSA-SHAKE-256f-FIPS205", .sig⟩ ]

/-- `pqc_get_algorithm_info`; the registry is in the order of the identifiers. -/
def pqcGetAlgorithmInfo (alg : PqcAlgorithm) : Option PqcAlgorithmInfo :=
  pqcAlgorithms.find? (fun info => info.algId = alg)

/-- `pg_strcasecmp(left, right) == 0`; the registered names are ASCII. -/
def pgStrcaseeq (left right : String) : Bool :=
  left.toList.map Char.toLower = right.toList.map Char.toLower

/-- `pqc_algorithm_from_name`; `none` is `PQC_ALG_COUNT`. -/
def pqcAlgorithmFromName (name : String) : Option PqcAlgorithm :=
  (pqcAlgorithms.find? fun info => pgStrcaseeq info.name name).map PqcAlgorithmInfo.algId

def pqcAlgorithmIsSig (alg : PqcAlgorithm) : Bool :=
  match pqcGetAlgorithmInfo alg with
  | none => false
  | some info => info.type = .sig

def pqcAlgorithmName (alg : PqcAlgorithm) : String :=
  match pqcGetAlgorithmInfo alg with
  | none => "unknown"
  | some info => info.name

/-- A signature scheme of liboqs. A key argument is a pointer, `none` for a null one. -/
structure OqsSig where
  lengthPublicKey : Nat
  lengthSecretKey : Nat
  lengthSignature : Nat
  keypair : Bytes → Option (Bytes × Bytes)
  sign : Bytes → Bytes → Option Bytes → Option Bytes
  verify : Bytes → Bytes → Option Bytes → Bool
  keypairLengths : ∀ coins publicKey secretKey, keypair coins = some (publicKey, secretKey) →
    publicKey.length = lengthPublicKey ∧ secretKey.length = lengthSecretKey

def OqsSig.VerifiesExactly (scheme : OqsSig) : Prop :=
  ∀ keyCoins publicKey secretKey, scheme.keypair keyCoins = some (publicKey, secretKey) →
    ∀ coins message signature, scheme.sign coins message (some secretKey) = some signature →
      ∀ other, scheme.verify other signature (some publicKey) = true ↔ other = message

/-- `OQS_SIG_new` by name; `none` for a scheme the build does not contain. -/
structure Liboqs where
  sigNew : String → Option OqsSig

structure PqcSigContext where
  oqsSig : OqsSig
  alg : PqcAlgorithm

def algorithmNumber (alg : PqcAlgorithm) : Nat :=
  pqcAlgorithms.findIdx fun info => info.algId = alg

def invalidSignatureAlgorithm (number : Nat) : ErrorReport :=
  { elevel := .error
    errcode := .invalidParameterValue
    errmsg := s!"invalid signature algorithm: {number}"
    errhint := "Valid algorithms: ML-DSA-44, ML-DSA-65, ML-DSA-87, " ++
      "SLH-DSA-SHA2-*, SLH-DSA-SHAKE-*" }

def algorithmNotInitialized (name : String) : ErrorReport :=
  { elevel := .error
    errcode := .externalRoutineException
    errmsg := s!"liboqs failed to initialize signature algorithm \"{name}\""
    errhint := s!"Ensure liboqs was compiled with support for {name}." }

/-- `pqc_sig_new`, with the value of `pqc_initialized` it leaves. -/
def pqcSigNew (liboqs : Liboqs) (pqcInitialized : Bool) (alg : PqcAlgorithm) :
    Bool × Raises PqcSigContext :=
  match pqcGetAlgorithmInfo alg with
  | none => (pqcInitialized, .error (invalidSignatureAlgorithm (algorithmNumber alg)))
  | some info =>
    if info.type ≠ .sig then
      (pqcInitialized, .error (invalidSignatureAlgorithm (algorithmNumber alg)))
    else
      match liboqs.sigNew info.oqsName with
      | none => (true, .error (algorithmNotInitialized info.name))
      | some oqsSig => (true, .ok { oqsSig := oqsSig, alg := alg })

/-- `pqc_sig_keygen`; `none` is `PQC_ERROR_CRYPTO_FAILURE`. -/
def pqcSigKeygen (ctx : PqcSigContext) (coins : Bytes) : Option (Bytes × Bytes) :=
  ctx.oqsSig.keypair coins

def invalidKeyLength (kind name : String) (got expected : Nat) : ErrorReport :=
  { elevel := .error
    errcode := .invalidParameterValue
    errmsg := s!"invalid {kind} key length for {name}: got {got}, expected {expected}" }

/-- `pqc_sig_sign`; `none` is `PQC_ERROR_CRYPTO_FAILURE`. -/
def pqcSigSign (ctx : PqcSigContext) (coins message : Bytes) (secretKey : Option Bytes)
    (secretKeyLen : Nat) : Raises (Option Bytes) :=
  if secretKeyLen ≠ ctx.oqsSig.lengthSecretKey then
    .error (invalidKeyLength "secret" (pqcAlgorithmName ctx.alg) secretKeyLen
      ctx.oqsSig.lengthSecretKey)
  else .ok (ctx.oqsSig.sign coins message secretKey)

/-- `pqc_sig_verify`; `false` is `PQC_ERROR_CRYPTO_FAILURE`. -/
def pqcSigVerify (ctx : PqcSigContext) (message signature : Bytes) (publicKey : Option Bytes)
    (publicKeyLen : Nat) : Raises Bool :=
  if publicKeyLen ≠ ctx.oqsSig.lengthPublicKey then
    .error (invalidKeyLength "public" (pqcAlgorithmName ctx.alg) publicKeyLen
      ctx.oqsSig.lengthPublicKey)
  else .ok (ctx.oqsSig.verify message signature publicKey)

/-- A size of the registry: zero before `pqc_init`, for a scheme that liboqs lacks and for an
algorithm that does not sign. -/
def registeredSize (size : OqsSig → Nat) (liboqs : Liboqs) (pqcInitialized : Bool)
    (alg : PqcAlgorithm) : Nat :=
  match pqcGetAlgorithmInfo alg with
  | none => 0
  | some info =>
    if info.type = .sig ∧ pqcInitialized = true then
      (liboqs.sigNew info.oqsName).elim 0 size
    else 0

def pqcSigPublicKeyLen := registeredSize OqsSig.lengthPublicKey

def pqcSigSecretKeyLen := registeredSize OqsSig.lengthSecretKey

def pqcSigMaxSignatureLen := registeredSize OqsSig.lengthSignature

def Liboqs.Provides (liboqs : Liboqs) (alg : PqcAlgorithm) (scheme : OqsSig) : Prop :=
  ∃ info, pqcGetAlgorithmInfo alg = some info ∧ info.type = .sig ∧
    liboqs.sigNew info.oqsName = some scheme

variable {liboqs : Liboqs} {alg : PqcAlgorithm} {scheme : OqsSig}

theorem pqc_sig_new_provided (provided : liboqs.Provides alg scheme) (pqcInitialized : Bool) :
    pqcSigNew liboqs pqcInitialized alg = (true, .ok { oqsSig := scheme, alg := alg }) := by
  obtain ⟨info, found, signs, supported⟩ := provided
  simp [pqcSigNew, found, signs, supported]

theorem pqc_sig_new_returns {ctx : PqcSigContext} {pqcInitialized : Bool}
    (created : (pqcSigNew liboqs pqcInitialized alg).2 = .ok ctx) :
    liboqs.Provides alg ctx.oqsSig := by
  unfold pqcSigNew at created
  cases found : pqcGetAlgorithmInfo alg with
  | none => simp [found] at created
  | some info =>
    simp only [found] at created
    split_ifs at created with signs
    cases supported : liboqs.sigNew info.oqsName with
    | none => simp [supported] at created
    | some scheme =>
      rw [supported] at created
      refine ⟨info, found, by simpa using signs, ?_⟩
      rw [supported, ← Except.ok.inj created]

theorem provides_unique {other : OqsSig} (provided : liboqs.Provides alg scheme)
    (again : liboqs.Provides alg other) : scheme = other := by
  have created := pqc_sig_new_provided provided true
  rw [pqc_sig_new_provided again] at created
  simpa using created.symm

theorem registered_size_uninitialized (size : OqsSig → Nat) (liboqs : Liboqs)
    (alg : PqcAlgorithm) : registeredSize size liboqs false alg = 0 := by
  unfold registeredSize
  cases pqcGetAlgorithmInfo alg with
  | none => rfl
  | some info => simp

theorem registered_size_provided (provided : liboqs.Provides alg scheme) (size : OqsSig → Nat) :
    registeredSize size liboqs true alg = size scheme := by
  obtain ⟨info, found, signs, supported⟩ := provided
  simp [registeredSize, found, signs, supported]

end FortressQL.Pqc.Signatures
