import FortressQL.Lib.ByteStrings
import FortressQL.Pqc.Signatures

/-!
# Key encapsulation

The wrappers of `pqc_kem.c` around the key encapsulation mechanisms of liboqs. An algorithm
arrives as the number that a file header or a caller holds.
-/

namespace FortressQL.Pqc.Kem

open Elog Lib.ByteStrings Pqc.Signatures

/-- A mechanism of liboqs. Key generation and encapsulation draw coins. -/
structure OqsKem where
  lengthPublicKey : Nat
  lengthSecretKey : Nat
  lengthCiphertext : Nat
  lengthSharedSecret : Nat
  keypair : Bytes → Option (Bytes × Bytes)
  encaps : Bytes → Bytes → Option (Bytes × Bytes)
  decaps : Bytes → Bytes → Option Bytes
  keypairLengths : ∀ coins publicKey secretKey, keypair coins = some (publicKey, secretKey) →
    publicKey.length = lengthPublicKey ∧ secretKey.length = lengthSecretKey
  encapsLengths : ∀ coins publicKey ciphertext sharedSecret,
    encaps coins publicKey = some (ciphertext, sharedSecret) →
      ciphertext.length = lengthCiphertext ∧ sharedSecret.length = lengthSharedSecret

/-- Decapsulation with the matching secret key returns the encapsulated secret. -/
def OqsKem.Decapsulates (kem : OqsKem) : Prop :=
  ∀ keyCoins publicKey secretKey, kem.keypair keyCoins = some (publicKey, secretKey) →
    ∀ coins ciphertext sharedSecret, kem.encaps coins publicKey = some (ciphertext, sharedSecret) →
      kem.decaps ciphertext secretKey = some sharedSecret

/-- `OQS_KEM_new` by name; `none` for a mechanism the build does not contain. -/
structure KemLibrary where
  kemNew : String → Option OqsKem

structure PqcKemContext where
  oqsKem : OqsKem
  alg : PqcAlgorithm

def invalidKemAlgorithm (number : UInt32) : ErrorReport :=
  { elevel := .error
    errcode := .invalidParameterValue
    errmsg := s!"invalid KEM algorithm: {number.toInt32.toInt}"
    errhint := "Valid algorithms: ML-KEM-512, ML-KEM-768, ML-KEM-1024" }

def kemNotInitialized (name : String) : ErrorReport :=
  { elevel := .error
    errcode := .externalRoutineException
    errmsg := s!"liboqs failed to initialize KEM algorithm \"{name}\""
    errhint := s!"Ensure liboqs was compiled with support for {name}." }

def pqcKemNew (library : KemLibrary) (number : UInt32) : Raises PqcKemContext :=
  match pqcAlgorithms[number.toNat]? with
  | none => .error (invalidKemAlgorithm number)
  | some info =>
    if info.type ≠ .kem then .error (invalidKemAlgorithm number)
    else
      match library.kemNew info.oqsName with
      | none => .error (kemNotInitialized info.name)
      | some oqsKem => .ok { oqsKem := oqsKem, alg := info.algId }

/-- `pqc_kem_keygen`; `none` is `PQC_ERROR_CRYPTO_FAILURE`, here and below. -/
def pqcKemKeygen (ctx : PqcKemContext) (coins : Bytes) : Option (Bytes × Bytes) :=
  ctx.oqsKem.keypair coins

def invalidLength (kind name : String) (got expected : Nat) : ErrorReport :=
  { elevel := .error
    errcode := .invalidParameterValue
    errmsg := s!"invalid {kind} length for {name}: got {got}, expected {expected}" }

def pqcKemEncaps (ctx : PqcKemContext) (coins publicKey : Bytes) :
    Raises (Option (Bytes × Bytes)) := do
  ensure (publicKey.length = ctx.oqsKem.lengthPublicKey)
    (invalidLength "public key" (pqcAlgorithmName ctx.alg) publicKey.length
      ctx.oqsKem.lengthPublicKey)
  return ctx.oqsKem.encaps coins publicKey

def pqcKemDecaps (ctx : PqcKemContext) (ciphertext secretKey : Bytes) :
    Raises (Option Bytes) := do
  ensure (ciphertext.length = ctx.oqsKem.lengthCiphertext)
    (invalidLength "ciphertext" (pqcAlgorithmName ctx.alg) ciphertext.length
      ctx.oqsKem.lengthCiphertext)
  ensure (secretKey.length = ctx.oqsKem.lengthSecretKey)
    (invalidLength "secret key" (pqcAlgorithmName ctx.alg) secretKey.length
      ctx.oqsKem.lengthSecretKey)
  return ctx.oqsKem.decaps ciphertext secretKey

def mlKem768Number : UInt32 := 1

theorem ml_kem_768_registered :
    pqcAlgorithms[mlKem768Number.toNat]? = some ⟨.mlKem768, "ML-KEM-768", "ML-KEM-768", .kem⟩ := rfl

theorem pqc_kem_new_ml_kem_768 (library : KemLibrary) :
    pqcKemNew library mlKem768Number = match library.kemNew "ML-KEM-768" with
      | none => .error (kemNotInitialized "ML-KEM-768")
      | some oqsKem => .ok { oqsKem := oqsKem, alg := .mlKem768 } := by
  simp [pqcKemNew, ml_kem_768_registered]

end FortressQL.Pqc.Kem
