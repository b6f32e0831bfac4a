import FortressQL.Pqc.Signatures

/-!
# The WAL signing keys of a process

`pqc_wal_keys.c`: the static key variables of a process, and signing and verifying with them. A call
that raises keeps what it assigned before.
-/

namespace FortressQL.Wal.SigningKeys

open Elog Lib.Files Pqc.Signatures

variable {publicKey secretKey : Bytes} {liboqs : Liboqs} {scheme : OqsSig}

/-- The static variables, and `pqc_initialized` of the registry. A failed read assigns the length
and leaves the pointer. -/
structure WalKeys where
  pqcInitialized : Bool
  walPqcSigning : Bool
  walSecretKey : Option Bytes
  walSecretKeyLen : Nat
  walPublicKey : Option Bytes
  walPublicKeyLen : Nat
  walSigAlgorithm : PqcAlgorithm
  walKeysLoaded : Bool

/-- A process of a server that has turned `wal_pqc_signing` on; the default is off. -/
def initialKeys : WalKeys :=
  { pqcInitialized := false
    walPqcSigning := true
    walSecretKey := none
    walSecretKeyLen := 0
    walPublicKey := none
    walPublicKeyLen := 0
    walSigAlgorithm := .mlDsa65
    walKeysLoaded := false }

def invalidWalSigningAlgorithm (algorithm : String) : ErrorReport :=
  { elevel := .error
    errcode := .invalidParameterValue
    errmsg := s!"invalid WAL signing algorithm: \"{algorithm}\""
    errhint := "Use a signature algorithm such as ML-DSA-44, ML-DSA-65, or ML-DSA-87." }

def pqcWalResolveAlgorithm (algorithm : String) : Raises PqcAlgorithm :=
  match pqcAlgorithmFromName algorithm with
  | none => .error (invalidWalSigningAlgorithm algorithm)
  | some alg =>
    if pqcAlgorithmIsSig alg then .ok alg else .error (invalidWalSigningAlgorithm algorithm)

def keyFileError (verb path : String) : ErrorReport :=
  { elevel := .error
    errcode := .fileAccess
    errmsg := s!"could not {verb} WAL signing key file \"{path}\"" }

def keyFileEmpty (path : String) : ErrorReport :=
  { elevel := .error
    errcode := .dataCorrupted
    errmsg := s!"WAL signing key file \"{path}\" is empty" }

def keyFileTooLarge (path : String) (len : Nat) : ErrorReport :=
  { elevel := .error
    errcode := .dataCorrupted
    errmsg := s!"WAL signing key file \"{path}\" is unreasonably large: {len} bytes" }

/-- `read_key_file`: the value assigned to `*len`, if any, and the result. -/
def readKeyFile (host : Host) (disk : Disk) (path : String) : Option Nat × Raises Bytes :=
  match disk path with
  | none => (none, .error (keyFileError "open" path))
  | some content =>
    if host.opens path = false then (none, .error (keyFileError "open" path))
    else if host.stats path = false then (none, .error (keyFileError "stat" path))
    else if content.length = 0 then (some content.length, .error (keyFileEmpty path))
    else if content.length > 102400 then
      (some content.length, .error (keyFileTooLarge path content.length))
    else if (host.delivered path content).length ≠ content.length then
      (some content.length, .error (keyFileError "read" path))
    else (some content.length, .ok (host.delivered path content))

/-- `write_key_file`, with the files it leaves: opening truncates. A failed `fsync` only
warns. -/
def writeKeyFile (host : Host) (disk : Disk) (path : String) (data : Bytes) :
    Disk × Raises Unit :=
  if host.creates path = false then (disk, .error (keyFileError "create" path))
  else if host.opens path = false then
    (disk.write path [], .error (keyFileError "fdopen" path))
  else if (host.stored path data).length ≠ data.length then
    (disk.write path (host.stored path data), .error (keyFileError "write" path))
  else if host.closes path = false then
    (disk.write path (host.stored path data), .error (keyFileError "close" path))
  else (disk.write path (host.stored path data), .ok ())

def secretKeyPath (keyPath : String) : String := keyPath ++ "/wal_signing.key"

def publicKeyPath (keyPath : String) : String := keyPath ++ "/wal_signing.pub"

def keyPathNotSet : ErrorReport :=
  { elevel := .error
    errcode := .invalidParameterValue
    errmsg := "wal_pqc_key_path must be set when wal_pqc_signing is enabled" }

def dropKeys (keys : WalKeys) : WalKeys :=
  { keys with
    walSecretKey := none
    walSecretKeyLen := if keys.walSecretKey.isSome then 0 else keys.walSecretKeyLen
    walPublicKey := none
    walPublicKeyLen := if keys.walPublicKey.isSome then 0 else keys.walPublicKeyLen }

def disableSigning (keys : WalKeys) : WalKeys :=
  { dropKeys keys with
    walPqcSigning := false
    walKeysLoaded := false }

/-- The size checks that end a load. An expected size of zero is not checked. -/
def validateKeySizes (liboqs : Liboqs) (keys : WalKeys) : WalKeys :=
  let expectedSk := pqcSigSecretKeyLen liboqs keys.pqcInitialized keys.walSigAlgorithm
  let expectedPk := pqcSigPublicKeyLen liboqs keys.pqcInitialized keys.walSigAlgorithm
  if expectedSk > 0 ∧ keys.walSecretKeyLen ≠ expectedSk then disableSigning keys
  else if expectedPk > 0 ∧ keys.walPublicKeyLen ≠ expectedPk then disableSigning keys
  else { keys with walKeysLoaded := true }

def readKeyPair (host : Host) (disk : Disk) (keys : WalKeys) (keyPath : String) :
    WalKeys × Raises Unit :=
  match readKeyFile host disk (secretKeyPath keyPath) with
  | (len, .error report) =>
    ({ keys with walSecretKeyLen := len.getD keys.walSecretKeyLen }, .error report)
  | (_, .ok secretKey) =>
    let withSecret :=
      { keys with walSecretKey := some secretKey, walSecretKeyLen := secretKey.length }
    match readKeyFile host disk (publicKeyPath keyPath) with
    | (len, .error report) =>
      ({ withSecret with walPublicKeyLen := len.getD keys.walPublicKeyLen }, .error report)
    | (_, .ok publicKey) =>
      ({ withSecret with
          walPublicKey := some publicKey
          walPublicKeyLen := publicKey.length }, .ok ())

def pqcWalLoadSigningKeys (liboqs : Liboqs) (host : Host) (disk : Disk) (keys : WalKeys)
    (keyPath algorithm : String) : WalKeys × Raises Unit :=
  if keyPath = "" then (keys, .error keyPathNotSet)
  else
    match pqcWalResolveAlgorithm algorithm with
    | .error report => (keys, .error report)
    | .ok alg =>
      match readKeyPair host disk (dropKeys { keys with walSigAlgorithm := alg }) keyPath with
      | (next, .error report) => (next, .error report)
      | (next, .ok _) => (validateKeySizes liboqs next, .ok ())

def keyPathNotSetForGeneration : ErrorReport :=
  { elevel := .error
    errcode := .invalidParameterValue
    errmsg := "wal_pqc_key_path must be set for key generation" }

def keyDirectoryMissing (keyPath : String) : ErrorReport :=
  { elevel := .error
    errcode := .fileAccess
    errmsg := s!"WAL signing key directory \"{keyPath}\" does not exist"
    errhint := "Create the directory before generating keys." }

def keyPathNotDirectory (keyPath : String) : ErrorReport :=
  { elevel := .error
    errcode := .wrongObjectType
    errmsg := s!"WAL signing key path \"{keyPath}\" is not a directory" }

def keyGenerationFailed : ErrorReport :=
  { elevel := .error
    errcode := .externalRoutineException
    errmsg := "failed to generate PQC WAL signing key pair" }

def checkKeyDirectory (host : Host) (keyPath : String) : Raises Unit := do
  ensure (keyPath ≠ "") keyPathNotSetForGeneration
  ensure (host.directory keyPath ≠ none) (keyDirectoryMissing keyPath)
  ensure (host.directory keyPath = some true) (keyPathNotDirectory keyPath)

def writeKeyPair (host : Host) (disk : Disk) (keyPath : String) (publicKey secretKey : Bytes) :
    Disk × Raises Unit :=
  match writeKeyFile host disk (secretKeyPath keyPath) secretKey with
  | (next, .error report) => (next, .error report)
  | (next, .ok _) => writeKeyFile host next (publicKeyPath keyPath) publicKey

/-- `pqc_wal_generate_signing_keys`, with the key variables and the files it leaves. -/
def pqcWalGenerateSigningKeys (liboqs : Liboqs) (host : Host) (disk : Disk) (keys : WalKeys)
    (keyPath algorithm : String) (coins : Bytes) : WalKeys × Disk × Raises Unit :=
  match checkKeyDirectory host keyPath >>= fun _ => pqcWalResolveAlgorithm algorithm with
  | .error report => (keys, disk, .error report)
  | .ok alg =>
    match pqcSigNew liboqs keys.pqcInitialized alg with
    | (initialized, .error report) =>
      ({ keys with walSigAlgorithm := alg, pqcInitialized := initialized }, disk,
        .error report)
    | (initialized, .ok ctx) =>
      let chosen := { keys with walSigAlgorithm := alg, pqcInitialized := initialized }
      match pqcSigKeygen ctx coins with
      | none => (chosen, disk, .error keyGenerationFailed)
      | some (publicKey, secretKey) =>
        match writeKeyPair host disk keyPath publicKey secretKey with
        | (next, .error report) => (chosen, next, .error report)
        | (next, .ok _) =>
          ({ chosen with
              walSecretKey := some secretKey
              walSecretKeyLen := secretKey.length
              walPublicKey := some publicKey
              walPublicKeyLen := publicKey.length
              walKeysLoaded := true }, next, .ok ())

/-- A failure, an empty signature and one that does not fit the buffer are all reported as `-1`. -/
def copySignature (sigOutBuflen : Nat) : Option Bytes → Option Bytes
  | none => none
  | some signature =>
    if signature.length = 0 then none
    else if signature.length > sigOutBuflen then none
    else some signature

/-- `pqc_wal_sign_data`; a result of `none` is `-1`. -/
def pqcWalSignData (liboqs : Liboqs) (keys : WalKeys) (coins data : Bytes) (sigOutBuflen : Nat) :
    WalKeys × Raises (Option Bytes) :=
  if keys.walKeysLoaded = false then (keys, .ok none)
  else
    match pqcSigNew liboqs keys.pqcInitialized keys.walSigAlgorithm with
    | (initialized, .error report) => ({ keys with pqcInitialized := initialized }, .error report)
    | (initialized, .ok ctx) =>
      ({ keys with pqcInitialized := initialized },
        (pqcSigSign ctx coins data keys.walSecretKey keys.walSecretKeyLen).map
          (copySignature sigOutBuflen))

/-- `pqc_wal_verify_data`; `false` is `-1`. -/
def pqcWalVerifyData (liboqs : Liboqs) (keys : WalKeys) (data signature : Bytes)
    (pubkey : Option Bytes) (pubkeyLen : Nat) : WalKeys × Raises Bool :=
  match pqcSigNew liboqs keys.pqcInitialized keys.walSigAlgorithm with
  | (initialized, .error report) => ({ keys with pqcInitialized := initialized }, .error report)
  | (initialized, .ok ctx) =>
    ({ keys with pqcInitialized := initialized },
      pqcSigVerify ctx data signature pubkey pubkeyLen)

def keysNotLoaded : ErrorReport :=
  { elevel := .error
    errcode := .objectNotInPrerequisiteState
    errmsg := "PQC WAL signing keys have not been loaded" }

def pqcWalGetPublicKey (keys : WalKeys) : Raises (Option Bytes × Nat) :=
  if keys.walKeysLoaded = false then .error keysNotLoaded
  else .ok (keys.walPublicKey, keys.walPublicKeyLen)

structure HoldsPublicKey (liboqs : Liboqs) (keys : WalKeys) (scheme : OqsSig)
    (publicKey : Bytes) : Prop where
  loaded : keys.walKeysLoaded = true
  provided : liboqs.Provides keys.walSigAlgorithm scheme
  pubkey : keys.walPublicKey = some publicKey
  pubkeyLen : keys.walPublicKeyLen = scheme.lengthPublicKey

/-- The process has loaded both keys of a pair that liboqs generated. -/
structure HoldsKeyPair (liboqs : Liboqs) (keys : WalKeys) (scheme : OqsSig)
    (publicKey secretKey : Bytes) : Prop
    extends HoldsPublicKey liboqs keys scheme publicKey where
  generated : ∃ coins, scheme.keypair coins = some (publicKey, secretKey)
  seckey : keys.walSecretKey = some secretKey
  seckeyLen : keys.walSecretKeyLen = scheme.lengthSecretKey

section Use

variable {keys : WalKeys}

theorem sign_data_signs (holds : HoldsKeyPair liboqs keys scheme publicKey secretKey)
    (coins data : Bytes) (sigOutBuflen : Nat) :
    pqcWalSignData liboqs keys coins data sigOutBuflen = ({ keys with pqcInitialized := true },
        .ok (copySignature sigOutBuflen (scheme.sign coins data (some secretKey)))) := by
  have usable : ¬(keys.walKeysLoaded = false) := by simp [holds.loaded]
  simp [pqcWalSignData, if_neg usable, pqc_sig_new_provided holds.provided, pqcSigSign,
    holds.seckeyLen, holds.seckey, Except.map]

theorem get_public_key_held (holds : HoldsPublicKey liboqs keys scheme publicKey) :
    pqcWalGetPublicKey keys = .ok (some publicKey, scheme.lengthPublicKey) := by
  have usable : ¬(keys.walKeysLoaded = false) := by simp [holds.loaded]
  rw [pqcWalGetPublicKey, if_neg usable, holds.pubkey, holds.pubkeyLen]

theorem verify_data_verifies (holds : HoldsPublicKey liboqs keys scheme publicKey)
    (data signature : Bytes) :
    pqcWalVerifyData liboqs keys data signature (some publicKey) scheme.lengthPublicKey =
      ({ keys with pqcInitialized := true },
        .ok (scheme.verify data signature (some publicKey))) := by
  simp [pqcWalVerifyData, pqc_sig_new_provided holds.provided, pqcSigVerify]

end Use

section KeyFiles

variable {host : Host} {disk : Disk} {keys : WalKeys} {keyPath algorithm : String}
  {alg : PqcAlgorithm}

theorem key_paths_distinct (keyPath : String) : publicKeyPath keyPath ≠ secretKeyPath keyPath := by
  intro same
  have sameText := congrArg String.toList same
  simp [publicKeyPath, secretKeyPath] at sameText

theorem read_key_file_reads {path : String} {content : Bytes} (present : disk path = some content)
    (reliable : host.Reliable path) (nonempty : content ≠ []) (small : content.length ≤ 102400) :
    readKeyFile host disk path = (some content.length, .ok content) := by
  have opened : ¬(host.opens path = false) := by simp [reliable.opens]
  have statted : ¬(host.stats path = false) := by simp [reliable.stats]
  have filled : ¬(content.length = 0) := by simpa using nonempty
  simp only [readKeyFile, present, if_neg opened, if_neg statted, if_neg filled,
    if_neg (Nat.not_lt.mpr small), reliable.delivers, ne_eq, not_true_eq_false, if_false]

theorem write_key_file_returns {path : String} {data : Bytes} {next : Disk}
    (written : writeKeyFile host disk path data = (next, .ok ())) :
    next = disk.write path (host.stored path data) ∧
      (host.stored path data).length = data.length := by
  unfold writeKeyFile at written
  split_ifs at written with uncreated unopened short unclosed
  · simp at written
  · simp at written
  · simp at written
  · simp at written
  · exact ⟨(Prod.mk.inj written).1.symm, by simpa using short⟩

theorem write_key_pair_returns {next : Disk}
    (written : writeKeyPair host disk keyPath publicKey secretKey = (next, .ok ()))
    (writeSecret : host.Reliable (secretKeyPath keyPath))
    (writePublic : host.Reliable (publicKeyPath keyPath)) :
    next (secretKeyPath keyPath) = some secretKey ∧
      next (publicKeyPath keyPath) = some publicKey := by
  unfold writeKeyPair at written
  split at written
  case h_1 => simp at written
  case h_2 between done first =>
    obtain ⟨secretLeft, -⟩ := write_key_file_returns first
    obtain ⟨publicLeft, -⟩ := write_key_file_returns written
    rw [publicLeft, secretLeft, writeSecret.stores, writePublic.stores]
    refine ⟨?_, write_same _ _ _⟩
    rw [write_other _ _ (key_paths_distinct keyPath).symm, write_same]

theorem validate_key_sizes_passes {loaded : WalKeys}
    (provided : liboqs.Provides loaded.walSigAlgorithm scheme)
    (secretLen : loaded.walSecretKeyLen = scheme.lengthSecretKey)
    (publicLen : loaded.walPublicKeyLen = scheme.lengthPublicKey) :
    validateKeySizes liboqs loaded = { loaded with walKeysLoaded := true } := by
  have expected : ∀ size : OqsSig → Nat,
      registeredSize size liboqs loaded.pqcInitialized loaded.walSigAlgorithm = 0 ∨
        registeredSize size liboqs loaded.pqcInitialized loaded.walSigAlgorithm =
          size scheme := by
    intro size
    cases loaded.pqcInitialized with
    | false => exact .inl (registered_size_uninitialized size liboqs _)
    | true => exact .inr (registered_size_provided provided size)
  have secretFits := expected OqsSig.lengthSecretKey
  have publicFits := expected OqsSig.lengthPublicKey
  simp only [validateKeySizes, pqcSigSecretKeyLen, pqcSigPublicKeyLen, secretLen]
  rw [if_neg (by omega), if_neg (by omega)]

theorem load_signing_keys_holds (named : keyPath ≠ "")
    (resolved : pqcWalResolveAlgorithm algorithm = .ok alg) (provided : liboqs.Provides alg scheme)
    (generated : ∃ coins, scheme.keypair coins = some (publicKey, secretKey))
    (secretFile : disk (secretKeyPath keyPath) = some secretKey)
    (publicFile : disk (publicKeyPath keyPath) = some publicKey)
    (readSecret : host.Reliable (secretKeyPath keyPath))
    (readPublic : host.Reliable (publicKeyPath keyPath))
    (secretSize : secretKey ≠ [] ∧ secretKey.length ≤ 102400)
    (publicSize : publicKey ≠ [] ∧ publicKey.length ≤ 102400) :
    ∃ next, pqcWalLoadSigningKeys liboqs host disk keys keyPath algorithm = (next, .ok ()) ∧
      HoldsKeyPair liboqs next scheme publicKey secretKey := by
  have secretRead := read_key_file_reads secretFile readSecret secretSize.1 secretSize.2
  have publicRead := read_key_file_reads publicFile readPublic publicSize.1 publicSize.2
  have lengths : publicKey.length = scheme.lengthPublicKey ∧
      secretKey.length = scheme.lengthSecretKey := by
    obtain ⟨coins, drawn⟩ := generated
    exact scheme.keypairLengths coins publicKey secretKey drawn
  simp only [pqcWalLoadSigningKeys, if_neg named, resolved, readKeyPair, secretRead, publicRead]
  rw [validate_key_sizes_passes provided lengths.2 lengths.1]
  refine ⟨_, rfl, ?_⟩
  exact
    { loaded := rfl
      provided := provided
      pubkey := rfl
      pubkeyLen := lengths.1
      generated := generated
      seckey := rfl
      seckeyLen := lengths.2 }

theorem generate_signing_keys_holds {coins : Bytes} {next : WalKeys} {after : Disk}
    (generated : pqcWalGenerateSigningKeys liboqs host disk keys keyPath algorithm coins =
      (next, after, .ok ())) (writeSecret : host.Reliable (secretKeyPath keyPath))
    (writePublic : host.Reliable (publicKeyPath keyPath)) :
    ∃ scheme publicKey secretKey, HoldsKeyPair liboqs next scheme publicKey secretKey ∧
      after (secretKeyPath keyPath) = some secretKey ∧
      after (publicKeyPath keyPath) = some publicKey := by
  unfold pqcWalGenerateSigningKeys at generated
  split at generated
  case h_1 => simp at generated
  case h_2 alg resolved =>
    split at generated
    case h_1 => simp at generated
    case h_2 initialized ctx created =>
      split at generated
      case h_1 => simp at generated
      case h_2 publicKey secretKey drawn =>
        split at generated
        case h_1 => simp at generated
        case h_2 written wrote =>
          have provided := pqc_sig_new_returns (congrArg Prod.snd created)
          have lengths := ctx.oqsSig.keypairLengths coins publicKey secretKey drawn
          obtain ⟨rfl, rfl, -⟩ := by simpa only [Prod.mk.injEq] using generated
          have files := write_key_pair_returns wrote writeSecret writePublic
          refine ⟨ctx.oqsSig, publicKey, secretKey, ?_, files⟩
          exact
            { loaded := rfl
              provided := provided
              pubkey := rfl
              pubkeyLen := lengths.1
              generated := ⟨coins, drawn⟩
              seckey := rfl
              seckeyLen := lengths.2 }

end KeyFiles

end FortressQL.Wal.SigningKeys
