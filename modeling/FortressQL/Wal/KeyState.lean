import FortressQL.Lib.Runs
import FortressQL.Wal.SegmentSigning

/-!
# The key variables over a sequence of calls

What `wal_keys_loaded` promises, and which calls keep the promise. A load clears the flag on one of
its two error paths only, and takes any two files of the right sizes for a pair. The source
allocates the key buffers in the current memory context; they are taken to outlive the call.
-/

namespace FortressQL.Wal.KeyState

open Option
open Elog Lib.Files Lib.Runs Pqc.Signatures Wal.SegmentSigning Wal.SigningKeys

variable {keyPath algorithm : String} {keys : WalKeys} {liboqs : Liboqs} {alg : PqcAlgorithm}

/-- A call, with the files and the operating system it meets. Other processes may change the
files between two calls. -/
inductive KeyCall where
  | load (host : Host) (disk : Disk) (keyPath algorithm : String)
  | generate (host : Host) (disk : Disk) (keyPath algorithm : String) (coins : Bytes)
  | sign (coins data : Bytes) (sigOutBuflen : Nat)

def perform (liboqs : Liboqs) (keys : WalKeys) : KeyCall → WalKeys × Raises Unit
  | .load host disk keyPath algorithm =>
    pqcWalLoadSigningKeys liboqs host disk keys keyPath algorithm
  | .generate host disk keyPath algorithm coins =>
    let result := pqcWalGenerateSigningKeys liboqs host disk keys keyPath algorithm coins
    (result.1, result.2.2)
  | .sign coins data sigOutBuflen =>
    let result := pqcWalSignData liboqs keys coins data sigOutBuflen
    (result.1, result.2.map fun _ => ())

def keyStep (liboqs : Liboqs) (keys : WalKeys) (call : KeyCall) : WalKeys :=
  (perform liboqs keys call).1

def Matching (scheme : OqsSig) (publicKey secretKey : Bytes) : Prop :=
  ∀ coins message signature, scheme.sign coins message (some secretKey) = some signature →
    scheme.verify message signature (some publicKey) = true

def OqsSig.GeneratesPairs (scheme : OqsSig) : Prop :=
  ∀ coins publicKey secretKey, scheme.keypair coins = some (publicKey, secretKey) →
    Matching scheme publicKey secretKey

structure PairFor (liboqs : Liboqs) (alg : PqcAlgorithm) (publicKey secretKey : Bytes) : Prop where
  usable : ∃ scheme, liboqs.Provides alg scheme ∧ publicKey.length = scheme.lengthPublicKey ∧
    secretKey.length = scheme.lengthSecretKey ∧ Matching scheme publicKey secretKey

def HoldsPair (liboqs : Liboqs) (keys : WalKeys) : Prop :=
  ∃ publicKey secretKey, keys.walPublicKey = some publicKey ∧
    keys.walSecretKey = some secretKey ∧ keys.walPublicKeyLen = publicKey.length ∧
    keys.walSecretKeyLen = secretKey.length ∧
    PairFor liboqs keys.walSigAlgorithm publicKey secretKey

/-- Keys that count as loaded are a pair; otherwise one of them is missing. -/
structure Consistent (liboqs : Liboqs) (keys : WalKeys) : Prop where
  loaded : keys.walKeysLoaded = true → HoldsPair liboqs keys
  absent : keys.walKeysLoaded = false → keys.walSecretKey = none ∨ keys.walPublicKey = none

def Kept (before after : WalKeys) : Prop :=
  after = { before with pqcInitialized := after.pqcInitialized }

def NoPair (keys : WalKeys) : Prop :=
  keys.walKeysLoaded = false ∧ (keys.walSecretKey = none ∨ keys.walPublicKey = none)

structure CallSafe (liboqs : Liboqs) (keys : WalKeys) (call : KeyCall) : Prop where
  consistent : Consistent liboqs (keyStep liboqs keys call)
  failed : ∀ report, (perform liboqs keys call).2 = .error report →
    Kept keys (keyStep liboqs keys call) ∨ NoPair (keyStep liboqs keys call)

/-- The size checks of a load turn the keys down. -/
def SizesRefused (liboqs : Liboqs) (pqcInitialized : Bool) (alg : PqcAlgorithm)
    (publicKey secretKey : Bytes) : Prop :=
  (pqcSigSecretKeyLen liboqs pqcInitialized alg > 0 ∧
      secretKey.length ≠ pqcSigSecretKeyLen liboqs pqcInitialized alg) ∨
    (pqcSigPublicKeyLen liboqs pqcInitialized alg > 0 ∧
      publicKey.length ≠ pqcSigPublicKeyLen liboqs pqcInitialized alg)

/-- Both files can be read and hold a pair of the algorithm or keys that the size checks turn
down; or no keys were loaded before. -/
def LoadAllowed (liboqs : Liboqs) (keys : WalKeys) (host : Host) (disk : Disk)
    (keyPath : String) (alg : PqcAlgorithm) : Prop :=
  match (readKeyFile host disk (secretKeyPath keyPath)).2,
      (readKeyFile host disk (publicKeyPath keyPath)).2 with
  | .ok secretKey, .ok publicKey =>
    SizesRefused liboqs keys.pqcInitialized alg publicKey secretKey ∨
      PairFor liboqs alg publicKey secretKey
  | _, _ => keys.walKeysLoaded = false

def GenerationWorks (liboqs : Liboqs) (host : Host) (disk : Disk) (keyPath : String)
    (alg : PqcAlgorithm) (coins : Bytes) : Prop :=
  ∃ scheme publicKey secretKey, liboqs.Provides alg scheme ∧
    scheme.keypair coins = some (publicKey, secretKey) ∧
    (writeKeyPair host disk keyPath publicKey secretKey).2 = .ok ()

def Allowed (liboqs : Liboqs) (keys : WalKeys) : KeyCall → Prop
  | .load host disk keyPath algorithm =>
    keyPath ≠ "" → ∀ alg, pqcWalResolveAlgorithm algorithm = .ok alg →
      LoadAllowed liboqs keys host disk keyPath alg
  | .generate host disk keyPath algorithm coins =>
    checkKeyDirectory host keyPath = .ok () →
      ∀ alg, pqcWalResolveAlgorithm algorithm = .ok alg →
        GenerationWorks liboqs host disk keyPath alg coins ∨ keys.walKeysLoaded = false ∨
          alg = keys.walSigAlgorithm
  | .sign _ _ _ => True

theorem Consistent.of_kept {after : WalKeys} (consistent : Consistent liboqs keys)
    (kept : Kept keys after) : Consistent liboqs after := by
  rw [kept]
  exact ⟨consistent.loaded, consistent.absent⟩

theorem NoPair.consistent (missing : NoPair keys) : Consistent liboqs keys :=
  ⟨fun loaded => absurd (missing.1.symm.trans loaded) Bool.false_ne_true, fun _ => missing.2⟩

theorem missing_consistent_iff (missing : keys.walSecretKey = none ∨ keys.walPublicKey = none) :
    Consistent liboqs keys ↔ keys.walKeysLoaded = false := by
  constructor
  · intro consistent
    rw [← Bool.not_eq_true]
    intro loaded
    obtain ⟨publicKey, secretKey, pubkey, seckey, -⟩ := consistent.loaded loaded
    rcases missing with none | none
    · rw [none] at seckey
      cases seckey
    · rw [none] at pubkey
      cases pubkey
  · intro unloaded
    exact NoPair.consistent ⟨unloaded, missing⟩

theorem sign_data_keeps (liboqs : Liboqs) (keys : WalKeys) (coins data : Bytes)
    (sigOutBuflen : Nat) :
    Kept keys (pqcWalSignData liboqs keys coins data sigOutBuflen).1 := by
  unfold pqcWalSignData
  split_ifs
  · rfl
  · split <;> rfl

theorem kept_safe {call : KeyCall} (consistent : Consistent liboqs keys)
    (kept : Kept keys (keyStep liboqs keys call)) : CallSafe liboqs keys call :=
  ⟨consistent.of_kept kept, fun _ _ => .inl kept⟩

theorem unchanged_safe {call : KeyCall} (consistent : Consistent liboqs keys)
    (unchanged : keyStep liboqs keys call = keys) : CallSafe liboqs keys call :=
  kept_safe consistent (by rw [unchanged]; rfl)

theorem pairless_failure_safe_iff {call : KeyCall}
    (missing : (keyStep liboqs keys call).walSecretKey = none ∨
      (keyStep liboqs keys call).walPublicKey = none) :
    CallSafe liboqs keys call ↔ (keyStep liboqs keys call).walKeysLoaded = false := by
  constructor
  · intro safe
    exact (missing_consistent_iff missing).mp safe.consistent
  · intro unloaded
    exact ⟨NoPair.consistent ⟨unloaded, missing⟩, fun _ _ => .inr ⟨unloaded, missing⟩⟩

theorem sign_safe (consistent : Consistent liboqs keys) (coins data : Bytes)
    (sigOutBuflen : Nat) : CallSafe liboqs keys (.sign coins data sigOutBuflen) :=
  kept_safe consistent (sign_data_keeps liboqs keys coins data sigOutBuflen)

section Loads

variable {host : Host} {disk : Disk}

def readKeys (keys : WalKeys) (alg : PqcAlgorithm) (publicKey secretKey : Bytes) : WalKeys :=
  { keys with
    walSigAlgorithm := alg
    walSecretKey := some secretKey
    walSecretKeyLen := secretKey.length
    walPublicKey := some publicKey
    walPublicKeyLen := publicKey.length }

variable {publicKey secretKey : Bytes}

theorem validate_refuses
    (refused : SizesRefused liboqs keys.pqcInitialized alg publicKey secretKey) :
    validateKeySizes liboqs (readKeys keys alg publicKey secretKey) =
      disableSigning (readKeys keys alg publicKey secretKey) := by
  unfold validateKeySizes
  dsimp only
  split_ifs with secretWrong publicWrong
  · rfl
  · rfl
  · exact absurd refused (not_or.mpr ⟨secretWrong, publicWrong⟩)

theorem validate_accepts
    (accepted : ¬ SizesRefused liboqs keys.pqcInitialized alg publicKey secretKey) :
    validateKeySizes liboqs (readKeys keys alg publicKey secretKey) =
      { readKeys keys alg publicKey secretKey with walKeysLoaded := true } := by
  obtain ⟨secretRight, publicRight⟩ := not_or.mp accepted
  exact (if_neg secretRight).trans (if_neg publicRight)

theorem loaded_pair_consistent_iff :
    Consistent liboqs { readKeys keys alg publicKey secretKey with walKeysLoaded := true } ↔
      PairFor liboqs alg publicKey secretKey := by
  constructor
  · intro consistent
    obtain ⟨foundPublic, foundSecret, pubkey, seckey, -, -, pair⟩ := consistent.loaded rfl
    obtain rfl : publicKey = foundPublic := some.inj pubkey
    obtain rfl : secretKey = foundSecret := some.inj seckey
    exact pair
  · intro pair
    exact ⟨fun _ => ⟨publicKey, secretKey, rfl, rfl, rfl, rfl, pair⟩, nofun⟩

section

variable (named : keyPath ≠ "") (resolved : pqcWalResolveAlgorithm algorithm = .ok alg)

include named resolved

section

variable (unread : ∀ secretKey publicKey,
  ¬ ((readKeyFile host disk (secretKeyPath keyPath)).2 = .ok secretKey ∧
    (readKeyFile host disk (publicKeyPath keyPath)).2 = .ok publicKey))

include unread

theorem load_unread :
    ∃ next report, pqcWalLoadSigningKeys liboqs host disk keys keyPath algorithm =
        (next, .error report) ∧
      next.walKeysLoaded = keys.walKeysLoaded ∧
      (next.walSecretKey = none ∨ next.walPublicKey = none) := by
  simp only [pqcWalLoadSigningKeys, if_neg named, resolved, readKeyPair]
  rcases secret : readKeyFile host disk (secretKeyPath keyPath) with ⟨len, - | secretKey⟩
  · exact ⟨_, _, rfl, rfl, .inl rfl⟩
  · rcases other : readKeyFile host disk (publicKeyPath keyPath) with ⟨_, - | publicKey⟩
    · exact ⟨_, _, rfl, rfl, .inr rfl⟩
    · exact absurd ⟨by rw [secret], by rw [other]⟩ (unread secretKey publicKey)

theorem load_unread_safe_iff :
    CallSafe liboqs keys (.load host disk keyPath algorithm) ↔ keys.walKeysLoaded = false := by
  obtain ⟨next, report, result, flag, missing⟩ :=
    @load_unread _ _ keys liboqs _ _ _ named resolved unread
  have stepped : keyStep liboqs keys (.load host disk keyPath algorithm) = next :=
    congrArg Prod.fst result
  rw [pairless_failure_safe_iff (by rw [stepped]; exact missing), stepped, flag]

end

variable (secretRead : (readKeyFile host disk (secretKeyPath keyPath)).2 = .ok secretKey)
  (publicRead : (readKeyFile host disk (publicKeyPath keyPath)).2 = .ok publicKey)

include secretRead publicRead

theorem load_read :
    pqcWalLoadSigningKeys liboqs host disk keys keyPath algorithm =
      (validateKeySizes liboqs (readKeys keys alg publicKey secretKey), .ok ()) := by
  simp only [pqcWalLoadSigningKeys, if_neg named, resolved, readKeyPair]
  rcases secret : readKeyFile host disk (secretKeyPath keyPath) with ⟨len, outcome⟩
  rcases other : readKeyFile host disk (publicKeyPath keyPath) with ⟨otherLen, otherOutcome⟩
  obtain rfl : outcome = .ok secretKey := by rw [← secretRead, secret]
  obtain rfl : otherOutcome = .ok publicKey := by rw [← publicRead, other]
  rfl

theorem load_read_safe_iff :
    CallSafe liboqs keys (.load host disk keyPath algorithm) ↔
      SizesRefused liboqs keys.pqcInitialized alg publicKey secretKey ∨
        PairFor liboqs alg publicKey secretKey := by
  have result : perform liboqs keys (.load host disk keyPath algorithm) = _ :=
    load_read named resolved secretRead publicRead
  have returns : CallSafe liboqs keys (.load host disk keyPath algorithm) ↔
      Consistent liboqs (validateKeySizes liboqs (readKeys keys alg publicKey secretKey)) := by
    constructor
    · intro safe
      have consistent := safe.consistent
      rwa [keyStep, result] at consistent
    · intro consistent
      refine ⟨by rwa [keyStep, result], fun report raised => ?_⟩
      rw [result] at raised
      cases raised
  rw [returns]
  by_cases refused : SizesRefused liboqs keys.pqcInitialized alg publicKey secretKey
  · rw [validate_refuses refused]
    exact iff_of_true (NoPair.consistent ⟨rfl, .inl rfl⟩) (.inl refused)
  · rw [validate_accepts refused, loaded_pair_consistent_iff, or_iff_right refused]

end

theorem load_safe_iff (consistent : Consistent liboqs keys) :
    CallSafe liboqs keys (.load host disk keyPath algorithm) ↔
      Allowed liboqs keys (.load host disk keyPath algorithm) := by
  by_cases named : keyPath = ""
  · refine iff_of_true (unchanged_safe consistent ?_) fun refused => absurd named refused
    simp [keyStep, perform, pqcWalLoadSigningKeys, named]
  cases resolved : pqcWalResolveAlgorithm algorithm with
  | error report =>
    refine iff_of_true (unchanged_safe consistent ?_) fun _ alg found => ?_
    · simp [keyStep, perform, pqcWalLoadSigningKeys, named, resolved]
    · rw [resolved] at found
      cases found
  | ok alg =>
    have allowed : Allowed liboqs keys (.load host disk keyPath algorithm) ↔
        LoadAllowed liboqs keys host disk keyPath alg := by
      simp [Allowed, named, resolved]
    rw [allowed, LoadAllowed]
    cases secretRead : (readKeyFile host disk (secretKeyPath keyPath)).2 with
    | error report =>
      exact load_unread_safe_iff named resolved fun _ _ both => by simp [secretRead] at both
    | ok secretKey =>
      cases publicRead : (readKeyFile host disk (publicKeyPath keyPath)).2 with
      | error report =>
        exact load_unread_safe_iff named resolved fun _ _ both => by simp [publicRead] at both
      | ok publicKey => exact load_read_safe_iff named resolved secretRead publicRead

end Loads

section Generations

variable {host : Host} {disk : Disk} {coins : Bytes}

theorem generate_resolved_cases (liboqs : Liboqs) (keys : WalKeys) (disk : Disk) (coins : Bytes)
    (directory : checkKeyDirectory host keyPath = .ok ())
    (resolved : pqcWalResolveAlgorithm algorithm = .ok alg) :
    (∃ scheme publicKey secretKey initialized, liboqs.Provides alg scheme ∧
        scheme.keypair coins = some (publicKey, secretKey) ∧
        GenerationWorks liboqs host disk keyPath alg coins ∧
        perform liboqs keys (.generate host disk keyPath algorithm coins) =
          ({ readKeys { keys with pqcInitialized := initialized } alg publicKey secretKey with
              walKeysLoaded := true }, .ok ())) ∨
      ∃ initialized report, ¬ GenerationWorks liboqs host disk keyPath alg coins ∧
        perform liboqs keys (.generate host disk keyPath algorithm coins) =
          ({ keys with walSigAlgorithm := alg, pqcInitialized := initialized }, .error report) := by
  have works {scheme : OqsSig} (provided : liboqs.Provides alg scheme) :
      GenerationWorks liboqs host disk keyPath alg coins ↔
        ∃ publicKey secretKey, scheme.keypair coins = some (publicKey, secretKey) ∧
          (writeKeyPair host disk keyPath publicKey secretKey).2 = .ok () := by
    constructor
    · rintro ⟨other, publicKey, secretKey, again, drawn, written⟩
      obtain rfl := provides_unique provided again
      exact ⟨publicKey, secretKey, drawn, written⟩
    · rintro ⟨publicKey, secretKey, drawn, written⟩
      exact ⟨scheme, publicKey, secretKey, provided, drawn, written⟩
  simp only [perform, pqcWalGenerateSigningKeys, directory, ok_then, resolved]
  rcases created : pqcSigNew liboqs keys.pqcInitialized alg with ⟨initialized, report | ctx⟩
  · refine .inr ⟨initialized, report, ?_, rfl⟩
    rintro ⟨scheme, -, -, provided, -⟩
    rw [pqc_sig_new_provided provided] at created
    simp at created
  · have provided := pqc_sig_new_returns (congrArg Prod.snd created)
    rw [works provided]
    dsimp only
    cases drawn : pqcSigKeygen ctx coins with
    | none =>
      rw [pqcSigKeygen] at drawn
      exact .inr ⟨initialized, _, by simp [drawn], rfl⟩
    | some pair =>
      obtain ⟨publicKey, secretKey⟩ := pair
      have generated : ctx.oqsSig.keypair coins = some (publicKey, secretKey) := drawn
      dsimp only
      rcases wrote : writeKeyPair host disk keyPath publicKey secretKey with ⟨next, outcome⟩
      cases outcome with
      | error report => exact .inr ⟨initialized, report, by simp [generated, wrote], rfl⟩
      | ok done =>
        refine .inl ⟨ctx.oqsSig, publicKey, secretKey, initialized, provided, generated,
          ⟨publicKey, secretKey, generated, by rw [wrote]⟩, rfl⟩

theorem generate_safe_iff (consistent : Consistent liboqs keys)
    (correct : ∀ alg scheme, liboqs.Provides alg scheme → OqsSig.GeneratesPairs scheme) :
    CallSafe liboqs keys (.generate host disk keyPath algorithm coins) ↔
      Allowed liboqs keys (.generate host disk keyPath algorithm coins) := by
  cases directory : checkKeyDirectory host keyPath with
  | error report =>
    refine iff_of_true (unchanged_safe consistent ?_) fun found => ?_
    · simp [keyStep, perform, pqcWalGenerateSigningKeys, directory]
    · rw [directory] at found
      cases found
  | ok done =>
    cases resolved : pqcWalResolveAlgorithm algorithm with
    | error report =>
      refine iff_of_true (unchanged_safe consistent ?_) fun _ alg found => ?_
      · simp [keyStep, perform, pqcWalGenerateSigningKeys, directory, resolved]
      · rw [resolved] at found
        cases found
    | ok alg =>
      have allowed : Allowed liboqs keys (.generate host disk keyPath algorithm coins) ↔
          GenerationWorks liboqs host disk keyPath alg coins ∨ keys.walKeysLoaded = false ∨
            alg = keys.walSigAlgorithm := by
        simp [Allowed, directory, resolved]
      rw [allowed]
      rcases generate_resolved_cases liboqs keys disk coins directory resolved with
        ⟨scheme, publicKey, secretKey, initialized, provided, drawn, works, result⟩ |
        ⟨initialized, report, fails, result⟩
      · have lengths := scheme.keypairLengths coins publicKey secretKey drawn
        have pair : PairFor liboqs alg publicKey secretKey :=
          ⟨scheme, provided, lengths.1, lengths.2, correct alg scheme provided _ _ _ drawn⟩
        refine iff_of_true ⟨?_, fun report raised => ?_⟩ (.inl works)
        · rw [keyStep, result]
          exact loaded_pair_consistent_iff.mpr pair
        · rw [result] at raised
          cases raised
      · rw [or_iff_right fails]
        have stepped : keyStep liboqs keys (.generate host disk keyPath algorithm coins) =
            { keys with walSigAlgorithm := alg, pqcInitialized := initialized } :=
          congrArg Prod.fst result
        constructor
        · intro safe
          rcases safe.failed report (congrArg Prod.snd result) with kept | missing
          · rw [stepped] at kept
            exact .inr (congrArg WalKeys.walSigAlgorithm kept)
          · rw [stepped] at missing
            exact .inl missing.1
        · rintro (unloaded | same)
          · refine (pairless_failure_safe_iff ?_).mpr ?_
            · rw [stepped]
              exact consistent.absent unloaded
            · rw [stepped]
              exact unloaded
          · apply kept_safe consistent
            rw [stepped, same]
            rfl

end Generations

section Runs

variable {liboqs : Liboqs}

theorem call_safe_iff {call : KeyCall} (consistent : Consistent liboqs keys)
    (correct : ∀ alg scheme, liboqs.Provides alg scheme → OqsSig.GeneratesPairs scheme) :
    CallSafe liboqs keys call ↔ Allowed liboqs keys call := by
  cases call with
  | load host disk keyPath algorithm => exact load_safe_iff consistent
  | generate host disk keyPath algorithm coins => exact generate_safe_iff consistent correct
  | sign coins data sigOutBuflen => exact iff_of_true (sign_safe consistent _ _ _) trivial

theorem initial_keys_consistent : Consistent liboqs initialKeys :=
  NoPair.consistent ⟨rfl, .inl rfl⟩

/-- In a run of allowed calls the keys are consistent in every state. A call not allowed is not
safe. -/
theorem key_runs_consistent
    (correct : ∀ alg scheme, liboqs.Provides alg scheme → OqsSig.GeneratesPairs scheme)
    (calls : List KeyCall)
    (allowed : Admissible (keyStep liboqs) (Allowed liboqs) initialKeys calls) :
    Consistent liboqs (run (keyStep liboqs) initialKeys calls) ∧
      ∀ call, CallSafe liboqs (run (keyStep liboqs) initialKeys calls) call ↔
        Allowed liboqs (run (keyStep liboqs) initialKeys calls) call := by
  have consistent : Consistent liboqs (run (keyStep liboqs) initialKeys calls) := by
    refine run_invariant (keyStep liboqs) (Allowed liboqs) (Consistent liboqs) ?_ initialKeys calls
      allowed initial_keys_consistent
    intro keys call permitted holds
    exact ((call_safe_iff holds correct).mpr permitted).consistent
  exact ⟨consistent, fun call => call_safe_iff consistent correct⟩

end Runs

def sampleGenerate : KeyCall :=
  .generate dependableHost (fun _ => none) "keys" "ML-DSA-65" []

def missingFilesLoad : KeyCall := .load dependableHost (fun _ => none) "keys" "ML-DSA-65"

theorem sample_pairs_match (alg : PqcAlgorithm) (scheme : OqsSig)
    (provided : sampleLiboqs.Provides alg scheme) : OqsSig.GeneratesPairs scheme := by
  obtain ⟨info, -, -, supported⟩ := provided
  obtain rfl : sampleScheme = scheme := some.inj supported
  intro coins publicKey secretKey _ signCoins message signature made
  have tagged : 7 :: message = signature := by simpa [sampleScheme] using made
  simp [sampleScheme, ← tagged]

theorem generated_keys_consistent :
    (run (keyStep sampleLiboqs) initialKeys [sampleGenerate]).walKeysLoaded = true ∧
      HoldsPair sampleLiboqs (run (keyStep sampleLiboqs) initialKeys [sampleGenerate]) := by
  have loaded : (run (keyStep sampleLiboqs) initialKeys [sampleGenerate]).walKeysLoaded = true :=
    rfl
  refine ⟨loaded, (key_runs_consistent sample_pairs_match [sampleGenerate] ?_).1.loaded loaded⟩
  exact ⟨fun _ _ _ => .inr (.inl rfl), trivial⟩

/-- A reload that does not find the files raises, and leaves a process that counts its keys as
loaded and has none. -/
theorem failed_reload_inconsistent :
    (perform sampleLiboqs (run (keyStep sampleLiboqs) initialKeys [sampleGenerate])
        missingFilesLoad).2 = .error (keyFileError "open" "keys/wal_signing.key") ∧
      (run (keyStep sampleLiboqs) initialKeys [sampleGenerate, missingFilesLoad]).walKeysLoaded =
        true ∧
      (run (keyStep sampleLiboqs) initialKeys [sampleGenerate, missingFilesLoad]).walSecretKey =
        none ∧
      (run (keyStep sampleLiboqs) initialKeys [sampleGenerate, missingFilesLoad]).walPublicKey =
        none := by
  exact ⟨rfl, rfl, rfl, rfl⟩

end FortressQL.Wal.KeyState
