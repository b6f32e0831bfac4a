import FortressQL.Wal.SigningKeys
import FortressQL.Wal.Segments

/-!
# Signing and verifying WAL segments

`XLogPqcSignSegment` signs the SHA-256 digest of the segment file; `pqc_wal_verify_segment` checks
the signature against the bytes of the file.
-/

namespace FortressQL.Wal.SegmentSigning

open Option
open Elog Lib.Files Pqc.Signatures Wal.SigningKeys Wal.Segments

variable {signature received coins publicKey : Bytes}

structure ServerEnv where
  liboqs : Liboqs
  host : Host
  sha256 : Bytes → Vector UInt8 32
  cryptohashFails : Bool

def signaturePath (segpath : String) : String := segpath ++ ".sig"

/-- The loop that reads the segment in chunks of `read_buf` and hashes them; the context is
what it has hashed so far. -/
def hashLoop (hashed rest : Bytes) : Bytes :=
  if rest = [] then hashed
  else hashLoop (hashed ++ rest.take 8192) (rest.drop 8192)
termination_by rest.length
decreasing_by
  rename_i unread
  have filled : 0 < rest.length := List.length_pos_iff.mpr unread
  simp only [List.length_drop]
  omega

/-- The buffer is sized for one algorithm, whichever algorithm signs. -/
def signatureBufferLen (liboqs : Liboqs) (keys : WalKeys) : Nat :=
  if pqcSigMaxSignatureLen liboqs keys.pqcInitialized .mlDsa65 = 0 then 8192
  else pqcSigMaxSignatureLen liboqs keys.pqcInitialized .mlDsa65

/-- The end of `XLogPqcSignSegment`; after a failed write or close only a warning follows. -/
def writeSignatureFile (host : Host) (disk : Disk) (sigpath : String) (signature : Bytes) : Disk :=
  if host.creates sigpath = false then disk
  else disk.write sigpath (host.stored sigpath signature)

/-- `XLogPqcSignSegment`, with the key variables and the files it leaves. Every failure it
detects itself is a warning. -/
def xlogPqcSignSegment (env : ServerEnv) (size : WalSegmentSize) (keys : WalKeys) (disk : Disk)
    (coins : Bytes) (segno tli : Nat) : WalKeys × Disk × Raises Unit :=
  match disk (xlogFilePath tli segno size) with
  | none => (keys, disk, .ok ())
  | some content =>
    if env.host.opens (xlogFilePath tli segno size) = false then (keys, disk, .ok ())
    else if env.cryptohashFails = true then (keys, disk, .ok ())
    else
      match pqcWalSignData env.liboqs keys coins
          (env.sha256 (hashLoop []
            (env.host.delivered (xlogFilePath tli segno size) content))).toList
          (signatureBufferLen env.liboqs keys) with
      | (next, .error report) => (next, disk, .error report)
      | (next, .ok none) => (next, disk, .ok ())
      | (next, .ok (some signature)) =>
        (next, writeSignatureFile env.host disk
          (signaturePath (xlogFilePath tli segno size)) signature, .ok ())

def statFile (host : Host) (disk : Disk) (path : String) : Option Bytes :=
  if host.stats path = false then none else disk path

/-- `AllocateFile` and one `fread` of the whole size; `none` is the branch that warns. -/
def readWhole (host : Host) (path : String) (content : Bytes) : Option Bytes :=
  if host.opens path = false then none
  else if (host.delivered path content).length ≠ content.length then none
  else some (host.delivered path content)

def pqcWalVerifySegment (env : ServerEnv) (keys : WalKeys) (disk : Disk) (segpath : String) :
    WalKeys × Raises Bool :=
  match statFile env.host disk segpath with
  | none => (keys, .ok false)
  | some seg =>
    match statFile env.host disk (signaturePath segpath) with
    | none => (keys, .ok false)
    | some sig =>
      if seg.length = 0 then (keys, .ok false)
      else if sig.length = 0 then (keys, .ok false)
      else
        match readWhole env.host segpath seg with
        | none => (keys, .ok false)
        | some segData =>
          match readWhole env.host (signaturePath segpath) sig with
          | none => (keys, .ok false)
          | some sigData =>
            match pqcWalGetPublicKey keys with
            | .error report => (keys, .error report)
            | .ok (pubkey, pubkeyLen) =>
              pqcWalVerifyData env.liboqs keys segData sigData pubkey pubkeyLen

def receivedVerdict (primary standby : ServerEnv) (size : WalSegmentSize)
    (signer verifier : WalKeys) (disk : Disk) (coins : Bytes) (segno tli : Nat)
    (received : Bytes) : Raises Bool :=
  (pqcWalVerifySegment standby verifier
    ((xlogPqcSignSegment primary size signer disk coins segno tli).2.1.write
      (xlogFilePath tli segno size) received)
    (xlogFilePath tli segno size)).2

def SegmentAgreement (primary standby : ServerEnv) (size : WalSegmentSize)
    (signer verifier : WalKeys) (disk : Disk) (coins : Bytes) (segno tli : Nat)
    (content : Bytes) : Prop :=
  ∀ received : Bytes, received.length = content.length →
    receivedVerdict primary standby size signer verifier disk coins segno tli received =
      .ok (decide (received = content))

structure FilesReliable (host : Host) (segpath : String) : Prop where
  segment : host.Reliable segpath
  signature : host.Reliable (signaturePath segpath)

def SignatureFits (primary : ServerEnv) (signer : WalKeys) (scheme : OqsSig)
    (secretKey coins content : Bytes) : Prop :=
  ∃ signature, scheme.sign coins (primary.sha256 content).toList (some secretKey) =
      some signature ∧
    signature ≠ [] ∧ signature.length ≤ signatureBufferLen primary.liboqs signer

theorem hash_loop_all (hashed rest : Bytes) : hashLoop hashed rest = hashed ++ rest := by
  fun_induction hashLoop hashed rest with
  | case1 hashed => simp
  | case2 hashed rest unread ih => rw [ih, List.append_assoc, List.take_append_drop]

theorem signature_path_distinct (segpath : String) : signaturePath segpath ≠ segpath := by
  intro same
  have lengths := congrArg String.length same
  simp [signaturePath] at lengths

theorem copy_signature_fits {buflen : Nat} {outcome : Option Bytes} :
    copySignature buflen outcome = some signature ↔
      outcome = some signature ∧ signature ≠ [] ∧ signature.length ≤ buflen := by
  cases outcome with
  | none => simp [copySignature]
  | some made =>
    simp only [copySignature]
    split_ifs with empty long
    · simp only [some.injEq]
      simp_all
    · simp only [some.injEq, false_iff, not_and]
      rintro rfl -
      omega
    · simp only [some.injEq]
      constructor
      · rintro rfl
        exact ⟨rfl, by simpa using empty, by omega⟩
      · exact fun made => made.1

/-- What the signer leaves beside a segment. -/
def storedSignature (primary : ServerEnv) (signer : WalKeys) (scheme : OqsSig)
    (secretKey coins content : Bytes) : Option Bytes :=
  copySignature (signatureBufferLen primary.liboqs signer)
    (scheme.sign coins (primary.sha256 content).toList (some secretKey))

section Signer

variable {env : ServerEnv} {size : WalSegmentSize} {keys : WalKeys} {scheme : OqsSig}
  {secretKey content : Bytes} {disk : Disk} {segno tli : Nat}

theorem sign_segment_disk (holds : HoldsKeyPair env.liboqs keys scheme publicKey secretKey)
    (hashes : env.cryptohashFails = false)
    (present : disk (xlogFilePath tli segno size) = some content)
    (files : FilesReliable env.host (xlogFilePath tli segno size)) (coins : Bytes) :
    (xlogPqcSignSegment env size keys disk coins segno tli).2.1 =
      match storedSignature env keys scheme secretKey coins content with
      | none => disk
      | some signature => disk.write (signaturePath (xlogFilePath tli segno size)) signature := by
  have opened : ¬(env.host.opens (xlogFilePath tli segno size) = false) := by
    simp [files.segment.opens]
  have hashing : ¬(env.cryptohashFails = true) := by simp [hashes]
  have creates :
      ¬(env.host.creates (signaturePath (xlogFilePath tli segno size)) = false) := by
    simp [files.signature.creates]
  simp only [xlogPqcSignSegment, present, if_neg opened, if_neg hashing, files.segment.delivers,
    hash_loop_all, List.nil_append, sign_data_signs holds, storedSignature]
  cases copySignature (signatureBufferLen env.liboqs keys)
      (scheme.sign coins (env.sha256 content).toList (some secretKey)) with
  | none => rfl
  | some signature =>
    simp [writeSignatureFile, if_neg creates, files.signature.stores]

end Signer

section Verifier

variable {env : ServerEnv} {keys : WalKeys} {scheme : OqsSig} {disk : Disk} {segpath : String}

theorem verify_segment_unsigned (unsigned : disk (signaturePath segpath) = none) :
    (pqcWalVerifySegment env keys disk segpath).2 = .ok false := by
  have missing : statFile env.host disk (signaturePath segpath) = none := by
    simp [statFile, unsigned]
  simp only [pqcWalVerifySegment, missing]
  cases statFile env.host disk segpath with
  | none => rfl
  | some seg => rfl

theorem read_whole_reliable {host : Host} {path : String} (reliable : host.Reliable path)
    (content : Bytes) : readWhole host path content = some content := by
  have opened : ¬(host.opens path = false) := by simp [reliable.opens]
  simp [readWhole, if_neg opened, reliable.delivers]

theorem verify_segment_verdict (holds : HoldsPublicKey env.liboqs keys scheme publicKey)
    (files : FilesReliable env.host segpath) (present : disk segpath = some received)
    (signed : disk (signaturePath segpath) = some signature) (nonempty : received ≠ [])
    (made : signature ≠ []) :
    (pqcWalVerifySegment env keys disk segpath).2 =
      .ok (scheme.verify received signature (some publicKey)) := by
  have segmentStat : statFile env.host disk segpath = some received := by
    simp [statFile, files.segment.stats, present]
  have signatureStat : statFile env.host disk (signaturePath segpath) = some signature := by
    simp [statFile, files.signature.stats, signed]
  have filled : ¬(received.length = 0) := by simpa using nonempty
  have filledSignature : ¬(signature.length = 0) := by simpa using made
  simp only [pqcWalVerifySegment, segmentStat, signatureStat, if_neg filled,
    if_neg filledSignature, read_whole_reliable files.segment, read_whole_reliable files.signature,
    get_public_key_held holds, verify_data_verifies holds]

end Verifier

section Agreement

variable {primary standby : ServerEnv} {size : WalSegmentSize} {signer verifier : WalKeys}
  {scheme : OqsSig} {publicKey secretKey content : Bytes} {disk : Disk} {segno tli : Nat}

section Verdicts

variable (exact : scheme.VerifiesExactly)
  (signs : HoldsKeyPair primary.liboqs signer scheme publicKey secretKey)
  (verifies : HoldsPublicKey standby.liboqs verifier scheme publicKey)
  (hashes : primary.cryptohashFails = false)
  (primaryFiles : FilesReliable primary.host (xlogFilePath tli segno size))
  (standbyFiles : FilesReliable standby.host (xlogFilePath tli segno size))
  (present : disk (xlogFilePath tli segno size) = some content)

include exact signs verifies hashes primaryFiles standbyFiles present

theorem received_verdict (unsigned : disk (signaturePath (xlogFilePath tli segno size)) = none)
    (coins : Bytes) (nonempty : received ≠ []) :
    receivedVerdict primary standby size signer verifier disk coins segno tli received =
      .ok ((storedSignature primary signer scheme secretKey coins content).isSome &&
        decide (received = (primary.sha256 content).toList)) := by
  have left := sign_segment_disk signs hashes present primaryFiles coins
  rw [receivedVerdict, left]
  cases stored : storedSignature primary signer scheme secretKey coins content with
  | none =>
    apply verify_segment_unsigned
    rw [write_other _ _ (signature_path_distinct _)]
    exact unsigned
  | some signature =>
    obtain ⟨made, filled, -⟩ := copy_signature_fits.mp stored
    obtain ⟨keyCoins, drawn⟩ := signs.generated
    have judged := exact keyCoins publicKey secretKey drawn coins _ signature made received
    -- The signer signs the digest, the verifier checks the signature against the segment itself.
    rw [verify_segment_verdict verifies standbyFiles (write_same _ _ _)
      ((write_other _ _ (signature_path_distinct _)).trans (write_same _ _ _)) nonempty filled]
    exact congrArg Except.ok (Bool.eq_iff_iff.mpr (by simpa using judged))

theorem full_segment_refused (unsigned : disk (signaturePath (xlogFilePath tli segno size)) = none)
    (coins : Bytes) (full : received.length = size.bytes) :
    receivedVerdict primary standby size signer verifier disk coins segno tli received =
      .ok false := by
  have large : 2 ^ 20 ≤ received.length := full ▸ segment_size_large size
  have nonempty : received ≠ [] := List.length_pos_iff.mp (by omega)
  have other : received ≠ (primary.sha256 content).toList := by
    intro same
    rw [same] at large
    simp at large
  rw [received_verdict exact signs verifies hashes primaryFiles standbyFiles present unsigned coins
    nonempty, decide_eq_false other, Bool.and_false]

end Verdicts

/-- Signer and verifier agree exactly if the signature can be stored and the segment is its own
digest, which no segment of a legal size is. -/
theorem segment_agreement_iff (primary standby : ServerEnv) (exact : scheme.VerifiesExactly)
    (signs : HoldsKeyPair primary.liboqs signer scheme publicKey secretKey)
    (verifies : HoldsPublicKey standby.liboqs verifier scheme publicKey)
    (hashes : primary.cryptohashFails = false)
    (primaryFiles : FilesReliable primary.host (xlogFilePath tli segno size))
    (standbyFiles : FilesReliable standby.host (xlogFilePath tli segno size))
    (present : disk (xlogFilePath tli segno size) = some content)
    (unsigned : disk (signaturePath (xlogFilePath tli segno size)) = none)
    (nonempty : content ≠ []) (coins : Bytes) :
    (SegmentAgreement primary standby size signer verifier disk coins segno tli content ↔
      SignatureFits primary signer scheme secretKey coins content ∧
        (primary.sha256 content).toList = content) ∧
    (content.length = size.bytes → ∀ received : Bytes, received.length = size.bytes →
      receivedVerdict primary standby size signer verifier disk coins segno tli received =
        .ok false) := by
  refine ⟨?_, fun _ received full => full_segment_refused exact signs verifies hashes
    primaryFiles standbyFiles present unsigned coins full⟩
  have fits : SignatureFits primary signer scheme secretKey coins content ↔
      (storedSignature primary signer scheme secretKey coins content).isSome := by
    simp only [SignatureFits, ← copy_signature_fits, isSome_iff_exists, storedSignature]
  have verdict {received : Bytes} (filled : received ≠ []) := received_verdict exact signs verifies
    hashes primaryFiles standbyFiles present unsigned coins filled
  rw [fits]
  constructor
  · intro agreement
    have accepted := agreement content rfl
    rw [verdict nonempty] at accepted
    obtain ⟨stored, own⟩ : _ ∧ content = _ := by simpa using accepted
    exact ⟨stored, own.symm⟩
  · rintro ⟨stored, own⟩ received length
    have filled : received ≠ [] := by
      rw [← List.length_pos_iff, length]
      exact List.length_pos_iff.mpr nonempty
    rw [verdict filled, own, stored, Bool.true_and]

end Agreement

def sampleScheme : OqsSig :=
  { lengthPublicKey := 1
    lengthSecretKey := 1
    lengthSignature := 3309
    keypair := fun _ => some ([1], [2])
    sign := fun _ message _ => some (7 :: message)
    verify := fun message signature _ => signature = 7 :: message
    keypairLengths := by
      rintro coins publicKey secretKey drawn
      obtain ⟨rfl, rfl⟩ := by simpa using drawn
      exact ⟨rfl, rfl⟩ }

def sampleLiboqs : Liboqs := { sigNew := fun _ => some sampleScheme }

def sampleServer (sha256 : Bytes → Vector UInt8 32) : ServerEnv :=
  { liboqs := sampleLiboqs
    host := dependableHost
    sha256 := sha256
    cryptohashFails := false }

theorem sample_scheme_exact : sampleScheme.VerifiesExactly := by
  intro keyCoins publicKey secretKey drawn coins message signature made other
  have tagged : 7 :: message = signature := by simpa [sampleScheme] using made
  simp [sampleScheme, ← tagged, eq_comm]

def sampleGeneration : WalKeys × Disk × Raises Unit :=
  pqcWalGenerateSigningKeys sampleLiboqs dependableHost (fun _ => none) initialKeys "keys"
    "ML-DSA-65" []

def sampleLoad : WalKeys × Raises Unit :=
  pqcWalLoadSigningKeys sampleLiboqs dependableHost sampleGeneration.2.1 initialKeys "keys"
    "ML-DSA-65"

theorem sample_algorithm_resolved : pqcWalResolveAlgorithm "ML-DSA-65" = .ok .mlDsa65 := by
  rfl

theorem sample_algorithm_provided : sampleLiboqs.Provides .mlDsa65 sampleScheme :=
  ⟨⟨.mlDsa65, "ML-DSA-65", "ML-DSA-65", .sig⟩, rfl, rfl, rfl⟩

theorem sample_generated :
    HoldsKeyPair sampleLiboqs sampleGeneration.1 sampleScheme [1] [2] ∧
      sampleGeneration.2.1 (secretKeyPath "keys") = some [2] ∧
      sampleGeneration.2.1 (publicKeyPath "keys") = some [1] := by
  have returned : sampleGeneration = (sampleGeneration.1, sampleGeneration.2.1, .ok ()) := rfl
  obtain ⟨scheme, publicKey, secretKey, holds, files⟩ := generate_signing_keys_holds returned
    (dependable_host_reliable _) (dependable_host_reliable _)
  obtain ⟨info, -, -, supported⟩ := holds.provided
  obtain rfl : sampleScheme = scheme := some.inj supported
  obtain ⟨coins, drawn⟩ := holds.generated
  obtain ⟨rfl, rfl⟩ : [1] = publicKey ∧ [2] = secretKey := by simpa [sampleScheme] using drawn
  exact ⟨holds, files⟩

theorem sample_loaded : HoldsKeyPair sampleLiboqs sampleLoad.1 sampleScheme [1] [2] := by
  obtain ⟨-, secretFile, publicFile⟩ := sample_generated
  obtain ⟨next, loaded, holds⟩ := load_signing_keys_holds (by decide)
    sample_algorithm_resolved sample_algorithm_provided ⟨[], rfl⟩ secretFile publicFile
    (dependable_host_reliable _) (dependable_host_reliable _) (by decide) (by decide)
  rw [sampleLoad, loaded]
  exact holds

def zeroSegment : Bytes := List.replicate smallestSegmentSize.bytes 0

def zeroSegmentDisk : Disk :=
  Disk.write (fun _ => none) (xlogFilePath 1 1 smallestSegmentSize) zeroSegment

theorem sample_server_hashes (sha256 : Bytes → Vector UInt8 32) :
    (sampleServer sha256).cryptohashFails = false := rfl

theorem sample_files_reliable (segpath : String) : FilesReliable dependableHost segpath :=
  ⟨dependable_host_reliable _, dependable_host_reliable _⟩

theorem zero_segment_present :
    zeroSegmentDisk (xlogFilePath 1 1 smallestSegmentSize) = some zeroSegment :=
  write_same _ _ _

theorem zero_segment_unsigned :
    zeroSegmentDisk (signaturePath (xlogFilePath 1 1 smallestSegmentSize)) = none :=
  write_other _ _ (signature_path_distinct _)

theorem zero_segment_length : zeroSegment.length = smallestSegmentSize.bytes :=
  List.length_replicate

theorem zero_segment_filled : zeroSegment ≠ [] := by
  decide

/-- The theorem applies to a pair of servers that generated and copied their keys. -/
theorem zero_segment_agreement :
    ∃ primary standby : ServerEnv,
      HoldsKeyPair primary.liboqs sampleGeneration.1 sampleScheme [1] [2] ∧
      HoldsKeyPair standby.liboqs sampleLoad.1 sampleScheme [1] [2] ∧
      (SegmentAgreement primary standby smallestSegmentSize sampleGeneration.1 sampleLoad.1
          zeroSegmentDisk [] 1 1 zeroSegment ↔
        SignatureFits primary sampleGeneration.1 sampleScheme [2] [] zeroSegment ∧
          (primary.sha256 zeroSegment).toList = zeroSegment) := by
  let server := sampleServer fun _ => Vector.replicate 32 0
  have characterized := segment_agreement_iff server server sample_scheme_exact
    sample_generated.1 sample_loaded.toHoldsPublicKey rfl (sample_files_reliable _)
    (sample_files_reliable _) zero_segment_present zero_segment_unsigned zero_segment_filled []
  exact ⟨server, server, sample_generated.1, sample_loaded, characterized.1⟩

/-- The signature of the zero segment is written and the verifier refuses it, whatever the
digest function. -/
theorem zero_segment_refused :
    smallestSegmentSize.bytes = 1024 * 1024 ∧
    ∀ sha256 : Bytes → Vector UInt8 32,
      (xlogPqcSignSegment (sampleServer sha256) smallestSegmentSize sampleGeneration.1
          zeroSegmentDisk [] 1 1).2.1 (signaturePath (xlogFilePath 1 1 smallestSegmentSize)) =
        some (7 :: (sha256 zeroSegment).toList) ∧
      receivedVerdict (sampleServer sha256) (sampleServer sha256) smallestSegmentSize
          sampleGeneration.1 sampleLoad.1 zeroSegmentDisk [] 1 1 zeroSegment =
        .ok false := by
  refine ⟨rfl, fun sha256 => ⟨?_, ?_⟩⟩
  · have stored : storedSignature (sampleServer sha256) sampleGeneration.1 sampleScheme [2] []
        zeroSegment = some (7 :: (sha256 zeroSegment).toList) := by
      have buffer : signatureBufferLen sampleLiboqs sampleGeneration.1 = 3309 := rfl
      exact copy_signature_fits.mpr ⟨rfl, by simp, by simp [sampleServer, buffer]⟩
    have left := sign_segment_disk sample_generated.1 (sample_server_hashes sha256)
      zero_segment_present (sample_files_reliable _) []
    rw [left, stored]
    exact write_same _ _ _
  · exact full_segment_refused sample_scheme_exact sample_generated.1
      sample_loaded.toHoldsPublicKey (sample_server_hashes sha256) (sample_files_reliable _)
      (sample_files_reliable _) zero_segment_present zero_segment_unsigned [] zero_segment_length

end FortressQL.Wal.SegmentSigning
