import FortressQL.Scram.ServerRuns

/-!
# The hash that a session is authenticated with

`scram_init` takes the hash from the mechanism name and then overwrites it with that of the
stored secret. What an accepted session used is decided by the secret.
-/

namespace FortressQL.Scram.Downgrade

open Common.Base64 Elog Lib.ByteStrings Scram.Keys Scram.Messages Scram.Secret Scram.Server
open Scram.Acceptance Scram.Answers Scram.ServerRuns

def SecretFits (shadowPass : Option Bytes) (parameters : HashParameters) : Prop :=
  ∀ secret, storedSecret shadowPass = some secret → secret.toHashParameters = parameters

variable {port : Port} {selectedMech : Bytes} {choice : MechChoice} {crypto : Crypto}
  {shadowPass : Option Bytes} {start : ScramState}

theorem select_mech_hash (selected : selectMech port selectedMech = .ok choice) :
    mockParameters choice.hashType = mechanismParameters selectedMech := by
  have names := mechanism_names_distinct
  unfold selectMech at selected
  split_ifs at selected with sha384Plus sha384 pqc sha256Plus sha256 <;>
    rw [← Except.ok.inj selected, mechanismParameters]
  · rw [if_pos (.inr sha384Plus.1)]
    rfl
  · rw [if_pos (.inl sha384)]
    rfl
  · rw [sha256Plus.1]
    rfl
  · rw [sha256]
    rfl

/-- Under `uaPQCSCRAM` only the SHA-384 names get past `scram_init`. -/
theorem select_mech_pqc (pqc : port.authMethod = .uaPQCSCRAM)
    (selected : selectMech port selectedMech = .ok choice) :
    mechanismParameters selectedMech = sha384Parameters := by
  unfold selectMech at selected
  split_ifs at selected with sha384Plus sha384
  · exact if_pos (.inr sha384Plus.1)
  · exact if_pos (.inl sha384)

theorem scram_init_parameters {mockAuthNonce : Bytes}
    (init : scramInit crypto mockAuthNonce port selectedMech shadowPass = .ok start) :
    (start.doomed = false ∧ storedSecret shadowPass = some start.toScramSecret) ∨
      (start.doomed = true ∧ storedSecret shadowPass = none ∧
        start.toHashParameters = mechanismParameters selectedMech) := by
  simp only [scramInit, sequence_returns] at init
  obtain ⟨choice, selected, started⟩ := init
  split at started
  · rename_i secret stored
    rw [← Except.ok.inj started]
    exact .inl ⟨rfl, stored⟩
  · rename_i missing
    rw [← Except.ok.inj started]
    exact .inr ⟨rfl, missing, select_mech_hash selected⟩

theorem doomed_or_matching_iff {mockAuthNonce : Bytes}
    (init : scramInit crypto mockAuthNonce port selectedMech shadowPass = .ok start) :
    (start.doomed = true ∨ start.toHashParameters = mechanismParameters selectedMech) ↔
      SecretFits shadowPass (mechanismParameters selectedMech) := by
  rcases scram_init_parameters init with ⟨notDoomed, stored⟩ | ⟨doomed, missing, _⟩
  · constructor
    · intro promised secret found
      rw [stored] at found
      rw [← Option.some.inj found]
      rcases promised with doomed | same
      · rw [notDoomed] at doomed
        cases doomed
      · exact same
    · intro fits
      exact .inr (fits _ stored)
  · constructor
    · intro _ secret found
      rw [missing] at found
      cases found
    · intro _
      exact .inl doomed

theorem sasl_loop_keeps_secret {state last : ScramState} {unread : List SaslMessage}
    (messages : List SaslMessage)
    (accepted : saslLoop crypto state messages = .ok (.accepted last unread)) :
    last.toScramSecret = state.toScramSecret := by
  induction messages generalizing state with
  | nil => cases accepted
  | cons message later ih =>
    simp only [saslLoop, sequence_returns] at accepted
    obtain ⟨reply, exchanged, rest⟩ := accepted
    have kept := scram_exchange_keeps_secret exchanged
    cases result : reply.result with
    | exchangeContinue =>
      rw [result] at rest
      rw [ih rest, kept]
    | exchangeSuccess =>
      rw [result] at rest
      rw [← (SaslOutcome.accepted.inj (Except.ok.inj rest)).1, kept]
    | exchangeFailure =>
      rw [result] at rest
      cases rest

/-- The hash of the mechanism is used exactly if the secret is for it, and `uaPQCSCRAM` is SHA-384
exactly if the secret is. -/
theorem no_downgrade_iff (crypto : Crypto) (mockAuthNonce selectedMech : Bytes) (port : Port)
    (shadowPass : Option Bytes) (start : ScramState)
    (init : scramInit crypto mockAuthNonce port selectedMech shadowPass = .ok start) :
    ((start.doomed = true ∨ start.toHashParameters = mechanismParameters selectedMech) ↔
      SecretFits shadowPass (mechanismParameters selectedMech)) ∧
    (port.authMethod = .uaPQCSCRAM →
      mechanismParameters selectedMech = sha384Parameters ∧
      ∀ checkMd5Auth passwordEncryption initial later state unread,
        checkPwChallengeAuth crypto mockAuthNonce checkMd5Auth passwordEncryption port shadowPass
            selectedMech initial later = .ok (.accepted state unread) →
          (state.toHashParameters = sha384Parameters ↔
            SecretFits shadowPass sha384Parameters)) := by
  refine ⟨doomed_or_matching_iff init, ?_⟩
  intro pqc
  have sha384 : mechanismParameters selectedMech = sha384Parameters := by
    simp only [scramInit, sequence_returns] at init
    obtain ⟨choice, selected, _⟩ := init
    exact select_mech_pqc pqc selected
  refine ⟨sha384, ?_⟩
  intro checkMd5Auth passwordEncryption initial later state unread accepted
  have notMd5 : ¬(port.authMethod = .uaMD5 ∧
      (shadowPass.map getPasswordType).getD passwordEncryption = .md5) := by
    rw [pqc]
    exact fun both => absurd both.1 (by decide)
  simp only [checkPwChallengeAuth, if_neg notMd5, checkSaslAuth, init] at accepted
  have notDoomed := (accepted_two_messages (scram_init_sound init).1 accepted).1
  have kept := congrArg ScramSecret.toHashParameters (sasl_loop_keeps_secret _ accepted)
  have matching := doomed_or_matching_iff init
  rw [notDoomed, sha384] at matching
  rw [kept, ← matching]
  simp

theorem sample_pqc_init :
    scramInit sampleCrypto [] (samplePort .uaPQCSCRAM) scramSha384Name (some sampleShadow) =
      .ok (sampleStart .uaPQCSCRAM) :=
  (scram_init_stored sampleCrypto [] (select_mech_sha384 _) sample_stored).trans rfl

def samplePqcSession : Raises SaslOutcome :=
  checkPwChallengeAuth sampleCrypto [] (.ok .disconnected) .scramSha384 (samplePort .uaPQCSCRAM)
    (some sampleShadow) scramSha384Name sampleFirst
    [(clientFinal sampleBinding (sampleNonce ++ encodeText []) (List.replicate 32 0), none)]

theorem sample_pqc_accepted : samplePqcSession =
    .ok (.accepted { sampleJudged .uaPQCSCRAM (List.replicate 32 0) with state := .finished }
      []) := by
  exact sample_accepted .uaPQCSCRAM

/-- Under `uaPQCSCRAM` a client that names SCRAM-SHA-384 is accepted with SHA-256. -/
theorem sha256_session_under_pqc_scram :
    ∃ start state,
      scramInit sampleCrypto [] (samplePort .uaPQCSCRAM) scramSha384Name (some sampleShadow) =
        .ok start ∧
      start.doomed = false ∧ start.hashType = .sha256 ∧ start.keyLength = scramSha256KeyLen ∧
      samplePqcSession = .ok (.accepted state []) ∧ state.hashType = .sha256 :=
  ⟨_, _, sample_pqc_init, rfl, rfl, rfl, sample_pqc_accepted, rfl⟩

/-- There the hash of the session is that of the secret, which does not fit. -/
theorem sample_pqc_session_hash :
    ∃ start state,
      scramInit sampleCrypto [] (samplePort .uaPQCSCRAM) scramSha384Name (some sampleShadow) =
        .ok start ∧
      ((start.doomed = true ∨ start.toHashParameters = mechanismParameters scramSha384Name) ↔
        SecretFits (some sampleShadow) (mechanismParameters scramSha384Name)) ∧
      samplePqcSession = .ok (.accepted state []) ∧
      (state.toHashParameters = sha384Parameters ↔
        SecretFits (some sampleShadow) sha384Parameters) := by
  have hashes := no_downgrade_iff sampleCrypto [] scramSha384Name (samplePort .uaPQCSCRAM)
    (some sampleShadow) (sampleStart .uaPQCSCRAM) sample_pqc_init
  exact ⟨_, _, sample_pqc_init, hashes.1, sample_pqc_accepted,
    (hashes.2 rfl).2 _ _ _ _ _ _ sample_pqc_accepted⟩

end FortressQL.Scram.Downgrade
