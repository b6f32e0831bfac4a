import FortressQL.Lib.HashChain
import FortressQL.Lib.Runs
import FortressQL.Pgcrypto.AuditLog

/-!
# Runs of the audit functions

The log of a run of sessions is a linked chain of sealed rows. A row verifies as long as no later
initialisation replaces the keys it was signed with.
-/

namespace FortressQL.Pgcrypto.AuditRuns

open Option List Elog Lib.ByteStrings Lib.HashChain Lib.Runs Pqc.Signatures Pgcrypto.AuditKeys
open Pgcrypto.AuditLog

variable {classical pqc : AuditKey} {liboqs : Liboqs} {evp : Evp} {openssl : OpenSsl}
  {keys : List AuditKey} {event : AuditEvent} {signed : SignedEvent} {prevHash : Option Bytes}
  {jsonb : Jsonb}

structure AuditState (jsonb : Jsonb) where
  keys : AuditKeyTable
  log : AuditTable jsonb

def AuditState.empty : AuditState jsonb := ⟨.empty, .empty⟩

inductive AuditOp where
  | initKeys (evp : Evp) (coins : KeyCoins) (classicalAlg pqcAlg : String)
  | logEvent (evp : Evp) (coins : Bytes) (session : SessionInfo) (now : Int) (event : AuditEvent)
  | sign (evp : Evp) (coins message : Bytes)

/-- A call that raises changes nothing: its transaction is rolled back, or the hook turns
the error into a warning. -/
def auditStep (openssl : OpenSsl) (liboqs : Liboqs) (state : AuditState jsonb) :
    AuditOp → AuditState jsonb
  | .initKeys evp coins classicalAlg pqcAlg =>
    match pqcAuditInitKeys openssl evp liboqs coins state.keys classicalAlg pqcAlg with
    | .error _ => state
    | .ok keys => { state with keys := keys }
  | .logEvent evp coins session now event =>
    match auditLogDdlEvent openssl evp liboqs coins state.keys.rows session now state.log
        event with
    | .ok (.inserted _ log) => { state with log := log }
    | _ => state
  | .sign _ _ _ => state

def Reinitializes (openssl : OpenSsl) (liboqs : Liboqs) (state : AuditState jsonb)
    (op : AuditOp) : Prop :=
  match op with
  | .initKeys evp coins classicalAlg pqcAlg =>
    ∃ keys, pqcAuditInitKeys openssl evp liboqs coins state.keys classicalAlg pqcAlg = .ok keys
  | _ => False

def Writes (openssl : OpenSsl) (liboqs : Liboqs) (state : AuditState jsonb) (op : AuditOp)
    (row : AuditRow jsonb) : Prop :=
  match op with
  | .logEvent evp coins session now event =>
    ∃ log, auditLogDdlEvent openssl evp liboqs coins state.keys.rows session now state.log
      event = .ok (.inserted row log)
  | _ => False

section Steps

variable {state : AuditState jsonb} {op : AuditOp}

section

variable {row : AuditRow jsonb} (writes : Writes openssl liboqs state op row)

include writes

theorem writes_logged :
    ∃ evp coins session now event log, op = .logEvent evp coins session now event ∧
      auditLogDdlEvent openssl evp liboqs coins state.keys.rows session now state.log event =
        .ok (.inserted row log) := by
  cases op with
  | initKeys evp coins classicalAlg pqcAlg => exact writes.elim
  | sign evp coins message => exact writes.elim
  | logEvent evp coins session now event =>
    obtain ⟨log, inserted⟩ := writes
    exact ⟨evp, coins, session, now, event, log, rfl, inserted⟩

theorem writes_step :
    (auditStep openssl liboqs state op).keys = state.keys ∧
      (auditStep openssl liboqs state op).log.rows = state.log.rows ++ [row] := by
  obtain ⟨_, _, _, _, _, _, rfl, inserted⟩ := writes_logged writes
  obtain ⟨_, _, _, -, -, -, appended⟩ := audit_log_inserted inserted
  simp [auditStep, inserted, appended]

theorem writes_inserted :
    ∃ event signed classical pqc,
      SignedWith jsonb openssl liboqs state.keys.rows event signed classical pqc ∧
      WrittenFor openssl signed (getPrevHash state.log.rows) row := by
  obtain ⟨_, _, _, _, event, _, rfl, inserted⟩ := writes_logged writes
  obtain ⟨signed, classical, pqc, signedWith, written, -, -⟩ := audit_log_inserted inserted
  exact ⟨event, signed, classical, pqc, signedWith, written⟩

end

/-- What a step can do: replace the keys, append a row or nothing. -/
theorem audit_step_cases (openssl : OpenSsl) (liboqs : Liboqs) (state : AuditState jsonb)
    (op : AuditOp) :
    (Reinitializes openssl liboqs state op ∧
        (auditStep openssl liboqs state op).log = state.log ∧
        Nonempty (Initialized openssl liboqs (auditStep openssl liboqs state op).keys.rows)) ∨
      (∃ row, Writes openssl liboqs state op row ∧
        (auditStep openssl liboqs state op).keys = state.keys ∧
        (auditStep openssl liboqs state op).log.rows = state.log.rows ++ [row]) ∨
      auditStep openssl liboqs state op = state := by
  cases op with
  | initKeys evp coins classicalAlg pqcAlg =>
    cases outcome : pqcAuditInitKeys openssl evp liboqs coins state.keys classicalAlg pqcAlg with
    | error report => exact .inr (.inr (by simp [auditStep, outcome]))
    | ok keys =>
      refine .inl ⟨⟨keys, outcome⟩, ?_⟩
      simp only [auditStep, outcome, true_and]
      exact pqc_audit_init_keys_returns outcome
  | logEvent evp coins session now event =>
    cases outcome : auditLogDdlEvent openssl evp liboqs coins state.keys.rows session now
        state.log event with
    | error report => exact .inr (.inr (by simp [auditStep, outcome]))
    | ok logged =>
      cases logged with
      | skipped warning => exact .inr (.inr (by simp [auditStep, outcome]))
      | inserted row log =>
        have writes :
            Writes openssl liboqs state (.logEvent evp coins session now event) row :=
          ⟨log, outcome⟩
        exact .inr (.inl ⟨row, writes, writes_step writes⟩)
  | sign evp coins message => exact .inr (.inr rfl)

end Steps

/-- The log of a run: every row is sealed and names the row before it. -/
structure Chained (openssl : OpenSsl) (state : AuditState jsonb) : Prop where
  isSealed : ∀ row ∈ state.log.rows, Sealed openssl row
  linked : Linked AuditRow.prevHash AuditRow.entryHash state.log.rows

theorem audit_step_chained (openssl : OpenSsl) (liboqs : Liboqs) (state : AuditState jsonb)
    (op : AuditOp) (chained : Chained openssl state) :
    Chained openssl (auditStep openssl liboqs state op) := by
  rcases audit_step_cases openssl liboqs state op with replaced | wrote | unchanged
  · obtain ⟨-, kept, -⟩ := replaced
    exact ⟨by rw [kept]; exact chained.isSealed, by rw [kept]; exact chained.linked⟩
  · obtain ⟨row, writes, -, appended⟩ := wrote
    obtain ⟨_, _, _, _, -, written⟩ := writes_inserted writes
    constructor
    · intro other member
      rw [appended] at member
      rcases mem_append.mp member with old | new
      · exact chained.isSealed other old
      · rw [mem_singleton.mp new]
        exact written.isSealed
    · rw [appended]
      apply chained.linked.append_row
      rw [written.prevHash, get_prev_hash_ascending state.log.ascending]
  · rw [unchanged]
    exact chained

theorem audit_run_chained (openssl : OpenSsl) (liboqs : Liboqs) (ops : List AuditOp) :
    Chained openssl (run (auditStep openssl liboqs) (.empty : AuditState jsonb) ops) := by
  apply run_invariant_always (auditStep openssl liboqs) (Chained openssl)
    (fun state op => audit_step_chained openssl liboqs state op)
  exact ⟨forall_mem_nil _, linked_nil⟩

/-- The keys of a run: none is active, or the active ones were generated. -/
def KeysGenerated (openssl : OpenSsl) (liboqs : Liboqs) (state : AuditState jsonb) : Prop :=
  loadAuditKey state.keys.rows "classical" = none ∨
    Nonempty (Initialized openssl liboqs state.keys.rows)

theorem audit_run_keys (openssl : OpenSsl) (liboqs : Liboqs) (ops : List AuditOp) :
    KeysGenerated openssl liboqs
      (run (auditStep openssl liboqs) (.empty : AuditState jsonb) ops) := by
  apply run_invariant_always (auditStep openssl liboqs) (KeysGenerated openssl liboqs)
  · intro state op generated
    rcases audit_step_cases openssl liboqs state op with replaced | wrote | unchanged
    · exact .inr replaced.2.2
    · obtain ⟨_, -, kept, -⟩ := wrote
      rw [KeysGenerated, kept]
      exact generated
    · rw [unchanged]
      exact generated
  · exact .inl rfl

theorem provides_unique {alg : PqcAlgorithm} {left right : OqsSig}
    (leftProvided : liboqs.Provides alg left) (rightProvided : liboqs.Provides alg right) :
    left = right := by
  obtain ⟨leftInfo, leftFound, -, leftNew⟩ := leftProvided
  obtain ⟨rightInfo, rightFound, -, rightNew⟩ := rightProvided
  rw [leftFound] at rightFound
  obtain rfl := some.inj rightFound
  rw [leftNew] at rightNew
  exact some.inj rightNew

section Verification

variable {row : AuditRow jsonb}

theorem verify_classical_written (exact : openssl.VerifiesExactly)
    (initialized : Initialized openssl liboqs keys)
    (signedWith : SignedWith jsonb openssl liboqs keys event signed classical pqc)
    (written : WrittenFor openssl signed prevHash row) (messageHash : Bytes) :
    verifyClassical openssl evp keys messageHash row =
      (evp .verifyContext && evp .verifyInit &&
        decide (messageHash = openssl.sha384 signed.eventJson.bytes)) := by
  obtain rfl : initialized.classical = classical :=
    some.inj (initialized.classicalActive.symm.trans signedWith.classicalActive)
  obtain ⟨coins, pair⟩ := initialized.classicalPair
  obtain ⟨signature, made, verifies⟩ := exact coins _ _ pair (openssl.sha384 signed.eventJson.bytes)
  rw [signedWith.classicalSigned] at made
  obtain rfl := some.inj made
  rw [← Bool.decide_congr (verifies messageHash), Bool.decide_eq_true]
  simp [verifyClassical, initialized.classicalActive, ed25519Verify, written.classicalSigAlg,
    signedWith.classicalAlg, initialized.classicalName, written.classicalSignature]

theorem verify_pqc_written
    (exact : ∀ alg scheme, liboqs.Provides alg scheme → scheme.VerifiesExactly)
    (initialized : Initialized openssl liboqs keys)
    (signedWith : SignedWith jsonb openssl liboqs keys event signed classical pqc)
    (written : WrittenFor openssl signed prevHash row) (messageHash : Bytes) :
    verifyPqc liboqs keys messageHash row =
      .ok (decide (messageHash = openssl.sha384 signed.eventJson.bytes)) := by
  obtain rfl : initialized.pqc = pqc :=
    some.inj (initialized.pqcActive.symm.trans signedWith.pqcActive)
  obtain ⟨alg, scheme, coins, named, provided, made⟩ := signedWith.pqcSigned
  have resolved := initialized.pqcName
  rw [signatureAlgorithm, named, filter_eq_some_iff] at resolved
  obtain rfl := some.inj resolved.1
  obtain rfl := provides_unique initialized.provided provided
  obtain ⟨keyCoins, pair⟩ := initialized.pqcPair
  have length := (initialized.scheme.keypairLengths keyCoins _ _ pair).1
  have verifies := exact _ _ provided keyCoins _ _ pair coins _ _ made messageHash
  rw [verifyPqc, initialized.pqcActive, written.pqcSigAlg, signedWith.pqcAlgName,
    initialized.pqcName]
  simp only [pqc_sig_new_provided provided, ok_then, pqcSigVerify, length, ne_eq, not_true_eq_false,
    if_false, written.pqcSignature]
  congr 1
  rw [Bool.eq_iff_iff, verifies, decide_eq_true_iff]

end Verification

/-- The report on a row nobody touched, under the keys it was signed with. -/
def validReport (row : AuditRow jsonb) : ChainReport :=
  { logId := row.logId
    chainValid := true
    classicalSigValid := true
    pqcSigValid := true }

theorem written_row_verifies {row : AuditRow jsonb} (edExact : openssl.VerifiesExactly)
    (pqcExact : ∀ alg scheme, liboqs.Provides alg scheme → scheme.VerifiesExactly)
    (initialized : Initialized openssl liboqs keys)
    (signedWith : SignedWith jsonb openssl liboqs keys event signed classical pqc)
    (written : WrittenFor openssl signed prevHash row) (works : ∀ call, evp call = true) :
    verifyRow openssl evp liboqs keys row = .ok (validReport row) := by
  have message :=
    congrArg CString.bytes written.eventDetail
  have pqcValid := verify_pqc_written pqcExact initialized signedWith written
    (openssl.sha384 (jsonb.toText row.eventDetail).bytes)
  obtain ⟨report, returned⟩ := verify_row_proceeds works pqcValid
  obtain ⟨logId, chainValid, classicalValid, pqcReported⟩ := verify_row_returns returned
  rw [pqcValid] at pqcReported
  rw [returned, validReport]
  congr 1
  ext
  · exact logId
  · exact chainValid.mpr written.isSealed
  · rw [classicalValid, verify_classical_written edExact initialized signedWith written, works,
      works, message]
    exact decide_eq_true rfl
  · rw [← Except.ok.inj pqcReported, message]
    exact decide_eq_true rfl

theorem in_range_single (logId other : Int) :
    inRange (some logId) (some logId) other = decide (other = logId) := by
  simp only [inRange, getD_some, all_some, decide_eq_true_eq, decide_eq_decide]
  omega

theorem scanned_single {rows : List (AuditRow jsonb)} {row : AuditRow jsonb}
    (ascending : rows.Pairwise fun earlier later => earlier.logId < later.logId)
    (member : row ∈ rows) : scannedRows (some row.logId) (some row.logId) rows = [row] := by
  obtain ⟨earlier, later, rfl⟩ := append_of_mem member
  rw [pairwise_append, pairwise_cons] at ascending
  obtain ⟨-, ⟨above, -⟩, below⟩ := ascending
  have none_earlier : (earlier.filter fun other => decide (other.logId = row.logId)) = [] := by
    rw [filter_eq_nil_iff]
    intro other found
    have order := below other found row mem_cons_self
    simp only [decide_eq_true_eq]
    omega
  have none_later : (later.filter fun other => decide (other.logId = row.logId)) = [] := by
    rw [filter_eq_nil_iff]
    intro other found
    have order := above other found
    simp only [decide_eq_true_eq]
    omega
  simp only [scannedRows, in_range_single, filter_append, filter_cons, none_earlier, none_later]
  rfl

theorem kept_keys_run {state : AuditState jsonb} {after : List AuditOp}
    (kept : Admissible (auditStep openssl liboqs)
      (fun state later => ¬ Reinitializes openssl liboqs state later) state after)
    {row : AuditRow jsonb} (member : row ∈ state.log.rows) :
    (run (auditStep openssl liboqs) state after).keys = state.keys ∧
      row ∈ (run (auditStep openssl liboqs) state after).log.rows := by
  refine run_invariant (auditStep openssl liboqs) _
    (fun later => later.keys = state.keys ∧ row ∈ later.log.rows) ?_ state after kept
    ⟨rfl, member⟩
  rintro later op allowed ⟨sameKeys, present⟩
  rcases audit_step_cases openssl liboqs later op with replaced | wrote | unchanged
  · exact absurd replaced.1 allowed
  · obtain ⟨_, -, keys, appended⟩ := wrote
    exact ⟨keys.trans sameKeys, by rw [appended]; exact mem_append_left _ present⟩
  · rw [unchanged]
    exact ⟨sameKeys, present⟩

/-- The row was written under the keys that are active, and it is in the log. -/
structure Genuine (openssl : OpenSsl) (liboqs : Liboqs) (state : AuditState jsonb)
    (row : AuditRow jsonb) : Prop where
  present : row ∈ state.log.rows
  initialized : Nonempty (Initialized openssl liboqs state.keys.rows)
  signed : ∃ event signed classical pqc prevHash,
    SignedWith jsonb openssl liboqs state.keys.rows event signed classical pqc ∧
      WrittenFor openssl signed prevHash row

theorem writes_genuine {before : List AuditOp} {op : AuditOp} {row : AuditRow jsonb}
    (writes : Writes openssl liboqs (run (auditStep openssl liboqs) .empty before) op row) :
    Genuine openssl liboqs
      (run (auditStep openssl liboqs) (.empty : AuditState jsonb) (before ++ [op])) row := by
  obtain ⟨event, signed, classical, pqc, signedWith, written⟩ := writes_inserted writes
  obtain ⟨sameKeys, appended⟩ := writes_step writes
  have generated : Nonempty (Initialized openssl liboqs
      (run (auditStep openssl liboqs) (.empty : AuditState jsonb) before).keys.rows) := by
    rcases audit_run_keys openssl liboqs before with absent | generated
    · rw [signedWith.classicalActive] at absent
      simp at absent
    · exact generated
  rw [run_append]
  change Genuine openssl liboqs (auditStep openssl liboqs _ op) row
  constructor
  · rw [appended]
    exact mem_append_right _ (mem_singleton_self row)
  · rw [sameKeys]
    exact generated
  · rw [sameKeys]
    exact ⟨event, signed, classical, pqc, _, signedWith, written⟩

section

variable {state : AuditState jsonb} {row : AuditRow jsonb}
  (genuine : Genuine openssl liboqs state row)

include genuine

/-- A row stays genuine while no later initialisation succeeds. -/
theorem genuine_run {after : List AuditOp} (kept : Admissible (auditStep openssl liboqs)
      (fun state later => ¬ Reinitializes openssl liboqs state later) state after) :
    Genuine openssl liboqs (run (auditStep openssl liboqs) state after) row := by
  obtain ⟨sameKeys, present⟩ := kept_keys_run kept genuine.present
  refine ⟨present, ?_, ?_⟩
  · rw [sameKeys]
    exact genuine.initialized
  · rw [sameKeys]
    exact genuine.signed

theorem Genuine.verifies (edExact : openssl.VerifiesExactly)
    (pqcExact : ∀ alg scheme, liboqs.Provides alg scheme → scheme.VerifiesExactly)
    (works : ∀ call, evp call = true) :
    verifyRow openssl evp liboqs state.keys.rows row = .ok (validReport row) := by
  obtain ⟨initialized⟩ := genuine.initialized
  obtain ⟨_, _, _, _, _, signedWith, written⟩ := genuine.signed
  exact written_row_verifies edExact pqcExact initialized signedWith written works

end

/-- A row keeps its valid report while no later initialisation succeeds. -/
theorem rows_verify_until_reinitialized {openssl : OpenSsl} {liboqs : Liboqs}
    (edExact : openssl.VerifiesExactly)
    (pqcExact : ∀ alg scheme, liboqs.Provides alg scheme → scheme.VerifiesExactly)
    {before after : List AuditOp} {op : AuditOp} {row : AuditRow jsonb}
    (writes : Writes openssl liboqs (run (auditStep openssl liboqs) .empty before) op row)
    (kept : Admissible (auditStep openssl liboqs)
      (fun state later => ¬ Reinitializes openssl liboqs state later)
      (run (auditStep openssl liboqs) (.empty : AuditState jsonb) (before ++ [op])) after)
    {evp : Evp} (works : ∀ call, evp call = true) {final : AuditState jsonb}
    (reached : final = run (auditStep openssl liboqs) .empty (before ++ [op] ++ after)) :
    row ∈ final.log.rows ∧
      pqcAuditVerifyChain openssl evp liboqs final.keys.rows (some row.logId) (some row.logId)
        final.log.rows = .ok [validReport row] ∧
      ∀ startId endId reports, inRange startId endId row.logId = true →
        pqcAuditVerifyChain openssl evp liboqs final.keys.rows startId endId final.log.rows =
          .ok reports →
        validReport row ∈ reports := by
  have genuine : Genuine openssl liboqs final row := by
    rw [reached, run_append]
    exact genuine_run (writes_genuine writes) kept
  have verified := genuine.verifies edExact pqcExact works
  refine ⟨genuine.present, ?_, ?_⟩
  · rw [pqcAuditVerifyChain, scanned_single final.log.ascending genuine.present, map_m_returns]
    exact List.Forall₂.cons verified List.Forall₂.nil
  · intro startId endId reports covered returned
    obtain ⟨report, member, same⟩ := (map_m_members returned).1 row
      (mem_scanned_rows.mpr ⟨genuine.present, covered⟩)
    rw [verified] at same
    rwa [Except.ok.inj same]

def sampleScheme : OqsSig :=
  { lengthPublicKey := 1
    lengthSecretKey := 1
    lengthSignature := 49
    keypair := fun coins => some ([coins.headD 0], [coins.headD 0])
    sign := fun _ message secretKey => secretKey.map fun key => key ++ message
    verify := fun message signature publicKey => publicKey.any fun key => signature = key ++ message
    keypairLengths := by
      rintro coins publicKey secretKey drawn
      obtain ⟨rfl, rfl⟩ := by simpa using drawn
      exact ⟨rfl, rfl⟩ }

def sampleDigest (data : Bytes) : Bytes :=
  (List.range 48).map fun index =>
    UInt8.ofNat ((data.foldl (fun sum byte => sum * 257 + byte.toNat + 1) 0) / 256 ^ index)

def sampleOpenSsl : OpenSsl :=
  { ed25519Keypair := fun coins => ([coins.headD 0], [coins.headD 0])
    ed25519Sign := fun message secretKey => some (secretKey ++ message)
    ed25519Verify := fun message signature publicKey => signature = publicKey ++ message
    sha384 := sampleDigest
    sha384Length := fun _ => by rw [sampleDigest, List.length_map, List.length_range] }

def sampleLiboqs : Liboqs :=
  { sigNew := fun name => if name = "ML-DSA-65" then some sampleScheme else none }

def allWork : Evp := fun _ => true

theorem sample_ed25519_exact : sampleOpenSsl.VerifiesExactly := by
  intro coins publicKey secretKey drawn message
  obtain ⟨rfl, rfl⟩ : [coins.headD 0] = publicKey ∧ [coins.headD 0] = secretKey := by
    simpa [sampleOpenSsl] using drawn
  simp [sampleOpenSsl, eq_comm]

theorem sample_liboqs_exact (alg : PqcAlgorithm) (scheme : OqsSig)
    (provided : sampleLiboqs.Provides alg scheme) : scheme.VerifiesExactly := by
  obtain ⟨info, -, -, supported⟩ := provided
  obtain ⟨-, rfl⟩ : info.oqsName = "ML-DSA-65" ∧ sampleScheme = scheme := by
    simpa [sampleLiboqs] using supported
  intro keyCoins publicKey secretKey drawn coins message signature made other
  obtain ⟨rfl, rfl⟩ : [keyCoins.headD 0] = publicKey ∧ [keyCoins.headD 0] = secretKey := by
    simpa [sampleScheme] using drawn
  obtain rfl : [keyCoins.headD 0] ++ message = signature := by simpa [sampleScheme] using made
  simp [sampleScheme, eq_comm]

def sampleJsonb : Jsonb :=
  { Value := CString
    buildObject := fun object query =>
      ⟨object.bytes ++ query.bytes, by simp [object.nulFree, query.nulFree]⟩
    toText := fun value => value
    ofText := some
    ofTextToText := fun _ => rfl }

/-- The byte as a text, which is empty for the terminating NUL. -/
def sampleText (byte : UInt8) : CString := ⟨[byte].filter (· ≠ 0), by simp⟩

def sampleSession : SessionInfo :=
  ⟨sampleText 83, sampleText 85, sampleText 68⟩

def sampleInit (coin : UInt8) : AuditOp :=
  .initKeys allWork ⟨[coin], [coin]⟩ "Ed25519" "ML-DSA-65"

def sampleEvent (object : UInt8) : AuditOp :=
  .logEvent allWork [] sampleSession 0
    ⟨sampleText 71, some (sampleText object), some (sampleText 81)⟩

def sampleRun (ops : List AuditOp) : AuditState sampleJsonb :=
  run (auditStep sampleOpenSsl sampleLiboqs) .empty ops

def sampleVerify (state : AuditState sampleJsonb) : Raises (List ChainReport) :=
  pqcAuditVerifyChain sampleOpenSsl allWork sampleLiboqs state.keys.rows none none state.log.rows

def sampleRow : AuditRow sampleJsonb :=
  (sampleRun [sampleInit 1, sampleEvent 1]).log.rows.head (by decide)

theorem sample_row_written : Writes sampleOpenSsl sampleLiboqs
    (sampleRun [sampleInit 1]) (sampleEvent 1) sampleRow :=
  ⟨_, rfl⟩

def sampleTwoRows : AuditState sampleJsonb :=
  sampleRun [sampleInit 1, sampleEvent 1, sampleEvent 2]

theorem sample_keys_kept : Admissible (auditStep sampleOpenSsl sampleLiboqs)
    (fun state later => ¬ Reinitializes sampleOpenSsl sampleLiboqs state later)
    (sampleRun ([sampleInit 1] ++ [sampleEvent 1])) [sampleEvent 2] :=
  ⟨fun reinitializes => reinitializes, trivial⟩

theorem sample_row_verifies_later :
    sampleRow ∈ sampleTwoRows.log.rows ∧
      pqcAuditVerifyChain sampleOpenSsl allWork sampleLiboqs sampleTwoRows.keys.rows
        (some sampleRow.logId) (some sampleRow.logId) sampleTwoRows.log.rows =
          .ok [validReport sampleRow] ∧
      ∀ startId endId reports, inRange startId endId sampleRow.logId = true →
        pqcAuditVerifyChain sampleOpenSsl allWork sampleLiboqs sampleTwoRows.keys.rows startId
          endId sampleTwoRows.log.rows = .ok reports →
        validReport sampleRow ∈ reports :=
  rows_verify_until_reinitialized sample_ed25519_exact sample_liboqs_exact sample_row_written
    sample_keys_kept (fun _ => rfl) rfl

/-- The second initialisation makes the verifier report both signatures of the first row
invalid. -/
theorem reinitialized_keys_invalidate_row :
    sampleVerify (sampleRun [sampleInit 1, sampleEvent 1]) =
        .ok [⟨1, true, true, true⟩] ∧
      sampleVerify (sampleRun [sampleInit 1, sampleEvent 1, sampleInit 2]) =
        .ok [⟨1, true, false, false⟩] := by
  decide +kernel

end FortressQL.Pgcrypto.AuditRuns
