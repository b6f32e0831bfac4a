import FortressQL.Pgcrypto.AuditRuns

/-!
# What the chain verifier notices

The verifier looks at each row by itself. It notices a change of the hashed columns and of the
algorithm names, but no deleted, moved or duplicated row.
-/

namespace FortressQL.Pgcrypto.AuditTamper

open List Elog Lib.ByteStrings Lib.HashChain Lib.Runs Pqc.Signatures Pgcrypto.AuditKeys
open Pgcrypto.AuditLog Pgcrypto.AuditRuns

variable {startId endId : Option Int} {openssl : OpenSsl} {liboqs : Liboqs} {keys : List AuditKey}
  {jsonb : Jsonb}

/-- Changes to the table behind the audit functions' back. Reordering gives rows other
identifiers. -/
inductive LogEdit (jsonb : Jsonb) where
  | delete (logId : Int)
  | reorder (number : Int → Int)
  | insert (row : AuditRow jsonb)
  | duplicate (logId copyId : Int)

def applyEdit (rows : List (AuditRow jsonb)) : LogEdit jsonb → List (AuditRow jsonb)
  | .delete logId => rows.filter fun row => row.logId ≠ logId
  | .reorder number => rows.map fun row => { row with logId := number row.logId }
  | .insert row => rows ++ [row]
  | .duplicate logId copyId =>
    rows ++ (rows.filter fun row => row.logId = logId).map fun row =>
      { row with logId := copyId }

theorem edited_row_sealed {rows : List (AuditRow jsonb)}
    (produced : ∀ row ∈ rows, Sealed openssl row) (edit : LogEdit jsonb) {row : AuditRow jsonb}
    (member : row ∈ applyEdit rows edit) : Sealed openssl row ∨ edit = .insert row := by
  cases edit with
  | delete logId => exact .inl (produced row (mem_of_mem_filter member))
  | reorder number =>
    obtain ⟨old, present, rfl⟩ := mem_map.mp member
    exact .inl (produced old present)
  | insert new =>
    rcases mem_append.mp member with old | added
    · exact .inl (produced row old)
    · rw [mem_singleton.mp added]
      exact .inr rfl
  | duplicate logId copyId =>
    rcases mem_append.mp member with old | copied
    · exact .inl (produced row old)
    · obtain ⟨original, present, rfl⟩ := mem_map.mp copied
      exact .inl (produced original (mem_of_mem_filter present))

section Reports

variable {evp : Evp} {rows : List (AuditRow jsonb)} {reports : List ChainReport}

theorem chain_invalid_iff
    (returned : pqcAuditVerifyChain openssl evp liboqs keys startId endId rows = .ok reports) :
    (∃ report ∈ reports, report.chainValid = false) ↔
      ∃ row ∈ scannedRows startId endId rows, ¬ Sealed openssl row := by
  obtain ⟨rowReports, reportRows⟩ := map_m_members returned
  constructor
  · rintro ⟨report, member, invalid⟩
    obtain ⟨row, scanned, verified⟩ := reportRows report member
    refine ⟨row, scanned, ?_⟩
    rw [← (verify_row_returns verified).2.1, invalid]
    exact Bool.false_ne_true
  · rintro ⟨row, scanned, broken⟩
    obtain ⟨report, member, verified⟩ := rowReports row scanned
    refine ⟨report, member, ?_⟩
    rw [← Bool.not_eq_true, (verify_row_returns verified).2.1]
    exact broken

theorem chain_valid_iff
    (returned : pqcAuditVerifyChain openssl evp liboqs keys startId endId rows = .ok reports) :
    (∀ report ∈ reports, report.chainValid = true) ↔
      ∀ row ∈ scannedRows startId endId rows, Sealed openssl row := by
  have invalid := not_congr (chain_invalid_iff returned)
  simpa using invalid

end Reports

/-- Valid reports imply linked rows exactly where a scanned row is not sealed or the rows are linked
anyway. Of the edits of an honest log, exactly the insertion of an unsealed row is reported. -/
theorem chain_report_iff (openssl : OpenSsl) (liboqs : Liboqs) (evp : Evp) (keys : List AuditKey)
    (startId endId : Option Int) :
    (∀ (rows : List (AuditRow jsonb)) (reports : List ChainReport),
      pqcAuditVerifyChain openssl evp liboqs keys startId endId rows = .ok reports →
      (((∀ report ∈ reports, report.chainValid = true) →
          Consecutive AuditRow.prevHash AuditRow.entryHash (scannedRows startId endId rows)) ↔
        (∃ row ∈ scannedRows startId endId rows, ¬ Sealed openssl row) ∨
          Consecutive AuditRow.prevHash AuditRow.entryHash
            (scannedRows startId endId rows))) ∧
    ∀ (ops : List AuditOp) (edit : LogEdit jsonb) (reports : List ChainReport),
      pqcAuditVerifyChain openssl evp liboqs keys startId endId
        (applyEdit (run (auditStep openssl liboqs) .empty ops).log.rows edit) = .ok reports →
      ((∃ report ∈ reports, report.chainValid = false) ↔
        ∃ row, edit = .insert row ∧ inRange startId endId row.logId = true ∧
          ¬ Sealed openssl row) := by
  constructor
  · intro rows reports returned
    rw [chain_valid_iff returned, imp_iff_not_or]
    push Not
    rfl
  · intro ops edit reports returned
    rw [chain_invalid_iff returned]
    constructor
    · rintro ⟨row, scanned, broken⟩
      obtain ⟨member, covered⟩ := mem_scanned_rows.mp scanned
      rcases edited_row_sealed (audit_run_chained openssl liboqs ops).isSealed edit member with
        isSealed | inserted
      · exact absurd isSealed broken
      · exact ⟨row, inserted, covered, broken⟩
    · rintro ⟨row, rfl, covered, broken⟩
      refine ⟨row, mem_scanned_rows.mpr ⟨?_, covered⟩, broken⟩
      exact mem_append_right _ (mem_singleton_self row)

def threeRows : List AuditOp :=
  [sampleInit 1, sampleEvent 1, sampleEvent 2, sampleEvent 3]

def withoutSecond : List (AuditRow sampleJsonb) :=
  applyEdit (sampleRun threeRows).log.rows (.delete 2)

def reportsWithoutSecond : List ChainReport := [⟨1, true, true, true⟩, ⟨3, true, true, true⟩]

theorem without_second_reports :
    pqcAuditVerifyChain sampleOpenSsl allWork sampleLiboqs (sampleRun threeRows).keys.rows none
      none withoutSecond = .ok reportsWithoutSecond := by
  decide +kernel

theorem deletion_report :
    (((∀ report ∈ reportsWithoutSecond, report.chainValid = true) →
        Consecutive AuditRow.prevHash AuditRow.entryHash
          (scannedRows none none withoutSecond)) ↔
      (∃ row ∈ scannedRows none none withoutSecond, ¬ Sealed sampleOpenSsl row) ∨
        Consecutive AuditRow.prevHash AuditRow.entryHash
          (scannedRows none none withoutSecond)) ∧
    ((∃ report ∈ reportsWithoutSecond, report.chainValid = false) ↔
      ∃ row : AuditRow sampleJsonb, LogEdit.delete 2 = LogEdit.insert row ∧
        inRange none none row.logId = true ∧ ¬ Sealed sampleOpenSsl row) :=
  ⟨(chain_report_iff sampleOpenSsl sampleLiboqs allWork _ none none).1 _ _
      without_second_reports,
    (chain_report_iff sampleOpenSsl sampleLiboqs allWork _ none none).2 threeRows (.delete 2) _
      without_second_reports⟩

/-- The second of three rows is deleted: every report is valid, and the third row names a
hash that no row before it has. -/
theorem deleted_row_unnoticed :
    sampleVerify (sampleRun threeRows) =
        .ok [⟨1, true, true, true⟩, ⟨2, true, true, true⟩, ⟨3, true, true, true⟩] ∧
      pqcAuditVerifyChain sampleOpenSsl allWork sampleLiboqs (sampleRun threeRows).keys.rows none
        none withoutSecond = .ok [⟨1, true, true, true⟩, ⟨3, true, true, true⟩] ∧
      ((scannedRows none none withoutSecond).map AuditRow.prevHash)[1]? ≠
        ((scannedRows none none withoutSecond).map fun row => some row.entryHash)[0]? := by
  decide +kernel

/-- The columns that enter the hash, in its order. A missing previous hash counts as an
empty one. -/
def hashedColumns (row : AuditRow jsonb) : List Bytes :=
  [row.eventType.bytes, (jsonb.toText row.eventDetail).bytes, row.classicalSignature,
    row.pqcSignature, row.prevHash.getD []]

theorem row_preimage_flatten (row : AuditRow jsonb) :
    rowPreimage row = (hashedColumns row).flatten := by
  simp [rowPreimage, entryPreimage, hashedColumns]

def DifferInOne (left right : List Bytes) : Prop :=
  ∃ before leftColumn rightColumn after, left = before ++ leftColumn :: after ∧
    right = before ++ rightColumn :: after ∧ leftColumn ≠ rightColumn

theorem differ_in_one_flatten {left right : List Bytes} (differ : DifferInOne left right) :
    left.flatten ≠ right.flatten := by
  obtain ⟨-, leftColumn, rightColumn, -, rfl, rfl, different⟩ := differ
  simpa using different

def LengthsAgree (left right : List Bytes) : Prop :=
  ∃ before leftLength rightLength after, left.map List.length = before ++ leftLength :: after ∧
    right.map List.length = before ++ rightLength :: after

/-- The concatenation tells two entries apart that differ, if at most one boundary can have
moved. -/
theorem row_preimage_unambiguous (left right : AuditRow jsonb)
    (differ : hashedColumns left ≠ hashedColumns right)
    (lengths : LengthsAgree (hashedColumns left) (hashedColumns right)) :
    rowPreimage left ≠ rowPreimage right := by
  obtain ⟨before, leftLength, rightLength, after, leftLengths, rightLengths⟩ := lengths
  rw [row_preimage_flatten, row_preimage_flatten]
  intro same
  have total := congrArg List.length same
  rw [length_flatten, length_flatten, leftLengths, rightLengths] at total
  simp only [sum_append, sum_cons] at total
  have equal : leftLength = rightLength := by omega
  exact differ (eq_iff_flatten_eq.mpr ⟨same, by rw [leftLengths, rightLengths, equal]⟩)

/-- The columns that the verifier reads besides the hash of a row. -/
def signedColumns (row : AuditRow jsonb) : CString × Bytes × Bytes :=
  (jsonb.toText row.eventDetail, row.classicalSignature, row.pqcSignature)

def tampered (rows : List (AuditRow jsonb)) (modified : AuditRow jsonb) : List (AuditRow jsonb) :=
  rows.map fun row => if row.logId = modified.logId then modified else row

/-- The verifier raises, or it reports a row of this identifier as invalid. -/
def Flagged (outcome : Raises (List ChainReport)) (logId : Int) : Prop :=
  match outcome with
  | .error _ => True
  | .ok reports => ∃ report ∈ reports, report.logId = logId ∧
      (report.chainValid && report.classicalSigValid && report.pqcSigValid) = false

section Modified

variable {evp : Evp} {rows : List (AuditRow jsonb)} {row modified : AuditRow jsonb}

theorem flagged_of_invalid (member : row ∈ rows) (covered : inRange startId endId row.logId = true)
    (invalid : ∀ report, verifyRow openssl evp liboqs keys row = .ok report →
      (report.chainValid && report.classicalSigValid && report.pqcSigValid) = false) :
    Flagged (pqcAuditVerifyChain openssl evp liboqs keys startId endId rows) row.logId := by
  cases outcome : pqcAuditVerifyChain openssl evp liboqs keys startId endId rows with
  | error report => trivial
  | ok reports =>
    obtain ⟨report, found, verified⟩ := (map_m_members outcome).1 row
      (mem_scanned_rows.mpr ⟨member, covered⟩)
    exact ⟨report, found, (verify_row_returns verified).1, invalid report verified⟩

theorem mem_tampered (member : row ∈ rows) (sameId : modified.logId = row.logId) :
    modified ∈ tampered rows modified :=
  mem_map.mpr ⟨row, member, if_pos sameId.symm⟩

variable {replace : AuditRow jsonb → AuditRow jsonb} {report : ChainReport}

theorem map_m_replaced {action : AuditRow jsonb → Raises ChainReport}
    (rows : List (AuditRow jsonb)) (same : ∀ row ∈ rows, action (replace row) = action row) :
    (rows.map replace).mapM action = rows.mapM action := by
  induction rows with
  | nil => rfl
  | cons row rest ih =>
    rw [forall_mem_cons] at same
    rw [map_cons, mapM_cons, mapM_cons, same.1, ih same.2]

theorem same_id_same_row
    (ascending : rows.Pairwise fun earlier later => earlier.logId < later.logId)
    {left right : AuditRow jsonb} (leftMember : left ∈ rows) (rightMember : right ∈ rows)
    (sameId : left.logId = right.logId) : left = right := by
  have distinct : (rows.map AuditRow.logId).Nodup := by
    rw [nodup_iff_pairwise_ne, pairwise_map]
    exact ascending.imp fun order => ne_of_lt order
  exact inj_on_of_nodup_map distinct leftMember rightMember sameId

theorem scanned_rows_map (keepsId : ∀ row, (replace row).logId = row.logId) :
    scannedRows startId endId (rows.map replace) =
      (scannedRows startId endId rows).map replace := by
  rw [scannedRows, filter_map]
  have sameFilter : (fun row : AuditRow jsonb => inRange startId endId row.logId) ∘ replace =
      fun row => inRange startId endId row.logId := by
    funext row
    rw [Function.comp_apply, keepsId]
  rw [sameFilter]
  symm
  apply map_insertionSort
  intro left _ right _
  rw [keepsId, keepsId]

theorem verify_chain_tampered
    (ascending : rows.Pairwise fun earlier later => earlier.logId < later.logId)
    (member : row ∈ rows) (sameId : modified.logId = row.logId)
    (same : verifyRow openssl evp liboqs keys modified = verifyRow openssl evp liboqs keys row) :
    pqcAuditVerifyChain openssl evp liboqs keys startId endId (tampered rows modified) =
      pqcAuditVerifyChain openssl evp liboqs keys startId endId rows := by
  rw [pqcAuditVerifyChain, tampered, scanned_rows_map]
  · apply map_m_replaced
    intro other found
    have present := (mem_scanned_rows.mp found).1
    split_ifs with hit
    · rw [same, same_id_same_row ascending present member (hit.trans sameId)]
    · rfl
  · intro other
    split_ifs with hit
    · exact hit.symm
    · rfl

section Kept

variable (sameClassical : pgStrcaseeq modified.classicalSigAlg "Ed25519" =
    pgStrcaseeq row.classicalSigAlg "Ed25519")
  (samePqc : signatureAlgorithm modified.pqcSigAlg = signatureAlgorithm row.pqcSigAlg)

include sameClassical samePqc

/-- The report on a sealed row depends on the event detail, the signatures, the identifier and what
the algorithm names stand for. -/
theorem verify_row_congr (sameId : modified.logId = row.logId)
    (sealedModified : Sealed openssl modified) (sealedRow : Sealed openssl row)
    (sameSigned : signedColumns modified = signedColumns row) :
    verifyRow openssl evp liboqs keys modified = verifyRow openssl evp liboqs keys row := by
  obtain ⟨detail, classical, pqc⟩ : _ ∧ _ ∧ _ := by simpa [signedColumns] using sameSigned
  have recomputed (row : AuditRow jsonb) (sealedRow : Sealed openssl row) :
      openssl.sha384 (entryPreimage row.eventType (jsonb.toText row.eventDetail)
        row.classicalSignature row.pqcSignature row.prevHash) = row.entryHash := sealedRow
  have sized (row : AuditRow jsonb) (sealedRow : Sealed openssl row) :
      row.entryHash.length = auditHashLen := by
    rw [← sealedRow, openssl.sha384Length, auditHashLen]
  simp only [verifyRow, computeEntryHash, recomputed _ sealedModified, recomputed _ sealedRow,
    sized _ sealedModified, sized _ sealedRow, bind_assoc, pure_bind, and_self]
  simp only [verifyClassical, verifyPqc, sameClassical, samePqc, sameId, detail, classical, pqc]

theorem changed_detail_invalid {state : AuditState jsonb}
    (genuine : Genuine openssl liboqs state row) (edExact : openssl.VerifiesExactly)
    (pqcExact : ∀ alg scheme, liboqs.Provides alg scheme → scheme.VerifiesExactly)
    (differ : openssl.sha384 (jsonb.toText modified.eventDetail).bytes ≠
      openssl.sha384 (jsonb.toText row.eventDetail).bytes)
    (kept : modified.classicalSignature = row.classicalSignature ∨
      modified.pqcSignature = row.pqcSignature)
    (verified : verifyRow openssl evp liboqs state.keys.rows modified = .ok report) :
    (report.classicalSigValid && report.pqcSigValid) = false := by
  obtain ⟨initialized⟩ := genuine.initialized
  obtain ⟨_, _, _, _, _, signedWith, written⟩ := genuine.signed
  rw [written.eventDetail] at differ
  obtain ⟨-, -, classical, pqc⟩ := verify_row_returns verified
  rcases kept with kept | kept
  · have unchanged (message : Bytes) :
        verifyClassical openssl evp state.keys.rows message modified =
          verifyClassical openssl evp state.keys.rows message row := by
      simp only [verifyClassical, sameClassical, kept]
    rw [classical, unchanged, verify_classical_written edExact initialized signedWith written,
      decide_eq_false differ, Bool.and_false, Bool.false_and]
  · have unchanged (message : Bytes) : verifyPqc liboqs state.keys.rows message modified =
        verifyPqc liboqs state.keys.rows message row := by
      simp only [verifyPqc, samePqc, kept]
    rw [unchanged, verify_pqc_written pqcExact initialized signedWith written,
      decide_eq_false differ] at pqc
    rw [← Except.ok.inj pqc, Bool.and_false]

end Kept

theorem renamed_classical_invalid (renamed : pgStrcaseeq modified.classicalSigAlg "Ed25519" = false)
    (verified : verifyRow openssl evp liboqs keys modified = .ok report) :
    report.classicalSigValid = false := by
  rw [(verify_row_returns verified).2.2.1, verifyClassical, renamed]
  cases loadAuditKey keys "classical" with
  | none => rfl
  | some key => rfl

/-- No other algorithm of the build accepts anything under the active PQC key. -/
def KeyApart (liboqs : Liboqs) (keys : List AuditKey) : Prop :=
  ∀ key alg scheme, loadAuditKey keys "pqc" = some key →
    signatureAlgorithm key.algorithm ≠ some alg → liboqs.Provides alg scheme →
    ∀ message signature, scheme.verify message signature (some key.publicKey) = false

theorem renamed_pqc_invalid (apart : KeyApart liboqs keys)
    (renamed : ∀ key, loadAuditKey keys "pqc" = some key →
      signatureAlgorithm modified.pqcSigAlg ≠ signatureAlgorithm key.algorithm)
    (verified : verifyRow openssl evp liboqs keys modified = .ok report) :
    report.pqcSigValid = false := by
  have checked := (verify_row_returns verified).2.2.2
  unfold verifyPqc at checked
  cases active : loadAuditKey keys "pqc" with
  | none =>
    rw [active] at checked
    exact (Except.ok.inj checked).symm
  | some key =>
    cases resolved : signatureAlgorithm modified.pqcSigAlg with
    | none =>
      rw [active, resolved] at checked
      exact (Except.ok.inj checked).symm
    | some alg =>
      simp only [active, resolved, sequence_returns] at checked
      obtain ⟨ctx, created, answered⟩ := checked
      have other : signatureAlgorithm key.algorithm ≠ some alg := by
        intro same
        exact renamed key active (resolved.trans same.symm)
      unfold pqcSigVerify at answered
      split_ifs at answered
      rw [← Except.ok.inj answered]
      exact apart key alg ctx.oqsSig active other (pqc_sig_new_returns created) _ _

end Modified

variable {state : AuditState jsonb}

theorem genuine_names {row : AuditRow jsonb} (genuine : Genuine openssl liboqs state row) :
    pgStrcaseeq row.classicalSigAlg "Ed25519" = true ∧
      ∀ key, loadAuditKey state.keys.rows "pqc" = some key → row.pqcSigAlg = key.algorithm := by
  obtain ⟨initialized⟩ := genuine.initialized
  obtain ⟨event, signed, classical, pqc, prevHash, signedWith, written⟩ := genuine.signed
  constructor
  · obtain rfl : initialized.classical = classical :=
      Option.some.inj (initialized.classicalActive.symm.trans signedWith.classicalActive)
    rw [written.classicalSigAlg, signedWith.classicalAlg]
    exact initialized.classicalName
  · intro key active
    obtain rfl : pqc = key := Option.some.inj (signedWith.pqcActive.symm.trans active)
    rw [written.pqcSigAlg, signedWith.pqcAlgName]

theorem genuine_sealed {row : AuditRow jsonb} (genuine : Genuine openssl liboqs state row) :
    Sealed openssl row := by
  obtain ⟨_, _, _, _, _, -, written⟩ := genuine.signed
  exact written.isSealed

/-- SHA-384 tells the compared texts of two rows apart. -/
structure DigestsApart (openssl : OpenSsl) (modified row : AuditRow jsonb) : Prop where
  preimage : openssl.sha384 (rowPreimage modified) = openssl.sha384 (rowPreimage row) →
    rowPreimage modified = rowPreimage row
  detail : openssl.sha384 (jsonb.toText modified.eventDetail).bytes =
      openssl.sha384 (jsonb.toText row.eventDetail).bytes →
    jsonb.toText modified.eventDetail = jsonb.toText row.eventDetail

/-- A row modified under the same identifier. The verifier notices a stored hash that is not the
one of the columns, an algorithm name that stands for something else and another event detail under
a signature that was kept. It does not notice what leaves the hash in order and the event detail,
the signatures and the meaning of the names as they were. -/
theorem modified_row_report {openssl : OpenSsl} {liboqs : Liboqs} {before after : List AuditOp}
    {op : AuditOp} {row modified : AuditRow jsonb}
    (writes : Writes openssl liboqs (run (auditStep openssl liboqs) .empty before) op row)
    (kept : Admissible (auditStep openssl liboqs)
      (fun state later => ¬ Reinitializes openssl liboqs state later)
      (run (auditStep openssl liboqs) (.empty : AuditState jsonb) (before ++ [op])) after)
    {final : AuditState jsonb}
    (reached : final = run (auditStep openssl liboqs) .empty (before ++ [op] ++ after))
    (edExact : openssl.VerifiesExactly)
    (pqcExact : ∀ alg scheme, liboqs.Provides alg scheme → scheme.VerifiesExactly)
    (sameId : modified.logId = row.logId) (digests : DigestsApart openssl modified row)
    (apart : KeyApart liboqs final.keys.rows) {startId endId : Option Int}
    (covered : inRange startId endId row.logId = true) (evp : Evp) :
    (¬ Sealed openssl modified ∨ pgStrcaseeq modified.classicalSigAlg "Ed25519" = false ∨
        signatureAlgorithm modified.pqcSigAlg ≠ signatureAlgorithm row.pqcSigAlg ∨
        jsonb.toText modified.eventDetail ≠ jsonb.toText row.eventDetail ∧
          (modified.classicalSignature = row.classicalSignature ∨
            modified.pqcSignature = row.pqcSignature) →
      Flagged (pqcAuditVerifyChain openssl evp liboqs final.keys.rows startId endId
        (tampered final.log.rows modified)) row.logId) ∧
    (modified.entryHash = row.entryHash →
      (Sealed openssl modified ↔ rowPreimage modified = rowPreimage row)) ∧
    (DifferInOne (hashedColumns modified) (hashedColumns row) →
      rowPreimage modified ≠ rowPreimage row) ∧
    (Sealed openssl modified → signedColumns modified = signedColumns row →
      pgStrcaseeq modified.classicalSigAlg "Ed25519" = true →
      signatureAlgorithm modified.pqcSigAlg = signatureAlgorithm row.pqcSigAlg →
      pqcAuditVerifyChain openssl evp liboqs final.keys.rows startId endId
          (tampered final.log.rows modified) =
        pqcAuditVerifyChain openssl evp liboqs final.keys.rows startId endId final.log.rows) := by
  have genuine : Genuine openssl liboqs final row := by
    rw [reached, run_append]
    exact genuine_run (writes_genuine writes) kept
  obtain ⟨classicalName, pqcName⟩ := genuine_names genuine
  have sealedRow := genuine_sealed genuine
  refine ⟨?_, ?_, ?_, ?_⟩
  · intro noticeable
    rw [← sameId]
    apply flagged_of_invalid (mem_tampered genuine.present sameId) (by rw [sameId, covered])
    intro report verified
    by_cases classical : pgStrcaseeq modified.classicalSigAlg "Ed25519" = true
    · by_cases pqc : signatureAlgorithm modified.pqcSigAlg = signatureAlgorithm row.pqcSigAlg
      · rcases noticeable with broken | renamed | renamed | ⟨changed, kept⟩
        · rw [← (verify_row_returns verified).2.1, Bool.not_eq_true] at broken
          rw [broken]
          rfl
        · rw [classical] at renamed
          cases renamed
        · exact absurd pqc renamed
        · rw [Bool.and_assoc, changed_detail_invalid (classical.trans classicalName.symm) pqc
            genuine edExact pqcExact (fun same => changed (digests.detail same)) kept verified,
            Bool.and_false]
      · rw [renamed_pqc_invalid apart _ verified, Bool.and_false]
        intro key active
        rwa [← pqcName key active]
    · rw [renamed_classical_invalid (Bool.not_eq_true _ ▸ classical) verified, Bool.and_false,
        Bool.false_and]
  · intro sameEntry
    rw [Sealed, sameEntry, ← sealedRow]
    exact ⟨digests.preimage, congrArg openssl.sha384⟩
  · intro differ
    rw [row_preimage_flatten, row_preimage_flatten]
    exact differ_in_one_flatten differ
  · intro sealedModified sameSigned sameClassical samePqc
    apply verify_chain_tampered final.log.ascending genuine.present sameId
    exact verify_row_congr (sameClassical.trans classicalName.symm) samePqc sameId sealedModified
      sealedRow sameSigned

theorem sample_key_apart : KeyApart sampleLiboqs sampleTwoRows.keys.rows := by
  intro key alg scheme active other provided message signature
  obtain ⟨info, found, -, supported⟩ := provided
  have named : info.oqsName = "ML-DSA-65" := by
    by_contra different
    simp [sampleLiboqs, different] at supported
  have registered : ∀ info ∈ pqcAlgorithms, info.oqsName = "ML-DSA-65" → info.algId = .mlDsa65 := by
    decide
  have only : alg = .mlDsa65 := by
    rw [← registered info (mem_of_find?_eq_some found) named]
    have identified := List.find?_some found
    exact (of_decide_eq_true identified).symm
  rw [← Option.some.inj active, only] at other
  exact absurd (by decide) other

def retypedRow : AuditRow sampleJsonb := { sampleRow with eventType := sampleText 72 }

theorem sample_preimage_unambiguous : rowPreimage retypedRow ≠ rowPreimage sampleRow :=
  row_preimage_unambiguous retypedRow sampleRow (by decide +kernel)
    ⟨[], 1, 1, (hashedColumns sampleRow).tail.map List.length, rfl, rfl⟩

/-- A byte that moves from one signature to the other leaves the preimage as it was. -/
theorem moved_byte_same_preimage :
    let before : AuditRow sampleJsonb :=
      { sampleRow with classicalSignature := [1, 2], pqcSignature := [3] }
    let after : AuditRow sampleJsonb :=
      { sampleRow with classicalSignature := [1], pqcSignature := [2, 3] }
    hashedColumns before ≠ hashedColumns after ∧ rowPreimage before = rowPreimage after := by
  decide +kernel

def reassignedRow : AuditRow sampleJsonb := { sampleRow with userName := sampleText 86 }

/-- The event detail is changed, one signature with it, and the hash recomputed. -/
def rehashedRow : AuditRow sampleJsonb :=
  let edited := { sampleRow with eventDetail := sampleText 72, pqcSignature := [1] }
  { edited with entryHash := sampleDigest (rowPreimage edited) }

theorem rehashed_row_flagged :
    rehashedRow.entryHash ≠ sampleRow.entryHash ∧ Sealed sampleOpenSsl rehashedRow ∧
      Flagged (pqcAuditVerifyChain sampleOpenSsl allWork sampleLiboqs sampleTwoRows.keys.rows
        none none (tampered sampleTwoRows.log.rows rehashedRow)) sampleRow.logId := by
  refine ⟨by decide +kernel, by unfold Sealed; decide +kernel, ?_⟩
  apply (modified_row_report sample_row_written sample_keys_kept rfl sample_ed25519_exact
    sample_liboqs_exact (Eq.refl rehashedRow.logId : rehashedRow.logId = sampleRow.logId)
    ⟨by decide +kernel, by decide +kernel⟩ sample_key_apart (by decide +kernel) allWork).1
  exact .inr (.inr (.inr ⟨by decide +kernel, .inl rfl⟩))

/-- Another user name: every report is as before. -/
theorem changed_user_unnoticed :
    reassignedRow.userName ≠ sampleRow.userName ∧
      pqcAuditVerifyChain sampleOpenSsl allWork sampleLiboqs sampleTwoRows.keys.rows none none
        (tampered sampleTwoRows.log.rows reassignedRow) =
          .ok [⟨1, true, true, true⟩, ⟨2, true, true, true⟩] ∧
      sampleRow ∈ sampleTwoRows.log.rows ∧ reassignedRow.logId = sampleRow.logId := by
  refine ⟨by decide +kernel, by decide +kernel, ?_, rfl⟩
  exact mem_cons_self

end FortressQL.Pgcrypto.AuditTamper
