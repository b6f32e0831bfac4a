import Mathlib.Data.List.Sort
import FortressQL.Pgcrypto.AuditKeys

/-!
# The hybrid audit log

The table `pqc_audit_log`, its writer `audit_log_ddl_event` and `pqc_audit_verify_chain`.
-/

namespace FortressQL.Pgcrypto.AuditLog

open Elog Lib.ByteStrings Pqc.Signatures Pgcrypto.AuditKeys List

/-- A text value. It holds no zero byte, so `strlen` is its length. -/
@[ext]
structure CString where
  bytes : Bytes
  nulFree : 0 ∉ bytes
  deriving DecidableEq

def CString.empty : CString := ⟨[], List.not_mem_nil⟩

/-- The type `jsonb` of the server, with the cast in both directions. -/
structure Jsonb where
  Value : Type
  buildObject : CString → CString → Value
  toText : Value → CString
  ofText : CString → Option Value
  ofTextToText : ∀ value, ofText (toText value) = some value

structure SessionInfo where
  sessionId : CString
  userName : CString
  databaseName : CString

variable {jsonb : Jsonb}

@[ext]
structure AuditRow (jsonb : Jsonb) where
  logId : Int
  eventTime : Int
  sessionId : CString
  userName : CString
  databaseName : CString
  eventType : CString
  eventDetail : jsonb.Value
  classicalSigAlg : String
  classicalSignature : Bytes
  pqcSigAlg : String
  pqcSignature : Bytes
  prevHash : Option Bytes
  entryHash : Bytes

structure AuditTable (jsonb : Jsonb) where
  rows : List (AuditRow jsonb)
  nextLogId : Int
  fresh : ∀ row ∈ rows, row.logId < nextLogId
  ascending : rows.Pairwise fun earlier later => earlier.logId < later.logId

def AuditTable.empty : AuditTable jsonb := ⟨[], 1, List.forall_mem_nil _, List.Pairwise.nil⟩

def auditHashLen : Nat := 48

def computeSha384 (openssl : OpenSsl) (evp : Evp) (data : Bytes) : Raises Bytes := do
  ensure (evp .messageContext = true) (outOfMemory "failed to create SHA-384 digest context")
  ensure (evp .messageDigest = true) (externalRoutine "SHA-384 hash computation failed")
  return openssl.sha384 data

def entryPreimage (eventType eventDetail : CString) (classicalSig pqcSig : Bytes)
    (prevHash : Option Bytes) : Bytes :=
  eventType.bytes ++ eventDetail.bytes ++ classicalSig ++ pqcSig ++ prevHash.getD []

def computeEntryHash (openssl : OpenSsl) (evp : Evp) (eventType eventDetail : CString)
    (classicalSig pqcSig : Bytes) (prevHash : Option Bytes) : Raises Bytes := do
  ensure (evp .entryContext = true)
    (outOfMemory "failed to create digest context for entry hash")
  ensure (evp .entryInit = true) (externalRoutine "SHA-384 init failed for entry hash")
  ensure (evp .entryFinal = true) (externalRoutine "SHA-384 finalize failed for entry hash")
  return openssl.sha384 (entryPreimage eventType eventDetail classicalSig pqcSig prevHash)

/-- `SELECT entry_hash FROM pqc_audit_log ORDER BY log_id DESC LIMIT 1`. -/
def getPrevHash (rows : List (AuditRow jsonb)) : Option Bytes :=
  (rows.maxOn? AuditRow.logId).map AuditRow.entryHash

variable {rows : List (AuditRow jsonb)} {openssl : OpenSsl} {evp : Evp} {session : SessionInfo}
  {now : Int} {prevHash : Option Bytes} {row : AuditRow jsonb} {liboqs : Liboqs} {coins : Bytes}
  {keys : List AuditKey}

theorem get_prev_hash_ascending
    (ascending : rows.Pairwise fun earlier later => earlier.logId < later.logId) :
    getPrevHash rows = rows.getLast?.map AuditRow.entryHash := by
  induction rows using List.reverseRecOn with
  | nil => rfl
  | append_singleton rows row ih =>
    have below := (List.pairwise_append.mp ascending).2.2
    rw [getPrevHash, List.maxOn?_append, List.maxOn?_singleton, List.getLast?_concat]
    cases largest : rows.maxOn? AuditRow.logId with
    | none => rfl
    | some found =>
      have order := below found (List.maxOn?_mem largest) row (List.mem_singleton_self row)
      rw [Option.merge_some_some, maxOn_eq_right_of_lt order]

structure SignedEvent where
  eventType : CString
  eventJson : CString
  classicalAlg : String
  classicalSig : Bytes
  pqcAlgName : String
  pqcSig : Bytes

inductive Prepared where
  | skipped (warning : String)
  | signed (event : SignedEvent)

structure AuditEvent where
  eventType : CString
  objectName : Option CString
  queryString : Option CString

def eventText (jsonb : Jsonb) (event : AuditEvent) : CString :=
  jsonb.toText (jsonb.buildObject (event.objectName.getD .empty) (event.queryString.getD .empty))

/-- A failed signature only warns; a missing algorithm and a key of the wrong length raise. -/
def signPqc (liboqs : Liboqs) (coins : Bytes) (key : AuditKey) (messageHash : Bytes) :
    Raises (Except String Bytes) :=
  match pqcAlgorithmFromName key.algorithm with
  | none =>
    .ok (.error s!"pqc_audit: unknown PQC algorithm \"{key.algorithm}\", skipping audit")
  | some alg => do
      let ctx ← (pqcSigNew liboqs true alg).2
      let signature ← pqcSigSign ctx coins messageHash (some key.encryptedSecretKey)
        key.encryptedSecretKey.length
      match signature with
      | none => .ok (.error "pqc_audit: PQC signature generation failed, skipping audit")
      | some pqcSig => .ok (.ok pqcSig)

/-- `audit_log_ddl_event` up to the point where it reads the previous hash. -/
def signEvent (jsonb : Jsonb) (openssl : OpenSsl) (evp : Evp) (liboqs : Liboqs) (coins : Bytes)
    (keys : List AuditKey) (event : AuditEvent) : Raises Prepared :=
  match loadAuditKey keys "classical", loadAuditKey keys "pqc" with
  | none, _ =>
    .ok (.skipped "pqc_audit: no active classical signing key found, skipping audit")
  | some _, none =>
    .ok (.skipped "pqc_audit: no active PQC signing key found, skipping audit")
  | some classical, some pqc => do
      let messageHash ← computeSha384 openssl evp (eventText jsonb event).bytes
      let classicalSig ← ed25519Sign openssl evp messageHash classical.encryptedSecretKey
      let outcome ← signPqc liboqs coins pqc messageHash
      match outcome with
      | .error warning => return .skipped warning
      | .ok pqcSig =>
        return .signed
          { eventType := event.eventType
            eventJson := eventText jsonb event
            classicalAlg := classical.algorithm
            classicalSig := classicalSig
            pqcAlgName := pqc.algorithm
            pqcSig := pqcSig }

def invalidJson : ErrorReport :=
  { elevel := .error
    errcode := .invalidTextRepresentation
    errmsg := "invalid input syntax for type json" }

/-- The row of the final `INSERT`, for the previous hash that was read. -/
def entryRow (openssl : OpenSsl) (evp : Evp) (session : SessionInfo) (now logId : Int)
    (event : SignedEvent) (prevHash : Option Bytes) : Raises (AuditRow jsonb) := do
  let entryHash ← computeEntryHash openssl evp event.eventType event.eventJson
    event.classicalSig event.pqcSig prevHash
  match jsonb.ofText event.eventJson with
  | none => .error invalidJson
  | some detail => return {
      logId := logId
      eventTime := now
      sessionId := session.sessionId
      userName := session.userName
      databaseName := session.databaseName
      eventType := event.eventType
      eventDetail := detail
      classicalSigAlg := event.classicalAlg
      classicalSignature := event.classicalSig
      pqcSigAlg := event.pqcAlgName
      pqcSignature := event.pqcSig
      prevHash := prevHash
      entryHash := entryHash }

def AuditTable.insert (table : AuditTable jsonb) (row : AuditRow jsonb)
    (numbered : row.logId = table.nextLogId) : AuditTable jsonb :=
  { rows := table.rows ++ [row]
    nextLogId := table.nextLogId + 1
    fresh := by
      intro other member
      rcases List.mem_append.mp member with old | new
      · have below := table.fresh other old
        omega
      · rw [List.mem_singleton.mp new, numbered]
        omega
    ascending := by
      refine List.pairwise_append.mpr ⟨table.ascending, List.pairwise_singleton _ _, ?_⟩
      intro earlier member later last
      rw [List.mem_singleton.mp last, numbered]
      exact table.fresh earlier member }

theorem entry_row_returns {logId : Int} {event : SignedEvent}
    (returned : entryRow openssl evp session now logId event prevHash = .ok row) :
    jsonb.ofText event.eventJson = some row.eventDetail ∧
      row =
        { logId := logId
          eventTime := now
          sessionId := session.sessionId
          userName := session.userName
          databaseName := session.databaseName
          eventType := event.eventType
          eventDetail := row.eventDetail
          classicalSigAlg := event.classicalAlg
          classicalSignature := event.classicalSig
          pqcSigAlg := event.pqcAlgName
          pqcSignature := event.pqcSig
          prevHash := prevHash
          entryHash := openssl.sha384 (entryPreimage event.eventType event.eventJson
            event.classicalSig event.pqcSig prevHash) } := by
  simp only [entryRow, computeEntryHash, sequence_returns] at returned
  obtain ⟨entryHash, ⟨_, -, _, -, _, -, hashed⟩, inserted⟩ := returned
  cases parsed : jsonb.ofText event.eventJson with
  | none => simp [parsed] at inserted
  | some detail =>
    simp only [parsed] at inserted
    rw [← Except.ok.inj inserted, ← Except.ok.inj hashed]
    exact ⟨rfl, rfl⟩

inductive Logged (jsonb : Jsonb) where
  | skipped (warning : String)
  | inserted (row : AuditRow jsonb) (table : AuditTable jsonb)

def insertEntry (openssl : OpenSsl) (evp : Evp) (session : SessionInfo) (now : Int)
    (table : AuditTable jsonb) (event : SignedEvent) : Raises (Logged jsonb) :=
  match entered : entryRow openssl evp session now table.nextLogId event
      (getPrevHash table.rows) with
  | .error report => .error report
  | .ok row => .ok (.inserted row (table.insert row (by rw [(entry_row_returns entered).2])))

def auditLogDdlEvent (openssl : OpenSsl) (evp : Evp) (liboqs : Liboqs) (coins : Bytes)
    (keys : List AuditKey) (session : SessionInfo) (now : Int) (table : AuditTable jsonb)
    (event : AuditEvent) : Raises (Logged jsonb) := do
  let prepared ← signEvent jsonb openssl evp liboqs coins keys event
  match prepared with
  | .skipped warning => return .skipped warning
  | .signed signed => insertEntry openssl evp session now table signed

@[ext]
structure ChainReport where
  logId : Int
  chainValid : Bool
  classicalSigValid : Bool
  pqcSigValid : Bool
  deriving DecidableEq

def verifyClassical (openssl : OpenSsl) (evp : Evp) (keys : List AuditKey) (messageHash : Bytes)
    (row : AuditRow jsonb) : Bool :=
  match loadAuditKey keys "classical" with
  | none => false
  | some key =>
    pgStrcaseeq row.classicalSigAlg "Ed25519" &&
      ed25519Verify openssl evp messageHash row.classicalSignature key.publicKey

def verifyPqc (liboqs : Liboqs) (keys : List AuditKey) (messageHash : Bytes)
    (row : AuditRow jsonb) : Raises Bool :=
  match loadAuditKey keys "pqc", signatureAlgorithm row.pqcSigAlg with
  | none, _ => .ok false
  | some _, none => .ok false
  | some key, some alg => do
      let ctx ← (pqcSigNew liboqs true alg).2
      pqcSigVerify ctx messageHash row.pqcSignature (some key.publicKey) key.publicKey.length

def verifyRow (openssl : OpenSsl) (evp : Evp) (liboqs : Liboqs) (keys : List AuditKey)
    (row : AuditRow jsonb) : Raises ChainReport := do
  let detail := jsonb.toText row.eventDetail
  let recomputed ← computeEntryHash openssl evp row.eventType detail row.classicalSignature
    row.pqcSignature row.prevHash
  let messageHash ← computeSha384 openssl evp detail.bytes
  let pqcSigValid ← verifyPqc liboqs keys messageHash row
  return {
    logId := row.logId
    chainValid := row.entryHash.length = auditHashLen ∧ recomputed = row.entryHash
    classicalSigValid := verifyClassical openssl evp keys messageHash row
    pqcSigValid := pqcSigValid }

/-- `WHERE log_id >= start AND log_id <= end`, the second part only if there is an end. -/
def inRange (startId endId : Option Int) (logId : Int) : Bool :=
  startId.getD 1 ≤ logId ∧ endId.all fun last => logId ≤ last

def scannedRows (startId endId : Option Int) (rows : List (AuditRow jsonb)) :
    List (AuditRow jsonb) :=
  (rows.filter fun row => inRange startId endId row.logId).insertionSort fun left right =>
    left.logId ≤ right.logId

def pqcAuditVerifyChain (openssl : OpenSsl) (evp : Evp) (liboqs : Liboqs) (keys : List AuditKey)
    (startId endId : Option Int) (rows : List (AuditRow jsonb)) : Raises (List ChainReport) :=
  (scannedRows startId endId rows).mapM (verifyRow openssl evp liboqs keys)

def rowPreimage (row : AuditRow jsonb) : Bytes :=
  entryPreimage row.eventType (jsonb.toText row.eventDetail) row.classicalSignature
    row.pqcSignature row.prevHash

def Sealed (openssl : OpenSsl) (row : AuditRow jsonb) : Prop :=
  openssl.sha384 (rowPreimage row) = row.entryHash

/-- What the writer has established when it signs an event. -/
structure SignedWith (jsonb : Jsonb) (openssl : OpenSsl) (liboqs : Liboqs) (keys : List AuditKey)
    (event : AuditEvent) (signed : SignedEvent) (classical pqc : AuditKey) : Prop where
  classicalActive : loadAuditKey keys "classical" = some classical
  pqcActive : loadAuditKey keys "pqc" = some pqc
  eventType : signed.eventType = event.eventType
  eventJson : signed.eventJson = eventText jsonb event
  classicalAlg : signed.classicalAlg = classical.algorithm
  pqcAlgName : signed.pqcAlgName = pqc.algorithm
  classicalSigned : openssl.ed25519Sign (openssl.sha384 signed.eventJson.bytes)
    classical.encryptedSecretKey = some signed.classicalSig
  pqcSigned : ∃ alg scheme coins, pqcAlgorithmFromName pqc.algorithm = some alg ∧
    liboqs.Provides alg scheme ∧ scheme.sign coins (openssl.sha384 signed.eventJson.bytes)
      (some pqc.encryptedSecretKey) = some signed.pqcSig

theorem sign_pqc_returns {messageHash pqcSig : Bytes} {key : AuditKey}
    (returned : signPqc liboqs coins key messageHash = .ok (.ok pqcSig)) :
    ∃ alg scheme coins, pqcAlgorithmFromName key.algorithm = some alg ∧
      liboqs.Provides alg scheme ∧
      scheme.sign coins messageHash (some key.encryptedSecretKey) = some pqcSig := by
  unfold signPqc at returned
  cases named : pqcAlgorithmFromName key.algorithm with
  | none => simp [named] at returned
  | some alg =>
    simp only [named, sequence_returns] at returned
    obtain ⟨ctx, created, signature, signed, outcome⟩ := returned
    refine ⟨alg, ctx.oqsSig, coins, rfl, pqc_sig_new_returns created, ?_⟩
    unfold pqcSigSign at signed
    split_ifs at signed
    rw [Except.ok.inj signed]
    cases signature with
    | none => simp at outcome
    | some found => simpa using outcome

variable {event : AuditEvent} {signed : SignedEvent}

theorem sign_event_signed
    (returned : signEvent jsonb openssl evp liboqs coins keys event = .ok (.signed signed)) :
    ∃ classical pqc, SignedWith jsonb openssl liboqs keys event signed classical pqc := by
  unfold signEvent at returned
  cases classicalActive : loadAuditKey keys "classical" with
  | none => simp [classicalActive] at returned
  | some classical =>
    cases pqcActive : loadAuditKey keys "pqc" with
    | none => simp [classicalActive, pqcActive] at returned
    | some pqc =>
      simp only [classicalActive, pqcActive, computeSha384, sequence_returns] at returned
      obtain ⟨messageHash, ⟨_, -, _, -, hashed⟩, classicalSig, edSigned, outcome, pqcSigned,
        done⟩ := returned
      obtain rfl := Except.ok.inj hashed
      cases outcome with
      | error warning => simp [pure, Except.pure] at done
      | ok pqcSig =>
        obtain rfl : _ = signed := by simpa [pure, Except.pure] using done
        exact ⟨classical, pqc,
          { classicalActive := classicalActive
            pqcActive := pqcActive
            eventType := rfl
            eventJson := rfl
            classicalAlg := rfl
            pqcAlgName := rfl
            classicalSigned := ed25519_sign_returns edSigned
            pqcSigned := sign_pqc_returns pqcSigned }⟩

structure WrittenFor (openssl : OpenSsl) (signed : SignedEvent) (prevHash : Option Bytes)
    (row : AuditRow jsonb) : Prop where
  eventType : row.eventType = signed.eventType
  eventDetail : jsonb.toText row.eventDetail = signed.eventJson
  classicalSigAlg : row.classicalSigAlg = signed.classicalAlg
  classicalSignature : row.classicalSignature = signed.classicalSig
  pqcSigAlg : row.pqcSigAlg = signed.pqcAlgName
  pqcSignature : row.pqcSignature = signed.pqcSig
  prevHash : row.prevHash = prevHash
  isSealed : Sealed openssl row

theorem entry_row_written {logId : Int} {value : jsonb.Value}
    (text : signed.eventJson = jsonb.toText value)
    (returned : entryRow openssl evp session now logId signed prevHash = .ok row) :
    WrittenFor openssl signed prevHash row ∧ row.logId = logId := by
  obtain ⟨parsed, fields⟩ := entry_row_returns returned
  have detail : jsonb.toText row.eventDetail = signed.eventJson := by
    rw [text, jsonb.ofTextToText] at parsed
    rw [text, Option.some.inj parsed]
  rw [fields]
  refine ⟨⟨rfl, detail, rfl, rfl, rfl, rfl, rfl, ?_⟩, rfl⟩
  rw [Sealed, rowPreimage, detail]

theorem insert_entry_inserted {table after : AuditTable jsonb}
    (returned : insertEntry openssl evp session now table signed = .ok (.inserted row after)) :
    entryRow openssl evp session now table.nextLogId signed (getPrevHash table.rows) = .ok row ∧
      after.rows = table.rows ++ [row] := by
  unfold insertEntry at returned
  split at returned
  · simp at returned
  · rename_i entered
    cases returned
    exact ⟨entered, rfl⟩

theorem audit_log_inserted {table after : AuditTable jsonb}
    (returned : auditLogDdlEvent openssl evp liboqs coins keys session now table event =
      .ok (.inserted row after)) :
    ∃ signed classical pqc, SignedWith jsonb openssl liboqs keys event signed classical pqc ∧
      WrittenFor openssl signed (getPrevHash table.rows) row ∧
      row.logId = table.nextLogId ∧ after.rows = table.rows ++ [row] := by
  obtain ⟨prepared, ready, done⟩ := sequence_returns.mp returned
  cases prepared with
  | skipped warning => simp [pure, Except.pure] at done
  | signed signed =>
    obtain ⟨classical, pqc, signedWith⟩ := sign_event_signed ready
    obtain ⟨entered, appended⟩ := insert_entry_inserted done
    obtain ⟨written, numbered⟩ := entry_row_written signedWith.eventJson entered
    exact ⟨signed, classical, pqc, signedWith, written, numbered, appended⟩

theorem verify_row_returns {report : ChainReport}
    (returned : verifyRow openssl evp liboqs keys row = .ok report) :
    report.logId = row.logId ∧ (report.chainValid = true ↔ Sealed openssl row) ∧
      report.classicalSigValid = verifyClassical openssl evp keys
        (openssl.sha384 (jsonb.toText row.eventDetail).bytes) row ∧
      verifyPqc liboqs keys (openssl.sha384 (jsonb.toText row.eventDetail).bytes) row =
        .ok report.pqcSigValid := by
  simp only [verifyRow, computeEntryHash, computeSha384, sequence_returns] at returned
  obtain ⟨recomputed, ⟨_, -, _, -, _, -, hashed⟩, messageHash, ⟨_, -, _, -, digest⟩, pqcSigValid,
    verified, done⟩ := returned
  obtain rfl := Except.ok.inj hashed
  obtain rfl := Except.ok.inj digest
  rw [← Except.ok.inj done]
  refine ⟨rfl, ?_, rfl, verified⟩
  rw [decide_eq_true_iff, Sealed, rowPreimage, and_iff_right_iff_imp]
  intro same
  rw [← same, openssl.sha384Length, auditHashLen]

theorem verify_row_proceeds {pqcSigValid : Bool} (works : ∀ call, evp call = true)
    (checked : verifyPqc liboqs keys (openssl.sha384 (jsonb.toText row.eventDetail).bytes) row =
      .ok pqcSigValid) : ∃ report, verifyRow openssl evp liboqs keys row = .ok report := by
  simp only [verifyRow, computeEntryHash, computeSha384, works, ensure_holds, ok_then, pure_bind,
    checked]
  exact ⟨_, rfl⟩

theorem mem_scanned_rows {startId endId : Option Int} :
    row ∈ scannedRows startId endId rows ↔ row ∈ rows ∧ inRange startId endId row.logId = true := by
  rw [scannedRows, mem_insertionSort, mem_filter]

end FortressQL.Pgcrypto.AuditLog
