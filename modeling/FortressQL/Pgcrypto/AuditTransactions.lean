import FortressQL.Lib.Transactions
import FortressQL.Pgcrypto.AuditRuns

/-!
# Audit writers in concurrent transactions

Each call of `audit_log_ddl_event` reads the previous hash and inserts its row, and nothing is
locked in between. Two backends that read the same last hash fork the chain.
-/

namespace FortressQL.Pgcrypto.AuditTransactions

open List Lib.ByteStrings Lib.HashChain Lib.Runs Lib.Transactions Pqc.Signatures Pgcrypto.AuditKeys
open Pgcrypto.AuditLog Pgcrypto.AuditRuns

variable {jsonb : Jsonb}

/-- How far a backend is in a call of `audit_log_ddl_event`. -/
inductive Phase where
  | idle
  | signed (event : SignedEvent)
  | hashRead (event : SignedEvent) (prevHash : Option Bytes)

abbrev AuditStore (jsonb : Jsonb) : Type := Store fun row : AuditRow jsonb => row.logId

structure Cluster (jsonb : Jsonb) where
  log : AuditStore jsonb
  phase : Nat → Phase

def Cluster.empty : Cluster jsonb := ⟨.empty 1, fun _ => .idle⟩

/-- A statement starts with its snapshot. The keys a call reads are its own argument. -/
inductive ClusterOp where
  | begin (backend : Nat)
  | startStatement (backend : Nat)
  | signEvent (backend : Nat) (evp : Evp) (coins : Bytes) (keys : List AuditKey)
      (event : AuditEvent)
  | getPrevHash (backend : Nat)
  | insertRow (backend : Nat) (evp : Evp) (session : SessionInfo) (now : Int)
  | finish (backend : Nat) (commits : Bool)

def Cluster.goto (cluster : Cluster jsonb) (backend : Nat) (phase : Phase) : Cluster jsonb :=
  { cluster with phase := Function.update cluster.phase backend phase }

def insertRow (openssl : OpenSsl) (evp : Evp) (session : SessionInfo) (now : Int)
    (log : AuditStore jsonb) (backend : Nat) (event : SignedEvent) (prevHash : Option Bytes) :
    AuditStore jsonb :=
  match entered : entryRow openssl evp session now log.nextKey event prevHash with
  | .error _ => log
  | .ok row => log.insert backend row (by rw [(entry_row_returns entered).2])

def clusterStep (openssl : OpenSsl) (liboqs : Liboqs) (cluster : Cluster jsonb) :
    ClusterOp → Cluster jsonb
  | .begin backend => { cluster with log := cluster.log.begin backend }
  | .startStatement backend =>
    Cluster.goto { cluster with log := cluster.log.takeSnapshot backend } backend .idle
  | .signEvent backend evp coins keys event =>
    match signEvent jsonb openssl evp liboqs coins keys event with
    | .ok (.signed signed) => cluster.goto backend (.signed signed)
    | _ => cluster.goto backend .idle
  | .getPrevHash backend =>
    match cluster.phase backend with
    | .signed event => cluster.goto backend
        (.hashRead event (getPrevHash ((cluster.log.snapshot backend).map Tuple.row)))
    | _ => cluster
  | .insertRow backend evp session now =>
    match cluster.phase backend with
    | .hashRead event prevHash =>
      let log := insertRow openssl evp session now cluster.log backend event prevHash
      Cluster.goto { cluster with log := log } backend .idle
    | _ => cluster
  | .finish backend commits =>
    Cluster.goto { cluster with log := cluster.log.finish backend commits } backend .idle

def committedLog (cluster : Cluster jsonb) : List (AuditRow jsonb) :=
  cluster.log.committed.map Tuple.row

/-- A row is inserted over a snapshot that shows every row not rolled back. -/
def OverCurrentSnapshot (cluster : Cluster jsonb) : ClusterOp → Prop
  | .insertRow backend _ _ _ => cluster.log.SeesAll backend
  | _ => True

/-- The rows that count are sealed and each names the one before it. -/
structure ChainedStore (openssl : OpenSsl) (log : AuditStore jsonb) : Prop where
  oneWriter : log.OneWriter
  isSealed : ∀ tuple ∈ log.tuples, Sealed openssl tuple.row
  linked : Linked AuditRow.prevHash AuditRow.entryHash (log.live.map Tuple.row)

def Pending (seen : List (Tuple (AuditRow jsonb))) : Phase → Prop
  | .idle => True
  | .signed event => ∃ value, event.eventJson = jsonb.toText value
  | .hashRead event prevHash =>
    (∃ value, event.eventJson = jsonb.toText value) ∧
      prevHash = getPrevHash (seen.map Tuple.row)

structure Serial (openssl : OpenSsl) (cluster : Cluster jsonb) : Prop where
  chained : ChainedStore openssl cluster.log
  pending : ∀ backend, Pending (cluster.log.snapshot backend) (cluster.phase backend)

section Steps

variable {openssl : OpenSsl} {liboqs : Liboqs} {log : AuditStore jsonb} {backend : Nat}

theorem get_prev_hash_live (sees : log.SeesAll backend) :
    getPrevHash ((log.snapshot backend).map Tuple.row) =
      (log.live.map Tuple.row).getLast?.map AuditRow.entryHash := by
  rw [Store.snapshot_live sees, get_prev_hash_ascending]
  exact pairwise_map.mpr (log.ascending.sublist filter_sublist)

theorem ChainedStore.of_same {after : AuditStore jsonb} (chained : ChainedStore openssl log)
    (tuples : after.tuples = log.tuples) (status : after.status = log.status) :
    ChainedStore openssl after := by
  have live : after.live = log.live := by rw [Store.live, Store.live, tuples, status]
  constructor
  · rw [Store.OneWriter, live, status]
    exact chained.oneWriter
  · rw [tuples]
    exact chained.isSealed
  · rw [live]
    exact chained.linked

variable {session : SessionInfo} {event : SignedEvent}

theorem ChainedStore.insert_row (chained : ChainedStore openssl log) {evp : Evp} {now : Int}
    {prevHash : Option Bytes} (sees : log.SeesAll backend)
    (pending : Pending (log.snapshot backend) (.hashRead event prevHash)) :
    ChainedStore openssl (insertRow openssl evp session now log backend event prevHash) := by
  unfold insertRow
  split
  · exact chained
  · rename_i row entered
    obtain ⟨⟨value, text⟩, hashRead⟩ := pending
    obtain ⟨written, numbered⟩ := entry_row_written text entered
    rcases log.insert_cases backend row numbered with unchanged | inserted
    · rw [unchanged]
      exact chained
    · obtain ⟨xid, -, tuples, live, -, -⟩ := inserted
      constructor
      · exact chained.oneWriter.insert sees numbered
      · intro tuple member
        rw [tuples] at member
        rcases mem_append.mp member with old | new
        · exact chained.isSealed tuple old
        · rw [mem_singleton.mp new]
          exact written.isSealed
      · rw [live, map_append]
        apply chained.linked.append_row
        rw [written.prevHash, hashRead, get_prev_hash_live sees]

theorem ChainedStore.finish (chained : ChainedStore openssl log) (backend : Nat)
    (commits : Bool) : ChainedStore openssl (log.finish backend commits) := by
  constructor
  · exact chained.oneWriter.finish backend commits
  · rcases log.finish_cases backend commits with unchanged | ⟨_, -, tuples, -, -⟩
    · rw [unchanged]
      exact chained.isSealed
    · rw [tuples]
      exact chained.isSealed
  · obtain ⟨rest, split⟩ := chained.oneWriter.finish_live backend commits
    have linked := chained.linked
    rw [split, map_append] at linked
    exact linked.left_of_append

theorem insert_row_snapshot {evp : Evp} {now : Int} {prevHash : Option Bytes} :
    (insertRow openssl evp session now log backend event prevHash).snapshot = log.snapshot := by
  unfold insertRow
  split
  · rfl
  · rename_i row entered
    have numbered : row.logId = log.nextKey := by rw [(entry_row_returns entered).2]
    rcases log.insert_cases backend row numbered with unchanged | ⟨_, -, -, -, -, snapshot⟩
    · rw [unchanged]
    · exact snapshot

theorem finish_snapshot (commits : Bool) {other : Nat} (different : other ≠ backend) :
    (log.finish backend commits).snapshot other = log.snapshot other := by
  rcases log.finish_cases backend commits with unchanged | ⟨_, -, -, -, snapshot⟩
  · rw [unchanged]
  · rw [snapshot, Function.update_of_ne different]

theorem Serial.move {cluster : Cluster jsonb} (serial : Serial openssl cluster)
    (chained : ChainedStore openssl log)
    (others : ∀ other, other ≠ backend → log.snapshot other = cluster.log.snapshot other)
    {phase : Phase} (pending : Pending (log.snapshot backend) phase) :
    Serial openssl (Cluster.goto { cluster with log := log } backend phase) := by
  refine ⟨chained, ?_⟩
  apply (Function.forall_update_iff cluster.phase fun other held =>
    Pending (log.snapshot other) held).mpr
  refine ⟨pending, ?_⟩
  intro other different
  rw [others other different]
  exact serial.pending other

theorem cluster_step_serial (liboqs : Liboqs) (cluster : Cluster jsonb) (op : ClusterOp)
    (allowed : OverCurrentSnapshot cluster op) (serial : Serial openssl cluster) :
    Serial openssl (clusterStep openssl liboqs cluster op) := by
  cases op with
  | begin backend =>
    obtain ⟨tuples, status, snapshot⟩ := cluster.log.begin_keeps backend
    refine ⟨serial.chained.of_same tuples status, ?_⟩
    change ∀ other, Pending ((cluster.log.begin backend).snapshot other) (cluster.phase other)
    rw [snapshot]
    exact serial.pending
  | startStatement backend =>
    have chained : ChainedStore openssl (cluster.log.takeSnapshot backend) :=
      serial.chained.of_same rfl rfl
    refine serial.move chained ?_ trivial
    intro other different
    exact Function.update_of_ne different _ _
  | signEvent backend evp coins keys event =>
    simp only [clusterStep]
    split
    · rename_i signed returned
      obtain ⟨_, _, signedWith⟩ := sign_event_signed returned
      exact serial.move serial.chained (fun _ _ => rfl) ⟨_, signedWith.eventJson⟩
    · exact serial.move serial.chained (fun _ _ => rfl) trivial
  | getPrevHash backend =>
    have pending := serial.pending backend
    simp only [clusterStep]
    split
    · rename_i event signed
      rw [signed] at pending
      exact serial.move serial.chained (fun _ _ => rfl) ⟨pending, rfl⟩
    · exact serial
  | insertRow backend evp session now =>
    have pending := serial.pending backend
    simp only [clusterStep]
    split
    · rename_i event prevHash hashRead
      rw [hashRead] at pending
      refine serial.move (serial.chained.insert_row allowed pending) ?_ trivial
      intro other _
      rw [insert_row_snapshot]
    · exact serial
  | finish backend commits =>
    refine serial.move (serial.chained.finish backend commits) ?_ trivial
    intro other different
    exact finish_snapshot commits different

end Steps

theorem cluster_run_serial (openssl : OpenSsl) (liboqs : Liboqs) (ops : List ClusterOp)
    (admissible : Admissible (clusterStep openssl liboqs) OverCurrentSnapshot
      (.empty : Cluster jsonb) ops) :
    Serial openssl (run (clusterStep openssl liboqs) (.empty : Cluster jsonb) ops) := by
  apply run_invariant _ _ (Serial openssl) (cluster_step_serial liboqs) _ _ admissible
  exact ⟨⟨List.Pairwise.nil, forall_mem_nil _, linked_nil⟩, fun _ => trivial⟩

structure DigestsApart (openssl : OpenSsl) (rows : List (AuditRow jsonb)) : Prop where
  collisionFree : ∀ left ∈ rows, ∀ right ∈ rows,
    openssl.sha384 (rowPreimage left) = openssl.sha384 (rowPreimage right) →
      rowPreimage left = rowPreimage right
  firstApart : ∀ first ∈ rows, first.prevHash = none → ∀ other ∈ rows,
    ¬ other.entryHash <:+ rowPreimage first

variable {prevHash : Bytes} {row : AuditRow jsonb}

theorem row_preimage_names (named : row.prevHash = some prevHash) :
    ∃ hashed, rowPreimage row = hashed ++ prevHash := by
  rw [rowPreimage, named]
  exact ⟨_, rfl⟩

section Committing

variable {openssl : OpenSsl} {rows : List (AuditRow jsonb)}
  (linked : Linked AuditRow.prevHash AuditRow.entryHash rows)
  (isSealed : ∀ row ∈ rows, Sealed openssl row)

include linked isSealed

theorem named_digest (member : row ∈ rows) (named : row.prevHash = some prevHash) :
    prevHash.length = auditHashLen ∧ ∃ other ∈ rows, other.entryHash = prevHash := by
  obtain ⟨other, found, same⟩ := linked.named_member member named
  refine ⟨?_, other, found, same⟩
  rw [← same, ← isSealed other found, openssl.sha384Length, auditHashLen]

theorem first_preimage_apart (apart : DigestsApart openssl rows) {first later : AuditRow jsonb}
    (firstMember : first ∈ rows) (laterMember : later ∈ rows) (start : first.prevHash = none)
    (named : later.prevHash = some prevHash) : rowPreimage first ≠ rowPreimage later := by
  intro same
  obtain ⟨-, other, found, digest⟩ := named_digest linked isSealed laterMember named
  obtain ⟨hashed, ends⟩ := row_preimage_names named
  apply apart.firstApart first firstMember start other found
  exact ⟨hashed, by rw [same, ends, digest]⟩

theorem digests_commit (apart : DigestsApart openssl rows) (left : AuditRow jsonb)
    (leftMember : left ∈ rows) (right : AuditRow jsonb) (rightMember : right ∈ rows)
    (digests : left.entryHash = right.entryHash) : left.prevHash = right.prevHash := by
  have same : rowPreimage left = rowPreimage right := by
    apply apart.collisionFree left leftMember right rightMember
    rw [isSealed left leftMember, isSealed right rightMember, digests]
  cases leftNamed : left.prevHash with
  | none =>
    cases rightNamed : right.prevHash with
    | none => rfl
    | some rightHash =>
      exact absurd same (first_preimage_apart linked isSealed apart leftMember rightMember
        leftNamed rightNamed)
  | some leftHash =>
    cases rightNamed : right.prevHash with
    | none =>
      exact absurd same.symm (first_preimage_apart linked isSealed apart rightMember
        leftMember rightNamed leftNamed)
    | some rightHash =>
      obtain ⟨leftHashed, leftEnds⟩ := row_preimage_names leftNamed
      obtain ⟨rightHashed, rightEnds⟩ := row_preimage_names rightNamed
      have lengths : leftHash.length = rightHash.length :=
        (named_digest linked isSealed leftMember leftNamed).1.trans
          (named_digest linked isSealed rightMember rightNamed).1.symm
      rw [leftEnds, rightEnds] at same
      rw [(append_inj' same lengths).2]

end Committing

/-- If each row is inserted over a current snapshot, the committed log is one chain. -/
theorem committed_log_linear {openssl : OpenSsl} {liboqs : Liboqs} {ops : List ClusterOp}
    (current : Admissible (clusterStep openssl liboqs) OverCurrentSnapshot
      (.empty : Cluster jsonb) ops)
    {cluster : Cluster jsonb} (reached : cluster = run (clusterStep openssl liboqs) .empty ops) :
    ((committedLog cluster).Pairwise fun earlier later => earlier.logId < later.logId) ∧
      Linked AuditRow.prevHash AuditRow.entryHash (committedLog cluster) ∧
      (DigestsApart openssl (committedLog cluster) →
        ((committedLog cluster).map AuditRow.prevHash).Nodup) := by
  have serial : Serial openssl cluster := by
    rw [reached]
    exact cluster_run_serial openssl liboqs ops current
  obtain ⟨rest, split⟩ := serial.chained.oneWriter.committed_first
  have linked := serial.chained.linked
  rw [split, map_append] at linked
  have committedLinked :=
    linked.left_of_append
  have committedSealed : ∀ row ∈ committedLog cluster, Sealed openssl row := by
    intro row member
    obtain ⟨tuple, stored, rfl⟩ := mem_map.mp member
    exact serial.chained.isSealed tuple (mem_filter.mp stored).1
  refine ⟨?_, committedLinked, ?_⟩
  · exact pairwise_map.mpr (cluster.log.ascending.sublist filter_sublist)
  · intro apart
    exact committedLinked.prevs_distinct (digests_commit committedLinked committedSealed apart)

def sampleKeys : List AuditKey := (sampleRun [sampleInit 1]).keys.rows

def sampleAuditEvent : AuditEvent :=
  ⟨sampleText 71, some (sampleText 1), some (sampleText 81)⟩

def readSteps (backend : Nat) : List ClusterOp :=
  [.begin backend, .startStatement backend,
    .signEvent backend allWork [] sampleKeys sampleAuditEvent, .getPrevHash backend]

def writeSteps (backend : Nat) : List ClusterOp :=
  [.insertRow backend allWork sampleSession 0, .finish backend true]

def sampleCluster (ops : List ClusterOp) : Cluster sampleJsonb :=
  run (clusterStep sampleOpenSsl sampleLiboqs) .empty ops

def sequentialSteps : List ClusterOp :=
  readSteps 1 ++ writeSteps 1 ++ readSteps 2 ++ writeSteps 2

theorem sequential_over_current : Admissible (clusterStep sampleOpenSsl sampleLiboqs)
    OverCurrentSnapshot (.empty : Cluster sampleJsonb) sequentialSteps := by
  have first : (sampleCluster (readSteps 1)).log.SeesAll 1 :=
    Store.sees_all_of_length (by decide +kernel)
  have second : (sampleCluster (readSteps 1 ++ writeSteps 1 ++ readSteps 2)).log.SeesAll 2 :=
    Store.sees_all_of_length (by decide +kernel)
  exact ⟨trivial, trivial, trivial, trivial, first, trivial, trivial, trivial, trivial, trivial,
    second, trivial, trivial⟩

theorem sample_digests_apart :
    DigestsApart sampleOpenSsl (committedLog (sampleCluster sequentialSteps)) :=
  ⟨by decide +kernel, by decide +kernel⟩

theorem sequential_writers_linear :
    (committedLog (sampleCluster sequentialSteps)).length = 2 ∧
      ((committedLog (sampleCluster sequentialSteps)).Pairwise fun earlier later =>
        earlier.logId < later.logId) ∧
      Linked AuditRow.prevHash AuditRow.entryHash (committedLog (sampleCluster sequentialSteps)) ∧
      ((committedLog (sampleCluster sequentialSteps)).map AuditRow.prevHash).Nodup := by
  obtain ⟨ascending, linked, distinct⟩ := committed_log_linear sequential_over_current rfl
  exact ⟨by decide +kernel, ascending, linked, distinct sample_digests_apart⟩

/-- Both backends read the empty log before either inserts. -/
theorem interleaved_writers_fork :
    (committedLog (sampleCluster (readSteps 1 ++ readSteps 2 ++ writeSteps 1 ++
      writeSteps 2))).map AuditRow.prevHash = [none, none] := by
  decide +kernel

end FortressQL.Pgcrypto.AuditTransactions
