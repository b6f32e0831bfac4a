import FortressQL.Storage.RoundTrip
import FortressQL.Wal.StreamRoundTrip

/-!
# Page images in the log

A full-page image goes from `XLogRecordAssemble` over the WAL buffers to the log files. Nothing on
this way encrypts it: the functions of `tde_wal.c` that could have no callers.
-/

namespace FortressQL.Wal.PlainImages

open Lib.PagedStream Layout Elog Lib.ByteMemory Lib.XorStream Storage.BlockAddress Storage.BufPage
open Storage.RoundTrip (sampleCipher sampleEntry sampleCache sampleTag)
open Tde.KeyCache Tde.PageCrypt Wal.BytePositions Wal.InsertedLog Wal.PageHeaders Wal.RecordAssemble
open Wal.RecordDecode Wal.RecordImages Wal.RecordInsert Wal.RecordRoundTrip Wal.Segments
open Wal.StreamRoundTrip

/-- The writes of `XLogWrite`: groups of pages, given by the first page and their number, go from
the WAL buffers to the files as they are. -/
def writePages (buffers disk : Memory) (groups : List (Nat × Nat)) : Memory :=
  groups.foldl
    (fun disk group => copyOver buffers disk (group.1 * xlogBlcksz) (group.2 * xlogBlcksz)) disk

def Written (groups : List (Nat × Nat)) (location : Nat) : Prop :=
  ∃ group ∈ groups,
    group.1 * xlogBlcksz ≤ location ∧ location < group.1 * xlogBlcksz + group.2 * xlogBlcksz

/-- The image of a block in a record is its encrypted page, and not the page. -/
def ImageEncrypted (compressors : Compressors) (readRecPtr : Nat) (decoded : DecodedXLogRecord)
    (blockId : Nat) (cipher : PageCipher) (shmem : Option TdeKeyCache) (tag : BufferTag)
    (page : Page) :
    Prop :=
  ∃ carried, restoreBlockImage compressors readRecPtr decoded blockId = .ok carried ∧
    carried ≠ page.toList ∧
    ∃ encrypted, tdeEncryptPage cipher shmem page tag = .ok encrypted ∧ carried = encrypted.toList

variable {log : LogIdentity} {origin page used : Nat} {insert : WalInsert} {env : AssembleEnv}
  {insertion : Insertion} {rmid info : UInt8} {record : AssembledRecord} {blockId : Nat}
  {regbuf : RegisteredBuffer}

theorem inserted_content {crcByte : UInt32 → UInt8 → UInt32} {call : InsertCall} {next : WalInsert}
    {inserted : InsertedRecord}
    (returned : xlogInsertRecord log crcByte insert call = .ok (next, some inserted)) :
    inserted.header.xlTotLen = call.record.header.xlTotLen ∧
      inserted.body = call.record.scratch ++ call.record.datas.flatten := by
  rw [xlogInsertRecord] at returned
  cases reserved : reserve log insert.position call.record.header with
  | none =>
    rw [reserved] at returned
    cases returned
  | some result =>
    rw [reserved] at returned
    simp only [sequence_returns] at returned
    obtain ⟨buffers, -, made⟩ := returned
    cases made
    exact ⟨rfl, rfl⟩

section Logged

variable (ready : Ready log origin insert page used)
  (limit : xlogBytePosToRecPtr log.size insert.position.prevBytePos < 256 ^ 8)
  (inverts : DecompressionInverts env.compressors)
  (assembled : xlogRecordAssemble env insertion rmid info = .ok record)
  (rmgr : rmgrIdIsValid rmid = true) (normal : isXLogSwitch record.header = false)
  (held : insertion.registeredBuffers.getD blockId none = some regbuf)
  (imaged : includeImage env (assembledInfo env rmid info) regbuf = true)

include ready limit inverts assembled rmgr normal held imaged

theorem logged_image_restored (runningBackups readRecPtr : Nat) :
    ∃ next inserted decoded,
      xlogInsertRecord log env.crcByte insert ⟨record, runningBackups⟩ = .ok (next, some inserted) ∧
      (∀ disk groups, (∀ offset < inserted.bytes.length, Written groups
          (physical log (insert.position.currBytePos + offset))) →
        Holds log (writePages next.buffers.memory disk groups)
          insert.position.currBytePos inserted.bytes) ∧
      decodeXLogRecord readRecPtr inserted.bytes = .ok decoded ∧
      restoreBlockImage env.compressors readRecPtr decoded blockId =
        .ok (zeroedPage regbuf).toList := by
  have valid : ValidRecord env.crcByte record := assembled_record_valid assembled rmgr fun switch =>
    absurd (normal.symm.trans switch) Bool.false_ne_true
  obtain ⟨next, inserted, returned, inserts⟩ :=
    @insert_normal_returns log env.crcByte origin insert page used ⟨record, runningBackups⟩ ready
      valid
      normal
  obtain ⟨length, body⟩ := inserted_content returned
  have prevFits : inserted.header.xlPrev < 256 ^ 8 := by
    rwa [inserts.entry.link, ← rec_ptr_physical]
  obtain ⟨decoded, decodes, -, -, -, -, blocks⟩ :=
    assembled_content_decodes inverts assembled prevFits length readRecPtr
  rw [← body] at decodes
  refine ⟨next, inserted, decoded, returned, ?_, decodes, ?_⟩
  · intro disk groups written offset inside
    have copied : writePages next.buffers.memory disk groups
          (physical log (insert.position.currBytePos + offset)) =
        next.buffers.memory (physical log (insert.position.currBytePos + offset)) :=
      copies_over_at _ _ _ _ (Or.inr (written offset inside))
    have holds := inserts.record.holds offset inside
    rw [← ready.position] at holds
    exact copied.trans holds
  · have restores := blocks blockId
    rw [held] at restores
    obtain ⟨block, -, blockRestored⟩ := restores
    exact blockRestored.image imaged

/-- Whatever key is cached, no page image reaches the log files encrypted. -/
theorem logged_image_plain (runningBackups readRecPtr : Nat) (cipher : PageCipher)
    (shmem : Option TdeKeyCache) :
    ∃ next inserted decoded,
      xlogInsertRecord log env.crcByte insert ⟨record, runningBackups⟩ = .ok (next, some inserted) ∧
      (∀ disk groups,
        (∀ offset < inserted.bytes.length, Written groups
          ((walLayout log.size).physical (insert.position.currBytePos + offset))) →
        (walLayout log.size).Holds (writePages next.buffers.memory disk groups)
          insert.position.currBytePos inserted.bytes) ∧
      decodeXLogRecord readRecPtr inserted.bytes = .ok decoded ∧
      (ImageEncrypted env.compressors readRecPtr decoded blockId cipher shmem
        (initBufferTag regbuf.rlocator regbuf.forkno regbuf.block) (zeroedPage regbuf) ↔
          False) := by
  obtain ⟨next, inserted, decoded, returned, written, decodes, restores⟩ :=
    logged_image_restored ready limit inverts assembled rmgr normal held imaged runningBackups
      readRecPtr
  refine ⟨next, inserted, decoded, returned, written, decodes, ?_, False.elim⟩
  rintro ⟨carried, restored, different, _⟩
  exact different (Except.ok.inj (restored.symm.trans restores))

end Logged

theorem sample_record_normal : ∃ record,
    xlogRecordAssemble sampleEnv sampleInsertion 10 0 = .ok record ∧
    isXLogSwitch record.header = false := by
  have made := sample_record_length
  cases assembled : xlogRecordAssemble sampleEnv sampleInsertion 10 0 with
  | error report =>
    rw [assembled] at made
    cases made
  | ok record =>
    rw [assembled] at made
    simp only [Except.toOption, Option.map_some, Option.some.injEq, Prod.mk.injEq] at made
    refine ⟨record, rfl, ?_⟩
    rw [isXLogSwitch, made.2]
    rfl

def imagedBuffer : RegisteredBuffer := sampleBuffer regbufForceImage 0 [] (Nat.zero_le _)

theorem imaged_buffer_registered :
    sampleInsertion.registeredBuffers.getD 0 none = some imagedBuffer := rfl

theorem sample_image_plain :
    ∃ record next inserted decoded, xlogRecordAssemble sampleEnv sampleInsertion 10 0 = .ok record ∧
      xlogInsertRecord sampleLog sampleEnv.crcByte (segmentInsert sampleLog 1 fun _ => 0)
        ⟨record, 0⟩ =
        .ok (next, some inserted) ∧
      decodeXLogRecord 0 inserted.bytes = .ok decoded ∧
      (ImageEncrypted sampleEnv.compressors 0 decoded 0 sampleCipher (some sampleCache) sampleTag
        (zeroedPage imagedBuffer) ↔ False) := by
  obtain ⟨record, assembled, normal⟩ := sample_record_normal
  obtain ⟨page, used, ready⟩ := segment_insert_valid sampleLog one_pos fun _ => 0
  obtain ⟨next, inserted, decoded, returned, -, decodes, plain⟩ := logged_image_plain ready
    (by decide +kernel) sample_decompression_inverts assembled (by decide) normal
    imaged_buffer_registered (by decide) 0 0
    sampleCipher (some sampleCache)
  exact ⟨record, next, inserted, decoded, assembled, returned, decodes, plain⟩

/-- With a key for the tablespace the page goes into the log as it is, although its encrypted form
is another one. -/
theorem keyed_page_logged_plain :
    sampleCache.find 1663 = some sampleEntry ∧
      sampleInsertion.registeredBuffers.getD 0 none = some imagedBuffer ∧
      ∃ record next inserted decoded encrypted,
        xlogRecordAssemble sampleEnv sampleInsertion 10 0 = .ok record ∧
        xlogInsertRecord sampleLog sampleEnv.crcByte (segmentInsert sampleLog 1 fun _ => 0)
          ⟨record, 0⟩ =
          .ok (next, some inserted) ∧
        decodeXLogRecord 0 inserted.bytes = .ok decoded ∧
        restoreBlockImage sampleEnv.compressors 0 decoded 0 = .ok (zeroedPage imagedBuffer).toList ∧
        tdeEncryptPage sampleCipher (some sampleCache) (zeroedPage imagedBuffer)
          sampleTag = .ok encrypted ∧
        encrypted ≠ zeroedPage imagedBuffer := by
  obtain ⟨record, assembled, normal⟩ := sample_record_normal
  obtain ⟨page, used, ready⟩ := segment_insert_valid sampleLog one_pos fun _ => 0
  obtain ⟨next, inserted, decoded, returned, -, decodes, restores⟩ := logged_image_restored ready
    (by decide +kernel) sample_decompression_inverts assembled (by decide) normal
    imaged_buffer_registered (by decide) 0 0
  refine ⟨rfl, rfl, record, next, inserted, decoded, _, assembled, returned, decodes, restores,
    tde_encrypt_page_cached sampleCipher rfl _, ?_⟩
  intro same
  exact absurd ((xor_from_eq_self_iff _ _ _).mp same 0 (by decide)) (by decide)

end FortressQL.Wal.PlainImages
