import FortressQL.Storage.BlockIo

/-!
# Runs of the write paths

Any interleaving of the four write paths is the replay of the images they hand over, in the form
each path stores them.
-/

namespace FortressQL.Storage.WritePaths

open Elog Lib.WriteLog Lib.XorStream Storage.BufPage Storage.BlockAddress Storage.BlockIo
open Tde.KeyCache Tde.PageCrypt

inductive WritePath where
  | flushBuffer
  | getLocalVictimBuffer
  | flushRelationBuffers
  | smgrBulkFlush
  deriving DecidableEq, Repr

structure HandedImage where
  path : WritePath
  block : FileBlock
  image : Page

inductive WriteOp where
  | flushBuffer (tag : BufferTag) (bufBlock : Page)
  | getLocalVictimBuffer (myProcNumber : Nat) (victim : LocalBufferDesc)
  | flushRelationBuffers (myProcNumber : Nat) (locator : RelFileLocator)
      (buffers : List LocalBufferDesc)
  | smgrBulkFlush (bulkstate : BulkWriteState) (recptr : UInt64)

def applyWrite (server : Server) (files : RelationFiles) : WriteOp → Raises RelationFiles
  | .flushBuffer tag bufBlock => flushBuffer server files tag bufBlock
  | .getLocalVictimBuffer myProcNumber victim =>
    .ok (getLocalVictimBuffer server.settings files myProcNumber victim).1
  | .flushRelationBuffers myProcNumber locator buffers =>
    .ok (flushRelationBuffers server.settings myProcNumber locator files buffers).1
  | .smgrBulkFlush bulkstate recptr =>
    .ok (smgrBulkFlush server.settings files bulkstate recptr).1

def runWrites (server : Server) : RelationFiles → List WriteOp → Raises RelationFiles
  | files, [] => .ok files
  | files, op :: rest =>
    match applyWrite server files op with
    | .error report => .error report
    | .ok next => runWrites server next rest

def handedLocal (path : WritePath) (myProcNumber : Nat) (desc : LocalBufferDesc) : HandedImage :=
  { path := path
    block := { backend := some myProcNumber, tag := desc.tag }
    image := desc.page }

def handedBulk (bulkstate : BulkWriteState) (blkno : BlockNumber) (page : Page) : HandedImage :=
  { path := .smgrBulkFlush, block := bulkstate.block blkno, image := page }

def handedZeroes (bulkstate : BulkWriteState) (relsize blkno : Nat) : List HandedImage :=
  (List.range' relsize (blkno - relsize)).map fun fill =>
    handedBulk bulkstate (UInt32.ofNat fill) zeroPage

def handedPending (bulkstate : BulkWriteState) : Nat → List PendingWrite → List HandedImage
  | _, [] => []
  | relsize, write :: rest =>
    if relsize ≤ write.blkno.toNat then
      handedZeroes bulkstate relsize write.blkno.toNat ++
        handedBulk bulkstate write.blkno write.page ::
          handedPending bulkstate (write.blkno.toNat + 1) rest
    else
      handedBulk bulkstate write.blkno write.page :: handedPending bulkstate relsize rest

def WriteOp.handed : WriteOp → List HandedImage
  | .flushBuffer tag bufBlock =>
    [{ path := .flushBuffer, block := { backend := none, tag := tag }, image := bufBlock }]
  | .getLocalVictimBuffer myProcNumber victim =>
    if victim.dirty then [handedLocal .getLocalVictimBuffer myProcNumber victim] else []
  | .flushRelationBuffers myProcNumber locator buffers =>
    (buffers.filter fun desc => desc.needsFlush locator).map
      (handedLocal .flushRelationBuffers myProcNumber)
  | .smgrBulkFlush bulkstate recptr =>
    handedPending bulkstate bulkstate.relsize (bulkstate.logged recptr)

def handedInRun (ops : List WriteOp) : List HandedImage := ops.flatMap WriteOp.handed

def storedImage (server : Server) (cache : TdeKeyCache) (handed : HandedImage) : Page :=
  let checked := pageSetChecksumCopy server.settings handed.image handed.block.tag.blockNum
  match handed.path, cache.find handed.block.tag.spcOid with
  | .flushBuffer, some entry =>
    xorFrom tdePageHeaderSize (pageKeystream server.cipher entry.key handed.block.tag) checked
  | _, _ => checked

theorem stored_image_plain (server : Server) (cache : TdeKeyCache) (handed : HandedImage)
    (unencrypted : handed.path ≠ .flushBuffer) :
    storedImage server cache handed =
      pageSetChecksumCopy server.settings handed.image handed.block.tag.blockNum := by
  unfold storedImage
  split
  · contradiction
  · rfl

theorem stored_image_flush (server : Server) (cache : TdeKeyCache) (handed : HandedImage)
    (entry : TdeKeyEntry) (encrypted : handed.path = .flushBuffer)
    (cached : cache.find handed.block.tag.spcOid = some entry) :
    storedImage server cache handed =
      xorFrom tdePageHeaderSize (pageKeystream server.cipher entry.key handed.block.tag)
        (pageSetChecksumCopy server.settings handed.image handed.block.tag.blockNum) := by
  simp [storedImage, encrypted, cached]

section Attached

variable (server : Server) (cache : TdeKeyCache)

abbrev replayHanded (files : RelationFiles) (log : List HandedImage) : RelationFiles :=
  replay HandedImage.block (storedImage server cache) files log

theorem replay_handed_cons (files : RelationFiles) (handed : HandedImage) (log : List HandedImage) :
    replayHanded server cache files (handed :: log) = replayHanded server cache
        (smgrwrite files handed.block (storedImage server cache handed)) log := rfl

theorem replay_handed_append (files : RelationFiles) (first second : List HandedImage) :
    replayHanded server cache files (first ++ second) =
      replayHanded server cache (replayHanded server cache files first) second :=
  replay_append HandedImage.block (storedImage server cache) files first second

section

variable (files : RelationFiles)

include files

theorem flush_buffer_replay (tag : BufferTag) (bufBlock : Page)
    (enabled : server.tdeEnabled = true) (attached : server.shmem = some cache) :
    flushBuffer server files tag bufBlock =
      .ok (replayHanded server cache files (WriteOp.flushBuffer tag bufBlock).handed) := by
  simp only [WriteOp.handed, replay_handed_cons]
  unfold flushBuffer flushImage
  rw [if_pos enabled, attached]
  cases cached : cache.find tag.spcOid with
  | none => simp [tdeKeycacheLookup, cached, storedImage, Except.map, replay]
  | some entry =>
    simp [tdeKeycacheLookup, cached, tde_encrypt_page_cached server.cipher cached,
      storedImage, Except.map, replay]

theorem write_local_buffer_files (path : WritePath) (unencrypted : path ≠ .flushBuffer)
    (myProcNumber : Nat) (desc : LocalBufferDesc) :
    (writeLocalBuffer server.settings files myProcNumber desc).1 =
      smgrwrite files (handedLocal path myProcNumber desc).block
        (storedImage server cache (handedLocal path myProcNumber desc)) := by
  rw [stored_image_plain server cache _ unencrypted]
  rfl

theorem get_local_victim_buffer_replay (myProcNumber : Nat) (victim : LocalBufferDesc) :
    (getLocalVictimBuffer server.settings files myProcNumber victim).1 =
      replayHanded server cache files
        (WriteOp.getLocalVictimBuffer myProcNumber victim).handed := by
  simp only [getLocalVictimBuffer, WriteOp.handed]
  by_cases dirty : victim.dirty = true
  · rw [if_pos dirty, if_pos dirty]
    exact write_local_buffer_files server cache files .getLocalVictimBuffer (by decide)
      myProcNumber victim
  · rw [if_neg dirty, if_neg dirty]
    rfl

theorem flush_relation_buffers_replay (myProcNumber : Nat) (locator : RelFileLocator)
    (buffers : List LocalBufferDesc) :
    (flushRelationBuffers server.settings myProcNumber locator files buffers).1 =
      replayHanded server cache files
        (WriteOp.flushRelationBuffers myProcNumber locator buffers).handed := by
  simp only [WriteOp.handed]
  induction buffers generalizing files with
  | nil => rfl
  | cons desc rest ih =>
    simp only [flushRelationBuffers, List.filter_cons]
    by_cases needed : desc.needsFlush locator = true
    · rw [if_pos needed, if_pos needed, List.map_cons, replay_handed_cons, ← ih]
      rw [write_local_buffer_files server cache files .flushRelationBuffers (by decide)]
    · rw [if_neg needed, if_neg needed]
      exact ih files

variable (bulkstate : BulkWriteState)

theorem extend_with_zeroes_replay (relsize blkno : Nat) :
    extendWithZeroes bulkstate files relsize blkno =
      replayHanded server cache files (handedZeroes bulkstate relsize blkno) := by
  unfold extendWithZeroes handedZeroes
  generalize List.range' relsize (blkno - relsize) = fills
  induction fills generalizing files with
  | nil => rfl
  | cons fill rest ih =>
    rw [List.foldl_cons, ih]
    rfl

theorem write_pending_replay (relsize : Nat) (pendingWrites : List PendingWrite) :
    (writePending server.settings bulkstate files relsize pendingWrites).1 =
      replayHanded server cache files (handedPending bulkstate relsize pendingWrites) := by
  induction pendingWrites generalizing files relsize with
  | nil => rfl
  | cons write rest ih =>
    unfold writePending handedPending
    split_ifs
    · rw [ih, replay_handed_append, extend_with_zeroes_replay server cache]
      rfl
    · rw [ih]
      rfl

theorem apply_write_replay (op : WriteOp) (enabled : server.tdeEnabled = true)
    (attached : server.shmem = some cache) :
    applyWrite server files op = .ok (replayHanded server cache files op.handed) := by
  cases op with
  | flushBuffer tag bufBlock =>
    exact flush_buffer_replay server cache files tag bufBlock enabled attached
  | getLocalVictimBuffer myProcNumber victim =>
    exact congrArg Except.ok (get_local_victim_buffer_replay server cache files _ _)
  | flushRelationBuffers myProcNumber locator buffers =>
    exact congrArg Except.ok (flush_relation_buffers_replay server cache files _ _ _)
  | smgrBulkFlush bulkstate recptr =>
    exact congrArg Except.ok (write_pending_replay server cache files bulkstate _ _)

theorem run_writes_replay (ops : List WriteOp) (enabled : server.tdeEnabled = true)
    (attached : server.shmem = some cache) :
    runWrites server files ops = .ok (replayHanded server cache files (handedInRun ops)) := by
  induction ops generalizing files with
  | nil => rfl
  | cons op rest ih =>
    rw [runWrites, apply_write_replay server cache files op enabled attached]
    rw [handedInRun, List.flatMap_cons, replay_handed_append]
    exact ih _

end

end Attached

end FortressQL.Storage.WritePaths
