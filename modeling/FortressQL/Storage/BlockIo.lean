import FortressQL.Lib.WriteLog
import FortressQL.Tde.PageCrypt
import Mathlib.Data.List.Sort

/-!
# Write paths and read path of relation blocks

The places where page images leave for the storage manager, and `WaitReadBuffers`, where they come
back. Statistics, tracing, locking and the WAL flush are left out.
-/

namespace FortressQL.Storage.BlockIo

open Elog Storage.BufPage Storage.BlockAddress Tde.KeyCache Tde.PageCrypt

structure Server where
  settings : PageSettings
  cipher : PageCipher
  tdeEnabled : Bool
  shmem : Option TdeKeyCache

/-- Contents of the relation files; blocks past the end of a file are absent. -/
abbrev RelationFiles := FileBlock → Option Page

def smgrwrite (files : RelationFiles) (block : FileBlock) (page : Page) : RelationFiles :=
  Function.update files block (some page)

/-- The image `FlushBuffer` hands to `smgrwrite`: checksummed, and encrypted if there is a key. -/
def flushImage (server : Server) (tag : BufferTag) (bufBlock : Page) : Raises Page :=
  let bufToWrite := pageSetChecksumCopy server.settings bufBlock tag.blockNum
  if server.tdeEnabled then
    match tdeKeycacheLookup server.shmem tag.spcOid with
    | .error report => .error report
    | .ok none => .ok bufToWrite
    | .ok (some _) => tdeEncryptPage server.cipher server.shmem bufToWrite tag
  else .ok bufToWrite

/-- `FlushBuffer`; shared buffers belong to files without an owning backend. -/
def flushBuffer (server : Server) (files : RelationFiles) (tag : BufferTag) (bufBlock : Page) :
    Raises RelationFiles :=
  (flushImage server tag bufBlock).map (smgrwrite files { backend := none, tag := tag })

structure LocalBufferDesc where
  tag : BufferTag
  page : Page
  valid : Bool
  dirty : Bool

/-- The checksum is set in place and the page is written as it is. -/
def writeLocalBuffer (settings : PageSettings) (files : RelationFiles) (myProcNumber : Nat)
    (desc : LocalBufferDesc) : RelationFiles × LocalBufferDesc :=
  let localpage := pageSetChecksumInplace settings desc.page desc.tag.blockNum
  (smgrwrite files { backend := some myProcNumber, tag := desc.tag } localpage,
    { desc with page := localpage, dirty := false })

/-- `GetLocalVictimBuffer`, once the victim is chosen: written out if dirty, then
invalidated. -/
def getLocalVictimBuffer (settings : PageSettings) (files : RelationFiles) (myProcNumber : Nat)
    (victim : LocalBufferDesc) : RelationFiles × LocalBufferDesc :=
  let written :=
    if victim.dirty then writeLocalBuffer settings files myProcNumber victim
    else (files, victim)
  (written.1, { written.2 with valid := false })

/-- The test of the local branch of `FlushRelationBuffers`. -/
def LocalBufferDesc.needsFlush (desc : LocalBufferDesc) (locator : RelFileLocator) : Bool :=
  desc.tag.relFileLocator == locator && (desc.valid && desc.dirty)

/-- The local branch of `FlushRelationBuffers`: one pass over all local buffers. -/
def flushRelationBuffers (settings : PageSettings) (myProcNumber : Nat)
    (locator : RelFileLocator) :
    RelationFiles → List LocalBufferDesc → RelationFiles × List LocalBufferDesc
  | files, [] => (files, [])
  | files, desc :: rest =>
    let written :=
      if desc.needsFlush locator then writeLocalBuffer settings files myProcNumber desc
      else (files, desc)
    let others := flushRelationBuffers settings myProcNumber locator written.1 rest
    (others.1, written.2 :: others.2)

structure PendingWrite where
  page : Page
  blkno : BlockNumber
  pageStd : Bool

def maxPendingWrites : Nat := 32

/-- `BulkWriteState`. The queue is flushed when it is full, so it never outgrows its
array. -/
structure BulkWriteState where
  backend : Option Nat
  locator : RelFileLocator
  forknum : ForkNumber
  useWal : Bool
  pendingWrites : List PendingWrite
  relsize : Nat
  bounded : pendingWrites.length ≤ maxPendingWrites

def BulkWriteState.block (bulkstate : BulkWriteState) (blkno : BlockNumber) : FileBlock :=
  { backend := bulkstate.backend
    tag := initBufferTag bulkstate.locator bulkstate.forknum blkno }

def sortPending (pendingWrites : List PendingWrite) : List PendingWrite :=
  pendingWrites.mergeSort fun left right => decide (left.blkno ≤ right.blkno)

/-- `log_newpages`. The queue fits into one WAL record. -/
def logNewpages (recptr : UInt64) (pendingWrites : List PendingWrite) : List PendingWrite :=
  pendingWrites.map fun write =>
    if pageIsNew write.page then write
    else { write with page := pageSetLsn write.page recptr }

/-- The queue when the write loop of `smgr_bulk_flush` starts. -/
def BulkWriteState.logged (bulkstate : BulkWriteState) (recptr : UInt64) : List PendingWrite :=
  let sorted := sortPending bulkstate.pendingWrites
  if bulkstate.useWal then logNewpages recptr sorted else sorted

/-- The inner loop of `smgr_bulk_flush`: zero pages up to the block to be written. -/
def extendWithZeroes (bulkstate : BulkWriteState) (files : RelationFiles) (relsize blkno : Nat) :
    RelationFiles :=
  (List.range' relsize (blkno - relsize)).foldl
    (fun current fill => smgrwrite current (bulkstate.block (UInt32.ofNat fill)) zeroPage) files

/-- The write loop of `smgr_bulk_flush`, with the relation size it carries along. -/
def writePending (settings : PageSettings) (bulkstate : BulkWriteState) :
    RelationFiles → Nat → List PendingWrite → RelationFiles × Nat
  | files, relsize, [] => (files, relsize)
  | files, relsize, write :: rest =>
    let page := pageSetChecksumInplace settings write.page write.blkno
    if relsize ≤ write.blkno.toNat then
      let extended := extendWithZeroes bulkstate files relsize write.blkno.toNat
      writePending settings bulkstate (smgrwrite extended (bulkstate.block write.blkno) page)
        (write.blkno.toNat + 1) rest
    else
      writePending settings bulkstate (smgrwrite files (bulkstate.block write.blkno) page)
        relsize rest

/-- `smgr_bulk_flush`; `recptr` is where `log_newpages` put its record. -/
def smgrBulkFlush (settings : PageSettings) (files : RelationFiles) (bulkstate : BulkWriteState)
    (recptr : UInt64) : RelationFiles × BulkWriteState :=
  let written := writePending settings bulkstate files bulkstate.relsize
    (bulkstate.logged recptr)
  (written.1, { bulkstate with
    pendingWrites := [], relsize := written.2, bounded := Nat.zero_le _ })

/-- What `WaitReadBuffersCanStartIO` answers for a buffer, with and without waiting. -/
structure ReadBuffer where
  canStartIO : Bool
  canStartIONowait : Bool

structure ReadBuffersOperation where
  backend : Option Nat
  locator : RelFileLocator
  forknum : ForkNumber
  blocknum : BlockNumber
  buffers : List ReadBuffer
  zeroOnError : Bool

def ReadBuffersOperation.tag (operation : ReadBuffersOperation) (index : Nat) : BufferTag :=
  initBufferTag operation.locator operation.forknum
    (operation.blocknum + UInt32.ofNat index)

def ReadBuffersOperation.block (operation : ReadBuffersOperation) (index : Nat) : FileBlock :=
  { backend := operation.backend, tag := operation.tag index }

def ReadBuffersOperation.relpath (operation : ReadBuffersOperation) : String :=
  getRelationPath operation.locator operation.backend operation.forknum

def readPastEnd (operation : ReadBuffersOperation) (first count present : Nat) : ErrorReport :=
  let firstBlock := (operation.tag first).blockNum
  let lastBlock := (operation.tag (first + count - 1)).blockNum
  { elevel := .error
    errcode := .dataCorrupted
    errmsg := s!"could not read blocks {firstBlock}..{lastBlock} in file " ++
      s!"\"{operation.relpath}\": read only {present * blcksz} of {count * blcksz} bytes" }

/-- `smgrreadv`: past the end of the file it reads zeroes under `zero_damaged_pages` or fails. -/
def smgrreadv (settings : PageSettings) (files : RelationFiles)
    (operation : ReadBuffersOperation) (first count : Nat) : Raises (List Page) :=
  let blocks := (List.range' first count).map operation.block
  if blocks.all (fun block => (files block).isSome) || settings.zeroDamagedPages then
    .ok (blocks.map fun block => (files block).getD zeroPage)
  else
    .error (readPastEnd operation first count
      (blocks.takeWhile fun block => (files block).isSome).length)

def invalidPage (operation : ReadBuffersOperation) (index : Nat) : ErrorReport :=
  { elevel := .error
    errcode := .dataCorrupted
    errmsg := s!"invalid page in block {(operation.tag index).blockNum} of relation " ++
      operation.relpath }

/-- The decryption step of `WaitReadBuffers`: it looks at the stored image to decide. -/
def decryptRead (server : Server) (tag : BufferTag) (bufBlock : Page) : Raises Page :=
  if server.tdeEnabled && !pageIsNew bufBlock then
    match tdeKeycacheLookup server.shmem tag.spcOid with
    | .error report => .error report
    | .ok none => .ok bufBlock
    | .ok (some _) => .ok (tdeDecryptPage server.cipher server.shmem bufBlock tag)
  else .ok bufBlock

/-- The per-block tail of `WaitReadBuffers`: decrypt, verify, and zero or complain. -/
def completeRead (server : Server) (operation : ReadBuffersOperation) (index : Nat)
    (bufBlock : Page) : Raises Page :=
  match decryptRead server (operation.tag index) bufBlock with
  | .error report => .error report
  | .ok page =>
    if pageIsVerifiedExtended server.settings page (operation.tag index).blockNum then .ok page
    else if operation.zeroOnError || server.settings.zeroDamagedPages then .ok zeroPage
    else .error (invalidPage operation index)

def completeReads (server : Server) (operation : ReadBuffersOperation) :
    Nat → List Page → Raises (List Page)
  | _, [] => .ok []
  | index, bufBlock :: rest =>
    match completeRead server operation index bufBlock with
    | .error report => .error report
    | .ok page => (completeReads server operation (index + 1) rest).map (page :: ·)

def readGroup (server : Server) (files : RelationFiles) (operation : ReadBuffersOperation)
    (first count : Nat) : Raises (List Page) :=
  match smgrreadv server.settings files operation first count with
  | .error report => .error report
  | .ok pages => completeReads server operation first pages

/-- `io_buffers_len`: a startable buffer and the startable neighbours behind it. -/
def ioBuffersLen (rest : List ReadBuffer) : Nat :=
  (rest.takeWhile ReadBuffer.canStartIONowait).length + 1

/-- The main loop of `WaitReadBuffers`. A startable buffer is read with its startable neighbours. -/
def readLoop (server : Server) (files : RelationFiles) (operation : ReadBuffersOperation) :
    Nat → List ReadBuffer → Raises (List (Option Page))
  | _, [] => .ok []
  | index, buffer :: rest =>
    if buffer.canStartIO then
      match readGroup server files operation index (ioBuffersLen rest) with
      | .error report => .error report
      | .ok pages =>
        (readLoop server files operation (index + ioBuffersLen rest)
          (rest.dropWhile ReadBuffer.canStartIONowait)).map (pages.map some ++ ·)
    else (readLoop server files operation (index + 1) rest).map (none :: ·)
termination_by _ buffers => buffers.length
decreasing_by
  · have shorter := (List.dropWhile_suffix (l := rest) ReadBuffer.canStartIONowait).length_le
    simp only [List.length_cons]
    omega
  · simp

/-- `WaitReadBuffers`: for each buffer the page this call delivers, `none` where it left
the read to another backend. -/
def waitReadBuffers (server : Server) (files : RelationFiles)
    (operation : ReadBuffersOperation) : Raises (List (Option Page)) :=
  readLoop server files operation 0 operation.buffers

end FortressQL.Storage.BlockIo
