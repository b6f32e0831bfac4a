import FortressQL.Lib.Runs
import FortressQL.Storage.RoundTrip

/-!
# Copying a fork

`RelationCopyStorage` with the bulk writer under it. The copy moves the stored bytes of a block,
below the place where pages are encrypted and decrypted.
-/

namespace FortressQL.Storage.RelationCopy

open Function List Elog Lib.Runs Storage.BlockAddress Storage.BlockIo Storage.BufPage
open Storage.RoundTrip

structure SmgrRelation where
  locator : RelFileLocator
  backend : Option Nat

def SmgrRelation.block (smgr : SmgrRelation) (forkNum : ForkNumber) (blkno : BlockNumber) :
    FileBlock :=
  { backend := smgr.backend, tag := initBufferTag smgr.locator forkNum blkno }

inductive RelPersistence where
  | permanent
  | unlogged
  | temp
  deriving DecidableEq

/-- A bulk writer between two calls: a full queue has been flushed. -/
structure BulkWriter extends BulkWriteState where
  room : pendingWrites.length < maxPendingWrites

def smgrBulkStartSmgr (smgr : SmgrRelation) (forknum : ForkNumber) (useWal : Bool)
    (relsize : BlockNumber) : BulkWriter :=
  { backend := smgr.backend
    locator := smgr.locator
    forknum := forknum
    useWal := useWal
    pendingWrites := []
    relsize := relsize.toNat
    bounded := by decide
    room := by decide }

def BulkWriter.queue (bulkstate : BulkWriter) (write : PendingWrite) : BulkWriteState :=
  { bulkstate.toBulkWriteState with
    pendingWrites := bulkstate.pendingWrites ++ [write]
    bounded := by
      rw [List.length_append]
      exact bulkstate.room }

/-- `smgr_bulk_write`; `recptr` is where the record goes if this write fills the queue. -/
def smgrBulkWrite (settings : PageSettings) (files : RelationFiles) (bulkstate : BulkWriter)
    (recptr : UInt64) (blocknum : BlockNumber) (buf : Page) (pageStd : Bool) :
    RelationFiles × BulkWriter :=
  let queued := bulkstate.queue { page := buf, blkno := blocknum, pageStd := pageStd }
  if full : queued.pendingWrites.length = maxPendingWrites then
    let flushed := smgrBulkFlush settings files queued recptr
    (flushed.1, { flushed.2 with room := Nat.zero_lt_succ _ })
  else (files, { queued with room := Nat.lt_of_le_of_ne queued.bounded full })

/-- `smgr_bulk_finish`. The syncs it registers do not touch the blocks. -/
def smgrBulkFinish (settings : PageSettings) (files : RelationFiles) (bulkstate : BulkWriter)
    (recptr : UInt64) : RelationFiles :=
  (smgrBulkFlush settings files bulkstate.toBulkWriteState recptr).1

/-- Whether WAL is needed, the sizes of the two forks, and for each flush the position of its
record. -/
structure CopyCalls where
  xlogIsNeeded : Bool
  srcBlocks : BlockNumber
  dstBlocks : BlockNumber
  recptr : Nat → UInt64

def useWal (calls : CopyCalls) (forkNum : ForkNumber) (relpersistence : RelPersistence) : Bool :=
  let copyingInitfork := relpersistence == .unlogged && forkNum == .initForknum
  calls.xlogIsNeeded && (relpersistence == .permanent || copyingInitfork)

def smgrread (settings : PageSettings) (files : RelationFiles) (block : FileBlock) : Raises Page :=
  (smgrreadv settings files (readOne block false) 0 1).map fun pages => pages.headD zeroPage

/-- Every thirty-second write flushes, and the last flush takes what is left. -/
def CopyCalls.recptrOf (calls : CopyCalls) (blkno : Nat) : UInt64 :=
  calls.recptr (blkno / maxPendingWrites)

def copyBlock (settings : PageSettings) (calls : CopyCalls) (src : SmgrRelation)
    (forkNum : ForkNumber) (state : RelationFiles × BulkWriter) (blkno : BlockNumber) :
    Raises (RelationFiles × BulkWriter) := do
  let buf ← smgrread settings state.1 (src.block forkNum blkno)
  ensure (pageIsVerifiedExtended settings buf blkno = true)
    (invalidPage (readOne (src.block forkNum blkno) false) 0)
  return smgrBulkWrite settings state.1 state.2 (calls.recptrOf blkno.toNat) blkno buf false

/-- `RelationCopyStorage`, when no cancel request arrives. -/
def relationCopyStorage (settings : PageSettings) (calls : CopyCalls) (files : RelationFiles)
    (src dst : SmgrRelation) (forkNum : ForkNumber) (relpersistence : RelPersistence) :
    Raises RelationFiles := do
  let bulkstate := smgrBulkStartSmgr dst forkNum (useWal calls forkNum relpersistence)
    calls.dstBlocks
  let nblocks := calls.srcBlocks.toNat
  let (copied, bulkstate) ← runFallible (copyBlock settings calls src forkNum) (files, bulkstate)
    ((List.range nblocks).map UInt32.ofNat)
  return smgrBulkFinish settings copied bulkstate (calls.recptrOf nblocks)

section Flush

variable (settings : PageSettings) (bulkstate : BulkWriteState)

def loggedPage (useWal : Bool) (recptr : UInt64) (page : Page) : Page :=
  if useWal && !pageIsNew page then pageSetLsn page recptr else page

theorem logged_pages (recptr : UInt64) :
    bulkstate.logged recptr = (sortPending bulkstate.pendingWrites).map fun write =>
      { write with page := loggedPage bulkstate.useWal recptr write.page } := by
  cases wal : bulkstate.useWal with
  | false => simp [BulkWriteState.logged, wal, loggedPage]
  | true =>
    simp only [BulkWriteState.logged, wal, loggedPage]
    apply map_congr_left
    intro write _
    cases fresh : pageIsNew write.page <;> simp

variable {write : PendingWrite} {block : FileBlock}

theorem mem_logged {recptr : UInt64} (queued : write ∈ bulkstate.pendingWrites) :
    { write with page := loggedPage bulkstate.useWal recptr write.page } ∈
      bulkstate.logged recptr := by
  rw [logged_pages]
  exact mem_map_of_mem ((mergeSort_perm _ _).mem_iff.mpr queued)

theorem logged_blknos (recptr : UInt64) :
    ((bulkstate.logged recptr).map PendingWrite.blkno).Perm
      (bulkstate.pendingWrites.map PendingWrite.blkno) := by
  rw [logged_pages, map_map]
  exact (mergeSort_perm _ _).map _

theorem bulk_block_injective : Function.Injective bulkstate.block := by
  intro left right same
  exact congrArg (fun block : FileBlock => block.tag.blockNum) same

variable (files : RelationFiles)

theorem extend_with_zeroes_frame (relsize blkno : Nat)
    (apart : ∀ fill, relsize ≤ fill → fill < blkno → bulkstate.block (UInt32.ofNat fill) ≠ block) :
    extendWithZeroes bulkstate files relsize blkno block = files block := by
  have members : ∀ fill ∈ range' relsize (blkno - relsize),
      bulkstate.block (UInt32.ofNat fill) ≠ block := by
    intro fill member
    rw [mem_range'_1] at member
    exact apart fill member.1 (by omega)
  unfold extendWithZeroes
  generalize range' relsize (blkno - relsize) = fills at members
  induction fills generalizing files with
  | nil => rfl
  | cons fill rest ih =>
    rw [foldl_cons, ih _ fun other member => members other (mem_cons_of_mem _ member)]
    exact update_of_ne (members fill mem_cons_self).symm _ _

theorem write_pending_frame (relsize : Nat) (pending : List PendingWrite)
    (unqueued : ∀ write ∈ pending, bulkstate.block write.blkno ≠ block)
    (inside : ∀ fill, relsize ≤ fill → fill < 2 ^ 32 →
      bulkstate.block (UInt32.ofNat fill) ≠ block) :
    (writePending settings bulkstate files relsize pending).1 block = files block := by
  induction pending generalizing files relsize with
  | nil => rfl
  | cons write rest ih =>
    have others := fun other member => unqueued other (mem_cons_of_mem _ member)
    have here := (unqueued write mem_cons_self).symm
    have bound := write.blkno.toNat_lt
    unfold writePending
    split_ifs with beyond
    · rw [ih _ _ others fun fill above below => inside fill (by omega) below]
      rw [smgrwrite, update_of_ne here]
      exact extend_with_zeroes_frame bulkstate files relsize _
        fun fill above below => inside fill above (by omega)
    · rw [ih _ _ others inside, smgrwrite, update_of_ne here]

theorem write_pending_relsize (relsize : Nat) (pending : List PendingWrite) :
    relsize ≤ (writePending settings bulkstate files relsize pending).2 ∧
      ∀ write ∈ pending,
        write.blkno.toNat < (writePending settings bulkstate files relsize pending).2 := by
  induction pending generalizing files relsize with
  | nil => exact ⟨Nat.le_refl _, by simp⟩
  | cons write rest ih =>
    unfold writePending
    split_ifs with beyond
    · obtain ⟨kept, others⟩ := ih _ (write.blkno.toNat + 1)
      refine ⟨Nat.le_trans (Nat.le_succ_of_le beyond) kept, ?_⟩
      rintro other (_ | ⟨_, member⟩)
      · exact kept
      · exact others other member
    · obtain ⟨kept, others⟩ := ih (smgrwrite files (bulkstate.block write.blkno)
        (pageSetChecksumInplace settings write.page write.blkno)) relsize
      refine ⟨kept, ?_⟩
      rintro other (_ | ⟨_, member⟩)
      · exact Nat.lt_of_lt_of_le (Nat.lt_of_not_le beyond) kept
      · exact others other member

theorem write_pending_written (relsize : Nat) (pending : List PendingWrite)
    (distinct : (pending.map PendingWrite.blkno).Nodup) (member : write ∈ pending) :
    (writePending settings bulkstate files relsize pending).1 (bulkstate.block write.blkno) =
      some (pageSetChecksumInplace settings write.page write.blkno) := by
  induction pending generalizing files relsize with
  | nil => cases member
  | cons first rest ih =>
    rw [map_cons, nodup_cons] at distinct
    unfold writePending
    rcases mem_cons.mp member with rfl | later
    · have unqueued : ∀ other ∈ rest, bulkstate.block other.blkno ≠
          bulkstate.block write.blkno := by
        intro other found same
        rw [bulk_block_injective bulkstate same |>.symm] at distinct
        exact distinct.1 (mem_map_of_mem found)
      have beneath : ∀ {size : Nat}, write.blkno.toNat < size → ∀ fill, size ≤ fill →
          fill < 2 ^ 32 →
          bulkstate.block (UInt32.ofNat fill) ≠ bulkstate.block write.blkno := by
        intro size inside fill above below same
        have number := congrArg UInt32.toNat (bulk_block_injective bulkstate same)
        rw [UInt32.toNat_ofNat'] at number
        omega
      split_ifs with beyond
      · rw [write_pending_frame settings bulkstate _ _ rest unqueued (beneath (Nat.lt_succ_self _))]
        exact update_self _ _ _
      · rw [write_pending_frame settings bulkstate _ _ rest unqueued (beneath (by omega))]
        exact update_self _ _ _
    · split_ifs
      · exact ih _ _ distinct.2 later
      · exact ih _ _ distinct.2 later

def flushedPage (recptr : UInt64) (write : PendingWrite) : Page :=
  pageSetChecksumInplace settings (loggedPage bulkstate.useWal recptr write.page) write.blkno

theorem bulk_flush_written (recptr : UInt64)
    (distinct : (bulkstate.pendingWrites.map PendingWrite.blkno).Nodup)
    (queued : write ∈ bulkstate.pendingWrites) :
    (smgrBulkFlush settings files bulkstate recptr).1 (bulkstate.block write.blkno) =
      some (flushedPage settings bulkstate recptr write) :=
  write_pending_written settings bulkstate files _ _
    ((logged_blknos bulkstate recptr).nodup_iff.mpr distinct) (mem_logged bulkstate queued)

theorem bulk_flush_frame (recptr : UInt64)
    (unqueued : ∀ write ∈ bulkstate.pendingWrites, bulkstate.block write.blkno ≠ block)
    (inside : ∀ fill, bulkstate.relsize ≤ fill → fill < 2 ^ 32 →
      bulkstate.block (UInt32.ofNat fill) ≠ block) :
    (smgrBulkFlush settings files bulkstate recptr).1 block = files block := by
  apply write_pending_frame settings bulkstate files _ _ _ inside
  intro write logged
  rw [logged_pages] at logged
  obtain ⟨original, sorted, rfl⟩ := mem_map.mp logged
  exact unqueued original ((mergeSort_perm _ _).mem_iff.mp sorted)

theorem bulk_flush_relsize (recptr : UInt64) :
    bulkstate.relsize ≤ (smgrBulkFlush settings files bulkstate recptr).2.relsize ∧
      ∀ write ∈ bulkstate.pendingWrites,
        write.blkno.toNat < (smgrBulkFlush settings files bulkstate recptr).2.relsize := by
  obtain ⟨kept, covered⟩ := write_pending_relsize settings bulkstate files bulkstate.relsize
    (bulkstate.logged recptr)
  refine ⟨kept, fun write queued => ?_⟩
  exact covered { write with page := loggedPage bulkstate.useWal recptr write.page }
    (mem_logged bulkstate queued)

end Flush

section Loop

def storedBytes (files : RelationFiles) (smgr : SmgrRelation) (forkNum : ForkNumber)
    (blkno : BlockNumber) : Page :=
  (files (smgr.block forkNum blkno)).getD zeroPage

/-- The blocks that full queues have taken to the file. -/
def flushedBlocks (count : Nat) : Nat := count / maxPendingWrites * maxPendingWrites

/-- A copy to another relation, with the blocks it finds. -/
structure CopyJob where
  settings : PageSettings
  calls : CopyCalls
  files : RelationFiles
  src : SmgrRelation
  dst : SmgrRelation
  forkNum : ForkNumber
  wal : Bool
  apart : src.locator ≠ dst.locator

namespace CopyJob

variable (job : CopyJob)

def target (blkno : Nat) : FileBlock := job.dst.block job.forkNum (UInt32.ofNat blkno)

def sourcePage (blkno : Nat) : Page :=
  storedBytes job.files job.src job.forkNum (UInt32.ofNat blkno)

def sourceWrite (blkno : Nat) : PendingWrite :=
  { page := job.sourcePage blkno, blkno := UInt32.ofNat blkno, pageStd := false }

def copiedPage (blkno : Nat) : Page :=
  pageSetChecksumInplace job.settings
    (loggedPage job.wal (job.calls.recptrOf blkno) (job.sourcePage blkno)) (UInt32.ofNat blkno)

def Present (blkno : Nat) : Prop :=
  (job.files (job.src.block job.forkNum (UInt32.ofNat blkno))).isSome

def Verified (blkno : Nat) : Prop :=
  pageIsVerifiedExtended job.settings (job.sourcePage blkno) (UInt32.ofNat blkno) = true

structure CopiedUpTo (count : Nat) (state : RelationFiles × BulkWriter) : Prop where
  target : state.2.block = job.dst.block job.forkNum
  logs : state.2.useWal = job.wal
  elsewhere : ∀ block, (∀ blkno, job.dst.block job.forkNum blkno ≠ block) →
    state.1 block = job.files block
  queue : state.2.pendingWrites =
    (List.range' (flushedBlocks count) (count % maxPendingWrites)).map job.sourceWrite
  sized : flushedBlocks count ≤ state.2.relsize
  written : ∀ blkno < flushedBlocks count, state.1 (job.target blkno) = some (job.copiedPage blkno)

variable {job}

theorem target_injective {left right : Nat} (leftBound : left < 2 ^ 32)
    (rightBound : right < 2 ^ 32) (same : job.target left = job.target right) : left = right := by
  have numbers := congrArg (fun block : FileBlock => block.tag.blockNum.toNat) same
  simpa only [target, SmgrRelation.block, initBufferTag, UInt32.toNat_ofNat',
    Nat.mod_eq_of_lt leftBound, Nat.mod_eq_of_lt rightBound] using numbers

section Batch

variable {bulkstate : BulkWriteState} {current : RelationFiles} {base length : Nat}
  {recptr : UInt64} (target : bulkstate.block = job.dst.block job.forkNum)

include target

theorem flush_batch_elsewhere {block : FileBlock}
    (other : ∀ blkno, job.dst.block job.forkNum blkno ≠ block) :
    (smgrBulkFlush job.settings current bulkstate recptr).1 block = current block := by
  apply bulk_flush_frame
  · intro write _
    rw [target]
    exact other write.blkno
  · intro fill _ _
    rw [target]
    exact other _

variable (queue : bulkstate.pendingWrites = (range' base length).map job.sourceWrite)
  (sized : base ≤ bulkstate.relsize) (small : base + length ≤ 2 ^ 32)

include queue sized small

theorem flush_batch_written (logs : bulkstate.useWal = job.wal)
    (covers : ∀ blkno, base ≤ blkno → blkno < base + length → job.calls.recptrOf blkno = recptr)
    (written : ∀ blkno < base, current (job.target blkno) = some (job.copiedPage blkno)) :
    ∀ blkno < base + length, (smgrBulkFlush job.settings current bulkstate recptr).1
      (job.target blkno) = some (job.copiedPage blkno) := by
  have distinct : (bulkstate.pendingWrites.map PendingWrite.blkno).Nodup := by
    rw [queue, map_map]
    apply List.Nodup.map_on _ (nodup_range' ..)
    intro left leftMember right rightMember same
    rw [mem_range'_1] at leftMember rightMember
    exact target_injective (by omega) (by omega) (congrArg (job.dst.block job.forkNum) same)
  intro blkno bound
  rcases lt_or_ge blkno base with earlier | here
  · rw [bulk_flush_frame, written blkno earlier]
    · intro write queued same
      rw [queue] at queued
      obtain ⟨other, member, rfl⟩ := mem_map.mp queued
      rw [mem_range'_1] at member
      rw [target] at same
      have := target_injective (by omega) (by omega) same
      omega
    · intro fill above below same
      rw [target] at same
      have := target_injective below (by omega) same
      omega
  · have queued : job.sourceWrite blkno ∈ bulkstate.pendingWrites := by
      rw [queue]
      exact mem_map_of_mem (mem_range'_1.mpr ⟨here, bound⟩)
    have flushed := bulk_flush_written job.settings bulkstate current recptr distinct queued
    rw [target] at flushed
    rw [copiedPage, covers blkno here bound, ← logs]
    exact flushed

omit target in
theorem flush_batch_relsize :
    base + length ≤ (smgrBulkFlush job.settings current bulkstate recptr).2.relsize := by
  obtain ⟨kept, covered⟩ := bulk_flush_relsize job.settings bulkstate current recptr
  cases length with
  | zero => exact sized.trans kept
  | succ length =>
    have last : job.sourceWrite (base + length) ∈ bulkstate.pendingWrites := by
      rw [queue]
      exact mem_map_of_mem (mem_range'_1.mpr (by omega))
    have beyond := covered _ last
    rwa [sourceWrite, UInt32.toNat_ofNat', Nat.mod_eq_of_lt (by omega)] at beyond

end Batch

variable {count : Nat} {state : RelationFiles × BulkWriter}

theorem smgrread_source (copied : job.CopiedUpTo count state) {blkno : Nat}
    (present : job.Present blkno) :
    smgrread job.settings state.1 (job.src.block job.forkNum (UInt32.ofNat blkno)) =
      .ok (job.sourcePage blkno) := by
  obtain ⟨page, found⟩ := Option.isSome_iff_exists.mp present
  have unchanged : state.1 (job.src.block job.forkNum (UInt32.ofNat blkno)) = some page := by
    rw [copied.elsewhere, found]
    intro other same
    exact job.apart (congrArg (fun block : FileBlock => block.tag.relFileLocator) same).symm
  simp [smgrread, sourcePage, storedBytes, smgrreadv, read_one_block, unchanged, found, Except.map]

theorem flushed_and_queued (count : Nat) :
    flushedBlocks count + count % maxPendingWrites = count := Nat.div_add_mod' _ _

/-- The blocks of one queue are logged together. -/
theorem recptr_of_batch {blkno : Nat} (above : flushedBlocks count ≤ blkno)
    (below : blkno ≤ count) : job.calls.recptrOf blkno = job.calls.recptrOf count := by
  have width : maxPendingWrites = 32 := rfl
  unfold flushedBlocks at above
  unfold CopyCalls.recptrOf
  rw [width] at above ⊢
  rw [show blkno / 32 = count / 32 by omega]

theorem bulk_write_copied (small : count < 2 ^ 32) (copied : job.CopiedUpTo count state) :
    job.CopiedUpTo (count + 1) (smgrBulkWrite job.settings state.1 state.2
      (job.calls.recptrOf count) (UInt32.ofNat count) (job.sourcePage count) false) := by
  have width : maxPendingWrites = 32 := rfl
  have last := flushed_and_queued count
  have queue : (state.2.queue (job.sourceWrite count)).pendingWrites =
      (range' (flushedBlocks count) (count % maxPendingWrites + 1)).map job.sourceWrite := by
    rw [List.range'_concat, map_append, map_singleton, one_mul, last, ← copied.queue]
    rfl
  have target : (state.2.queue (job.sourceWrite count)).block = job.dst.block job.forkNum :=
    copied.target
  have length : (state.2.queue (job.sourceWrite count)).pendingWrites.length =
      count % maxPendingWrites + 1 := by
    rw [queue, length_map, length_range']
  unfold smgrBulkWrite
  dsimp only
  split_ifs with full
  · have batch := length.symm.trans full
    have next : flushedBlocks (count + 1) =
        flushedBlocks count + (count % maxPendingWrites + 1) := by
      unfold flushedBlocks
      rw [width] at batch ⊢
      omega
    have rest : (count + 1) % maxPendingWrites = 0 := by
      rw [width] at batch ⊢
      omega
    constructor
    · exact copied.target
    · exact copied.logs
    · intro block other
      rw [← copied.elsewhere block other]
      exact flush_batch_elsewhere target other
    · rw [rest]
      rfl
    · rw [next]
      exact flush_batch_relsize queue copied.sized (by omega)
    · rw [next]
      exact flush_batch_written target queue copied.sized (by omega) copied.logs
        (fun blkno above below => recptr_of_batch above (by omega)) copied.written
  · have partly : count % maxPendingWrites + 1 ≠ maxPendingWrites := by
      rw [← length]
      exact full
    have next : flushedBlocks (count + 1) = flushedBlocks count ∧
        (count + 1) % maxPendingWrites = count % maxPendingWrites + 1 := by
      unfold flushedBlocks
      rw [width] at partly ⊢
      omega
    constructor
    · exact copied.target
    · exact copied.logs
    · exact copied.elsewhere
    · rw [next.1, next.2]
      exact queue
    · rw [next.1]
      exact copied.sized
    · rw [next.1]
      exact copied.written

theorem copy_block_returns_iff (next : RelationFiles × BulkWriter) (small : count < 2 ^ 32)
    (present : job.Present count) (copied : job.CopiedUpTo count state) :
    copyBlock job.settings job.calls job.src job.forkNum state (UInt32.ofNat count) = .ok next ↔
      job.Verified count ∧ next = smgrBulkWrite job.settings state.1 state.2
        (job.calls.recptrOf count) (UInt32.ofNat count) (job.sourcePage count) false := by
  have number : (UInt32.ofNat count).toNat = count := by
    rw [UInt32.toNat_ofNat', Nat.mod_eq_of_lt small]
  rw [copyBlock, smgrread_source copied present, ok_then, sequence_returns, number, Verified]
  constructor
  · rintro ⟨_, verified, done⟩
    exact ⟨ensure_returns.mp verified, (Except.ok.inj done).symm⟩
  · rintro ⟨verified, rfl⟩
    exact ⟨(), ensure_returns.mpr verified, rfl⟩

def copyBlocks (job : CopyJob) (state : RelationFiles × BulkWriter) (first count : Nat) :
    Raises (RelationFiles × BulkWriter) :=
  runFallible (copyBlock job.settings job.calls job.src job.forkNum) state
    ((List.range' first count).map UInt32.ofNat)

theorem copy_loop_returns_iff {remaining : Nat} (small : count + remaining ≤ 2 ^ 32)
    (present : ∀ blkno, count ≤ blkno → blkno < count + remaining → job.Present blkno)
    (copied : job.CopiedUpTo count state) :
    ((∃ final, job.copyBlocks state count remaining = .ok final) ↔
        ∀ blkno, count ≤ blkno → blkno < count + remaining → job.Verified blkno) ∧
      ∀ final, job.copyBlocks state count remaining = .ok final →
        job.CopiedUpTo (count + remaining) final := by
  induction remaining generalizing count state with
  | zero =>
    refine ⟨iff_of_true ⟨state, rfl⟩ fun blkno _ _ => by omega, ?_⟩
    intro final finished
    cases finished
    exact copied
  | succ remaining ih =>
    have bound : count < 2 ^ 32 := by omega
    have returns := fun next => copy_block_returns_iff next bound
      (present count le_rfl (by omega)) copied
    rw [copyBlocks, range'_succ, map_cons]
    cases stepped : copyBlock job.settings job.calls job.src job.forkNum state
        (UInt32.ofNat count) with
    | error report =>
      simp only [runFallible, stepped]
      refine ⟨iff_of_false (by simp) ?_, by simp⟩
      intro verified
      have ended := (returns _).mpr ⟨verified count le_rfl (by omega), rfl⟩
      rw [stepped] at ended
      cases ended
    | ok next =>
      obtain ⟨verified, rfl⟩ := (returns next).mp stepped
      have later := @ih (count + 1) _ (by omega)
        (fun blkno above below => present blkno (by omega) (by omega))
        (bulk_write_copied bound copied)
      simp only [runFallible, stepped]
      rw [add_assoc, add_comm 1] at later
      refine ⟨later.1.trans ⟨fun others blkno above below => ?_,
        fun all blkno above below => all blkno (by omega) below⟩, later.2⟩
      rcases lt_or_ge count blkno with beyond | reached
      · exact others blkno beyond below
      · obtain rfl : count = blkno := by omega
        exact verified

theorem copy_returns_iff {relpersistence : RelPersistence}
    (logs : job.wal = useWal job.calls job.forkNum relpersistence)
    (present : ∀ blkno < job.calls.srcBlocks.toNat, job.Present blkno) :
    ((∃ after, relationCopyStorage job.settings job.calls job.files job.src job.dst job.forkNum
        relpersistence = .ok after) ↔ ∀ blkno < job.calls.srcBlocks.toNat, job.Verified blkno) ∧
    ∀ after, relationCopyStorage job.settings job.calls job.files job.src job.dst job.forkNum
        relpersistence = .ok after → ∀ blkno < job.calls.srcBlocks.toNat,
      after (job.target blkno) = some (job.copiedPage blkno) := by
  have size := job.calls.srcBlocks.toNat_lt
  have whole := flushed_and_queued job.calls.srcBlocks.toNat
  have started : job.CopiedUpTo 0
      (job.files, smgrBulkStartSmgr job.dst job.forkNum job.wal job.calls.dstBlocks) :=
    ⟨rfl, rfl, fun _ _ => rfl, rfl, Nat.zero_le _, fun _ below => absurd below (Nat.not_lt_zero _)⟩
  obtain ⟨returns, progress⟩ := copy_loop_returns_iff
    (show 0 + job.calls.srcBlocks.toNat ≤ 2 ^ 32 by omega)
    (fun blkno _ below => present blkno (by omega)) started
  simp only [Nat.zero_add, Nat.zero_le, forall_const, copyBlocks] at returns progress
  simp only [relationCopyStorage, range_eq_range', ← logs]
  rw [← returns]
  cases ran : runFallible (copyBlock job.settings job.calls job.src job.forkNum)
      (job.files, smgrBulkStartSmgr job.dst job.forkNum job.wal job.calls.dstBlocks)
      ((range' 0 job.calls.srcBlocks.toNat).map UInt32.ofNat) with
  | error report => simp
  | ok final =>
    have copied := progress final ran
    refine ⟨iff_of_true ⟨_, rfl⟩ ⟨_, rfl⟩, ?_⟩
    intro after finished blkno below
    obtain rfl := Except.ok.inj finished
    exact flush_batch_written copied.target copied.queue copied.sized (by omega) copied.logs
      (fun other above inside => recptr_of_batch above (by omega)) copied.written blkno (by omega)

end CopyJob

theorem relation_copy_storage_returns_iff {files : RelationFiles} {src dst : SmgrRelation}
    {forkNum : ForkNumber} (settings : PageSettings) (calls : CopyCalls)
    (relpersistence : RelPersistence) (apart : src.locator ≠ dst.locator)
    (present : ∀ blkno < calls.srcBlocks, (files (src.block forkNum blkno)).isSome) :
    ((∃ after, relationCopyStorage settings calls files src dst forkNum relpersistence =
        .ok after) ↔ ∀ blkno < calls.srcBlocks,
        pageIsVerifiedExtended settings (storedBytes files src forkNum blkno) blkno = true) ∧
    ∀ after, relationCopyStorage settings calls files src dst forkNum relpersistence = .ok after →
      ∀ blkno < calls.srcBlocks, after (dst.block forkNum blkno) =
        some (pageSetChecksumInplace settings
          (loggedPage (useWal calls forkNum relpersistence) (calls.recptrOf blkno.toNat)
            (storedBytes files src forkNum blkno)) blkno) := by
  have inside {index : Nat} (below : index < calls.srcBlocks.toNat) :
      UInt32.ofNat index < calls.srcBlocks := by
    have size := calls.srcBlocks.toNat_lt
    rwa [UInt32.lt_iff_toNat_lt, UInt32.toNat_ofNat', Nat.mod_eq_of_lt (by omega)]
  let job : CopyJob :=
    ⟨settings, calls, files, src, dst, forkNum, useWal calls forkNum relpersistence, apart⟩
  obtain ⟨returns, leaves⟩ := @CopyJob.copy_returns_iff job relpersistence rfl
    fun index below => present _ (inside below)
  refine ⟨returns.trans ⟨fun accepted blkno below => ?_, fun accepted index below =>
    accepted _ (inside below)⟩, fun after returned blkno below => ?_⟩
  · have here := accepted blkno.toNat (UInt32.lt_iff_toNat_lt.mp below)
    rwa [CopyJob.Verified, CopyJob.sourcePage, UInt32.ofNat_toNat] at here
  · have here := leaves after returned blkno.toNat (UInt32.lt_iff_toNat_lt.mp below)
    rwa [CopyJob.copiedPage, CopyJob.sourcePage, CopyJob.target, UInt32.ofNat_toNat] at here

end Loop

end FortressQL.Storage.RelationCopy
