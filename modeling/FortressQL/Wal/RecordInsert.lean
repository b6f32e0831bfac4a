import FortressQL.Wal.PageHeaders
import FortressQL.Wal.RecordAssemble
import FortressQL.Wal.Write

/-!
# Inserting WAL records

`xlog.c`: space is reserved in usable byte positions, and the record is copied into it page by page.
The memory is the log from its beginning, by position.
-/

namespace FortressQL.Wal.RecordInsert

open Elog Lib.ByteStrings Lib.ByteMemory
open Storage.BufPage (maxalign)
open Wal.BytePositions Wal.PageHeaders Wal.RecordAssemble Wal.RecordFormat Wal.Segments
open Wal.Write (panicReport)

structure InsertPosition where
  currBytePos : Nat
  prevBytePos : Nat

structure Reservation where
  startPos : Nat
  endPos : Nat
  prevPtr : Nat
  deriving DecidableEq

def reserveXLogInsertLocation (size : WalSegmentSize) (insert : InsertPosition) (length : Nat) :
    InsertPosition × Reservation :=
  let startbytepos := insert.currBytePos
  let endbytepos := startbytepos + maxalign length
  ({ currBytePos := endbytepos, prevBytePos := startbytepos },
    { startPos := xlogBytePosToRecPtr size startbytepos
      endPos := xlogBytePosToEndRecPtr size endbytepos
      prevPtr := xlogBytePosToRecPtr size insert.prevBytePos })

/-- Nothing is reserved at the start of a segment. -/
def reserveXLogSwitch (size : WalSegmentSize) (insert : InsertPosition) :
    Option (InsertPosition × Reservation) :=
  let startbytepos := insert.currBytePos
  if xlogSegmentOffset (xlogBytePosToEndRecPtr size startbytepos) size = 0 then none
  else
    let endbytepos := startbytepos + maxalign sizeOfXLogRecord
    let endPos := xlogBytePosToEndRecPtr size endbytepos
    let segleft := size.bytes - xlogSegmentOffset endPos size
    let consumed := if segleft ≠ size.bytes then endPos + segleft else endPos
    some
      ({ currBytePos := if segleft ≠ size.bytes then xlogRecPtrToBytePos size consumed
           else endbytepos
         prevBytePos := startbytepos },
        { startPos := xlogBytePosToRecPtr size startbytepos
          endPos := consumed
          prevPtr := xlogBytePosToRecPtr size insert.prevBytePos })

section Buffers

variable (log : LogIdentity) (runningBackups : Nat)

structure WalBuffers where
  initializedUpTo : Nat
  memory : Memory

def initializePage (buffers : WalBuffers) : WalBuffers :=
  { initializedUpTo := buffers.initializedUpTo + xlogBlcksz
    memory := store buffers.memory buffers.initializedUpTo
      (newPage log runningBackups buffers.initializedUpTo) }

def advanceXLInsertBuffer (upto : Nat) (buffers : WalBuffers) : WalBuffers :=
  if upto ≥ buffers.initializedUpTo then
    advanceXLInsertBuffer upto (initializePage log runningBackups buffers)
  else buffers
termination_by upto + 1 - buffers.initializedUpTo
decreasing_by
  have block : xlogBlcksz = 8192 := rfl
  simp only [initializePage]
  omega

/-- The page of the position is in its buffer, or becomes the next one. -/
def getXLogBuffer (ptr : Nat) (buffers : WalBuffers) : WalBuffers :=
  advanceXLInsertBuffer log runningBackups ptr buffers

end Buffers

def insertFreespace (endptr : Nat) : Nat :=
  if endptr % xlogBlcksz = 0 then 0 else xlogBlcksz - endptr % xlogBlcksz

theorem insert_freespace_ends_page (endptr : Nat) :
    (endptr + insertFreespace endptr) % xlogBlcksz = 0 := by
  unfold insertFreespace xlogBlcksz
  split_ifs <;> omega

theorem insert_freespace_used {endptr length : Nat} (fits : length ≤ insertFreespace endptr) :
    insertFreespace endptr - length = insertFreespace (endptr + length) := by
  unfold insertFreespace xlogBlcksz at *
  split_ifs at fits ⊢ <;> omega

/-- The variables of the copy; `freespace` is what the page of `CurrPos` has left. -/
structure Copying where
  buffers : WalBuffers
  currPos : Nat
  freespace : Nat
  written : Nat
  free : freespace = insertFreespace currPos

section Copy

variable (log : LogIdentity) (runningBackups writeLen : Nat)

def skippedHeader (currPos : Nat) : Nat :=
  if xlogSegmentOffset currPos log.size = 0 then sizeOfXLogLongPHD else sizeOfXLogShortPHD

def copyPiece (copying : Copying) (piece : Bytes) (fits : piece.length ≤ copying.freespace) :
    Copying :=
  { buffers :=
      { copying.buffers with memory := store copying.buffers.memory copying.currPos piece }
    currPos := copying.currPos + piece.length
    freespace := copying.freespace - piece.length
    written := copying.written + piece.length
    free := by
      rw [copying.free] at fits ⊢
      exact insert_freespace_used fits }

def turnPage (copying : Copying) : Copying :=
  let buffers := getXLogBuffer log runningBackups copying.currPos copying.buffers
  let currPos := copying.currPos + skippedHeader log copying.currPos
  { buffers := { buffers with
      memory := markContrecord buffers.memory copying.currPos (writeLen - copying.written) }
    currPos := currPos
    freespace := insertFreespace currPos
    written := copying.written
    free := rfl }

/-- Write what fits on this page, and continue on the next page. -/
def copyPage (copying : Copying) (data : Bytes) : Copying :=
  turnPage log runningBackups writeLen
    (copyPiece copying (data.take copying.freespace) (List.length_take_le _ _))

theorem copy_page_room (copying : Copying) {data : Bytes} (more : data.length > copying.freespace) :
    (copyPage log runningBackups writeLen copying data).freespace ≠ 0 := by
  have ends := insert_freespace_ends_page copying.currPos
  rw [← copying.free] at ends
  have taken : (data.take copying.freespace).length = copying.freespace :=
    List.length_take_of_le (le_of_lt more)
  simp only [copyPage, turnPage, copyPiece, taken, insertFreespace, skippedHeader,
    sizeOfXLogLongPHD, sizeOfXLogShortPHD, xlogBlcksz] at ends ⊢
  split_ifs <;> omega

def copyData (copying : Copying) (data : Bytes) : Copying :=
  if more : data.length > copying.freespace then
    copyData (copyPage log runningBackups writeLen copying data) (data.drop copying.freespace)
  else copyPiece copying data (Nat.le_of_not_lt more)
termination_by 2 * data.length + (if copying.freespace = 0 then 1 else 0)
decreasing_by
  have room := copy_page_room log runningBackups writeLen copying more
  rw [List.length_drop, if_neg room]
  split_ifs <;> omega

/-- The rest of the segment behind an xlog-switch record: pages of zeros, headers included. -/
def zeroHeaders (endPos currPos : Nat) (buffers : WalBuffers) : Nat × WalBuffers :=
  if currPos < endPos then
    let opened := getXLogBuffer log runningBackups currPos buffers
    zeroHeaders endPos (currPos + xlogBlcksz)
      { opened with
        memory := store opened.memory currPos (List.replicate sizeOfXLogShortPHD 0) }
  else (currPos, buffers)
termination_by endPos - currPos
decreasing_by
  have block : xlogBlcksz = 8192 := rfl
  omega

def reservedDiffers : ErrorReport :=
  panicReport .dataCorrupted "space reserved for WAL record does not match what was written"

def copyXLogRecordToWAL (isLogSwitch : Bool) (rdata : List Bytes) (startPos endPos : Nat)
    (buffers : WalBuffers) : Raises WalBuffers := do
  let copied := rdata.foldl (copyData log runningBackups writeLen)
    { buffers := getXLogBuffer log runningBackups startPos buffers
      currPos := startPos
      freespace := insertFreespace startPos
      written := 0
      free := rfl }
  let (currPos, buffers) :=
    if isLogSwitch = true ∧ xlogSegmentOffset copied.currPos log.size ≠ 0 then
      zeroHeaders log runningBackups endPos (copied.currPos + copied.freespace) copied.buffers
    else (maxalign copied.currPos, copied.buffers)
  ensure (currPos = endPos) reservedDiffers
  .ok buffers

end Copy

section Insert

variable (log : LogIdentity) (crcByte : UInt32 → UInt8 → UInt32)

def rmXlogId : UInt8 := 0

def rmMaxBuiltinId : Nat := 21

def rmMinCustomId : Nat := 128

def rmgrIdIsValid (rmid : UInt8) : Bool :=
  rmid.toNat ≤ rmMaxBuiltinId || rmMinCustomId ≤ rmid.toNat

def xlogSwitch : UInt8 := 0x40

def xlrInfoMask : UInt8 := 0x0F

def isXLogSwitch (rechdr : XLogRecord) : Bool :=
  rechdr.xlRmid == rmXlogId && rechdr.xlInfo &&& ~~~xlrInfoMask == xlogSwitch

def crcOffset : Nat := 20

def finCrc32c (crc : UInt32) : UInt32 := crc ^^^ 0xFFFFFFFF

/-- `xl_prev` is filled in, and the checksum covers the header last. -/
def finishHeader (rechdr : XLogRecord) (prevPtr : Nat) : XLogRecord :=
  let linked := { rechdr with xlPrev := prevPtr }
  { linked with
    xlCrc := finCrc32c (((encodeXLogRecord linked).take crcOffset).foldl crcByte rechdr.xlCrc) }

def finishRecord (record : AssembledRecord) (prevPtr : Nat) : AssembledRecord :=
  { record with header := finishHeader crcByte record.header prevPtr }

def recordBody (record : AssembledRecord) : Bytes := record.scratch ++ record.datas.flatten

structure WalInsert where
  position : InsertPosition
  buffers : WalBuffers

structure InsertCall where
  record : AssembledRecord
  runningBackups : Nat

structure InsertedRecord where
  header : XLogRecord
  body : Bytes
  reservation : Reservation

def InsertedRecord.bytes (inserted : InsertedRecord) : Bytes :=
  encodeXLogRecord inserted.header ++ inserted.body

def reserve (insert : InsertPosition) (rechdr : XLogRecord) :
    Option (InsertPosition × Reservation) :=
  if isXLogSwitch rechdr then reserveXLogSwitch log.size insert
  else some (reserveXLogInsertLocation log.size insert rechdr.xlTotLen)

def xlogInsertRecord (insert : WalInsert) (call : InsertCall) :
    Raises (WalInsert × Option InsertedRecord) :=
  match reserve log insert.position call.record.header with
  | none => .ok (insert, none)
  | some (position, reservation) => do
      let record := finishRecord crcByte call.record reservation.prevPtr
      let buffers ← copyXLogRecordToWAL log call.runningBackups record.header.xlTotLen
        (isXLogSwitch record.header) record.chain reservation.startPos reservation.endPos
        insert.buffers
      .ok ({ position := position, buffers := buffers },
        some { header := record.header, body := recordBody record, reservation := reservation })

def insertRecords : WalInsert → List InsertCall → Raises (WalInsert × List InsertedRecord)
  | insert, [] => .ok (insert, [])
  | insert, call :: calls => do
      let (next, inserted) ← xlogInsertRecord log crcByte insert call
      let (final, others) ← insertRecords next calls
      .ok (final, inserted.toList ++ others)

end Insert

end FortressQL.Wal.RecordInsert
