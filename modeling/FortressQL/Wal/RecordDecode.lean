import FortressQL.Lib.Fields
import FortressQL.Wal.RecordAssemble
import FortressQL.Wal.Write

/-!
# Decoding WAL records

`DecodeXLogRecord` and `RestoreBlockImage` of `xlogreader.c`. An error carries the text that
`report_invalid_record` prepares.
-/

namespace FortressQL.Wal.RecordDecode

open Lib.ByteStrings Lib.Fields Lib.LittleEndian Storage.BlockAddress Storage.BufPage
open Wal.RecordAssemble Wal.RecordFormat
open Wal.Write (lsnFormat)

abbrev Reads := Except String

structure DecodedBkpBlock where
  rlocator : RelFileLocator
  forknum : UInt8
  blkno : BlockNumber
  flags : UInt8
  hasImage : Bool
  applyImage : Bool
  bkpImage : Bytes
  holeOffset : Nat
  holeLength : Nat
  bimgLen : Nat
  bimgInfo : UInt8
  hasData : Bool
  data : Bytes
  dataLen : Nat
  deriving DecidableEq

structure DecodedXLogRecord where
  header : XLogRecord
  recordOrigin : RepOriginId
  toplevelXid : TransactionId
  mainData : Bytes
  mainDataLen : Nat
  blocks : List (Nat × DecodedBkpBlock)
  deriving DecidableEq

def DecodedXLogRecord.block (decoded : DecodedXLogRecord) (blockId : Nat) :
    Option DecodedBkpBlock :=
  decoded.blocks.lookup blockId

structure Decoding where
  cursor : Cursor
  datatotal : Nat
  rlocator : Option RelFileLocator
  blocks : List (Nat × DecodedBkpBlock)
  recordOrigin : RepOriginId
  toplevelXid : TransactionId
  mainDataLen : Nat

def uint32Range : Nat := 4294967296

def Decoding.addData (decoding : Decoding) (length : Nat) : Decoding :=
  { decoding with datatotal := (decoding.datatotal + length) % uint32Range }

def maxBlockId (decoding : Decoding) : Option Nat := decoding.blocks.getLast?.map Prod.fst

def shortData (readRecPtr : Nat) : String :=
  "record with invalid length at " ++ lsnFormat readRecPtr

def copyHeaderField (readRecPtr : Nat) (cursor : Cursor) (size : Nat) : Reads (Bytes × Cursor) :=
  match cursor.field size with
  | none => .error (shortData readRecPtr)
  | some result => .ok result

def copyNumber (readRecPtr : Nat) (cursor : Cursor) (size : Nat) : Reads (Nat × Cursor) := do
  let (field, next) ← copyHeaderField readRecPtr cursor size
  .ok (decodeLe field, next)

def copyByte (readRecPtr : Nat) (cursor : Cursor) : Reads (UInt8 × Cursor) := do
  let (field, next) ← copyHeaderField readRecPtr cursor 1
  .ok (field.getD 0 0, next)

def demand (condition : Prop) [Decidable condition] (errormsg : String) : Reads Unit :=
  if condition then .ok () else .error errormsg

theorem demand_holds {condition : Prop} [Decidable condition] {errormsg : String}
    (holds : condition) : demand condition errormsg = .ok () :=
  if_pos holds

structure ImageFields where
  bimgLen : Nat
  holeOffset : Nat
  holeLength : Nat
  bimgInfo : UInt8
  deriving DecidableEq

def holeSetMessage (readRecPtr : Nat) (image : ImageFields) : String :=
  s!"BKPIMAGE_HAS_HOLE set, but hole offset {image.holeOffset} length {image.holeLength} " ++
    s!"block image length {image.bimgLen} at " ++ lsnFormat readRecPtr

def holeNotSetMessage (readRecPtr : Nat) (image : ImageFields) : String :=
  s!"BKPIMAGE_HAS_HOLE not set, but hole offset {image.holeOffset} length {image.holeLength} at " ++
    lsnFormat readRecPtr

def compressedMessage (readRecPtr : Nat) (image : ImageFields) : String :=
  s!"BKPIMAGE_COMPRESSED set, but block image length {image.bimgLen} at " ++ lsnFormat readRecPtr

/-- The message names the data length, not that of the image. -/
def neitherMessage (readRecPtr dataLen : Nat) : String :=
  s!"neither BKPIMAGE_HAS_HOLE nor BKPIMAGE_COMPRESSED set, but block image length is {dataLen} at " ++
    lsnFormat readRecPtr

def checkImage (readRecPtr dataLen : Nat) (image : ImageFields) : Reads Unit := do
  let hasHole := hasBit image.bimgInfo bkpimageHasHole
  let compressed := bkpimageCompressed image.bimgInfo
  demand (¬ (hasHole = true ∧
      (image.holeOffset = 0 ∨ image.holeLength = 0 ∨ image.bimgLen = blcksz)))
    (holeSetMessage readRecPtr image)
  demand (¬ (hasHole = false ∧ (image.holeOffset ≠ 0 ∨ image.holeLength ≠ 0)))
    (holeNotSetMessage readRecPtr image)
  demand (¬ (compressed = true ∧ image.bimgLen = blcksz)) (compressedMessage readRecPtr image)
  demand (¬ (hasHole = false ∧ compressed = false ∧ image.bimgLen ≠ blcksz))
    (neitherMessage readRecPtr dataLen)

/-- The length of the hole: stored with a compressed image, else what the image lacks. -/
def copyHoleLength (readRecPtr : Nat) (cursor : Cursor) (bimgLen : Nat) (bimgInfo : UInt8) :
    Reads (Nat × Cursor) :=
  if bkpimageCompressed bimgInfo then
    if hasBit bimgInfo bkpimageHasHole then copyNumber readRecPtr cursor 2
    else .ok (0, cursor)
  else .ok ((blcksz + 65536 - bimgLen) % 65536, cursor)

def copyImageHeader (readRecPtr dataLen : Nat) (cursor : Cursor) : Reads (ImageFields × Cursor) := do
  let (bimgLen, cursor) ← copyNumber readRecPtr cursor 2
  let (holeOffset, cursor) ← copyNumber readRecPtr cursor 2
  let (bimgInfo, cursor) ← copyByte readRecPtr cursor
  let (holeLength, cursor) ← copyHoleLength readRecPtr cursor bimgLen bimgInfo
  let image : ImageFields := { bimgLen, holeOffset, holeLength, bimgInfo }
  checkImage readRecPtr dataLen image
  .ok (image, cursor)

/-- What an image header contributes to the block; without one the fields are unset. -/
def copyImage (readRecPtr dataLen : Nat) (cursor : Cursor) (hasImage : Bool) :
    Reads (ImageFields × Cursor) :=
  if hasImage then copyImageHeader readRecPtr dataLen cursor
  else .ok ({ bimgLen := 0, holeOffset := 0, holeLength := 0, bimgInfo := 0 }, cursor)

/-- The relation of the block: its own, or that of the block before. -/
def copyLocator (readRecPtr : Nat) (cursor : Cursor) (forkFlags : UInt8)
    (rlocator : Option RelFileLocator) : Reads (RelFileLocator × Cursor) :=
  if hasBit forkFlags bkpblockSameRel then
    match rlocator with
    | none =>
      .error ("BKPBLOCK_SAME_REL set but no previous rel at " ++ lsnFormat readRecPtr)
    | some locator => .ok (locator, cursor)
  else do
    let (field, next) ← copyHeaderField readRecPtr cursor 12
    .ok (parseRelFileLocator field, next)

def checkDataLength (readRecPtr : Nat) (hasData : Bool) (dataLen : Nat) : Reads Unit := do
  demand (¬ (hasData = true ∧ dataLen = 0))
    ("BKPBLOCK_HAS_DATA set, but no data included at " ++ lsnFormat readRecPtr)
  demand (¬ (hasData = false ∧ dataLen ≠ 0))
    (s!"BKPBLOCK_HAS_DATA not set, but data length is {dataLen} at " ++ lsnFormat readRecPtr)

def checkBlockOrder (readRecPtr : Nat) (decoding : Decoding) (blockId : Nat) : Reads Unit :=
  demand (∀ highest ∈ maxBlockId decoding, highest < blockId)
    (s!"out-of-order block_id {blockId} at " ++ lsnFormat readRecPtr)

def decodeBlockHeader (readRecPtr : Nat) (decoding : Decoding) (cursor : Cursor) (blockId : Nat) :
    Reads Decoding := do
  checkBlockOrder readRecPtr decoding blockId
  let (forkFlags, cursor) ← copyByte readRecPtr cursor
  let hasImage := hasBit forkFlags bkpblockHasImage
  let hasData := hasBit forkFlags bkpblockHasData
  let (dataLen, cursor) ← copyNumber readRecPtr cursor 2
  checkDataLength readRecPtr hasData dataLen
  let (image, cursor) ← copyImage readRecPtr dataLen cursor hasImage
  let (locator, cursor) ← copyLocator readRecPtr cursor forkFlags decoding.rlocator
  let (blkno, cursor) ← copyNumber readRecPtr cursor 4
  let block : DecodedBkpBlock :=
    { rlocator := locator
      forknum := forkFlags &&& bkpblockForkMask
      blkno := UInt32.ofNat blkno
      flags := forkFlags
      hasImage := hasImage
      applyImage := hasImage && hasBit image.bimgInfo bkpimageApply
      bkpImage := []
      holeOffset := image.holeOffset
      holeLength := image.holeLength
      bimgLen := image.bimgLen
      bimgInfo := image.bimgInfo
      hasData := hasData
      data := []
      dataLen := dataLen }
  .ok { (decoding.addData dataLen).addData image.bimgLen with
    cursor := cursor
    rlocator := some locator
    blocks := decoding.blocks ++ [(blockId, block)] }

/-- One round of the loop; the main data is always last, so its header ends the loop. -/
def decodeFragment (readRecPtr : Nat) (decoding : Decoding) : Reads (Decoding × Bool) := do
  let (blockId, cursor) ← copyByte readRecPtr decoding.cursor
  if blockId = xlrBlockIdDataShort then do
    let (length, cursor) ← copyNumber readRecPtr cursor 1
    .ok ({ decoding.addData length with cursor := cursor, mainDataLen := length }, true)
  else if blockId = xlrBlockIdDataLong then do
    let (length, cursor) ← copyNumber readRecPtr cursor 4
    .ok ({ decoding.addData length with cursor := cursor, mainDataLen := length }, true)
  else if blockId = xlrBlockIdOrigin then do
    let (origin, cursor) ← copyNumber readRecPtr cursor 2
    .ok ({ decoding with cursor := cursor, recordOrigin := UInt16.ofNat origin }, false)
  else if blockId = xlrBlockIdToplevelXid then do
    let (xid, cursor) ← copyNumber readRecPtr cursor 4
    .ok ({ decoding with cursor := cursor, toplevelXid := UInt32.ofNat xid }, false)
  else if blockId.toNat ≤ xlrMaxBlockId then do
    let next ← decodeBlockHeader readRecPtr decoding cursor blockId.toNat
    .ok (next, false)
  else .error (s!"invalid block_id {blockId} at " ++ lsnFormat readRecPtr)

/-- The loop; a round reads a byte at least, so as many rounds as there are bytes are enough. -/
def decodeHeaders (readRecPtr : Nat) : Nat → Decoding → Reads Decoding
  | 0, decoding => .ok decoding
  | rounds + 1, decoding =>
    if decoding.cursor.remaining > decoding.datatotal then do
      let (next, last) ← decodeFragment readRecPtr decoding
      if last then .ok next else decodeHeaders readRecPtr rounds next
    else .ok decoding

def fillBlock (ptr : Bytes) (block : DecodedBkpBlock) : DecodedBkpBlock × Bytes :=
  let image := if block.hasImage then ptr.take block.bimgLen else []
  let afterImage := if block.hasImage then ptr.drop block.bimgLen else ptr
  let data := if block.hasData then afterImage.take block.dataLen else []
  let afterData := if block.hasData then afterImage.drop block.dataLen else afterImage
  ({ block with bkpImage := image, data := data }, afterData)

def fillBlocks : Bytes → List (Nat × DecodedBkpBlock) → List (Nat × DecodedBkpBlock) × Bytes
  | ptr, [] => ([], ptr)
  | ptr, (blockId, block) :: blocks =>
    let (filled, rest) := fillBlock ptr block
    let (others, behind) := fillBlocks rest blocks
    ((blockId, filled) :: others, behind)

def decodeXLogRecord (readRecPtr : Nat) (record : Bytes) : Reads DecodedXLogRecord := do
  let header := parseXLogRecord record
  let remaining := (header.xlTotLen + uint32Range - sizeOfXLogRecord) % uint32Range
  let decoding ← decodeHeaders readRecPtr remaining
    { cursor := { ptr := record.drop sizeOfXLogRecord, remaining := remaining }
      datatotal := 0
      rlocator := none
      blocks := []
      recordOrigin := invalidRepOriginId
      toplevelXid := invalidTransactionId
      mainDataLen := 0 }
  demand (decoding.cursor.remaining = decoding.datatotal) (shortData readRecPtr)
  let (blocks, ptr) := fillBlocks decoding.cursor.ptr decoding.blocks
  .ok
    { header := header
      recordOrigin := decoding.recordOrigin
      toplevelXid := decoding.toplevelXid
      mainData := ptr.take decoding.mainDataLen
      mainDataLen := decoding.mainDataLen
      blocks := blocks }

def methodNotSupportedMessage (readRecPtr blockId : Nat) (method : CompressMethod) : String :=
  "could not restore image at " ++ lsnFormat readRecPtr ++
    s!" compressed with {methodName method} not supported by build, block {blockId}"

def decompressImage (compressors : Compressors) (readRecPtr blockId : Nat)
    (block : DecodedBkpBlock) : Reads Bytes :=
  if bkpimageCompressed block.bimgInfo then
    match compressMethod block.bimgInfo with
    | none =>
      .error ("could not restore image at " ++ lsnFormat readRecPtr ++
        s!" compressed with unknown method, block {blockId}")
    | some method =>
      if compressors.supports method = false then
        .error (methodNotSupportedMessage readRecPtr blockId method)
      else
        match compressors.decompress method block.bkpImage (blcksz - block.holeLength) with
        | none =>
          .error ("could not decompress image at " ++ lsnFormat readRecPtr ++
            s!", block {blockId}")
        | some image => .ok image
  else .ok block.bkpImage

def refillHole (image : Bytes) (holeOffset holeLength : Nat) : Bytes :=
  if holeLength = 0 then image.take blcksz
  else
    image.take holeOffset ++ (List.replicate holeLength 0 ++
      (image.drop holeOffset).take (blcksz - (holeOffset + holeLength)))

def restoreBlockImage (compressors : Compressors) (readRecPtr : Nat)
    (decoded : DecodedXLogRecord) (blockId : Nat) : Reads Bytes :=
  match decoded.block blockId with
  | none =>
    .error ("could not restore image at " ++ lsnFormat readRecPtr ++
      s!" with invalid block {blockId} specified")
  | some block => do
      demand (block.hasImage = true)
        ("could not restore image at " ++ lsnFormat readRecPtr ++
          s!" with invalid state, block {blockId}")
      let image ← decompressImage compressors readRecPtr blockId block
      .ok (refillHole image block.holeOffset block.holeLength)

end FortressQL.Wal.RecordDecode
