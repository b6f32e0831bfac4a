import FortressQL.Lib.LittleEndian
import FortressQL.Storage.BlockAddress

/-!
# The format of WAL records

`xlogrecord.h`: the fixed header, the ids of the fragment headers and the flag bytes, in
little-endian order.
-/

namespace FortressQL.Wal.RecordFormat

open Lib.ByteStrings Lib.LittleEndian Storage.BlockAddress

abbrev TransactionId := UInt32

abbrev RepOriginId := UInt16

def invalidTransactionId : TransactionId := 0

def invalidRepOriginId : RepOriginId := 0

def sizeOfXLogRecord : Nat := 24

def xlogRecordMaxSize : Nat := 1020 * 1024 * 1024

def uint16Max : Nat := 65535

def xlrMaxBlockId : Nat := 32

def xlrBlockIdDataShort : UInt8 := 255

def xlrBlockIdDataLong : UInt8 := 254

def xlrBlockIdOrigin : UInt8 := 253

def xlrBlockIdToplevelXid : UInt8 := 252

def xlrCheckConsistency : UInt8 := 0x02

structure XLogRecord where
  xlTotLen : Nat
  xlXid : TransactionId
  xlPrev : Nat
  xlInfo : UInt8
  xlRmid : UInt8
  xlCrc : UInt32
  deriving DecidableEq

/-- The bytes of the header; two bytes of padding stand before the checksum. -/
def encodeXLogRecord (header : XLogRecord) : Bytes :=
  encodeLe 4 header.xlTotLen ++ (encodeLe 4 header.xlXid.toNat ++ (encodeLe 8 header.xlPrev ++
    ([header.xlInfo, header.xlRmid, 0, 0] ++ encodeLe 4 header.xlCrc.toNat)))

def parseXLogRecord (bytes : Bytes) : XLogRecord :=
  { xlTotLen := decodeLe (bytes.take 4)
    xlXid := UInt32.ofNat (decodeLe ((bytes.drop 4).take 4))
    xlPrev := decodeLe ((bytes.drop 8).take 8)
    xlInfo := bytes.getD 16 0
    xlRmid := bytes.getD 17 0
    xlCrc := UInt32.ofNat (decodeLe ((bytes.drop 20).take 4)) }

@[simp]
theorem encode_xlog_record_length (header : XLogRecord) :
    (encodeXLogRecord header).length = sizeOfXLogRecord := by
  simp [encodeXLogRecord, sizeOfXLogRecord]

theorem parse_encode_xlog_record {header : XLogRecord} (rest : Bytes)
    (lengthFits : header.xlTotLen < 256 ^ 4) (prevFits : header.xlPrev < 256 ^ 8) :
    parseXLogRecord (encodeXLogRecord header ++ rest) = header := by
  have xidFits : header.xlXid.toNat < 256 ^ 4 := header.xlXid.toNat_lt
  have crcFits : header.xlCrc.toNat < 256 ^ 4 := header.xlCrc.toNat_lt
  simp [parseXLogRecord, encodeXLogRecord, List.drop_append, List.getElem?_append,
    decode_encode_le lengthFits, decode_encode_le prevFits, decode_encode_le xidFits,
    decode_encode_le crcFits]

def setBit (condition : Bool) (bit flags : UInt8) : UInt8 :=
  if condition then flags ||| bit else flags

def hasBit (flags bit : UInt8) : Bool := flags &&& bit != 0

def bkpblockForkMask : UInt8 := 0x0F

def bkpblockHasImage : UInt8 := 0x10

def bkpblockHasData : UInt8 := 0x20

def bkpblockWillInit : UInt8 := 0x40

def bkpblockSameRel : UInt8 := 0x80

def forkByte : ForkNumber → UInt8
  | .mainForknum => 0
  | .fsmForknum => 1
  | .visibilitymapForknum => 2
  | .initForknum => 3

def forkFlags (forkno : ForkNumber) (willInit hasImage hasData sameRel : Bool) : UInt8 :=
  setBit sameRel bkpblockSameRel
    (setBit hasData bkpblockHasData
      (setBit hasImage bkpblockHasImage (setBit willInit bkpblockWillInit (forkByte forkno))))

theorem fork_flags_read (forkno : ForkNumber) (willInit hasImage hasData sameRel : Bool) :
    forkFlags forkno willInit hasImage hasData sameRel &&& bkpblockForkMask = forkByte forkno ∧
      hasBit (forkFlags forkno willInit hasImage hasData sameRel) bkpblockHasImage = hasImage ∧
      hasBit (forkFlags forkno willInit hasImage hasData sameRel) bkpblockHasData = hasData ∧
      hasBit (forkFlags forkno willInit hasImage hasData sameRel) bkpblockWillInit = willInit ∧
      hasBit (forkFlags forkno willInit hasImage hasData sameRel) bkpblockSameRel = sameRel := by
  cases forkno <;> decide +revert

inductive CompressMethod where
  | pglz
  | lz4
  | zstd
  deriving DecidableEq

def bkpimageHasHole : UInt8 := 0x01

def bkpimageApply : UInt8 := 0x02

def bkpimageCompress : CompressMethod → UInt8
  | .pglz => 0x04
  | .lz4 => 0x08
  | .zstd => 0x10

def bkpimageCompressed (info : UInt8) : Bool := hasBit info (0x04 ||| 0x08 ||| 0x10)

/-- The order in which `RestoreBlockImage` asks for the method. -/
def compressMethod (info : UInt8) : Option CompressMethod :=
  if hasBit info (bkpimageCompress .pglz) then some .pglz
  else if hasBit info (bkpimageCompress .lz4) then some .lz4
  else if hasBit info (bkpimageCompress .zstd) then some .zstd
  else none

def bimgInfo (hasHole apply : Bool) (method : Option CompressMethod) : UInt8 :=
  let flags := setBit apply bkpimageApply (setBit hasHole bkpimageHasHole 0)
  match method with
  | none => flags
  | some method => flags ||| bkpimageCompress method

theorem bimg_info_read (hasHole apply : Bool) (method : Option CompressMethod) :
    hasBit (bimgInfo hasHole apply method) bkpimageHasHole = hasHole ∧
      hasBit (bimgInfo hasHole apply method) bkpimageApply = apply ∧
      bkpimageCompressed (bimgInfo hasHole apply method) = method.isSome ∧
      compressMethod (bimgInfo hasHole apply method) = method := by
  rcases method with _ | _ | _ | _ <;> decide +revert

def encodeRelFileLocator (locator : RelFileLocator) : Bytes :=
  encodeLe 4 locator.spcOid.toNat ++
    (encodeLe 4 locator.dbOid.toNat ++ encodeLe 4 locator.relNumber.toNat)

def parseRelFileLocator (bytes : Bytes) : RelFileLocator :=
  { spcOid := UInt32.ofNat (decodeLe (bytes.take 4))
    dbOid := UInt32.ofNat (decodeLe ((bytes.drop 4).take 4))
    relNumber := UInt32.ofNat (decodeLe ((bytes.drop 8).take 4)) }

@[simp]
theorem encode_locator_length (locator : RelFileLocator) :
    (encodeRelFileLocator locator).length = 12 := by
  simp [encodeRelFileLocator]

theorem parse_encode_locator (locator : RelFileLocator) :
    parseRelFileLocator (encodeRelFileLocator locator) = locator := by
  have spcFits : locator.spcOid.toNat < 256 ^ 4 := locator.spcOid.toNat_lt
  have dbFits : locator.dbOid.toNat < 256 ^ 4 := locator.dbOid.toNat_lt
  have relFits : locator.relNumber.toNat < 256 ^ 4 := locator.relNumber.toNat_lt
  simp [parseRelFileLocator, encodeRelFileLocator, List.drop_append, decode_encode_le spcFits,
    decode_encode_le dbFits, decode_encode_le relFits]

end FortressQL.Wal.RecordFormat
