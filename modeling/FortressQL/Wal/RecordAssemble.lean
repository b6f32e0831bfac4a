import FortressQL.Elog
import FortressQL.Wal.RecordFormat

/-!
# Constructing WAL records

`xloginsert.c`: the registered buffers and data, and `XLogRecordAssemble`. The compression of page
images is a parameter.
-/

namespace FortressQL.Wal.RecordAssemble

open Elog Lib.ByteStrings Lib.LittleEndian Storage.BlockAddress Storage.BufPage Wal.RecordFormat

def regbufForceImage : UInt8 := 0x01

def regbufNoImage : UInt8 := 0x02

def regbufWillInit : UInt8 := 0x04 ||| 0x02

def regbufStandard : UInt8 := 0x08

def regbufKeepData : UInt8 := 0x10

def xlogIncludeOrigin : UInt8 := 0x01

/-- `registered_buffer`; the chain of data fits the length field of the block header. -/
structure RegisteredBuffer where
  flags : UInt8
  rlocator : RelFileLocator
  forkno : ForkNumber
  block : BlockNumber
  page : Page
  rdata : List Bytes
  dataFits : rdata.flatten.length ≤ uint16Max

def RegisteredBuffer.rdataLen (regbuf : RegisteredBuffer) : Nat := regbuf.rdata.flatten.length

/-- The working memory of a record. The list holds the slots below `max_registered_block_id`,
`none` for those that are not in use. -/
structure Insertion where
  registeredBuffers : List (Option RegisteredBuffer)
  maxRegisteredBuffers : Nat
  spaceBound : maxRegisteredBuffers ≤ xlrMaxBlockId + 1
  buffersFit : registeredBuffers.length ≤ maxRegisteredBuffers
  mainrdata : List Bytes
  curinsertFlags : UInt8

def internalReport (errmsg errdetail : String) : ErrorReport :=
  { elevel := .error, errcode := .internalError, errmsg := errmsg, errdetail := errdetail }

/-- The compressors of the build. `decompress` gets the size that the result is to have. -/
structure Compressors where
  useLz4 : Bool
  useZstd : Bool
  compress : CompressMethod → Bytes → Option Bytes
  decompress : CompressMethod → Bytes → Nat → Option Bytes

def Compressors.supports (compressors : Compressors) : CompressMethod → Bool
  | .pglz => true
  | .lz4 => compressors.useLz4
  | .zstd => compressors.useZstd

def methodName : CompressMethod → String
  | .pglz => "pglz"
  | .lz4 => "LZ4"
  | .zstd => "zstd"

def sizeOfPageHeaderData : Nat := 24

def xlogRecordBlockCompressHeaderSize : Nat := 2

/-- The offset and the length of the part of a page that its image leaves out. -/
def pageHole (regbuf : RegisteredBuffer) : Nat × Nat :=
  if hasBit regbuf.flags regbufStandard then
    let lower := pdLower regbuf.page
    let upper := pdUpper regbuf.page
    if lower ≥ sizeOfPageHeaderData ∧ upper > lower ∧ upper ≤ blcksz then (lower, upper - lower)
    else (0, 0)
  else (0, 0)

def withoutHole (page : Page) (holeOffset holeLength : Nat) : Bytes :=
  page.toList.take holeOffset ++ page.toList.drop (holeOffset + holeLength)

def notSupported (method : CompressMethod) : ErrorReport :=
  internalReport (methodName method ++ " is not supported by this build") ""

def xlogCompressBackupBlock (compressors : Compressors) (method : CompressMethod) (page : Page)
    (holeOffset holeLength : Nat) : Raises (Option Bytes) := do
  let origLen := blcksz - holeLength
  let extraBytes := if holeLength ≠ 0 then xlogRecordBlockCompressHeaderSize else 0
  ensure (compressors.supports method = true) (notSupported method)
  match compressors.compress method (withoutHole page holeOffset holeLength) with
  | none => .ok none
  | some dest => .ok (if dest.length + extraBytes < origLen then some dest else none)

/-- `XLogRecordBlockImageHeader`, with the hole length and the data of the image. -/
structure BlockImage where
  length : Nat
  holeOffset : Nat
  holeLength : Nat
  bimgInfo : UInt8
  isCompressed : Bool
  rdatas : List Bytes

/-- The page as it is: one piece, or the two around the hole. -/
def plainImage (page : Page) (holeOffset holeLength : Nat) (apply : Bool) : BlockImage :=
  { length := blcksz - holeLength
    holeOffset := holeOffset
    holeLength := holeLength
    bimgInfo := bimgInfo (holeLength != 0) apply none
    isCompressed := false
    rdatas :=
      if holeLength = 0 then [page.toList]
      else [page.toList.take holeOffset, page.toList.drop (holeOffset + holeLength)] }

def compressedImage (method : CompressMethod) (compressed : Bytes) (holeOffset holeLength : Nat)
    (apply : Bool) : BlockImage :=
  { length := compressed.length
    holeOffset := holeOffset
    holeLength := holeLength
    bimgInfo := bimgInfo (holeLength != 0) apply (some method)
    isCompressed := true
    rdatas := [compressed] }

def blockImage (compressors : Compressors) (walCompression : Option CompressMethod)
    (regbuf : RegisteredBuffer) (needsBackup : Bool) : Raises BlockImage := do
  let (holeOffset, holeLength) := pageHole regbuf
  match walCompression with
  | none => .ok (plainImage regbuf.page holeOffset holeLength needsBackup)
  | some method => do
      let compressed ← xlogCompressBackupBlock compressors method regbuf.page holeOffset holeLength
      match compressed with
      | none => .ok (plainImage regbuf.page holeOffset holeLength needsBackup)
      | some dest => .ok (compressedImage method dest holeOffset holeLength needsBackup)

/-- What `XLogRecordAssemble` reads of the server and the session. `crcByte` takes one byte into
a running checksum. -/
structure AssembleEnv where
  walConsistencyChecking : UInt8 → Bool
  redoRecPtr : Nat
  doPageWrites : Bool
  walCompression : Option CompressMethod
  compressors : Compressors
  replOriginSessionOrigin : RepOriginId
  subxactTopXidLogPending : Bool
  topTransactionId : TransactionId
  currentTransactionId : TransactionId
  crcByte : UInt32 → UInt8 → UInt32

/-- The header bytes and the data so far, the buffer before, and what the caller gets back. -/
structure Assembly where
  scratch : Bytes
  datas : List Bytes
  totalLen : Nat
  prevLocator : Option RelFileLocator
  fpwLsn : Nat
  numFpi : Nat

/-- Whether the block needs a full-page image that redo applies. -/
def needsBackup (env : AssembleEnv) (regbuf : RegisteredBuffer) : Bool :=
  if hasBit regbuf.flags regbufForceImage then true
  else if hasBit regbuf.flags regbufNoImage then false
  else if env.doPageWrites = false then false
  else decide (pageGetLsn regbuf.page ≤ env.redoRecPtr)

/-- The lowest position of a page without an image whose image depended on it. -/
def nextFpwLsn (env : AssembleEnv) (regbuf : RegisteredBuffer) (fpwLsn : Nat) : Nat :=
  if hasBit regbuf.flags regbufForceImage ∨ hasBit regbuf.flags regbufNoImage ∨
      env.doPageWrites = false ∨ needsBackup env regbuf = true then fpwLsn
  else if fpwLsn = 0 ∨ pageGetLsn regbuf.page < fpwLsn then pageGetLsn regbuf.page
  else fpwLsn

def needsData (env : AssembleEnv) (regbuf : RegisteredBuffer) : Bool :=
  if regbuf.rdataLen = 0 then false
  else if hasBit regbuf.flags regbufKeepData then true
  else !needsBackup env regbuf

def includeImage (env : AssembleEnv) (info : UInt8) (regbuf : RegisteredBuffer) : Bool :=
  needsBackup env regbuf || hasBit info xlrCheckConsistency

def willInit (regbuf : RegisteredBuffer) : Bool := regbuf.flags &&& regbufWillInit == regbufWillInit

def imageHeader (image : BlockImage) : Bytes :=
  encodeLe 2 image.length ++ (encodeLe 2 image.holeOffset ++ ([image.bimgInfo] ++
    (if image.holeLength ≠ 0 ∧ image.isCompressed = true then encodeLe 2 image.holeLength else [])))

/-- The header of a block reference as it is copied to the scratch buffer. -/
def blockHeader (blockId : Nat) (regbuf : RegisteredBuffer) (image : Option BlockImage)
    (hasData sameRel : Bool) : Bytes :=
  [UInt8.ofNat blockId, forkFlags regbuf.forkno (willInit regbuf) image.isSome hasData sameRel] ++
    (encodeLe 2 (if hasData then regbuf.rdataLen else 0) ++
      (image.elim [] imageHeader ++
        ((if sameRel then [] else encodeRelFileLocator regbuf.rlocator) ++
          encodeLe 4 regbuf.block.toNat)))

def blockDatas (regbuf : RegisteredBuffer) (image : Option BlockImage) (hasData : Bool) :
    List Bytes :=
  image.elim [] BlockImage.rdatas ++ (if hasData then regbuf.rdata else [])

def assembleImage (env : AssembleEnv) (info : UInt8) (regbuf : RegisteredBuffer) :
    Raises (Option BlockImage) :=
  if includeImage env info regbuf then
    (blockImage env.compressors env.walCompression regbuf (needsBackup env regbuf)).map some
  else .ok none

def assembleBlock (env : AssembleEnv) (info : UInt8) (assembly : Assembly) (blockId : Nat)
    (regbuf : RegisteredBuffer) : Raises Assembly := do
  let image ← assembleImage env info regbuf
  let hasData := needsData env regbuf
  let sameRel := decide (assembly.prevLocator = some regbuf.rlocator)
  .ok { scratch := assembly.scratch ++ blockHeader blockId regbuf image hasData sameRel
        datas := assembly.datas ++ blockDatas regbuf image hasData
        totalLen := assembly.totalLen + image.elim 0 BlockImage.length +
          (if hasData then regbuf.rdataLen else 0)
        prevLocator := some regbuf.rlocator
        fpwLsn := nextFpwLsn env regbuf assembly.fpwLsn
        numFpi := assembly.numFpi + (if image.isSome then 1 else 0) }

def assembleBlocks (env : AssembleEnv) (info : UInt8) :
    Nat → List (Option RegisteredBuffer) → Assembly → Raises Assembly
  | _, [], assembly => .ok assembly
  | blockId, none :: slots, assembly => assembleBlocks env info (blockId + 1) slots assembly
  | blockId, some regbuf :: slots, assembly => do
      let next ← assembleBlock env info assembly blockId regbuf
      assembleBlocks env info (blockId + 1) slots next

def includedOrigin (env : AssembleEnv) (insertion : Insertion) : RepOriginId :=
  if hasBit insertion.curinsertFlags xlogIncludeOrigin then env.replOriginSessionOrigin
  else invalidRepOriginId

def originHeader (origin : RepOriginId) : Bytes :=
  if origin = invalidRepOriginId then [] else xlrBlockIdOrigin :: encodeLe 2 origin.toNat

def toplevelXidHeader (env : AssembleEnv) : Bytes :=
  if env.subxactTopXidLogPending then
    xlrBlockIdToplevelXid :: encodeLe 4 env.topTransactionId.toNat
  else []

/-- The header of the main data; the long form holds a 32-bit length. -/
def mainDataHeader (length : Nat) : Bytes :=
  if length = 0 then []
  else if length > 255 then xlrBlockIdDataLong :: encodeLe 4 length
  else [xlrBlockIdDataShort, UInt8.ofNat length]

def uint32Max : Nat := 4294967295

def mainDataTooLong (length : Nat) : ErrorReport :=
  internalReport "too much WAL data"
    s!"Main data length is {length} bytes for a maximum of {uint32Max} bytes."

def recordTooLong (totalLen : Nat) (rmid info : UInt8) : ErrorReport :=
  internalReport "oversized WAL record"
    (s!"WAL record would be {totalLen} bytes (of maximum {xlogRecordMaxSize} bytes); " ++
      s!"rmid {rmid} flags {info}.")

def compCrc32c (env : AssembleEnv) (crc : UInt32) (data : Bytes) : UInt32 :=
  data.foldl env.crcByte crc

def initCrc32c : UInt32 := 0xFFFFFFFF

/-- The assembled record: the header, the fragment headers behind it in the scratch buffer, the
data, and what the caller gets back. -/
structure AssembledRecord where
  header : XLogRecord
  scratch : Bytes
  datas : List Bytes
  fpwLsn : Nat
  numFpi : Nat
  topxidIncluded : Bool

/-- The chain that is inserted; it starts with the scratch buffer. -/
def AssembledRecord.chain (record : AssembledRecord) : List Bytes :=
  (encodeXLogRecord record.header ++ record.scratch) :: record.datas

def assembledInfo (env : AssembleEnv) (rmid info : UInt8) : UInt8 :=
  setBit (env.walConsistencyChecking rmid) xlrCheckConsistency info

def xlogRecordAssemble (env : AssembleEnv) (insertion : Insertion) (rmid callerInfo : UInt8) :
    Raises AssembledRecord := do
  let info := assembledInfo env rmid callerInfo
  let blocks ← assembleBlocks env info 0 insertion.registeredBuffers
    { scratch := [], datas := [], totalLen := 0, prevLocator := none, fpwLsn := 0, numFpi := 0 }
  let mainrdataLen := insertion.mainrdata.flatten.length
  ensure (mainrdataLen ≤ uint32Max) (mainDataTooLong mainrdataLen)
  let scratch := blocks.scratch ++ (originHeader (includedOrigin env insertion) ++
    (toplevelXidHeader env ++ mainDataHeader mainrdataLen))
  let datas := blocks.datas ++ (if mainrdataLen > 0 then insertion.mainrdata else [])
  let totalLen := blocks.totalLen + mainrdataLen + (sizeOfXLogRecord + scratch.length)
  let crc := compCrc32c env (compCrc32c env initCrc32c scratch) datas.flatten
  ensure (totalLen ≤ xlogRecordMaxSize) (recordTooLong totalLen rmid info)
  .ok
    { header :=
        { xlTotLen := totalLen
          xlXid := env.currentTransactionId
          xlPrev := 0
          xlInfo := info
          xlRmid := rmid
          xlCrc := crc }
      scratch := scratch
      datas := datas
      fpwLsn := blocks.fpwLsn
      numFpi := blocks.numFpi
      topxidIncluded := env.subxactTopXidLogPending }

end FortressQL.Wal.RecordAssemble
