import FortressQL.Wal.RecordDecode
import FortressQL.Wal.RecordInsert

/-!
# Reading WAL records

`xlogreader.c`: `XLogDecodeNextRecord` reads pages through the `page_read` callback and a cache of
one page. The queue of decoded records, their memory and the state of a failed reader are left out.
-/

namespace FortressQL.Wal.RecordReader

open Lib.ByteStrings Lib.ByteMemory
open Storage.BufPage (maxalign)
open Wal.BytePositions Wal.PageHeaders Wal.RecordAssemble Wal.RecordDecode Wal.RecordFormat
open Wal.RecordInsert Wal.Segments
open Wal.Write (lsnFormat)

/-- The callback: at least as many bytes of the page as asked for, or none. -/
abbrev PageRead := Nat → Nat → Option Bytes

/-- What `read_local_xlog_page` reads of a log that is flushed up to a position. -/
def readLocalXLogPage (memory : Memory) (readUpto : Nat) : PageRead := fun targetPagePtr reqLen =>
  if targetPagePtr + xlogBlcksz ≤ readUpto then some (load memory targetPagePtr xlogBlcksz)
  else if targetPagePtr + reqLen > readUpto then none
  else some (load memory targetPagePtr (readUpto - targetPagePtr))

structure XLogReaderState where
  size : WalSegmentSize
  systemIdentifier : UInt64
  wsSegno : Nat
  wsTli : Nat
  segoff : Nat
  readLen : Nat
  readBuf : Bytes
  latestPagePtr : Nat
  latestPageTLI : TimeLineID
  readRecPtr : Nat
  decodeRecPtr : Nat
  nextRecPtr : Nat
  overwrittenRecPtr : Nat

def xlogBeginRead (size : WalSegmentSize) (systemIdentifier : UInt64) (recPtr : Nat) :
    XLogReaderState :=
  { size := size
    systemIdentifier := systemIdentifier
    wsSegno := 0
    wsTli := 0
    segoff := 0
    readLen := 0
    readBuf := []
    latestPagePtr := 0
    latestPageTLI := 0
    readRecPtr := 0
    decodeRecPtr := 0
    nextRecPtr := recPtr
    overwrittenRecPtr := 0 }

def hex4 (value : Nat) : String :=
  let digits := (Nat.toDigits 16 value).map Char.toUpper
  String.ofList (List.replicate (4 - digits.length) '0' ++ digits)

section PageHeader

variable (state : XLogReaderState) (recptr : Nat)

def pageLocation : String :=
  s!" in WAL segment {xlogFileName state.wsTli (recptr / state.size.bytes) state.size}, LSN " ++
    lsnFormat recptr ++ s!", offset {xlogSegmentOffset recptr state.size}"

def invalidMagic (magic : UInt16) : String :=
  "invalid magic number " ++ hex4 magic.toNat ++ pageLocation state recptr

def invalidInfoBits (info : UInt16) : String :=
  "invalid info bits " ++ hex4 info.toNat ++ pageLocation state recptr

def differentSystem (sysid : UInt64) : String :=
  "WAL file is from different database system: WAL file database system identifier is " ++
    s!"{sysid.toNat}, pg_control database system identifier is {state.systemIdentifier.toNat}"

def differentSegmentSize : String :=
  "WAL file is from different database system: incorrect segment size in page header"

def differentBlockSize : String :=
  "WAL file is from different database system: incorrect XLOG_BLCKSZ in page header"

def unexpectedPageaddr (pageaddr : Nat) : String :=
  "unexpected pageaddr " ++ lsnFormat pageaddr ++ pageLocation state recptr

def outOfSequenceTli (tli : TimeLineID) : String :=
  s!"out-of-sequence timeline ID {tli.toNat} (after {state.latestPageTLI.toNat})" ++
    pageLocation state recptr

/-- The further fields of a long header, and that a segment starts with one. -/
def validateHeaderKind (phdr : Bytes) : Reads Unit :=
  let hdr := parseXLogPageHeader phdr
  if hasFlag hdr.xlpInfo xlpLongHeader then do
    let longhdr := parseLongFields phdr
    demand (¬ (state.systemIdentifier ≠ 0 ∧ longhdr.xlpSysid ≠ state.systemIdentifier))
      (differentSystem state longhdr.xlpSysid)
    demand (longhdr.xlpSegSize = state.size.bytes) differentSegmentSize
    demand (longhdr.xlpXlogBlcksz = xlogBlcksz) differentBlockSize
  else
    demand (xlogSegmentOffset recptr state.size ≠ 0) (invalidInfoBits state recptr hdr.xlpInfo)

def xlogReaderValidatePageHeader (phdr : Bytes) : Reads XLogReaderState := do
  let hdr := parseXLogPageHeader phdr
  demand (hdr.xlpMagic = xlogPageMagic) (invalidMagic state recptr hdr.xlpMagic)
  demand (hdr.xlpInfo &&& ~~~xlpAllFlags = 0) (invalidInfoBits state recptr hdr.xlpInfo)
  validateHeaderKind state recptr phdr
  demand (hdr.xlpPageaddr = recptr) (unexpectedPageaddr state recptr hdr.xlpPageaddr)
  demand (¬ (recptr > state.latestPagePtr ∧ hdr.xlpTli < state.latestPageTLI))
    (outOfSequenceTli state recptr hdr.xlpTli)
  .ok { state with latestPagePtr := recptr, latestPageTLI := hdr.xlpTli }

end PageHeader

section Pages

variable (pageRead : PageRead)

/-- A read that fails reports nothing of its own. -/
def pageReadOrFail (pageptr reqLen : Nat) : Reads Bytes :=
  match pageRead pageptr reqLen with
  | none => .error ""
  | some buf => .ok buf

/-- The first page of a segment is checked whenever the reader comes to another segment. -/
def checkSegment (state : XLogReaderState) (pageptr : Nat) : Reads XLogReaderState :=
  let targetPageOff := xlogSegmentOffset pageptr state.size
  if pageptr / state.size.bytes ≠ state.wsSegno ∧ targetPageOff ≠ 0 then do
    let buf ← pageReadOrFail pageRead (pageptr - targetPageOff) xlogBlcksz
    xlogReaderValidatePageHeader state (pageptr - targetPageOff) buf
  else .ok state

def readPageInternal (state : XLogReaderState) (pageptr reqLen : Nat) : Reads XLogReaderState :=
  let targetSegNo := pageptr / state.size.bytes
  let targetPageOff := xlogSegmentOffset pageptr state.size
  if targetSegNo = state.wsSegno ∧ targetPageOff = state.segoff ∧ reqLen ≤ state.readLen then
    .ok state
  else do
    let state ← checkSegment pageRead state pageptr
    let start ← pageReadOrFail pageRead pageptr (max reqLen sizeOfXLogShortPHD)
    demand (start.length > sizeOfXLogShortPHD) ""
    let headerSize := xlogPageHeaderSize (parseXLogPageHeader start)
    let buf ←
      if start.length < headerSize then pageReadOrFail pageRead pageptr headerSize else .ok start
    let state ← xlogReaderValidatePageHeader state pageptr buf
    .ok { state with
      wsSegno := targetSegNo
      segoff := targetPageOff
      readLen := buf.length
      readBuf := buf }

end Pages

section Records

def invalidRecordLength (recPtr xlTotLen : Nat) : String :=
  "invalid record length at " ++ lsnFormat recPtr ++
    s!": expected at least {sizeOfXLogRecord}, got {xlTotLen}"

def incorrectPrevLink (recPtr xlPrev : Nat) : String :=
  "record with incorrect prev-link " ++ lsnFormat xlPrev ++ " at " ++ lsnFormat recPtr

def validXLogRecordHeader (recPtr prevRecPtr : Nat) (record : XLogRecord) (randAccess : Bool) :
    Reads Unit := do
  demand (record.xlTotLen ≥ sizeOfXLogRecord) (invalidRecordLength recPtr record.xlTotLen)
  demand (rmgrIdIsValid record.xlRmid = true)
    (s!"invalid resource manager ID {record.xlRmid.toNat} at " ++ lsnFormat recPtr)
  if randAccess then
    demand (record.xlPrev < recPtr) (incorrectPrevLink recPtr record.xlPrev)
  else demand (record.xlPrev = prevRecPtr) (incorrectPrevLink recPtr record.xlPrev)

variable (crcByte : UInt32 → UInt8 → UInt32)

/-- The checksum covers the data first and then the header up to the checksum. -/
def validXLogRecord (record : Bytes) (recptr : Nat) : Reads Unit :=
  let header := parseXLogRecord record
  let data := (record.drop sizeOfXLogRecord).take (header.xlTotLen - sizeOfXLogRecord)
  let crc := (record.take crcOffset).foldl crcByte (data.foldl crcByte initCrc32c)
  demand (header.xlCrc = finCrc32c crc)
    ("incorrect resource manager data checksum in record at " ++ lsnFormat recptr)

/-- What the caller learns of a failure: the message, and where a record was broken off. -/
structure ReadFailure where
  errormsg : String
  abortedRecPtr : Nat
  missingContrecPtr : Nat

def failure {Value : Type} (abortedRecPtr missingContrecPtr : Nat) (result : Reads Value) :
    Except ReadFailure Value :=
  match result with
  | .error errormsg => .error { errormsg, abortedRecPtr, missingContrecPtr }
  | .ok value => .ok value

structure Reassembly where
  state : XLogReaderState
  targetPagePtr : Nat
  readRecordBuf : Bytes
  gotlen : Nat
  gotheader : Bool

/-- A page either continues the record or replaces what was missing of it. -/
inductive PageOutcome where
  | continued (reassembly : Reassembly)
  | overwritten (state : XLogReaderState) (targetPagePtr : Nat)

variable (pageRead : PageRead) (recPtr totalLen : Nat) (randAccess : Bool)

def invalidContrecordLength (remLen gotlen : Nat) : String :=
  s!"invalid contrecord length {remLen} (expected {(totalLen : Int) - gotlen}) at " ++
    lsnFormat recPtr

def readMore (state : XLogReaderState) (pageptr needed : Nat) : Reads XLogReaderState :=
  if state.readLen < needed then readPageInternal pageRead state pageptr needed else .ok state

/-- The continuation on a page whose header is in order. -/
def appendPage (reassembly : Reassembly) (state : XLogReaderState) (targetPagePtr : Nat) :
    Reads Reassembly := do
  let state ← readPageInternal pageRead state targetPagePtr
    (min (totalLen - reassembly.gotlen + sizeOfXLogShortPHD) xlogBlcksz)
  let pageHeaderSize := xlogPageHeaderSize (parseXLogPageHeader state.readBuf)
  let state ← readMore pageRead state targetPagePtr pageHeaderSize
  let len := min (xlogBlcksz - pageHeaderSize) (parseXLogPageHeader state.readBuf).xlpRemLen
  let state ← readMore pageRead state targetPagePtr (pageHeaderSize + len)
  let readRecordBuf :=
    reassembly.readRecordBuf ++ (state.readBuf.drop pageHeaderSize).take len
  if reassembly.gotheader = false then
    validXLogRecordHeader recPtr state.decodeRecPtr (parseXLogRecord readRecordBuf) randAccess
  .ok
    { state := state
      targetPagePtr := targetPagePtr
      readRecordBuf := readRecordBuf
      gotlen := reassembly.gotlen + len
      gotheader := true }

def reassemblePage (reassembly : Reassembly) : Reads PageOutcome := do
  let targetPagePtr := reassembly.targetPagePtr + xlogBlcksz
  let state ← readPageInternal pageRead reassembly.state targetPagePtr sizeOfXLogShortPHD
  let pageHeader := parseXLogPageHeader state.readBuf
  if hasFlag pageHeader.xlpInfo xlpFirstIsOverwriteContrecord then
    .ok (.overwritten state targetPagePtr)
  else do
    demand (hasFlag pageHeader.xlpInfo xlpFirstIsContrecord = true)
      ("there is no contrecord flag at " ++ lsnFormat recPtr)
    demand (pageHeader.xlpRemLen ≠ 0 ∧
        totalLen = (pageHeader.xlpRemLen + reassembly.gotlen) % uint32Range)
      (invalidContrecordLength recPtr totalLen pageHeader.xlpRemLen reassembly.gotlen)
    let next ← appendPage pageRead recPtr totalLen randAccess reassembly state targetPagePtr
    .ok (.continued next)

/-- The loop; every page contributes a byte at least, so that the length bounds the rounds. -/
def reassemble : Nat → Reassembly → Except ReadFailure PageOutcome
  | 0, reassembly => failure recPtr reassembly.targetPagePtr (.error "")
  | rounds + 1, reassembly => do
      let outcome ← failure recPtr (reassembly.targetPagePtr + xlogBlcksz)
        (reassemblePage pageRead recPtr totalLen randAccess reassembly)
      match outcome with
      | .overwritten state targetPagePtr => .ok (.overwritten state targetPagePtr)
      | .continued next =>
        if next.gotlen < totalLen then reassemble rounds next else .ok (.continued next)

structure ReadRecord where
  lsn : Nat
  nextLsn : Nat
  decoded : DecodedXLogRecord

/-- An attempt reads a record or has to go on with a record that replaces it. -/
inductive Attempt where
  | done (state : XLogReaderState) (record : ReadRecord)
  | restart (state : XLogReaderState) (recPtr : Nat)

/-- An xlog-switch record extends to the end of its segment. -/
def nextRecPtr (size : WalSegmentSize) (record : XLogRecord) (endPtr : Nat) : Nat :=
  if isXLogSwitch record then
    endPtr + (size.bytes - 1) - xlogSegmentOffset (endPtr + (size.bytes - 1)) size
  else endPtr

def finishRead (state : XLogReaderState) (record : Bytes) (endPtr : Nat) : Reads Attempt := do
  validXLogRecord crcByte record recPtr
  let next := nextRecPtr state.size (parseXLogRecord record) endPtr
  let decoded ← decodeXLogRecord state.readRecPtr record
  .ok (.done { state with decodeRecPtr := recPtr, nextRecPtr := next }
    { lsn := recPtr, nextLsn := next, decoded := decoded })

def readSpanning (state : XLogReaderState) (targetPagePtr : Nat) (gotheader : Bool) :
    Except ReadFailure Attempt := do
  let len := xlogBlcksz - recPtr % xlogBlcksz
  let outcome ← reassemble pageRead recPtr totalLen randAccess totalLen
    { state := state
      targetPagePtr := targetPagePtr
      readRecordBuf := (state.readBuf.drop (recPtr % xlogBlcksz)).take len
      gotlen := len
      gotheader := gotheader }
  match outcome with
  | .overwritten state targetPagePtr =>
    .ok (.restart { state with overwrittenRecPtr := recPtr } targetPagePtr)
  | .continued final =>
    let pageHeader := parseXLogPageHeader final.state.readBuf
    failure recPtr final.targetPagePtr
      (finishRead crcByte recPtr final.state final.readRecordBuf
        (final.targetPagePtr + xlogPageHeaderSize pageHeader + maxalign pageHeader.xlpRemLen))

def readOnPage (state : XLogReaderState) (targetPagePtr : Nat) : Reads Attempt := do
  let state ← readPageInternal pageRead state targetPagePtr
    (min (recPtr % xlogBlcksz + totalLen) xlogBlcksz)
  finishRead crcByte recPtr state ((state.readBuf.drop (recPtr % xlogBlcksz)).take totalLen)
    (recPtr + maxalign totalLen)

end Records

section Decode

variable (crcByte : UInt32 → UInt8 → UInt32) (pageRead : PageRead)

def invalidRecordOffset (recPtr expected offset : Nat) : String :=
  "invalid record offset at " ++ lsnFormat recPtr ++ s!": expected at least {expected}, got {offset}"

/-- Where the record starts: behind the page header, if the position is that of a page. -/
def recordStart (state : XLogReaderState) (recPtr : Nat) : Reads Nat := do
  let pageHeader := parseXLogPageHeader state.readBuf
  let pageHeaderSize := xlogPageHeaderSize pageHeader
  let targetRecOff := recPtr % xlogBlcksz
  demand (targetRecOff = 0 ∨ pageHeaderSize ≤ targetRecOff)
    (invalidRecordOffset recPtr pageHeaderSize targetRecOff)
  let start := if targetRecOff = 0 then recPtr + pageHeaderSize else recPtr
  let startOff := if targetRecOff = 0 then pageHeaderSize else targetRecOff
  demand (¬ (hasFlag pageHeader.xlpInfo xlpFirstIsContrecord = true ∧ startOff = pageHeaderSize))
    ("contrecord is requested by " ++ lsnFormat start)
  .ok start

/-- The header is checked at once if it is all there; otherwise its length is. -/
def checkStart (state : XLogReaderState) (recPtr : Nat) (randAccess : Bool) :
    Reads (Nat × Bool) := do
  let record := parseXLogRecord (state.readBuf.drop (recPtr % xlogBlcksz))
  if recPtr % xlogBlcksz ≤ xlogBlcksz - sizeOfXLogRecord then do
    validXLogRecordHeader recPtr state.decodeRecPtr record randAccess
    .ok (record.xlTotLen, true)
  else do
    demand (record.xlTotLen ≥ sizeOfXLogRecord) (invalidRecordLength recPtr record.xlTotLen)
    .ok (record.xlTotLen, false)

/-- One pass from the label `restart`. -/
def decodeAttempt (state : XLogReaderState) (recPtr : Nat) (randAccess : Bool) :
    Except ReadFailure Attempt := do
  let targetPagePtr := recPtr - recPtr % xlogBlcksz
  let (state, start, totalLen, gotheader) ← failure 0 0 do
    let state ← readPageInternal pageRead state targetPagePtr
      (min (recPtr % xlogBlcksz + sizeOfXLogRecord) xlogBlcksz)
    let start ← recordStart state recPtr
    let (totalLen, gotheader) ← checkStart state start randAccess
    .ok (state, start, totalLen, gotheader)
  if totalLen > xlogBlcksz - start % xlogBlcksz then
    readSpanning crcByte pageRead start totalLen randAccess state targetPagePtr gotheader
  else failure 0 0 (readOnPage crcByte pageRead start totalLen state targetPagePtr)

def decodeAttempts (randAccess : Bool) : Nat → XLogReaderState → Nat →
    Except ReadFailure (XLogReaderState × ReadRecord)
  | 0, _, _ => failure 0 0 (.error "")
  | restarts + 1, state, recPtr => do
      match ← decodeAttempt crcByte pageRead state recPtr randAccess with
      | .done state record => .ok (state, record)
      | .restart state recPtr => decodeAttempts randAccess restarts state recPtr

/-- `XLogDecodeNextRecord`. Every restart is a page further on, so that the log up to `readUpto`
bounds their number. -/
def xlogDecodeNextRecord (readUpto : Nat) (state : XLogReaderState) :
    Except ReadFailure (XLogReaderState × ReadRecord) :=
  decodeAttempts crcByte pageRead (state.decodeRecPtr == 0) (readUpto / xlogBlcksz + 1) state
    state.nextRecPtr

def readRecords (readUpto : Nat) : Nat → XLogReaderState →
    Except ReadFailure (XLogReaderState × List ReadRecord)
  | 0, state => .ok (state, [])
  | count + 1, state => do
      let (next, record) ← xlogDecodeNextRecord crcByte pageRead readUpto state
      let (final, records) ← readRecords readUpto count next
      .ok (final, record :: records)

end Decode

end FortressQL.Wal.RecordReader
