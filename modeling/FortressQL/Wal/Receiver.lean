import FortressQL.Lib.Runs
import FortressQL.Wal.SegmentSigning

/-!
# The WAL receiver

`walreceiver.c`: the messages of the primary, the segment files, and `XLogWalRcvClose` with the
check of the signature. Replies, wakeups and timeouts are left out.
-/

namespace FortressQL.Wal.Receiver

open Elog Lib.Files Wal.Segments Wal.SegmentSigning Wal.SigningKeys

inductive LogLevel where
  | log
  | warning
  | error
  deriving DecidableEq

structure LogMessage where
  level : LogLevel
  errmsg : String
  errhint : String := ""
  deriving DecidableEq

def verificationFailed (xlogfname : String) : LogMessage :=
  { level := .warning
    errmsg := "FortressQL: PQC signature verification failed for received WAL segment " ++ xlogfname
    errhint := "The WAL segment may have been tampered with during replication. " ++
      "Investigate the primary server and network path." }

def signatureVerified (xlogfname : String) : LogMessage :=
  { level := .log
    errmsg := "FortressQL: PQC signature verified for WAL segment " ++ xlogfname }

def couldNotVerify (xlogfname : String) : LogMessage :=
  { level := .warning
    errmsg := "FortressQL: could not verify PQC signature for WAL segment " ++ xlogfname }

def emitErrorReport (report : ErrorReport) : LogMessage :=
  { level := .error, errmsg := report.errmsg, errhint := report.errhint }

/-- The settings that the receiver reads; `none` is a null pointer. -/
structure Settings where
  walPqcVerifyOnReceive : Bool
  walPqcKeyPath : Option String
  walPqcSigningAlgorithmString : Option String
  archiveModeAlways : Bool

inductive ArchiveStatus where
  | done
  | ready
  deriving DecidableEq

/-- `otherProcesses` is what others have done to the files by the time so many segments are closed,
`pwrite` how many bytes a write gets through, zero if it fails. -/
structure ReceiverEnv where
  server : ServerEnv
  size : WalSegmentSize
  settings : Settings
  otherProcesses : Nat → Disk → Disk
  pwrite : Nat → Nat
  fsyncFails : Nat → Bool

/-- What a call of `XLogWalRcvClose` found when it came to the check. -/
structure Closing where
  env : ReceiverEnv
  recvFileTLI : Nat
  recvSegNo : Nat
  keys : WalKeys
  disk : Disk

/-- The variables of the receiver, the shared positions, the files, the marks for the archiver and
the log. `closings` records the calls of `XLogWalRcvClose`. -/
structure WalReceiver where
  recvFile : Bool
  recvFileTLI : Nat
  recvSegNo : Nat
  startpointTLI : Nat
  logstreamWrite : Nat
  logstreamFlush : Nat
  writtenUpto : Nat
  flushedUpto : Nat
  latestChunkStart : Nat
  receivedTLI : Nat
  disk : Disk
  archiveStatus : List (String × ArchiveStatus)
  keys : WalKeys
  serverLog : List LogMessage
  closings : List Closing

def xlByteInSeg (recptr segNo : Nat) (size : WalSegmentSize) : Bool := recptr / size.bytes = segNo

def walFilePanic (errmsg : String) : ErrorReport :=
  { elevel := .panic, errcode := .fileAccess, errmsg := errmsg }

def couldNotCreateSegment (path : String) : ErrorReport :=
  { elevel := .error, errcode := .fileAccess, errmsg := s!"could not create file \"{path}\"" }

def invalidMessage (errmsg : String) : ErrorReport :=
  { elevel := .error, errcode := .protocolViolation, errmsg := errmsg }

def xlogWalRcvFlush (env : ReceiverEnv) (tli : Nat) (receiver : WalReceiver) : Raises WalReceiver :=
  if receiver.logstreamFlush < receiver.logstreamWrite then do
    ensure (env.fsyncFails receiver.recvSegNo = false)
      (walFilePanic
        s!"could not fsync file \"{xlogFileName tli receiver.recvSegNo env.size}\"")
    let flushed := { receiver with logstreamFlush := receiver.logstreamWrite }
    .ok (if flushed.flushedUpto < flushed.logstreamFlush then
      { flushed with
        latestChunkStart := flushed.flushedUpto
        flushedUpto := flushed.logstreamFlush
        receivedTLI := tli }
    else flushed)
  else .ok receiver

/-- The condition under which a closed segment is verified, with the key path. -/
def Settings.verifies (settings : Settings) : Option String :=
  match settings.walPqcKeyPath with
  | none => none
  | some keyPath =>
    if settings.walPqcVerifyOnReceive = true ∧ keyPath ≠ "" then some keyPath else none

/-- The body of the `PG_TRY`: the keys are loaded and the segment is verified. -/
def loadAndVerify (env : ReceiverEnv) (keys : WalKeys) (disk : Disk) (keyPath xlogfname : String) :
    WalKeys × Raises Bool :=
  match pqcWalLoadSigningKeys env.server.liboqs env.server.host disk keys keyPath
      (env.settings.walPqcSigningAlgorithmString.getD "ML-DSA-65") with
  | (loaded, .error report) => (loaded, .error report)
  | (loaded, .ok _) => pqcWalVerifySegment env.server loaded disk ("pg_wal/" ++ xlogfname)

/-- What the `PG_TRY` and the `PG_CATCH` write to the log. What is raised in there is an
`ERROR`, so it is caught. -/
def verdictMessages (xlogfname : String) : Raises Bool → List LogMessage
  | .ok true => [signatureVerified xlogfname]
  | .ok false => [verificationFailed xlogfname]
  | .error report => [emitErrorReport report, couldNotVerify xlogfname]

def verifyReceived (env : ReceiverEnv) (receiver : WalReceiver) : WalReceiver :=
  let xlogfname := xlogFileName receiver.recvFileTLI receiver.recvSegNo env.size
  match env.settings.verifies with
  | none => receiver
  | some keyPath =>
    let outcome := loadAndVerify env receiver.keys receiver.disk keyPath xlogfname
    { receiver with
      keys := outcome.1
      serverLog := receiver.serverLog ++ verdictMessages xlogfname outcome.2 }

def closingFound (env : ReceiverEnv) (receiver : WalReceiver) : Closing :=
  { env := env
    recvFileTLI := receiver.recvFileTLI
    recvSegNo := receiver.recvSegNo
    keys := receiver.keys
    disk := receiver.disk }

def recordClosing (env : ReceiverEnv) (receiver : WalReceiver) : WalReceiver :=
  { receiver with closings := receiver.closings ++ [closingFound env receiver] }

def markForArchiver (env : ReceiverEnv) (receiver : WalReceiver) : WalReceiver :=
  { receiver with
    recvFile := false
    archiveStatus := receiver.archiveStatus ++
      [(xlogFileName receiver.recvFileTLI receiver.recvSegNo env.size,
        if env.settings.archiveModeAlways = true then .ready else .done)] }

def couldNotClose (xlogfname : String) : ErrorReport :=
  walFilePanic s!"could not close WAL segment {xlogfname}"

def closeRecvFile (env : ReceiverEnv) (receiver : WalReceiver) : Raises WalReceiver := do
  ensure
    (env.server.host.closes
      (xlogFilePath receiver.recvFileTLI receiver.recvSegNo env.size) = true)
    (couldNotClose (xlogFileName receiver.recvFileTLI receiver.recvSegNo env.size))
  .ok { receiver with disk := env.otherProcesses receiver.closings.length receiver.disk }

def xlogWalRcvClose (env : ReceiverEnv) (tli : Nat) (receiver : WalReceiver) :
    Raises WalReceiver := do
  let flushed ← xlogWalRcvFlush env tli receiver
  let closed ← closeRecvFile env flushed
  .ok (markForArchiver env (verifyReceived env (recordClosing env closed)))

/-- The test for a completed segment, at the start of each round and at the end. -/
def closeCompleted (env : ReceiverEnv) (tli recptr : Nat) (receiver : WalReceiver) :
    Raises WalReceiver :=
  if receiver.recvFile = true ∧ xlByteInSeg recptr receiver.recvSegNo env.size = false then
    xlogWalRcvClose env tli receiver
  else .ok receiver

/-- `XLogFileInit`: the segment that is there, or a new one of zeros. -/
def xlogFileInit (size : WalSegmentSize) (disk : Disk) (path : String) : Disk :=
  match disk path with
  | some _ => disk
  | none => disk.write path (List.replicate size.bytes 0)

def openSegment (env : ReceiverEnv) (tli recptr : Nat) (receiver : WalReceiver) :
    Raises WalReceiver :=
  if receiver.recvFile = true then .ok receiver
  else do
    let segNo := recptr / env.size.bytes
    let path := xlogFilePath tli segNo env.size
    ensure (env.server.host.creates path = true) (couldNotCreateSegment path)
    .ok { receiver with
      recvFile := true
      recvSegNo := segNo
      recvFileTLI := tli
      disk := xlogFileInit env.size receiver.disk path }

def overwrite (content : Bytes) (offset : Nat) (data : Bytes) : Bytes :=
  content.take offset ++ List.replicate (offset - content.length) 0 ++ data ++
    content.drop (offset + data.length)

/-- The bytes go to the open file, which others may have removed. -/
def pgPwrite (disk : Disk) (path : String) (data : Bytes) (offset : Nat) : Disk :=
  match disk path with
  | none => disk
  | some content => disk.write path (overwrite content offset data)

def segmentBytes (size : WalSegmentSize) (startoff nbytes : Nat) : Nat :=
  if startoff + nbytes > size.bytes then size.bytes - startoff else nbytes

def couldNotWriteSegment (xlogfname : String) (startoff segbytes : Nat) : ErrorReport :=
  walFilePanic
    s!"could not write to WAL segment {xlogfname} at offset {startoff}, length {segbytes}"

/-- The position is a `uint64` in the source; it does not wrap here, so the two agree as long as the
data ends below 2^64. -/
def writeRound (env : ReceiverEnv) (tli recptr : Nat) (buf : Bytes) (receiver : WalReceiver) :
    Raises (WalReceiver × Nat) := do
  let closed ← closeCompleted env tli recptr receiver
  let opened ← openSegment env tli recptr closed
  let startoff := xlogSegmentOffset recptr env.size
  let segbytes := segmentBytes env.size startoff buf.length
  let byteswritten := min segbytes (env.pwrite recptr)
  ensure (byteswritten ≠ 0)
    (couldNotWriteSegment (xlogFileName opened.recvFileTLI opened.recvSegNo env.size)
      startoff segbytes)
  .ok ({ opened with
    disk := pgPwrite opened.disk (xlogFilePath opened.recvFileTLI opened.recvSegNo env.size)
      (buf.take byteswritten) startoff
    logstreamWrite := recptr + byteswritten }, byteswritten)

/-- The loop of `XLogWalRcvWrite`; every round writes a byte at least, so as many rounds as there
are bytes are enough. -/
def writeLoop (env : ReceiverEnv) (tli : Nat) : Nat → Nat → Bytes → WalReceiver →
    Raises (WalReceiver × Nat)
  | 0, recptr, _, receiver => .ok (receiver, recptr)
  | rounds + 1, recptr, buf, receiver =>
    if buf = [] then .ok (receiver, recptr)
    else do
      let (next, byteswritten) ← writeRound env tli recptr buf receiver
      writeLoop env tli rounds (recptr + byteswritten) (buf.drop byteswritten) next

def xlogWalRcvWrite (env : ReceiverEnv) (tli recptr : Nat) (buf : Bytes) (receiver : WalReceiver) :
    Raises WalReceiver := do
  let (written, endptr) ← writeLoop env tli buf.length recptr buf receiver
  closeCompleted env tli endptr { written with writtenUpto := written.logstreamWrite }

def pqGetmsgint64 (buf : Bytes) : Nat :=
  (buf.take 8).foldl (fun value byte => value * 256 + byte.toNat) 0

def xlogWalRcvProcessMsg (env : ReceiverEnv) (type : UInt8) (buf : Bytes) (receiver : WalReceiver) :
    Raises WalReceiver :=
  if type = 119 then do
    ensure (24 ≤ buf.length) (invalidMessage "invalid WAL message received from primary")
    xlogWalRcvWrite env receiver.startpointTLI (pqGetmsgint64 buf) (buf.drop 24) receiver
  else if type = 107 then do
    ensure (buf.length = 17) (invalidMessage "invalid keepalive message received from primary")
    .ok receiver
  else .error (invalidMessage s!"invalid replication message type {type}")

/-- The end of the timeline: the open segment is flushed, closed and marked, without a check. -/
def closeLastSegment (env : ReceiverEnv) (receiver : WalReceiver) : Raises WalReceiver :=
  if receiver.recvFile = true then do
    let flushed ← xlogWalRcvFlush env receiver.startpointTLI receiver
    let closed ← closeRecvFile env flushed
    .ok (markForArchiver env closed)
  else .ok receiver

/-- Streaming ends, and starts again where the startup process asks for it. -/
def endOfWal (env : ReceiverEnv) (startpointTLI replayPtr : Nat) (receiver : WalReceiver) :
    Raises WalReceiver := do
  let closed ← closeLastSegment env receiver
  .ok { closed with
    startpointTLI := startpointTLI
    logstreamWrite := replayPtr
    logstreamFlush := replayPtr }

inductive ReceiverOp where
  | message (type : UInt8) (buf : Bytes)
  | flush
  | endOfWal (startpointTLI replayPtr : Nat)

def receiverStep (receiver : WalReceiver) (event : ReceiverEnv × ReceiverOp) : Raises WalReceiver :=
  match event.2 with
  | .message type buf => xlogWalRcvProcessMsg event.1 type buf receiver
  | .flush => xlogWalRcvFlush event.1 receiver.startpointTLI receiver
  | .endOfWal startpointTLI replayPtr => endOfWal event.1 startpointTLI replayPtr receiver

end FortressQL.Wal.Receiver
