import FortressQL.Wal.SignQueue

/-!
# Writing the log

`XLogWrite` with its loop over the WAL buffers, and `AdvanceXLInsertBuffer`. The contents of the
pages are left out, and failing file operations end in a `PANIC`.
-/

namespace FortressQL.Wal.Write

open Elog Lib.Queues Wal.Segments Wal.SignQueue

structure XLogwrt where
  write : Nat
  flush : Nat
  deriving DecidableEq, Repr

/-- The fields of `XLogCtl` that writing uses: for each buffer the end of the page it holds,
the highest buffer index, and the positions. -/
structure XLogCtl where
  xlblocks : Nat → Nat
  xlogCacheBlck : Nat
  initializedUpTo : Nat
  logwrtRqst : XLogwrt
  logWriteResult : Nat
  logFlushResult : Nat

structure WalProcess where
  logwrtResult : XLogwrt
  openLogFile : Bool
  openLogSegNo : Nat
  openLogTLI : Nat
  signQueue : PqcSignQueue

/-- The file operations that fail, and whether `wal_sync_method` makes writes synchronous. -/
structure WalFiles where
  openFails : Nat → Bool
  writeFails : Nat → Nat → Bool
  fsyncFails : Nat → Bool
  syncOnWrite : Bool

structure WriteEnv where
  size : WalSegmentSize
  walPqcSigning : Bool
  files : WalFiles

def xlogRecPtrToBufIdx (ctl : XLogCtl) (recptr : Nat) : Nat :=
  (recptr / xlogBlcksz) % (ctl.xlogCacheBlck + 1)

def nextBufIdx (ctl : XLogCtl) (idx : Nat) : Nat :=
  if idx = ctl.xlogCacheBlck then 0 else idx + 1

def panicReport (errcode : Errcode) (errmsg : String) : ErrorReport :=
  { elevel := .panic, errcode := errcode, errmsg := errmsg }

def lsnFormat (lsn : Nat) : String :=
  String.ofList ((Nat.toDigits 16 (lsn / 2 ^ 32)).map Char.toUpper) ++ "/" ++
    String.ofList ((Nat.toDigits 16 (lsn % 2 ^ 32)).map Char.toUpper)

def pastEndOfLog (write endPtr : Nat) : ErrorReport :=
  panicReport .internalError
    ("xlog write request " ++ lsnFormat write ++ " is past end of log " ++ lsnFormat endPtr)

def couldNotOpen (path : String) : ErrorReport :=
  panicReport .fileAccess s!"could not open file \"{path}\""

def couldNotFsync (fname : String) : ErrorReport :=
  panicReport .fileAccess s!"could not fsync file \"{fname}\""

def couldNotWrite (fname : String) (offset len : Nat) : ErrorReport :=
  panicReport .fileAccess
    s!"could not write to log file \"{fname}\" at offset {offset}, length {len}"

def openLogSegment (env : WriteEnv) (tli : Nat) (process : WalProcess) : Raises WalProcess := do
  let segno := xlByteToPrevSeg process.logwrtResult.write env.size
  ensure (env.files.openFails segno = false) (couldNotOpen (xlogFilePath tli segno env.size))
  .ok { process with openLogFile := true, openLogSegNo := segno, openLogTLI := tli }

/-- The loop's file switch: to the segment of the page, and to an open file. -/
def switchSegment (env : WriteEnv) (tli : Nat) (process : WalProcess) : Raises WalProcess :=
  if ¬XLByteInPrevSeg process.logwrtResult.write process.openLogSegNo env.size ∨
      process.openLogFile = false then
    openLogSegment env tli process
  else .ok process

/-- The variables of the loop; `startidx` only locates the bytes to write. -/
structure WriteLoop where
  process : WalProcess
  curridx : Nat
  npages : Nat
  startoffset : Nat

/-- `LogwrtResult.Write`. -/
abbrev WriteLoop.written (loop : WriteLoop) : Nat := loop.process.logwrtResult.write

/-- What follows the write of the pending pages: if they end the segment, it is synced and
queued for signing. -/
def finishSegment (env : WriteEnv) (tli : Nat) (finishingSeg : Prop) [Decidable finishingSeg]
    (process : WalProcess) : Raises WalProcess :=
  if finishingSeg then do
    ensure (env.files.fsyncFails process.openLogSegNo = false)
      (couldNotFsync (xlogFileName tli process.openLogSegNo env.size))
    .ok { process with
      logwrtResult := { process.logwrtResult with flush := process.logwrtResult.write }
      signQueue :=
        if env.walPqcSigning = true then
          xlogPqcEnqueueSign process.signQueue { segno := process.openLogSegNo, tli := tli }
        else process.signQueue }
  else .ok process

def dumpPages (env : WriteEnv) (tli : Nat) (due finishingSeg : Prop) [Decidable due]
    [Decidable finishingSeg] (loop : WriteLoop) : Raises WriteLoop :=
  if due then do
    ensure (env.files.writeFails loop.process.openLogSegNo loop.startoffset = false)
      (couldNotWrite (xlogFileName tli loop.process.openLogSegNo env.size) loop.startoffset
        (loop.npages * xlogBlcksz))
    let process ← finishSegment env tli finishingSeg loop.process
    .ok { loop with
      process := process
      npages := 0
      startoffset := loop.startoffset + loop.npages * xlogBlcksz }
  else .ok loop

/-- The file offset of the first pending page, once the page before `endPtr` has joined. -/
def pendingOffset (env : WriteEnv) (endPtr : Nat) (loop : WriteLoop) : Nat :=
  if loop.npages = 0 then xlogSegmentOffset (endPtr - xlogBlcksz) env.size else loop.startoffset

def addPage (env : WriteEnv) (endPtr : Nat) (loop : WriteLoop) (process : WalProcess) : WriteLoop :=
  { loop with
    process := process
    npages := loop.npages + 1
    startoffset := pendingOffset env endPtr loop }

/-- The end of an iteration: whether the loop goes on, and with which variables. -/
def endIteration (ctl : XLogCtl) (rqst : XLogwrt) (flexible : Bool) (ispartialpage : Prop)
    [Decidable ispartialpage] (loop : WriteLoop) : WriteLoop × Bool :=
  if ispartialpage then
    ({ loop with
        process := { loop.process with
          logwrtResult := { loop.process.logwrtResult with write := rqst.write } } }, false)
  else
    ({ loop with curridx := nextBufIdx ctl loop.curridx },
      ¬(flexible = true ∧ loop.npages = 0))

def FinishingSeg (env : WriteEnv) (rqst : XLogwrt) (endPtr : Nat) (loop : WriteLoop) : Prop :=
  ¬rqst.write < endPtr ∧
    pendingOffset env endPtr loop + (loop.npages + 1) * xlogBlcksz ≥ env.size.bytes

instance (env : WriteEnv) (rqst : XLogwrt) (endPtr : Nat) (loop : WriteLoop) :
    Decidable (FinishingSeg env rqst endPtr loop) :=
  inferInstanceAs (Decidable (_ ∧ _))

def DumpDue (env : WriteEnv) (ctl : XLogCtl) (rqst : XLogwrt) (endPtr : Nat)
    (loop : WriteLoop) : Prop :=
  rqst.write ≤ endPtr ∨ loop.curridx = ctl.xlogCacheBlck ∨ FinishingSeg env rqst endPtr loop

instance (env : WriteEnv) (ctl : XLogCtl) (rqst : XLogwrt) (endPtr : Nat) (loop : WriteLoop) :
    Decidable (DumpDue env ctl rqst endPtr loop) :=
  inferInstanceAs (Decidable (_ ∨ _))

def writePage (env : WriteEnv) (ctl : XLogCtl) (rqst : XLogwrt) (tli : Nat) (flexible : Bool)
    (endPtr : Nat) (loop : WriteLoop) : Raises (WriteLoop × Bool) := do
  ensure (loop.process.logwrtResult.write < endPtr)
    (pastEndOfLog loop.process.logwrtResult.write endPtr)
  let process ← switchSegment env tli { loop.process with
    logwrtResult := { loop.process.logwrtResult with write := endPtr } }
  let dumped ← dumpPages env tli (DumpDue env ctl rqst endPtr loop)
    (FinishingSeg env rqst endPtr loop) (addPage env endPtr loop process)
  .ok (endIteration ctl rqst flexible (rqst.write < endPtr) dumped)

variable {env : WriteEnv} {tli : Nat} {process next : WalProcess} {loop : WriteLoop} {ctl : XLogCtl}
  {rqst : XLogwrt}

theorem open_segment_returns (opened : openLogSegment env tli process = .ok next) :
    next = { process with
      openLogFile := true
      openLogSegNo := xlByteToPrevSeg process.logwrtResult.write env.size
      openLogTLI := tli } := by
  simp only [openLogSegment, sequence_returns] at opened
  obtain ⟨-, -, result⟩ := opened
  exact (Except.ok.inj result).symm

theorem switch_segment_returns (switched : switchSegment env tli process = .ok next) :
    next.openLogSegNo = xlByteToPrevSeg process.logwrtResult.write env.size ∧
      next.logwrtResult = process.logwrtResult ∧ next.signQueue = process.signQueue := by
  unfold switchSegment at switched
  split_ifs at switched with other
  · rw [open_segment_returns switched]
    exact ⟨rfl, rfl, rfl⟩
  · obtain rfl := Except.ok.inj switched
    rw [not_or, not_not] at other
    exact ⟨other.1.symm, rfl, rfl⟩

def queueFinished (env : WriteEnv) (tli : Nat) (process : WalProcess) : PqcSignQueue :=
  if env.walPqcSigning = true then
    process.signQueue.push { segno := process.openLogSegNo, tli := tli }
  else process.signQueue

theorem finish_segment_returns {finishingSeg : Prop} [Decidable finishingSeg]
    (finished : finishSegment env tli finishingSeg process = .ok next) :
    next.logwrtResult.write = process.logwrtResult.write ∧
      next.signQueue =
        if finishingSeg then queueFinished env tli process else process.signQueue := by
  unfold finishSegment at finished
  by_cases finishing : finishingSeg
  · simp only [if_pos finishing, sequence_returns] at finished
    obtain ⟨-, -, result⟩ := finished
    obtain rfl := Except.ok.inj result
    exact ⟨rfl, by rw [if_pos finishing]; rfl⟩
  · rw [if_neg finishing] at finished
    obtain rfl := Except.ok.inj finished
    exact ⟨rfl, by rw [if_neg finishing]⟩

theorem dump_pages_returns {due finishingSeg : Prop} [Decidable due] [Decidable finishingSeg]
    {next : WriteLoop} (covered : finishingSeg → due)
    (dumped : dumpPages env tli due finishingSeg loop = .ok next) :
    next.curridx = loop.curridx ∧
      next.process.logwrtResult.write = loop.process.logwrtResult.write ∧
      next.process.signQueue =
        (if finishingSeg then queueFinished env tli loop.process else loop.process.signQueue) ∧
      (due ∧ next.npages = 0 ∨
        ¬due ∧ next.npages = loop.npages ∧ next.startoffset = loop.startoffset) := by
  unfold dumpPages at dumped
  split_ifs at dumped with written
  · simp only [sequence_returns] at dumped
    obtain ⟨-, -, process, finished, result⟩ := dumped
    obtain rfl := Except.ok.inj result
    obtain ⟨write, queue⟩ := finish_segment_returns finished
    exact ⟨rfl, write, queue, .inl ⟨written, rfl⟩⟩
  · obtain rfl := Except.ok.inj dumped
    have unfinished : ¬finishingSeg := fun finishing => written (covered finishing)
    exact ⟨rfl, rfl, by rw [if_neg unfinished], .inr ⟨written, rfl, rfl⟩⟩

theorem write_page_returns {flexible : Bool} {endPtr : Nat} {outcome : WriteLoop × Bool}
    (written : writePage env ctl rqst tli flexible endPtr loop = .ok outcome) :
    loop.process.logwrtResult.write < endPtr ∧
      ∃ dumped : WriteLoop,
        outcome = endIteration ctl rqst flexible (rqst.write < endPtr) dumped ∧
        dumped.curridx = loop.curridx ∧
        dumped.process.logwrtResult.write = endPtr ∧
        dumped.process.signQueue =
          (if FinishingSeg env rqst endPtr loop ∧ env.walPqcSigning = true then
            loop.process.signQueue.push
              { segno := xlByteToPrevSeg endPtr env.size, tli := tli }
          else loop.process.signQueue) ∧
        (DumpDue env ctl rqst endPtr loop ∧ dumped.npages = 0 ∨
          ¬DumpDue env ctl rqst endPtr loop ∧ dumped.npages = loop.npages + 1 ∧
            dumped.startoffset = pendingOffset env endPtr loop) := by
  simp only [writePage, sequence_returns, ensure_returns] at written
  obtain ⟨-, ahead, process, switched, dumped, dumps, result⟩ := written
  obtain ⟨sameSegment, sameResult, sameQueue⟩ := switch_segment_returns switched
  obtain ⟨index, write, queue, pending⟩ :=
    dump_pages_returns (fun finishing => .inr (.inr finishing)) dumps
  refine ⟨ahead, dumped, (Except.ok.inj result).symm, index, ?_, ?_, pending⟩
  · rw [write]
    exact congrArg XLogwrt.write sameResult
  · rw [queue]
    simp only [addPage, queueFinished]
    split_ifs <;> simp_all

theorem write_page_advances {flexible : Bool} {endPtr : Nat} {next : WriteLoop}
    (written : writePage env ctl rqst tli flexible endPtr loop = .ok (next, true)) :
    loop.process.logwrtResult.write < next.process.logwrtResult.write := by
  obtain ⟨ahead, dumped, outcome, -, write, -⟩ := write_page_returns written
  unfold endIteration at outcome
  split_ifs at outcome with partialPage
  · simp at outcome
  · rw [(Prod.mk.inj outcome).1]
    change _ < dumped.process.logwrtResult.write
    omega

/-- The loop of `XLogWrite`. It ends: each iteration that goes on has moved ahead. -/
def writeLoop (env : WriteEnv) (ctl : XLogCtl) (rqst : XLogwrt) (tli : Nat) (flexible : Bool)
    (loop : WriteLoop) : Raises WriteLoop :=
  if loop.process.logwrtResult.write < rqst.write then
    match _ : writePage env ctl rqst tli flexible (ctl.xlblocks loop.curridx) loop with
    | .error report => .error report
    | .ok (next, false) => .ok next
    | .ok (next, true) => writeLoop env ctl rqst tli flexible next
  else .ok loop
termination_by rqst.write - loop.process.logwrtResult.write
decreasing_by
  have ahead := write_page_advances ‹_›
  omega

/-- The flush at the end of `XLogWrite`: its file switch is that of the loop. -/
def flushWritten (env : WriteEnv) (rqst : XLogwrt) (tli : Nat) (process : WalProcess) :
    Raises WalProcess :=
  if process.logwrtResult.flush < rqst.flush ∧
      process.logwrtResult.flush < process.logwrtResult.write then
    if env.files.syncOnWrite = true then
      .ok { process with
        logwrtResult := { process.logwrtResult with flush := process.logwrtResult.write } }
    else do
      let opened ← switchSegment env tli process
      ensure (env.files.fsyncFails opened.openLogSegNo = false)
        (couldNotFsync (xlogFileName tli opened.openLogSegNo env.size))
      .ok { opened with
        logwrtResult := { opened.logwrtResult with flush := opened.logwrtResult.write } }
  else .ok process

/-- The shared positions after a write; the requests do not fall behind the results. -/
def publish (ctl : XLogCtl) (result : XLogwrt) : XLogCtl :=
  { ctl with
    logwrtRqst :=
      { write := max ctl.logwrtRqst.write result.write
        flush := max ctl.logwrtRqst.flush result.flush }
    logWriteResult := result.write
    logFlushResult := result.flush }

def startLoop (ctl : XLogCtl) (process : WalProcess) : WriteLoop :=
  { process := { process with
      logwrtResult := { write := ctl.logWriteResult, flush := ctl.logFlushResult } }
    curridx := xlogRecPtrToBufIdx ctl ctl.logWriteResult
    npages := 0
    startoffset := 0 }

def xlogWrite (env : WriteEnv) (ctl : XLogCtl) (process : WalProcess) (rqst : XLogwrt)
    (tli : Nat) (flexible : Bool) : Raises (XLogCtl × WalProcess) := do
  let loop ← writeLoop env ctl rqst tli flexible (startLoop ctl process)
  let flushed ← flushWritten env rqst tli loop.process
  .ok (publish ctl flushed.logwrtResult, flushed)

/-- One iteration of `AdvanceXLInsertBuffer`: an old page not yet written ends an opportunistic
call, and makes another one write the log first. -/
def advanceXLInsertBuffer (env : WriteEnv) (ctl : XLogCtl) (process : WalProcess) (tli : Nat)
    (opportunistic : Bool) : Raises (XLogCtl × WalProcess) :=
  let nextidx := xlogRecPtrToBufIdx ctl ctl.initializedUpTo
  if ctl.logWriteResult < ctl.xlblocks nextidx then
    if opportunistic = true then .ok (ctl, process)
    else
      xlogWrite env
        { ctl with logwrtRqst := { ctl.logwrtRqst with
            write := max ctl.logwrtRqst.write (ctl.xlblocks nextidx) } }
        process { write := ctl.xlblocks nextidx, flush := 0 } tli false
  else
    .ok ({ ctl with
      xlblocks := Function.update ctl.xlblocks nextidx (ctl.initializedUpTo + xlogBlcksz)
      initializedUpTo := ctl.initializedUpTo + xlogBlcksz }, process)

end FortressQL.Wal.Write
