import FortressQL.Lib.Runs
import FortressQL.Wal.WriteInvariant
import Mathlib.Data.List.Flatten

/-!
# Runs of the deferred signing

The segments a process completes fall into periods that end with a drain; of each period the queue
keeps the first `PQC_SIGN_QUEUE_SIZE`.
-/

namespace FortressQL.Wal.SigningRuns

open Elog Lib.Files Lib.Queues Lib.Runs Wal.Segments Wal.SigningKeys Wal.SegmentSigning
open Wal.SignQueue Wal.Write Wal.WriteInvariant

/-- `XLogFlush` and `XLogBackgroundFlush` drain the queue behind `XLogWrite`,
`AdvanceXLInsertBuffer` does not. -/
inductive WalCall where
  | xlogWrite (rqst : XLogwrt) (tli : Nat) (flexible : Bool)
  | advanceXLInsertBuffer (tli : Nat) (opportunistic : Bool)

def WalCall.tli : WalCall → Nat
  | .xlogWrite _ tli _ => tli
  | .advanceXLInsertBuffer tli _ => tli

def WalCall.run (env : WriteEnv) (ctl : XLogCtl) (process : WalProcess) :
    WalCall → Raises (XLogCtl × WalProcess)
  | .xlogWrite rqst tli flexible => Write.xlogWrite env ctl process rqst tli flexible
  | .advanceXLInsertBuffer tli opportunistic =>
    Write.advanceXLInsertBuffer env ctl process tli opportunistic

inductive WalOp where
  | own (files : WalFiles) (call : WalCall)
  | other (files : WalFiles) (process : WalProcess) (call : WalCall)
  | processDeferredSigning (disk : Disk) (coins : SegmentId → Bytes)

structure Period where
  completed : List SegmentId
  handed : List SegmentId
  result : Raises Unit

structure WalWorld where
  ctl : XLogCtl
  process : WalProcess
  keys : WalKeys
  handed : List SegmentId
  ended : List Period
  current : List SegmentId

def WalWorld.periods (world : WalWorld) : List (List SegmentId) :=
  world.ended.map Period.completed ++ [world.current]

def WalWorld.completed (world : WalWorld) : List SegmentId := world.periods.flatten

def WalWorld.accounted (world : WalWorld) : List SegmentId :=
  world.handed ++ world.process.signQueue.items

def WalWorld.env (size : WalSegmentSize) (files : WalFiles) (world : WalWorld) : WriteEnv :=
  { size := size
    walPqcSigning := world.keys.walPqcSigning
    files := files }

def walStep (server : ServerEnv) (size : WalSegmentSize) (world : WalWorld) :
    WalOp → Raises WalWorld
  | .own files call => do
      let (ctl, process) ← call.run (world.env size files) world.ctl world.process
      .ok { world with
        ctl := ctl
        process := process
        current := world.current ++
          completedSegments size call.tli world.ctl.logWriteResult ctl.logWriteResult }
  | .other files process call => do
      let (ctl, _) ← call.run (world.env size files) world.ctl process
      .ok { world with ctl := ctl }
  | .processDeferredSigning disk coins =>
    let (queue, drain) := xlogPqcProcessDeferredSigning server size coins world.keys disk
      world.process.signQueue
    .ok { world with
      process := { world.process with signQueue := queue }
      keys := drain.keys
      handed := world.handed ++ drain.handed
      ended := world.ended ++
        [{ completed := world.current, handed := drain.handed, result := drain.result }]
      current := [] }

def startupXLOG (xlogCacheBlck endOfLog : Nat) : XLogCtl :=
  let idx := (endOfLog / xlogBlcksz) % (xlogCacheBlck + 1)
  { xlblocks := fun other =>
      if endOfLog % xlogBlcksz ≠ 0 ∧ other = idx then pageEnd endOfLog else 0
    xlogCacheBlck := xlogCacheBlck
    initializedUpTo := if endOfLog % xlogBlcksz ≠ 0 then pageEnd endOfLog else endOfLog
    logwrtRqst := { write := endOfLog, flush := endOfLog }
    logWriteResult := endOfLog
    logFlushResult := endOfLog }

def newProcess (endOfLog : Nat) : WalProcess :=
  { logwrtResult := { write := endOfLog, flush := endOfLog }
    openLogFile := false
    openLogSegNo := 0
    openLogTLI := 0
    signQueue := emptyQueue }

def startWorld (xlogCacheBlck endOfLog : Nat) (keys : WalKeys) : WalWorld :=
  { ctl := startupXLOG xlogCacheBlck endOfLog
    process := newProcess endOfLog
    keys := keys
    handed := []
    ended := []
    current := [] }

theorem startup_buffers (xlogCacheBlck endOfLog : Nat) :
    BuffersHoldUnwritten (startupXLOG xlogCacheBlck endOfLog) := by
  have above := page_end_above endOfLog
  have ends : xlogBlcksz ∣ pageEnd endOfLog := Nat.dvd_add (Dvd.intro_left _ rfl) (dvd_refl _)
  by_cases whole : endOfLog % xlogBlcksz = 0
  -- At a page boundary no buffer is in use; otherwise only the one of the partial page is.
  · have partialPage : ¬(endOfLog % xlogBlcksz ≠ 0) := not_not.mpr whole
    have initialized : (startupXLOG xlogCacheBlck endOfLog).initializedUpTo = endOfLog :=
      if_neg partialPage
    have unused : ∀ idx, (startupXLOG xlogCacheBlck endOfLog).xlblocks idx = 0 :=
      fun idx => if_neg fun used => partialPage used.1
    exact
      { aligned := by rw [initialized]; exact Nat.dvd_of_mod_eq_zero whole
        written := by rw [initialized]; exact le_rfl
        resident := fun position unwritten old => by
          rw [initialized] at old
          exact absurd unwritten (Nat.not_lt.mpr old)
        bounded := fun idx => by rw [unused idx]; exact Nat.zero_le _ }
  · have initialized : (startupXLOG xlogCacheBlck endOfLog).initializedUpTo = pageEnd endOfLog :=
      if_pos whole
    exact
      { aligned := by rw [initialized]; exact ends
        written := by rw [initialized]; exact above.le
        resident := fun position unwritten old => by
          rw [initialized] at old
          change endOfLog < pageEnd position at unwritten
          have samePage : position / xlogBlcksz = endOfLog / xlogBlcksz := by
            simp only [pageEnd, xlogBlcksz] at old unwritten ⊢
            omega
          have used : endOfLog % xlogBlcksz ≠ 0 ∧
              xlogRecPtrToBufIdx (startupXLOG xlogCacheBlck endOfLog) position =
                (endOfLog / xlogBlcksz) % (xlogCacheBlck + 1) :=
            ⟨whole, by rw [xlogRecPtrToBufIdx, samePage]; rfl⟩
          change (if _ then pageEnd endOfLog else 0) = pageEnd position
          rw [if_pos used, pageEnd, pageEnd, samePage]
        bounded := fun idx => by
          rw [initialized]
          change (if _ then pageEnd endOfLog else 0) ≤ pageEnd endOfLog
          split_ifs
          · exact le_rfl
          · exact Nat.zero_le _ }

structure Accounts (size : WalSegmentSize) (world : WalWorld) : Prop where
  signing : world.keys.walPqcSigning = true
  buffers : BuffersHoldUnwritten world.ctl
  waiting : world.process.signQueue.items = world.current.take pqcSignQueueSize
  handed : world.handed = world.ended.flatMap Period.handed
  drained : ∀ period ∈ world.ended,
    period.handed <+: period.completed.take pqcSignQueueSize ∧
      (period.result = .ok () → period.handed = period.completed.take pqcSignQueueSize)
  ordered : world.completed.Pairwise fun earlier later => earlier.segno < later.segno
  behind : ∀ segment ∈ world.completed, segment.segno < world.ctl.logWriteResult / size.bytes

theorem start_accounts (size : WalSegmentSize) (xlogCacheBlck endOfLog : Nat) (keys : WalKeys)
    (signing : keys.walPqcSigning = true) :
    Accounts size (startWorld xlogCacheBlck endOfLog keys) :=
  { signing := signing
    buffers := startup_buffers xlogCacheBlck endOfLog
    waiting := rfl
    handed := rfl
    drained := fun _ ended => absurd ended List.not_mem_nil
    ordered := List.Pairwise.nil
    behind := fun _ completed => absurd completed List.not_mem_nil }

section Step

variable {server : ServerEnv} {size : WalSegmentSize} {world next : WalWorld} {process : WalProcess}
  {call : WalCall} {files : WalFiles}

theorem call_writes {env : WriteEnv} {ctl after : XLogCtl} {left : WalProcess}
    (buffers : BuffersHoldUnwritten ctl) (signing : env.walPqcSigning = true)
    (called : call.run env ctl process = .ok (after, left)) :
    WritesLog env call.tli ctl after process.signQueue left.signQueue := by
  cases call with
  | xlogWrite rqst tli flexible => exact (xlog_write_writes buffers signing called).1
  | advanceXLInsertBuffer tli opportunistic => exact advance_writes buffers signing called

theorem completed_current (world : WalWorld) :
    world.completed = (world.ended.map Period.completed).flatten ++ world.current := by
  simp [WalWorld.completed, WalWorld.periods]

theorem completed_segments_ordered (tli start stop : Nat) :
    (completedSegments size tli start stop).Pairwise
      fun earlier later => earlier.segno < later.segno :=
  List.pairwise_map.mpr (segments_finished_increasing size start stop)

theorem completed_segments_bounds {tli start stop : Nat} {segment : SegmentId}
    (completed : segment ∈ completedSegments size tli start stop) :
    start / size.bytes ≤ segment.segno ∧ segment.segno < stop / size.bytes := by
  obtain ⟨segno, finished, rfl⟩ := List.mem_map.mp completed
  exact segments_finished_bounds finished

theorem own_step_accounts (accounts : Accounts size world)
    (stepped : walStep server size world (.own files call) = .ok next) : Accounts size next := by
  simp only [walStep, sequence_returns, Prod.exists] at stepped
  obtain ⟨ctl, process, called, result⟩ := stepped
  obtain ⟨buffers, forward, queued⟩ := call_writes accounts.buffers accounts.signing called
  obtain rfl := Except.ok.inj result
  have segments : world.ctl.logWriteResult / size.bytes ≤ ctl.logWriteResult / size.bytes :=
    Nat.div_le_div_right forward
  have completed : ∀ current, WalWorld.completed
      { world with ctl := ctl, process := process, current := world.current ++ current } =
        world.completed ++ current := by
    intro current
    rw [completed_current, completed_current, List.append_assoc]
  exact
    { signing := accounts.signing
      buffers := buffers
      waiting := by
        -- A queue that was full stays full: cutting twice is cutting once.
        rw [queued, push_all_items, accounts.waiting, cut_then_append]
        rfl
      handed := accounts.handed
      drained := accounts.drained
      ordered := by
        rw [completed, List.pairwise_append]
        refine ⟨accounts.ordered, completed_segments_ordered _ _ _,
          fun earlier before later new => ?_⟩
        exact lt_of_lt_of_le (accounts.behind earlier before) (completed_segments_bounds new).1
      behind := fun segment member => by
        rw [completed, List.mem_append] at member
        rcases member with before | new
        · exact lt_of_lt_of_le (accounts.behind segment before) segments
        · exact (completed_segments_bounds new).2 }

theorem other_step_accounts (accounts : Accounts size world)
    (stepped : walStep server size world (.other files process call) = .ok next) :
    Accounts size next := by
  simp only [walStep, sequence_returns, Prod.exists] at stepped
  obtain ⟨ctl, left, called, result⟩ := stepped
  -- Another process queues what it completes for itself.
  obtain ⟨buffers, forward, -⟩ := call_writes accounts.buffers accounts.signing called
  obtain rfl := Except.ok.inj result
  exact
    { accounts with
      buffers := buffers
      behind := fun segment member =>
        lt_of_lt_of_le (accounts.behind segment member) (Nat.div_le_div_right forward) }

theorem drain_step_accounts (accounts : Accounts size world) {disk : Disk}
    {coins : SegmentId → Bytes}
    (stepped : walStep server size world (.processDeferredSigning disk coins) = .ok next) :
    Accounts size next := by
  obtain rfl := Except.ok.inj stepped
  obtain ⟨initialized, keys⟩ := sign_loop_keys server size coins world.keys disk
    world.process.signQueue.items
  have drained := sign_loop_handed server size coins world.keys disk world.process.signQueue.items
  rw [accounts.waiting] at drained
  have completed : ∀ (keys : WalKeys) (process : WalProcess) (handed : List SegmentId)
      (period : Period), period.completed = world.current →
      WalWorld.completed
        { world with
          process := process, keys := keys, handed := handed
          ended := world.ended ++ [period], current := [] } = world.completed := by
    intro keys process handed period same
    rw [completed_current, completed_current, List.map_append, List.map_singleton, same,
      List.flatten_concat, List.append_nil]
  exact
    { signing := by
        rw [keys]
        exact accounts.signing
      buffers := accounts.buffers
      waiting := rfl
      handed := by
        rw [List.flatMap_append, ← accounts.handed, List.flatMap_singleton]
      drained := fun period ended => by
        rcases List.mem_append.mp ended with earlier | last
        · exact accounts.drained period earlier
        · obtain rfl := List.mem_singleton.mp last
          simp only [accounts.waiting]
          exact drained
      ordered := by
        rw [completed _ _ _ _ rfl]
        exact accounts.ordered
      behind := fun segment member => by
        rw [completed _ _ _ _ rfl] at member
        exact accounts.behind segment member }

theorem step_accounts (world : WalWorld) (op : WalOp) (next : WalWorld)
    (stepped : walStep server size world op = .ok next) (accounts : Accounts size world) :
    Accounts size next := by
  cases op with
  | own files call => exact own_step_accounts accounts stepped
  | other files process call => exact other_step_accounts accounts stepped
  | processDeferredSigning disk coins => exact drain_step_accounts accounts stepped

end Step

theorem accounted_cut {size : WalSegmentSize} {world : WalWorld} (accounts : Accounts size world)
    (unraised : ∀ period ∈ world.ended, period.result = .ok ()) :
    world.accounted = world.periods.flatMap (List.take pqcSignQueueSize) := by
  have handed : world.ended.flatMap Period.handed =
      (world.ended.map Period.completed).flatMap (List.take pqcSignQueueSize) := by
    rw [List.flatMap_map]
    exact List.flatMap_congr fun period ended =>
      (accounts.drained period ended).2 (unraised period ended)
  rw [WalWorld.accounted, WalWorld.periods, List.flatMap_append, accounts.handed, handed,
    accounts.waiting, List.flatMap_singleton]

theorem accounted_sublist {size : WalSegmentSize} {world : WalWorld}
    (accounts : Accounts size world) : world.accounted.Sublist world.completed := by
  rw [WalWorld.accounted, completed_current, accounts.handed, accounts.waiting]
  apply List.Sublist.append
  · apply List.Sublist.flatMap_right
    intro period ended
    exact (accounts.drained period ended).1.sublist.trans (List.take_sublist _ _)
  · exact List.take_sublist _ _

theorem run_accounts {server : ServerEnv} {size : WalSegmentSize} {xlogCacheBlck endOfLog : Nat}
    {keys : WalKeys} {ops : List WalOp} {world : WalWorld} (signing : keys.walPqcSigning = true)
    (ran : runFallible (walStep server size) (startWorld xlogCacheBlck endOfLog keys) ops =
      .ok world) : Accounts size world :=
  fallible_invariant (walStep server size) (Accounts size) step_accounts _ _ ops ran
    (start_accounts size xlogCacheBlck endOfLog keys signing)

/-- Segments handed over or waiting are completed segments, in order. If no drain raised they are
the first ones of each period, and all exactly if no period completed more than the queue holds. -/
theorem signing_account (server : ServerEnv) (size : WalSegmentSize) (xlogCacheBlck endOfLog : Nat)
    (keys : WalKeys) (ops : List WalOp) (world : WalWorld) (signing : keys.walPqcSigning = true)
    (ran : runFallible (walStep server size) (startWorld xlogCacheBlck endOfLog keys) ops =
      .ok world) :
    world.completed.Nodup ∧ world.accounted.Sublist world.completed ∧
      ((∀ period ∈ world.ended, period.result = .ok ()) →
        world.accounted = world.periods.flatMap (List.take pqcSignQueueSize) ∧
          (world.accounted = world.completed ↔
            ∀ period ∈ world.periods, period.length ≤ pqcSignQueueSize)) := by
  have accounts := run_accounts signing ran
  refine ⟨?_, accounted_sublist accounts, fun unraised => ?_⟩
  · apply accounts.ordered.imp
    intro earlier later before same
    rw [same] at before
    exact lt_irrefl _ before
  · have cut := accounted_cut accounts unraised
    rw [cut]
    exact ⟨rfl, cut_periods_eq_iff pqcSignQueueSize world.periods⟩

/-- The shared state after some pages were initialised from the start of the second segment,
with buffers for all of them. -/
def sampleCtl (pages : Nat) : XLogCtl :=
  { xlblocks := fun idx =>
      if 128 ≤ idx ∧ idx < 128 + pages then idx * xlogBlcksz + xlogBlcksz else 0
    xlogCacheBlck := 2047
    initializedUpTo := 128 * xlogBlcksz + pages * xlogBlcksz
    logwrtRqst := { write := 128 * xlogBlcksz, flush := 128 * xlogBlcksz }
    logWriteResult := 128 * xlogBlcksz
    logFlushResult := 128 * xlogBlcksz }

def sampleWorld (pages : Nat) : WalWorld :=
  { startWorld 2047 (128 * xlogBlcksz) initialKeys with ctl := sampleCtl pages }

def faultlessFiles : WalFiles :=
  { openFails := fun _ => false
    writeFails := fun _ _ => false
    fsyncFails := fun _ => false
    syncOnWrite := false }

def sampleAdvance : WalOp := .own faultlessFiles (.advanceXLInsertBuffer 1 true)

def sampleRqst : XLogwrt := { write := 1280 * xlogBlcksz, flush := 1280 * xlogBlcksz }

def sampleWrite : WalOp := .own faultlessFiles (.xlogWrite sampleRqst 1 false)

def sampleEnv : ServerEnv := sampleServer fun _ => Vector.replicate 32 0

theorem sample_startup : startupXLOG 2047 (128 * xlogBlcksz) = sampleCtl 0 := by
  have whole : ¬(128 * xlogBlcksz % xlogBlcksz ≠ 0) := by decide
  have empty : (fun other => if 128 * xlogBlcksz % xlogBlcksz ≠ 0 ∧
      other = 128 * xlogBlcksz / xlogBlcksz % (2047 + 1) then pageEnd (128 * xlogBlcksz) else 0) =
        (sampleCtl 0).xlblocks := by
    funext other
    exact (if_neg (by omega)).symm
  simp only [startupXLOG, empty]
  rfl

variable {pages : Nat}

theorem sample_ctl_advance (env : WriteEnv) (process : WalProcess) (few : pages < 1152) :
    advanceXLInsertBuffer env (sampleCtl pages) process 1 true =
      .ok (sampleCtl (pages + 1), process) := by
  have slot : xlogRecPtrToBufIdx (sampleCtl pages) (sampleCtl pages).initializedUpTo =
      128 + pages := by
    simp only [xlogRecPtrToBufIdx, sampleCtl, xlogBlcksz]
    omega
  have unused : (sampleCtl pages).xlblocks (128 + pages) = 0 := if_neg (by omega)
  have taken : Function.update (sampleCtl pages).xlblocks (128 + pages)
      ((sampleCtl pages).initializedUpTo + xlogBlcksz) = (sampleCtl (pages + 1)).xlblocks := by
    funext idx
    by_cases same : idx = 128 + pages
    · rw [same, Function.update_self]
      simp only [sampleCtl, xlogBlcksz]
      rw [if_pos (by omega)]
      omega
    · rw [Function.update_of_ne same]
      simp only [sampleCtl]
      congr 1
      simp only [eq_iff_iff]
      omega
  simp only [advanceXLInsertBuffer, slot, unused, Nat.not_lt_zero, if_false, taken]
  simp only [sampleCtl, xlogBlcksz, Except.ok.injEq, Prod.mk.injEq, XLogCtl.mk.injEq, true_and,
    and_true]
  omega

theorem sample_advance (few : pages < 1152) :
    walStep sampleEnv smallestSegmentSize (sampleWorld pages) sampleAdvance =
      .ok (sampleWorld (pages + 1)) := by
  have advanced := sample_ctl_advance
    ((sampleWorld pages).env smallestSegmentSize faultlessFiles) (sampleWorld pages).process few
  have nothing : completedSegments smallestSegmentSize 1 (sampleCtl pages).logWriteResult
      (sampleCtl (pages + 1)).logWriteResult = [] := by
    exact congrArg (List.map _) (segments_finished_none rfl)
  change (advanceXLInsertBuffer _ (sampleCtl pages) _ 1 true >>= _) = _
  rw [advanced]
  change Except.ok { sampleWorld (pages + 1) with
    current := [] ++ completedSegments smallestSegmentSize 1 (sampleCtl pages).logWriteResult
      (sampleCtl (pages + 1)).logWriteResult } = _
  rw [nothing]
  rfl

theorem sample_advances (count : Nat) (few : pages + count ≤ 1152) :
    runFallible (walStep sampleEnv smallestSegmentSize) (sampleWorld pages)
      (List.replicate count sampleAdvance) = .ok (sampleWorld (pages + count)) := by
  induction count generalizing pages with
  | zero => rfl
  | succ count ih =>
    rw [List.replicate_succ, runFallible, sample_advance (by omega)]
    rw [show pages + (count + 1) = pages + 1 + count by omega]
    exact ih (by omega)

def sampleSegments : List SegmentId :=
  [⟨1, 1⟩, ⟨2, 1⟩, ⟨3, 1⟩, ⟨4, 1⟩, ⟨5, 1⟩, ⟨6, 1⟩, ⟨7, 1⟩, ⟨8, 1⟩, ⟨9, 1⟩]

theorem sample_prepared :
    runFallible (walStep sampleEnv smallestSegmentSize)
      (startWorld 2047 (128 * xlogBlcksz) initialKeys) (List.replicate 1152 sampleAdvance) =
        .ok (sampleWorld 1152) := by
  rw [startWorld, sample_startup]
  exact sample_advances 1152 le_rfl

theorem sample_write :
    ∃ world, walStep sampleEnv smallestSegmentSize (sampleWorld 1152) sampleWrite = .ok world ∧
      world.current = sampleSegments ∧ world.ended = [] := by
  have accounts := run_accounts rfl sample_prepared
  obtain ⟨ctl, process, written⟩ : ∃ ctl process,
      Write.xlogWrite ((sampleWorld 1152).env smallestSegmentSize faultlessFiles)
        (sampleWorld 1152).ctl (sampleWorld 1152).process sampleRqst 1 false = .ok (ctl, process) :=
    xlog_write_proceeds ⟨fun _ => rfl, fun _ _ => rfl, fun _ => rfl⟩ accounts.buffers rfl
      (by decide) _ 1 false
  have reached : ctl.logWriteResult = 1280 * xlogBlcksz :=
    (xlog_write_writes accounts.buffers rfl written).2 rfl
  have completed : completedSegments smallestSegmentSize 1 (sampleWorld 1152).ctl.logWriteResult
      ctl.logWriteResult = sampleSegments := by
    rw [reached]
    rfl
  refine ⟨{ sampleWorld 1152 with ctl := ctl, process := process, current := sampleSegments },
    ?_, rfl, rfl⟩
  rw [sampleWrite, walStep, WalCall.run, written]
  change Except.ok { sampleWorld 1152 with
    ctl := ctl, process := process
    current := [] ++ completedSegments smallestSegmentSize 1 (sampleWorld 1152).ctl.logWriteResult
      ctl.logWriteResult } = _
  rw [completed]
  rfl

def sampleRun : Raises WalWorld :=
  runFallible (walStep sampleEnv smallestSegmentSize)
    (startWorld 2047 (128 * xlogBlcksz) initialKeys)
    (List.replicate 1152 sampleAdvance ++ [sampleWrite])

theorem sample_run :
    ∃ world, sampleRun = .ok world ∧ world.current = sampleSegments ∧ world.ended = [] := by
  obtain ⟨world, written, history⟩ := sample_write
  refine ⟨world, ?_, history⟩
  rw [sampleRun, run_fallible_append _ _ _ _ sample_prepared, runFallible, written]
  rfl

theorem sample_signing_account :
    ∃ world, sampleRun = .ok world ∧ world.completed.Nodup ∧
      (world.accounted = world.completed ↔ ∀ period ∈ world.periods, period.length ≤ 8) := by
  obtain ⟨world, ran, -, ended⟩ := sample_run
  have account := signing_account sampleEnv smallestSegmentSize 2047 (128 * xlogBlcksz)
    initialKeys _ world rfl ran
  have unraised : ∀ period ∈ world.ended, period.result = .ok () := by
    intro period member
    rw [ended] at member
    exact absurd member List.not_mem_nil
  exact ⟨world, ran, account.1, (account.2.2 unraised).2⟩

/-- Nine segments completed at once: the ninth is neither handed over nor waiting. -/
theorem ninth_segment_lost :
    ∃ world, sampleRun = .ok world ∧ world.completed = sampleSegments ∧
      world.accounted = sampleSegments.take 8 ∧ world.accounted ≠ world.completed := by
  obtain ⟨world, ran, current, ended⟩ := sample_run
  have accounts := run_accounts rfl ran
  have completed : world.completed = sampleSegments := by
    rw [completed_current, ended, current]
    rfl
  have accounted : world.accounted = sampleSegments.take 8 := by
    rw [WalWorld.accounted, accounts.handed, accounts.waiting, ended, current]
    rfl
  refine ⟨world, ran, completed, accounted, ?_⟩
  rw [completed, accounted]
  decide

/-- Whatever was written, initialised and drained before, the buffers hold what is not yet written,
so that a request up to the initialised pages does not panic. -/
theorem reachable_log_writable {server : ServerEnv} {size : WalSegmentSize}
    {xlogCacheBlck endOfLog : Nat} {keys : WalKeys} {ops : List WalOp} {world : WalWorld}
    (signing : keys.walPqcSigning = true)
    (ran : runFallible (walStep server size) (startWorld xlogCacheBlck endOfLog keys) ops =
      .ok world) :
    BuffersHoldUnwritten world.ctl ∧ ∀ files process rqst tli flexible, Faultless files →
      rqst.write ≤ world.ctl.initializedUpTo → ∃ next after,
        Write.xlogWrite (world.env size files) world.ctl process rqst tli flexible =
          .ok (next, after) ∧
        world.ctl.logWriteResult ≤ next.logWriteResult ∧
        (flexible = false → next.logWriteResult = max world.ctl.logWriteResult rqst.write) := by
  have accounts := run_accounts signing ran
  refine ⟨accounts.buffers, fun files process rqst tli flexible faultless requested => ?_⟩
  obtain ⟨next, after, written⟩ := @xlog_write_proceeds _ (world.env size files) _ faultless
    accounts.buffers accounts.signing requested process tli flexible
  obtain ⟨writes, reaches⟩ := xlog_write_writes accounts.buffers accounts.signing written
  exact ⟨next, after, written, writes.forward, reaches⟩

theorem sample_log_writable :
    ∃ next after, Write.xlogWrite ((sampleWorld 1152).env smallestSegmentSize faultlessFiles)
        (sampleCtl 1152) (newProcess 0) sampleRqst 1 false = .ok (next, after) ∧
      next.logWriteResult = 1280 * xlogBlcksz := by
  obtain ⟨next, after, written, -, reaches⟩ := (reachable_log_writable rfl sample_prepared).2
    faultlessFiles (newProcess 0) sampleRqst 1 false
    ⟨fun _ => rfl, fun _ _ => rfl, fun _ => rfl⟩ (by decide)
  exact ⟨next, after, written, reaches rfl⟩

end FortressQL.Wal.SigningRuns
