import FortressQL.Wal.Write

/-!
# What writing the log completes

The WAL buffers hold every page that is initialised and not yet written. So `XLogWrite` queues the
segments whose last byte lies between the old and the new write position.
-/

namespace FortressQL.Wal.WriteInvariant

open Function Elog Lib.Queues Wal.Segments Wal.SignQueue Wal.Write

variable {position tli : Nat} {dumped loop : WriteLoop} {ctl : XLogCtl} {queue : PqcSignQueue}
  {env : WriteEnv} {rqst : XLogwrt} {flexible : Bool}

def pageEnd (position : Nat) : Nat := position / xlogBlcksz * xlogBlcksz + xlogBlcksz

structure BuffersHoldUnwritten (ctl : XLogCtl) : Prop where
  aligned : xlogBlcksz ∣ ctl.initializedUpTo
  written : ctl.logWriteResult ≤ ctl.initializedUpTo
  resident : ∀ position, ctl.logWriteResult < pageEnd position →
    pageEnd position ≤ ctl.initializedUpTo →
      ctl.xlblocks (xlogRecPtrToBufIdx ctl position) = pageEnd position
  bounded : ∀ idx, ctl.xlblocks idx ≤ ctl.initializedUpTo

theorem page_end_above (position : Nat) : position < pageEnd position := by
  simp only [pageEnd, xlogBlcksz]
  omega

theorem page_end_least {stop : Nat} (aligned : xlogBlcksz ∣ stop) (above : position < stop) :
    pageEnd position ≤ stop := by
  simp only [pageEnd, xlogBlcksz] at *
  omega

theorem next_page_resident (holds : BuffersHoldUnwritten ctl)
    (forward : ctl.logWriteResult ≤ position)
    (ahead : position < ctl.xlblocks (xlogRecPtrToBufIdx ctl position)) :
    ctl.xlblocks (xlogRecPtrToBufIdx ctl position) = pageEnd position := by
  have above := page_end_above position
  have initialized := holds.bounded (xlogRecPtrToBufIdx ctl position)
  apply holds.resident position
  · omega
  · exact page_end_least holds.aligned (by omega)

theorem next_buf_idx (ctl : XLogCtl) (position : Nat) :
    nextBufIdx ctl (xlogRecPtrToBufIdx ctl position) =
      xlogRecPtrToBufIdx ctl (pageEnd position) := by
  have next : pageEnd position / xlogBlcksz = position / xlogBlcksz + 1 := by
    simp only [pageEnd, xlogBlcksz]
    omega
  have below : position / xlogBlcksz % (ctl.xlogCacheBlck + 1) < ctl.xlogCacheBlck + 1 :=
    Nat.mod_lt _ (Nat.succ_pos _)
  unfold nextBufIdx
  split_ifs with last
  · rw [xlogRecPtrToBufIdx, next, Nat.succ_mod_succ_eq_zero_iff.mpr last]
  · simp only [xlogRecPtrToBufIdx] at last ⊢
    have one : 1 % (ctl.xlogCacheBlck + 1) = 1 := Nat.mod_eq_of_lt (by omega)
    have sum := Nat.mod_eq_of_lt
      (show position / xlogBlcksz % (ctl.xlogCacheBlck + 1) + 1 < ctl.xlogCacheBlck + 1 by omega)
    rw [next, Nat.add_mod, one, sum]

def completedSegments (size : WalSegmentSize) (tli start stop : Nat) : List SegmentId :=
  (segmentsFinished size start stop).map fun segno => { segno := segno, tli := tli }

structure LoopInvariant (env : WriteEnv) (ctl : XLogCtl) (rqst : XLogwrt) (tli : Nat)
    (queue : PqcSignQueue) (loop : WriteLoop) : Prop where
  forward : ctl.logWriteResult ≤ loop.written
  requested : loop.written ≤ max ctl.logWriteResult rqst.write
  initialized : loop.written ≤ ctl.initializedUpTo
  index : loop.curridx = xlogRecPtrToBufIdx ctl loop.written
  pending : 0 < loop.npages →
    xlogBlcksz ∣ loop.written ∧ loop.written < rqst.write ∧
      loop.startoffset + loop.npages * xlogBlcksz = xlogSegmentOffset loop.written env.size
  queued : loop.process.signQueue =
    queue.pushAll (completedSegments env.size tli ctl.logWriteResult loop.written)

section

variable (holds : LoopInvariant env ctl rqst tli queue loop)

include holds

theorem pending_reach :
    pendingOffset env (pageEnd loop.written) loop + (loop.npages + 1) * xlogBlcksz =
      (loop.written / xlogBlcksz % env.size.pages + 1) * xlogBlcksz := by
  unfold pendingOffset
  split_ifs with first
  · rw [first, pageEnd, Nat.add_sub_cancel, page_segment_offset]
    ring
  · obtain ⟨⟨page, aligned⟩, -, reach⟩ := holds.pending (pos_of_ne_zero first)
    rw [aligned, mul_comm xlogBlcksz page, page_segment_offset] at reach
    have samePage : loop.written / xlogBlcksz = page := by
      rw [aligned]
      exact Nat.mul_div_cancel_left page (by decide)
    rw [samePage, add_mul, add_mul, ← add_assoc, reach]

theorem finishing_seg_iff :
    FinishingSeg env rqst (pageEnd loop.written) loop ↔
      ¬rqst.write < pageEnd loop.written ∧
        env.size.pages ≤ loop.written / xlogBlcksz % env.size.pages + 1 := by
  rw [FinishingSeg, pending_reach holds, segment_bytes_pages, mul_comm xlogBlcksz]
  exact and_congr_right fun _ => Nat.mul_le_mul_right_iff (by decide)

theorem pending_kept (undumped : ¬DumpDue env ctl rqst (pageEnd loop.written) loop) :
    xlogBlcksz ∣ pageEnd loop.written ∧ pageEnd loop.written < rqst.write ∧
      pendingOffset env (pageEnd loop.written) loop + (loop.npages + 1) * xlogBlcksz =
        xlogSegmentOffset (pageEnd loop.written) env.size := by
  simp only [DumpDue, not_or, not_le] at undumped
  obtain ⟨further, -, unfinished⟩ := undumped
  rw [finishing_seg_iff holds, not_and, not_le] at unfinished
  have within := unfinished (by omega)
  have nextPage : pageEnd loop.written = (loop.written / xlogBlcksz + 1) * xlogBlcksz := by
    rw [pageEnd, add_mul, one_mul]
  have one : 1 % env.size.pages = 1 := Nat.mod_eq_of_lt (by omega)
  rw [pending_reach holds, nextPage, page_segment_offset, Nat.add_mod, one, Nat.mod_eq_of_lt within]
  exact ⟨Dvd.intro_left _ rfl, nextPage ▸ further, rfl⟩

/-- One iteration completes what lies between its two write positions. -/
theorem iteration_completes (wanted : loop.written < rqst.write) :
    segmentsFinished env.size loop.written (min rqst.write (pageEnd loop.written)) =
      if FinishingSeg env rqst (pageEnd loop.written) loop then
        [xlByteToPrevSeg (pageEnd loop.written) env.size]
      else [] := by
  have reached := segments_finished_page env.size (rfl : loop.written / xlogBlcksz = _)
  have segment := prev_seg_of_page env.size (loop.written / xlogBlcksz)
  have finishing := finishing_seg_iff holds
  by_cases short : rqst.write < pageEnd loop.written
  · have unfinished : ¬FinishingSeg env rqst (pageEnd loop.written) loop :=
      fun finished => finished.1 short
    rw [if_neg unfinished]
    apply segments_finished_within
    simp only [pageEnd, xlogBlcksz] at short ⊢
    omega
  · rw [min_eq_right (by omega), pageEnd, reached, segment]
    simp only [pageEnd] at finishing short
    simp [finishing, short]

theorem iteration_queue (signing : env.walPqcSigning = true)
    (wanted : loop.written < rqst.write) :
    (if FinishingSeg env rqst (pageEnd loop.written) loop ∧
        env.walPqcSigning = true then
      loop.process.signQueue.push
        { segno := xlByteToPrevSeg (pageEnd loop.written) env.size, tli := tli }
    else loop.process.signQueue) = queue.pushAll (completedSegments env.size tli ctl.logWriteResult
        (min rqst.write (pageEnd loop.written))) := by
  have above := page_end_above loop.written
  have joined := segments_finished_append env.size holds.forward
    (show loop.written ≤ min rqst.write (pageEnd loop.written) by omega)
  rw [completedSegments, joined, iteration_completes holds wanted, List.map_append,
    push_all_append, ← completedSegments, ← holds.queued]
  simp only [signing, and_true]
  split_ifs <;> rfl

theorem partial_page_invariant (wanted : loop.written < rqst.write)
    (short : rqst.write < pageEnd loop.written)
    (initialized : pageEnd loop.written ≤ ctl.initializedUpTo)
    (index : dumped.curridx = loop.curridx) (empty : dumped.npages = 0)
    (queued : dumped.process.signQueue =
      queue.pushAll (completedSegments env.size tli ctl.logWriteResult rqst.write)) :
    LoopInvariant env ctl rqst tli queue { dumped with
      process := { dumped.process with
        logwrtResult := { dumped.process.logwrtResult with write := rqst.write } } } := by
  have forward := holds.forward
  have samePage : loop.written / xlogBlcksz = rqst.write / xlogBlcksz := by
    simp only [pageEnd, xlogBlcksz] at short ⊢
    omega
  exact
    { forward := by change _ ≤ rqst.write; omega
      requested := le_max_right _ _
      initialized := by change rqst.write ≤ _; omega
      index := by
        change dumped.curridx = _ % _
        rw [index, holds.index, xlogRecPtrToBufIdx, samePage]
      pending := fun filled => by
        change 0 < dumped.npages at filled
        omega
      queued := queued }

theorem whole_page_invariant (reaches : pageEnd loop.written ≤ rqst.write)
    (initialized : pageEnd loop.written ≤ ctl.initializedUpTo)
    (index : dumped.curridx = loop.curridx)
    (write : dumped.written = pageEnd loop.written)
    (queued : dumped.process.signQueue =
      queue.pushAll (completedSegments env.size tli ctl.logWriteResult
        (pageEnd loop.written))) (pending : dumped.npages = 0 ∨
      ¬DumpDue env ctl rqst (pageEnd loop.written) loop ∧
        dumped.npages = loop.npages + 1 ∧
        dumped.startoffset = pendingOffset env (pageEnd loop.written) loop) :
    LoopInvariant env ctl rqst tli queue
      { dumped with curridx := nextBufIdx ctl dumped.curridx } := by
  have forward := holds.forward
  have above := page_end_above loop.written
  exact
    { forward := by change _ ≤ dumped.written; omega
      requested := by change dumped.written ≤ _; omega
      initialized := by change dumped.written ≤ _; omega
      index := by
        rw [index, holds.index, next_buf_idx, write]
      pending := fun filled => by
        change 0 < dumped.npages at filled
        rcases pending with empty | ⟨undumped, pages, offset⟩
        · omega
        · have kept := pending_kept holds undumped
          rw [← pages, ← offset, ← write] at kept
          exact kept
      queued := by rw [queued, write] }

theorem iteration_invariant (buffers : BuffersHoldUnwritten ctl)
    (signing : env.walPqcSigning = true) (wanted : loop.written < rqst.write)
    {next : WriteLoop} {goesOn : Bool}
    (written : writePage env ctl rqst tli flexible (ctl.xlblocks loop.curridx) loop =
      .ok (next, goesOn)) :
    LoopInvariant env ctl rqst tli queue next ∧
      (goesOn = false → next.npages = 0 ∧
        (flexible = true ∨ next.written = rqst.write)) := by
  -- The panic test of the source is what makes the buffer hold the page that is due.
  have page : ctl.xlblocks loop.curridx = pageEnd loop.written := by
    have ahead := (write_page_returns written).1
    rw [holds.index] at ahead ⊢
    exact next_page_resident buffers holds.forward ahead
  have initialized := buffers.bounded loop.curridx
  rw [page] at written initialized
  obtain ⟨-, dumped, outcome, index, write, queued, pages⟩ := write_page_returns written
  rw [iteration_queue holds signing wanted] at queued
  unfold endIteration at outcome
  split_ifs at outcome with short
  · have empty : dumped.npages = 0 := by
      rcases pages with ⟨-, empty⟩ | ⟨undumped, -⟩
      · exact empty
      · exact absurd (.inl short.le) undumped
    rw [min_eq_left short.le] at queued
    obtain ⟨rfl, rfl⟩ := Prod.mk.inj outcome
    exact ⟨partial_page_invariant holds wanted short initialized index empty queued,
      fun _ => ⟨empty, .inr rfl⟩⟩
  · rw [min_eq_right (not_lt.mp short)] at queued
    obtain ⟨rfl, rfl⟩ := Prod.mk.inj outcome
    refine ⟨whole_page_invariant holds (not_lt.mp short) initialized index write queued
      (pages.imp_left And.right), fun stops => ?_⟩
    have ends : flexible = true ∧ dumped.npages = 0 := by simpa using stops
    exact ⟨ends.2, .inl ends.1⟩

theorem loop_invariant (buffers : BuffersHoldUnwritten ctl) (signing : env.walPqcSigning = true)
    {final : WriteLoop} (looped : writeLoop env ctl rqst tli flexible loop = .ok final) :
    LoopInvariant env ctl rqst tli queue final ∧ final.npages = 0 ∧
      (flexible = true ∨ rqst.write ≤ final.written) := by
  fun_induction writeLoop env ctl rqst tli flexible loop with
  | case1 loop wanted report failed => simp at looped
  | case2 loop wanted next written =>
    obtain rfl := Except.ok.inj looped
    obtain ⟨kept, ends⟩ := iteration_invariant holds buffers signing wanted written
    obtain ⟨empty, done⟩ := ends rfl
    exact ⟨kept, empty, done.imp_right Eq.ge⟩
  | case3 loop wanted next written ih =>
    exact ih (iteration_invariant holds buffers signing wanted written).1 looped
  -- Pending pages end before the request, so the loop cannot have ended with any.
  | case4 loop met =>
    obtain rfl := Except.ok.inj looped
    have empty : loop.npages = 0 := by
      by_contra filled
      exact met (holds.pending (pos_of_ne_zero filled)).2.1
    exact ⟨holds, empty, .inr (not_lt.mp met)⟩

end

section Calls

variable {next : XLogCtl} {process after : WalProcess} {opportunistic : Bool}

theorem start_loop_invariant (buffers : BuffersHoldUnwritten ctl) :
    LoopInvariant env ctl rqst tli process.signQueue (startLoop ctl process) :=
  { forward := le_refl _
    requested := le_max_left _ _
    initialized := buffers.written
    index := rfl
    pending := fun filled => absurd filled (Nat.lt_irrefl 0)
    queued := by
      rw [startLoop, completedSegments, segments_finished_none rfl]
      rfl }

theorem flush_written_returns {flushed : WalProcess}
    (flush : flushWritten env rqst tli process = .ok flushed) :
    flushed.logwrtResult.write = process.logwrtResult.write ∧
      flushed.signQueue = process.signQueue := by
  unfold flushWritten at flush
  split_ifs at flush with behind synchronous
  · obtain rfl := Except.ok.inj flush
    exact ⟨rfl, rfl⟩
  · simp only [sequence_returns] at flush
    obtain ⟨opened, switched, -, -, result⟩ := flush
    obtain ⟨-, sameResult, sameQueue⟩ := switch_segment_returns switched
    obtain rfl := Except.ok.inj result
    exact ⟨by rw [← sameResult], sameQueue⟩
  · obtain rfl := Except.ok.inj flush
    exact ⟨rfl, rfl⟩

theorem publish_holds (buffers : BuffersHoldUnwritten ctl) {result : XLogwrt}
    (forward : ctl.logWriteResult ≤ result.write)
    (initialized : result.write ≤ ctl.initializedUpTo) :
    BuffersHoldUnwritten (publish ctl result) :=
  { aligned := buffers.aligned
    written := initialized
    resident := fun position unwritten =>
      buffers.resident position (lt_of_le_of_lt forward unwritten)
    bounded := buffers.bounded }

structure WritesLog (env : WriteEnv) (tli : Nat) (ctl next : XLogCtl) (queue after : PqcSignQueue) :
    Prop where
  buffers : BuffersHoldUnwritten next
  forward : ctl.logWriteResult ≤ next.logWriteResult
  queued : after =
    queue.pushAll (completedSegments env.size tli ctl.logWriteResult next.logWriteResult)

section

variable (buffers : BuffersHoldUnwritten ctl)

include buffers

theorem xlog_write_writes (signing : env.walPqcSigning = true)
    (written : xlogWrite env ctl process rqst tli flexible = .ok (next, after)) :
    WritesLog env tli ctl next process.signQueue after.signQueue ∧
      (flexible = false → next.logWriteResult = max ctl.logWriteResult rqst.write) := by
  simp only [xlogWrite, sequence_returns] at written
  obtain ⟨loop, looped, flushed, flush, result⟩ := written
  obtain ⟨rfl, rfl⟩ := Prod.mk.inj (Except.ok.inj result)
  obtain ⟨holds, -, done⟩ := loop_invariant (start_loop_invariant buffers) buffers signing looped
  obtain ⟨samePosition, sameQueue⟩ : _ = loop.written ∧ _ := flush_written_returns flush
  have forward := holds.forward
  have requested := holds.requested
  have initialized := holds.initialized
  rw [← samePosition] at forward requested initialized done
  refine ⟨?_, fun complete => ?_⟩
  · exact
      { buffers := publish_holds buffers forward initialized
        forward := forward
        queued := by
          rw [sameQueue, holds.queued, ← samePosition]
          rfl }
  · have met : rqst.write ≤ flushed.logwrtResult.write := by
      rcases done with early | met
      · rw [complete] at early
        exact absurd early (by decide)
      · exact met
    exact le_antisymm requested (max_le forward met)

theorem writes_nothing (queue : PqcSignQueue) : WritesLog env tli ctl ctl queue queue :=
  { buffers := buffers
    forward := le_refl _
    queued := by
      rw [completedSegments, segments_finished_none rfl]
      rfl }

/-- A buffer is taken for a new page when its old page is written. -/
theorem initialize_holds
    (free : ctl.xlblocks (xlogRecPtrToBufIdx ctl ctl.initializedUpTo) ≤ ctl.logWriteResult) :
    BuffersHoldUnwritten { ctl with
      xlblocks := update ctl.xlblocks (xlogRecPtrToBufIdx ctl ctl.initializedUpTo)
        (ctl.initializedUpTo + xlogBlcksz)
      initializedUpTo := ctl.initializedUpTo + xlogBlcksz } :=
  { aligned := Nat.dvd_add buffers.aligned (dvd_refl _)
    written := le_trans buffers.written (Nat.le_add_right _ _)
    resident := fun position unwritten initialized => by
      change update ctl.xlblocks _ _ (xlogRecPtrToBufIdx ctl position) = _
      by_cases old : pageEnd position ≤ ctl.initializedUpTo
      · have held := buffers.resident position unwritten old
        -- The reused buffer holds a written page, so it is not that of an unwritten one.
        have other : xlogRecPtrToBufIdx ctl position ≠
            xlogRecPtrToBufIdx ctl ctl.initializedUpTo := by
          intro same
          rw [same] at held
          change ctl.logWriteResult < _ at unwritten
          omega
        rw [update_of_ne other, held]
      · have newPage : pageEnd position = ctl.initializedUpTo + xlogBlcksz := by
          obtain ⟨pages, aligned⟩ := buffers.aligned
          rw [aligned] at old initialized ⊢
          simp only [pageEnd, xlogBlcksz] at old initialized ⊢
          omega
        have samePage : position / xlogBlcksz = ctl.initializedUpTo / xlogBlcksz := by
          simp only [pageEnd, xlogBlcksz] at newPage ⊢
          omega
        have sameIndex : xlogRecPtrToBufIdx ctl position =
            xlogRecPtrToBufIdx ctl ctl.initializedUpTo := by
          rw [xlogRecPtrToBufIdx, samePage, xlogRecPtrToBufIdx]
        rw [sameIndex, update_self, newPage]
    bounded := fun idx => by
      change update ctl.xlblocks _ _ idx ≤ ctl.initializedUpTo + xlogBlcksz
      by_cases same : idx = xlogRecPtrToBufIdx ctl ctl.initializedUpTo
      · rw [same, update_self]
      · rw [update_of_ne same]
        exact le_trans (buffers.bounded idx) (Nat.le_add_right _ _) }

theorem advance_writes (signing : env.walPqcSigning = true)
    (advanced : advanceXLInsertBuffer env ctl process tli opportunistic = .ok (next, after)) :
    WritesLog env tli ctl next process.signQueue after.signQueue := by
  simp only [advanceXLInsertBuffer] at advanced
  split_ifs at advanced with blocked gives_up
  · obtain ⟨rfl, rfl⟩ := Prod.mk.inj (Except.ok.inj advanced)
    exact writes_nothing buffers _
  · have requested : BuffersHoldUnwritten { ctl with
        logwrtRqst := { ctl.logwrtRqst with
          write := max ctl.logwrtRqst.write
            (ctl.xlblocks (xlogRecPtrToBufIdx ctl ctl.initializedUpTo)) } } :=
      ⟨buffers.aligned, buffers.written, buffers.resident, buffers.bounded⟩
    obtain ⟨kept, forward, queued⟩ := (xlog_write_writes requested signing advanced).1
    exact ⟨kept, forward, queued⟩
  · obtain ⟨rfl, rfl⟩ := Prod.mk.inj (Except.ok.inj advanced)
    have kept := initialize_holds buffers (not_lt.mp blocked)
    exact ⟨kept, le_refl _, (writes_nothing buffers _).queued⟩

end

end Calls

structure Faultless (files : WalFiles) : Prop where
  opens : ∀ segno, files.openFails segno = false
  writes : ∀ segno offset, files.writeFails segno offset = false
  fsyncs : ∀ segno, files.fsyncFails segno = false

section

variable (faultless : Faultless env.files)

include faultless

theorem switch_segment_proceeds (tli : Nat) (process : WalProcess) :
    ∃ next, switchSegment env tli process = .ok next := by
  unfold switchSegment
  split_ifs with other
  · simp only [openLogSegment, ensure_holds (faultless.opens _)]
    exact ⟨_, rfl⟩
  · exact ⟨_, rfl⟩

theorem finish_segment_proceeds (tli : Nat) (finishingSeg : Prop) [Decidable finishingSeg]
    (process : WalProcess) : ∃ next, finishSegment env tli finishingSeg process = .ok next := by
  unfold finishSegment
  by_cases finishing : finishingSeg
  · simp only [if_pos finishing, ensure_holds (faultless.fsyncs _)]
    exact ⟨_, rfl⟩
  · rw [if_neg finishing]
    exact ⟨_, rfl⟩

theorem dump_pages_proceeds (tli : Nat) (due finishingSeg : Prop) [Decidable due]
    [Decidable finishingSeg] (loop : WriteLoop) :
    ∃ next, dumpPages env tli due finishingSeg loop = .ok next := by
  obtain ⟨process, finished⟩ :=
    finish_segment_proceeds faultless tli finishingSeg loop.process
  unfold dumpPages
  by_cases written : due
  · simp only [if_pos written, ensure_holds (faultless.writes _ _), finished]
    exact ⟨_, rfl⟩
  · rw [if_neg written]
    exact ⟨_, rfl⟩

theorem write_page_proceeds (ctl : XLogCtl) (rqst : XLogwrt) (tli : Nat) (flexible : Bool)
    {endPtr : Nat} (ahead : loop.written < endPtr) :
    ∃ outcome, writePage env ctl rqst tli flexible endPtr loop = .ok outcome := by
  obtain ⟨process, switched⟩ := switch_segment_proceeds faultless tli
    { loop.process with logwrtResult := { loop.process.logwrtResult with write := endPtr } }
  obtain ⟨dumped, dumps⟩ := dump_pages_proceeds faultless tli
    (DumpDue env ctl rqst endPtr loop) (FinishingSeg env rqst endPtr loop)
    (addPage env endPtr loop process)
  simp only [writePage, ensure_holds ahead, ok_then, switched, dumps]
  exact ⟨_, rfl⟩

/-- Up to the initialised pages the loop does not panic. -/
theorem write_loop_proceeds (buffers : BuffersHoldUnwritten ctl)
    (signing : env.walPqcSigning = true) (requested : rqst.write ≤ ctl.initializedUpTo)
    (loop : WriteLoop) (holds : LoopInvariant env ctl rqst tli queue loop) :
    ∃ final, writeLoop env ctl rqst tli flexible loop = .ok final := by
  fun_induction writeLoop env ctl rqst tli flexible loop with
  | case1 loop wanted report failed =>
    have page : ctl.xlblocks loop.curridx = pageEnd loop.written := by
      have above := page_end_above loop.written
      have forward := holds.forward
      rw [holds.index]
      apply buffers.resident
      · omega
      · exact page_end_least buffers.aligned (lt_of_lt_of_le wanted requested)
    obtain ⟨outcome, written⟩ := write_page_proceeds faultless ctl rqst tli flexible
      (page ▸ page_end_above loop.written)
    rw [written] at failed
    cases failed
  | case2 loop wanted next written => exact ⟨next, rfl⟩
  | case3 loop wanted next written ih =>
    exact ih (iteration_invariant holds buffers signing wanted written).1
  | case4 loop met => exact ⟨loop, rfl⟩

theorem flush_written_proceeds (rqst : XLogwrt) (tli : Nat) (process : WalProcess) :
    ∃ flushed, flushWritten env rqst tli process = .ok flushed := by
  obtain ⟨opened, switched⟩ := switch_segment_proceeds faultless tli process
  unfold flushWritten
  split_ifs with behind synchronous
  · exact ⟨_, rfl⟩
  · simp only [switched, ensure_holds (faultless.fsyncs _)]
    exact ⟨_, rfl⟩
  · exact ⟨_, rfl⟩

theorem xlog_write_proceeds (buffers : BuffersHoldUnwritten ctl)
    (signing : env.walPqcSigning = true) (requested : rqst.write ≤ ctl.initializedUpTo)
    (process : WalProcess) (tli : Nat) (flexible : Bool) :
    ∃ next after, xlogWrite env ctl process rqst tli flexible = .ok (next, after) := by
  have starts : LoopInvariant env ctl rqst tli process.signQueue (startLoop ctl process) :=
    start_loop_invariant buffers
  obtain ⟨loop, looped⟩ : ∃ loop,
      writeLoop env ctl rqst tli flexible (startLoop ctl process) = .ok loop :=
    write_loop_proceeds faultless buffers signing requested _ starts
  obtain ⟨flushed, flush⟩ := flush_written_proceeds faultless rqst tli loop.process
  simp only [xlogWrite, looped, flush, ok_then]
  exact ⟨_, _, rfl⟩

end

end FortressQL.Wal.WriteInvariant
