import FortressQL.Wal.Receiver

/-!
# What becomes of a segment that fails verification

The check of a received segment decides what the server log says, and nothing else. The log names
every segment that failed.
-/

namespace FortressQL.Wal.ReceivedSegments

open Except (ok.injEq)
open Elog Lib.Files Lib.Runs Wal.Receiver Wal.Segments Wal.SegmentSigning Wal.SigningKeys

section Unchecked

def withoutCheck (env : ReceiverEnv) : ReceiverEnv :=
  { env with settings := { env.settings with walPqcVerifyOnReceive := false } }

def uncheckedClosing (closing : Closing) : Closing :=
  { closing with env := withoutCheck closing.env, keys := initialKeys }

def unchecked (receiver : WalReceiver) : WalReceiver :=
  { receiver with
    keys := initialKeys
    serverLog := []
    closings := receiver.closings.map uncheckedClosing }

variable (env : ReceiverEnv) (receiver : WalReceiver)

theorem without_check_verifies : (withoutCheck env).settings.verifies = none := by
  unfold Settings.verifies withoutCheck
  cases env.settings.walPqcKeyPath with
  | none => rfl
  | some keyPath => rfl

theorem flush_unchecked (tli : Nat) :
    (xlogWalRcvFlush env tli receiver).map unchecked =
      xlogWalRcvFlush (withoutCheck env) tli (unchecked receiver) := by
  unfold xlogWalRcvFlush
  by_cases unflushed : receiver.logstreamFlush < receiver.logstreamWrite
  · rw [if_pos unflushed, if_pos (show (unchecked receiver).logstreamFlush <
      (unchecked receiver).logstreamWrite from unflushed)]
    apply ensure_commutes
    by_cases behind : receiver.flushedUpto < receiver.logstreamWrite
    · simp [behind, unchecked, Except.map]
    · simp [behind, unchecked, Except.map]
  · rw [if_neg unflushed, if_neg (show ¬ (unchecked receiver).logstreamFlush <
      (unchecked receiver).logstreamWrite from unflushed)]
    rfl

theorem close_recv_file_unchecked :
    (closeRecvFile env receiver).map unchecked =
      closeRecvFile (withoutCheck env) (unchecked receiver) := by
  apply ensure_commutes
  simp [withoutCheck, unchecked, Except.map]

theorem verify_received_unchecked :
    unchecked (verifyReceived env receiver) = unchecked receiver := by
  unfold verifyReceived
  cases env.settings.verifies with
  | none => rfl
  | some keyPath => rfl

theorem record_closing_unchecked :
    unchecked (recordClosing env receiver) =
      recordClosing (withoutCheck env) (unchecked receiver) := by
  simp [unchecked, recordClosing, uncheckedClosing, closingFound]

theorem close_unchecked (tli : Nat) :
    (xlogWalRcvClose env tli receiver).map unchecked =
      xlogWalRcvClose (withoutCheck env) tli (unchecked receiver) := by
  apply sequence_commutes unchecked (flush_unchecked env receiver tli)
  intro flushed
  apply sequence_commutes unchecked (close_recv_file_unchecked env flushed)
  intro closed
  have unverified : ∀ other, verifyReceived (withoutCheck env) other = other := by
    intro other
    unfold verifyReceived
    rw [without_check_verifies]
  rw [unverified, ← record_closing_unchecked]
  rw [← verify_received_unchecked env (recordClosing env closed)]
  rfl

theorem close_completed_unchecked (tli recptr : Nat) :
    (closeCompleted env tli recptr receiver).map unchecked =
      closeCompleted (withoutCheck env) tli recptr (unchecked receiver) := by
  unfold closeCompleted
  split_ifs with completed running running
  · exact close_unchecked env receiver tli
  · exact absurd completed running
  · exact absurd running completed
  · rfl

theorem open_segment_unchecked (tli recptr : Nat) :
    (openSegment env tli recptr receiver).map unchecked =
      openSegment (withoutCheck env) tli recptr (unchecked receiver) := by
  unfold Receiver.openSegment
  split_ifs with opened running running
  · rfl
  · exact absurd opened running
  · exact absurd running opened
  · exact ensure_commutes rfl

theorem write_round_unchecked (tli recptr : Nat) (buf : Bytes) :
    (writeRound env tli recptr buf receiver).map (Prod.map unchecked id) =
      writeRound (withoutCheck env) tli recptr buf (unchecked receiver) := by
  apply sequence_commutes unchecked (close_completed_unchecked env receiver tli recptr)
  intro closed
  apply sequence_commutes unchecked (open_segment_unchecked env closed tli recptr)
  intro opened
  exact ensure_commutes rfl

theorem write_loop_unchecked (tli rounds recptr : Nat) (buf : Bytes) :
    (writeLoop env tli rounds recptr buf receiver).map (Prod.map unchecked id) =
      writeLoop (withoutCheck env) tli rounds recptr buf (unchecked receiver) := by
  induction rounds generalizing recptr buf receiver with
  | zero => rfl
  | succ rounds ih =>
    unfold writeLoop
    split_ifs with finished
    · rfl
    · apply sequence_commutes (Prod.map unchecked id)
        (write_round_unchecked env receiver tli recptr buf)
      rintro ⟨next, byteswritten⟩
      exact ih next (recptr + byteswritten) (buf.drop byteswritten)

theorem write_unchecked (tli recptr : Nat) (buf : Bytes) :
    (xlogWalRcvWrite env tli recptr buf receiver).map unchecked =
      xlogWalRcvWrite (withoutCheck env) tli recptr buf (unchecked receiver) := by
  apply sequence_commutes (Prod.map unchecked id)
    (write_loop_unchecked env receiver tli buf.length recptr buf)
  rintro ⟨written, endptr⟩
  exact close_completed_unchecked env { written with writtenUpto := written.logstreamWrite } tli
    endptr

theorem process_msg_unchecked (type : UInt8) (buf : Bytes) :
    (xlogWalRcvProcessMsg env type buf receiver).map unchecked =
      xlogWalRcvProcessMsg (withoutCheck env) type buf (unchecked receiver) := by
  unfold xlogWalRcvProcessMsg
  split_ifs with wal keepalive
  · apply ensure_commutes
    exact write_unchecked env receiver receiver.startpointTLI (pqGetmsgint64 buf) (buf.drop 24)
  · exact ensure_commutes rfl
  · rfl

theorem close_last_segment_unchecked :
    (closeLastSegment env receiver).map unchecked =
      closeLastSegment (withoutCheck env) (unchecked receiver) := by
  unfold closeLastSegment
  split_ifs with opened running running
  · apply sequence_commutes unchecked (flush_unchecked env receiver receiver.startpointTLI)
    intro flushed
    apply sequence_commutes unchecked (close_recv_file_unchecked env flushed)
    intro closed
    rfl
  · exact absurd opened running
  · exact absurd running opened
  · rfl

theorem receiver_step_unchecked (event : ReceiverEnv × ReceiverOp) :
    (receiverStep receiver event).map unchecked =
      receiverStep (unchecked receiver) (Prod.map withoutCheck id event) := by
  obtain ⟨env, op⟩ := event
  cases op with
  | message type buf => exact process_msg_unchecked env receiver type buf
  | flush => exact flush_unchecked env receiver receiver.startpointTLI
  | endOfWal startpointTLI replayPtr =>
    apply sequence_commutes unchecked (close_last_segment_unchecked env receiver)
    intro closed
    rfl

end Unchecked

section ServerLog

def closedName (closing : Closing) : String :=
  xlogFileName closing.recvFileTLI closing.recvSegNo closing.env.size

def closedVerdict (closing : Closing) : Option (Raises Bool) :=
  closing.env.settings.verifies.map fun keyPath =>
    (loadAndVerify closing.env closing.keys closing.disk keyPath (closedName closing)).2

def closedMessages (closing : Closing) : List LogMessage :=
  ((closedVerdict closing).map (verdictMessages (closedName closing))).getD []

def Logged (receiver : WalReceiver) : Prop :=
  receiver.serverLog = receiver.closings.flatMap closedMessages

variable {env : ReceiverEnv} {receiver next : WalReceiver}

theorem Logged.of_same (logged : Logged receiver) (sameLog : next.serverLog = receiver.serverLog)
    (sameClosings : next.closings = receiver.closings) : Logged next := by
  unfold Logged
  rw [sameLog, sameClosings]
  exact logged

variable {tli recptr : Nat} {buf : Bytes}

section

variable (logged : Logged receiver)

include logged

theorem flush_logged (returned : xlogWalRcvFlush env tli receiver = .ok next) : Logged next := by
  unfold xlogWalRcvFlush at returned
  split_ifs at returned with unflushed
  · simp only [sequence_returns, ok.injEq] at returned
    obtain ⟨-, -, rfl⟩ := returned
    split_ifs with behind
    · exact logged.of_same rfl rfl
    · exact logged.of_same rfl rfl
  · cases returned
    exact logged

theorem close_recv_file_logged (returned : closeRecvFile env receiver = .ok next) :
    Logged next := by
  simp only [closeRecvFile, sequence_returns, ok.injEq] at returned
  obtain ⟨-, -, rfl⟩ := returned
  exact logged.of_same rfl rfl

/-- The check adds to the log what belongs to the segment that is being closed. -/
theorem verify_received_logged :
    Logged (verifyReceived env (recordClosing env receiver)) := by
  have earlier : (recordClosing env receiver).closings.flatMap closedMessages =
      receiver.serverLog ++ closedMessages (closingFound env receiver) := by
    rw [recordClosing, List.flatMap_append, ← logged, List.flatMap_singleton]
  unfold Logged verifyReceived
  cases on : env.settings.verifies with
  | none =>
    have silent : closedMessages (closingFound env receiver) = [] := by
      simp [closedMessages, closedVerdict, closingFound, on]
    rw [earlier, silent, List.append_nil]
    rfl
  | some keyPath =>
    have spoken : closedMessages (closingFound env receiver) =
        verdictMessages (xlogFileName receiver.recvFileTLI receiver.recvSegNo env.size)
          (loadAndVerify env receiver.keys receiver.disk keyPath
            (xlogFileName receiver.recvFileTLI receiver.recvSegNo env.size)).2 := by
      simp [closedMessages, closedVerdict, closedName, closingFound, on]
    exact (congrArg (receiver.serverLog ++ ·) spoken.symm).trans earlier.symm

theorem close_logged (returned : xlogWalRcvClose env tli receiver = .ok next) : Logged next := by
  simp only [xlogWalRcvClose, sequence_returns, ok.injEq] at returned
  obtain ⟨flushed, flush, closed, close, rfl⟩ := returned
  have closedLogged := close_recv_file_logged (flush_logged logged flush) close
  exact (verify_received_logged closedLogged).of_same rfl rfl

theorem close_completed_logged (returned : closeCompleted env tli recptr receiver = .ok next) :
    Logged next := by
  unfold closeCompleted at returned
  split_ifs at returned with completed
  · exact close_logged logged returned
  · cases returned
    exact logged

theorem open_segment_logged (returned : openSegment env tli recptr receiver = .ok next) :
    Logged next := by
  unfold Receiver.openSegment at returned
  split_ifs at returned with opened
  · cases returned
    exact logged
  · simp only [sequence_returns, ok.injEq] at returned
    obtain ⟨-, -, rfl⟩ := returned
    exact logged.of_same rfl rfl

theorem write_round_logged {byteswritten : Nat}
    (returned : writeRound env tli recptr buf receiver = .ok (next, byteswritten)) :
    Logged next := by
  simp only [writeRound, sequence_returns] at returned
  obtain ⟨closed, close, opened, opening, -, -, rfl, -⟩ := returned
  have openedLogged := open_segment_logged (close_completed_logged logged close) opening
  exact openedLogged.of_same rfl rfl

theorem write_loop_logged {rounds endptr : Nat}
    (returned : writeLoop env tli rounds recptr buf receiver = .ok (next, endptr)) :
    Logged next := by
  induction rounds generalizing recptr buf receiver with
  | zero =>
    cases returned
    exact logged
  | succ rounds ih =>
    unfold writeLoop at returned
    split_ifs at returned with finished
    · cases returned
      exact logged
    · simp only [sequence_returns] at returned
      obtain ⟨⟨middle, byteswritten⟩, round, rest⟩ := returned
      exact ih (write_round_logged logged round) rest

theorem process_msg_logged {type : UInt8}
    (returned : xlogWalRcvProcessMsg env type buf receiver = .ok next) :
    Logged next := by
  unfold xlogWalRcvProcessMsg at returned
  split_ifs at returned with wal keepalive
  · simp only [sequence_returns, xlogWalRcvWrite] at returned
    obtain ⟨-, -, ⟨written, endptr⟩, loop, close⟩ := returned
    refine close_completed_logged ?_ close
    exact (write_loop_logged logged loop).of_same rfl rfl
  · simp only [sequence_returns, ok.injEq] at returned
    obtain ⟨-, -, rfl⟩ := returned
    exact logged

theorem close_last_segment_logged (returned : closeLastSegment env receiver = .ok next) :
    Logged next := by
  unfold closeLastSegment at returned
  split_ifs at returned with opened
  · simp only [sequence_returns, ok.injEq] at returned
    obtain ⟨flushed, flush, closed, close, rfl⟩ := returned
    have closedLogged := close_recv_file_logged (flush_logged logged flush) close
    exact closedLogged.of_same rfl rfl
  · cases returned
    exact logged

end

theorem receiver_step_logged (receiver : WalReceiver) (event : ReceiverEnv × ReceiverOp)
    (next : WalReceiver) (returned : receiverStep receiver event = .ok next)
    (logged : Logged receiver) : Logged next := by
  obtain ⟨env, op⟩ := event
  cases op with
  | message type buf => exact process_msg_logged logged returned
  | flush => exact flush_logged logged returned
  | endOfWal startpointTLI replayPtr =>
    simp only [receiverStep, endOfWal, sequence_returns, ok.injEq] at returned
    obtain ⟨closed, close, rfl⟩ := returned
    exact (close_last_segment_logged logged close).of_same rfl rfl

theorem closed_message_logged (logged : Logged receiver) {closing : Closing}
    (member : closing ∈ receiver.closings) {verdict : Raises Bool}
    (found : closedVerdict closing = some verdict) {message : LogMessage}
    (said : message ∈ verdictMessages (closedName closing) verdict) :
    message ∈ receiver.serverLog := by
  rw [logged, List.mem_flatMap]
  refine ⟨closing, member, ?_⟩
  rw [closedMessages, found]
  exact said

theorem signature_verified_injective {name other : String}
    (same : signatureVerified name = signatureVerified other) : name = other := by
  have texts := congrArg LogMessage.errmsg same
  have lists := congrArg String.toList texts
  exact String.toList_inj.mp (by simpa [signatureVerified] using lists)

theorem verified_logged_iff (logged : Logged receiver) (name : String) :
    signatureVerified name ∈ receiver.serverLog ↔
      ∃ closing ∈ receiver.closings, closedName closing = name ∧
        closedVerdict closing = some (.ok true) := by
  constructor
  · intro said
    rw [logged, List.mem_flatMap] at said
    obtain ⟨closing, member, said⟩ := said
    refine ⟨closing, member, ?_⟩
    cases found : closedVerdict closing with
    | none => simp [closedMessages, found] at said
    | some verdict =>
      rw [closedMessages, found, Option.map_some, Option.getD_some] at said
      rcases verdict with report | ⟨_ | _⟩
      · simp [verdictMessages, signatureVerified, emitErrorReport, couldNotVerify] at said
      · simp [verdictMessages, signatureVerified, verificationFailed] at said
      · rw [verdictMessages, List.mem_singleton] at said
        exact ⟨(signature_verified_injective said).symm, rfl⟩
  · rintro ⟨closing, member, rfl, found⟩
    exact closed_message_logged logged member found (List.mem_singleton.mpr rfl)

end ServerLog

def startedReceiver (keys : WalKeys) (disk : Disk) (startpointTLI replayPtr : Nat)
    (writtenUpto flushedUpto latestChunkStart receivedTLI : Nat) : WalReceiver :=
  { recvFile := false
    recvFileTLI := 0
    recvSegNo := 0
    startpointTLI := startpointTLI
    logstreamWrite := replayPtr
    logstreamFlush := replayPtr
    writtenUpto := writtenUpto
    flushedUpto := flushedUpto
    latestChunkStart := latestChunkStart
    receivedTLI := receivedTLI
    disk := disk
    archiveStatus := []
    keys := keys
    serverLog := []
    closings := [] }

/-- In every run the log names the segments that failed the check, and the run goes where it would
go without the check. -/
theorem failed_segments_reported (keys : WalKeys) (disk : Disk)
    (startpointTLI replayPtr writtenUpto flushedUpto latestChunkStart receivedTLI : Nat)
    (events : List (ReceiverEnv × ReceiverOp)) (final : WalReceiver)
    (ran : runFallible receiverStep (startedReceiver keys disk startpointTLI replayPtr writtenUpto
      flushedUpto latestChunkStart receivedTLI) events = .ok final) :
    (∀ closing ∈ final.closings, closedVerdict closing = some (.ok false) →
        verificationFailed (closedName closing) ∈ final.serverLog) ∧
      (∀ closing ∈ final.closings, ∀ report, closedVerdict closing = some (.error report) →
        emitErrorReport report ∈ final.serverLog ∧
          couldNotVerify (closedName closing) ∈ final.serverLog) ∧
      (∀ name, signatureVerified name ∈ final.serverLog ↔
        ∃ closing ∈ final.closings, closedName closing = name ∧
          closedVerdict closing = some (.ok true)) ∧
      runFallible receiverStep (startedReceiver initialKeys disk startpointTLI replayPtr
          writtenUpto flushedUpto latestChunkStart receivedTLI)
        (events.map (Prod.map withoutCheck id)) = .ok (unchecked final) := by
  have logged : Logged final :=
    fallible_invariant receiverStep Logged receiver_step_logged _ final events ran rfl
  refine ⟨?_, ?_, verified_logged_iff logged, ?_⟩
  · intro closing member failed
    exact closed_message_logged logged member failed (List.mem_singleton.mpr rfl)
  · intro closing member report raised
    exact ⟨closed_message_logged logged member raised List.mem_cons_self,
      closed_message_logged logged member raised
        (List.mem_cons_of_mem _ (List.mem_singleton.mpr rfl))⟩
  · have commutes := run_fallible_commutes receiverStep receiverStep unchecked
      (Prod.map withoutCheck id) receiver_step_unchecked
      (startedReceiver keys disk startpointTLI replayPtr writtenUpto flushedUpto latestChunkStart
        receivedTLI) events
    rw [ran] at commutes
    exact commutes.symm

def keyFilesDisk : Disk := fun path =>
  if path = "keys/wal_signing.key" then some [2]
  else if path = "keys/wal_signing.pub" then some [1]
  else none

def checkingEnv : ReceiverEnv :=
  { server := sampleServer fun _ => Vector.replicate 32 0
    size := smallestSegmentSize
    settings :=
      { walPqcVerifyOnReceive := true
        walPqcKeyPath := some "keys"
        walPqcSigningAlgorithmString := none
        archiveModeAlways := false }
    otherProcesses := fun _ files => files
    pwrite := fun _ => 8192
    fsyncFails := fun _ => false }

def straddlingMessage : ReceiverOp :=
  .message 119 ([0, 0, 0, 0, 0, 15, 255, 255] ++ List.replicate 16 0 ++ [65, 66])

def sampleStart : WalReceiver := startedReceiver initialKeys keyFilesDisk 1 0 0 0 0 0

def sampleRun : Raises WalReceiver :=
  runFallible receiverStep sampleStart [(checkingEnv, straddlingMessage), (checkingEnv, .flush)]

/-- The receiver has flushed bytes beyond a segment that failed the check. -/
def StreamedPast (final : WalReceiver) : Prop :=
  ∃ closing ∈ final.closings, closedVerdict closing = some (.ok false) ∧
    (closing.recvSegNo + 1) * closing.env.size.bytes < final.flushedUpto ∧
    (closedName closing, ArchiveStatus.done) ∈ final.archiveStatus

instance (final : WalReceiver) : Decidable (StreamedPast final) :=
  inferInstanceAs (Decidable (∃ closing ∈ final.closings, _ ∧ _ ∧ _))

theorem sample_run_streams :
    (sampleRun.toOption.map fun final => decide (StreamedPast final)) = some true := by
  decide +kernel

theorem sample_run_returns : ∃ final, sampleRun = .ok final ∧ StreamedPast final := by
  have streams := sample_run_streams
  cases ran : sampleRun with
  | error report =>
    rw [ran] at streams
    cases streams
  | ok final =>
    rw [ran] at streams
    exact ⟨final, rfl, of_decide_eq_true (Option.some.inj streams)⟩

theorem sample_failure_reported :
    ∃ final, sampleRun = .ok final ∧ ∃ closing ∈ final.closings,
      verificationFailed (closedName closing) ∈ final.serverLog := by
  obtain ⟨final, ran, closing, member, failed, -⟩ := sample_run_returns
  exact ⟨final, ran, closing, member,
    (failed_segments_reported initialKeys keyFilesDisk 1 0 0 0 0 0 _ final ran).1 closing member
      failed⟩

/-- A standby streams past a segment that failed the check. -/
theorem failed_segment_streamed_past :
    ¬ ∀ events final, runFallible receiverStep sampleStart events = .ok final →
      ¬ StreamedPast final := by
  intro refuses
  obtain ⟨final, ran, past⟩ := sample_run_returns
  exact refuses _ final ran past

end FortressQL.Wal.ReceivedSegments
