import FortressQL.Lib.Queues
import FortressQL.Wal.SegmentSigning

/-!
# The deferred signing queue

`pqc_sign_queue`, `XLogPqcEnqueueSign` and `XLogPqcProcessDeferredSigning`. An error raised by one
entry leaves the rest unsigned.
-/

namespace FortressQL.Wal.SignQueue

open Elog Lib.Files Lib.Queues Pqc.Signatures Wal.SigningKeys Wal.Segments Wal.SegmentSigning

def pqcSignQueueSize : Nat := 8

structure SegmentId where
  segno : Nat
  tli : Nat
  deriving DecidableEq, Repr

abbrev PqcSignQueue := BoundedQueue pqcSignQueueSize SegmentId

def emptyQueue : PqcSignQueue := .empty pqcSignQueueSize SegmentId

def xlogPqcEnqueueSign (queue : PqcSignQueue) (segment : SegmentId) : PqcSignQueue :=
  queue.push segment

/-- What a drain did: the segments it handed to `XLogPqcSignSegment`, and what that left. -/
structure Drain where
  handed : List SegmentId
  keys : WalKeys
  disk : Disk
  result : Raises Unit

def signLoop (env : ServerEnv) (size : WalSegmentSize) (coins : SegmentId → Bytes) :
    WalKeys → Disk → List SegmentId → Drain
  | keys, disk, [] => { handed := [], keys := keys, disk := disk, result := .ok () }
  | keys, disk, segment :: rest =>
    match xlogPqcSignSegment env size keys disk (coins segment) segment.segno segment.tli with
    | (next, after, .error report) =>
      { handed := [segment], keys := next, disk := after, result := .error report }
    | (next, after, .ok _) =>
      let remaining := signLoop env size coins next after rest
      { remaining with handed := segment :: remaining.handed }

/-- `XLogPqcProcessDeferredSigning`; the queue is empty afterwards. -/
def xlogPqcProcessDeferredSigning (env : ServerEnv) (size : WalSegmentSize)
    (coins : SegmentId → Bytes) (keys : WalKeys) (disk : Disk) (queue : PqcSignQueue) :
    PqcSignQueue × Drain :=
  (emptyQueue, signLoop env size coins keys disk queue.items)

theorem sign_data_keys (liboqs : Liboqs) (keys : WalKeys) (coins data : Bytes) (buflen : Nat) :
    ∃ initialized, (pqcWalSignData liboqs keys coins data buflen).1 =
      { keys with pqcInitialized := initialized } := by
  unfold pqcWalSignData
  split
  · exact ⟨keys.pqcInitialized, rfl⟩
  · split
    case h_1 initialized report created => exact ⟨initialized, rfl⟩
    case h_2 initialized ctx created => exact ⟨initialized, rfl⟩

theorem sign_segment_keys (env : ServerEnv) (size : WalSegmentSize) (keys : WalKeys) (disk : Disk)
    (coins : Bytes) (segno tli : Nat) :
    ∃ initialized, (xlogPqcSignSegment env size keys disk coins segno tli).1 =
      { keys with pqcInitialized := initialized } := by
  unfold xlogPqcSignSegment
  split
  case h_1 => exact ⟨keys.pqcInitialized, rfl⟩
  case h_2 content present =>
    split_ifs with unopened unhashed
    · exact ⟨keys.pqcInitialized, rfl⟩
    · exact ⟨keys.pqcInitialized, rfl⟩
    · obtain ⟨initialized, kept⟩ := sign_data_keys env.liboqs keys coins
        (env.sha256 (hashLoop [] (env.host.delivered (xlogFilePath tli segno size) content))).toList
        (signatureBufferLen env.liboqs keys)
      refine ⟨initialized, ?_⟩
      split
      case h_1 next report signed => rw [← kept, signed]
      case h_2 next signed => rw [← kept, signed]
      case h_3 next signature signed => rw [← kept, signed]

section Loop

variable (env : ServerEnv) (size : WalSegmentSize) (coins : SegmentId → Bytes)

theorem sign_loop_handed (keys : WalKeys) (disk : Disk) (segments : List SegmentId) :
    (signLoop env size coins keys disk segments).handed <+: segments ∧
      ((signLoop env size coins keys disk segments).result = .ok () →
        (signLoop env size coins keys disk segments).handed = segments) := by
  induction segments generalizing keys disk with
  | nil => exact ⟨List.nil_prefix, fun _ => rfl⟩
  | cons segment rest ih =>
    unfold signLoop
    split
    case h_1 next after report signed =>
      refine ⟨?_, fun returned => by simp at returned⟩
      exact List.prefix_cons_inj segment |>.mpr List.nil_prefix
    case h_2 next after done signed =>
      obtain ⟨first, all⟩ := ih next after
      refine ⟨(List.prefix_cons_inj segment).mpr first, fun returned => ?_⟩
      exact congrArg (segment :: ·) (all returned)

theorem sign_loop_keys (keys : WalKeys) (disk : Disk) (segments : List SegmentId) :
    ∃ initialized, (signLoop env size coins keys disk segments).keys =
      { keys with pqcInitialized := initialized } := by
  induction segments generalizing keys disk with
  | nil => exact ⟨keys.pqcInitialized, rfl⟩
  | cons segment rest ih =>
    obtain ⟨initialized, kept⟩ := sign_segment_keys env size keys disk (coins segment)
      segment.segno segment.tli
    unfold signLoop
    split
    case h_1 next after report signed =>
      exact ⟨initialized, by rw [← kept, signed]⟩
    case h_2 next after done signed =>
      have changed : next = { keys with pqcInitialized := initialized } := by
        rw [← kept, signed]
      obtain ⟨afterwards, remaining⟩ := ih next after
      refine ⟨afterwards, ?_⟩
      rw [changed] at remaining
      rw [changed]
      exact remaining

end Loop

end FortressQL.Wal.SignQueue
