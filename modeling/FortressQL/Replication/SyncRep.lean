import FortressQL.Lib.Ranking
import FortressQL.Lib.Runs

/-!
# Synchronous replication

`syncrep.c`: a backend waits in the queue of its mode until enough standbys have reported a
position. Each walsender releases waiters when its standby replies.
-/

namespace FortressQL.Replication.SyncRep

open Lib.Ranking

inductive WalSndState where
  | startup
  | backup
  | catchup
  | streaming
  | stopping
  deriving DecidableEq

inductive WaitMode where
  | write
  | flush
  | apply
  deriving DecidableEq

/-- A slot. `InvalidXLogRecPtr` is zero, and so are the process of a free slot and the priority of
a standby that is not listed. -/
structure WalSnd where
  pid : Nat
  state : WalSndState
  write : Nat
  flush : Nat
  apply : Nat
  syncStandbyPriority : Nat
  applicationName : String

inductive SyncRepMethod where
  | priority
  | quorum
  deriving DecidableEq

/-- The parsed setting; its check hook refuses a number of standbys below one. -/
structure SyncRepConfig where
  numSync : Nat
  syncrepMethod : SyncRepMethod
  positive : 0 < numSync

structure SyncRepStandbyData where
  pid : Nat
  write : Nat
  flush : Nat
  apply : Nat
  syncStandbyPriority : Nat
  walsndIndex : Nat
  isMe : Bool

def SyncRepStandbyData.position (standby : SyncRepStandbyData) : WaitMode → Nat
  | .write => standby.write
  | .flush => standby.flush
  | .apply => standby.apply

def isStreaming (state : WalSndState) : Bool := state = .streaming ∨ state = .stopping

def isCandidate (walsnd : WalSnd) : Bool :=
  walsnd.pid ≠ 0 ∧ isStreaming walsnd.state = true ∧ walsnd.syncStandbyPriority ≠ 0 ∧
    walsnd.flush ≠ 0

def standbyData (me : Nat) (slot : WalSnd × Nat) : SyncRepStandbyData :=
  { pid := slot.1.pid
    write := slot.1.write
    flush := slot.1.flush
    apply := slot.1.apply
    syncStandbyPriority := slot.1.syncStandbyPriority
    walsndIndex := slot.2
    isMe := slot.2 == me }

def collectCandidates (walsnds : List WalSnd) (me : Nat) : List SyncRepStandbyData :=
  (walsnds.zipIdx.filter fun slot => isCandidate slot.1).map (standbyData me)

/-- Whether `standby_priority_comparator` lets the first stand before the second. -/
def standbyPriorityComparator (first second : SyncRepStandbyData) : Bool :=
  if first.syncStandbyPriority ≠ second.syncStandbyPriority then
    first.syncStandbyPriority ≤ second.syncStandbyPriority
  else first.walsndIndex ≤ second.walsndIndex

def syncRepGetCandidateStandbys (config : SyncRepConfig) (walsnds : List WalSnd) (me : Nat) :
    List SyncRepStandbyData :=
  let standbys := collectCandidates walsnds me
  if config.syncrepMethod = .priority ∧ standbys.length > config.numSync then
    (standbys.mergeSort standbyPriorityComparator).take config.numSync
  else standbys

def syncRepGetOldestSyncRecPtr (standbys : List SyncRepStandbyData) (mode : WaitMode) : Nat :=
  oldest (standbys.map fun standby => standby.position mode)

/-- The parameter `nth` is a `uint8`. With zero the source reads what stands before the array of the
mode. -/
def syncRepGetNthLatestSyncRecPtr (stray : WaitMode → Nat) (standbys : List SyncRepStandbyData)
    (numSync : Nat) (mode : WaitMode) : Nat :=
  let nth := numSync % 256
  if nth = 0 then stray mode
  else (descending (standbys.map fun standby => standby.position mode)).getD (nth - 1) 0

structure SyncRecPtr where
  positions : Option (WaitMode → Nat)
  amSync : Bool

def syncRepGetSyncRecPtr (config : Option SyncRepConfig) (walsnds : List WalSnd) (me : Nat)
    (stray : WaitMode → Nat) : SyncRecPtr :=
  match config with
  | none => { positions := none, amSync := false }
  | some config =>
    let standbys := syncRepGetCandidateStandbys config walsnds me
    let amSync := standbys.any (·.isMe)
    if amSync = false ∨ standbys.length < config.numSync then
      { positions := none, amSync := amSync }
    else
      { positions := some
          (match config.syncrepMethod with
            | .priority => syncRepGetOldestSyncRecPtr standbys
            | .quorum => syncRepGetNthLatestSyncRecPtr stray standbys config.numSync)
        amSync := amSync }

structure Waiter where
  proc : Nat
  waitLSN : Nat
  deriving DecidableEq

/-- `WalSndCtl`, with the flag and the log of each walsender process. -/
structure SyncRepState where
  walsnds : List WalSnd
  lsn : WaitMode → Nat
  queue : WaitMode → List Waiter
  announceNextTakeover : Nat → Bool
  log : List String

def syncRepWakeQueue (all : Bool) (lsn : Nat) (queue : List Waiter) : List Waiter × List Waiter :=
  queue.span fun waiter => all || decide (waiter.waitLSN ≤ lsn)

/-- The position of a mode moves forward, and its queue is woken up to there. -/
def releaseMode (ptr : WaitMode → Nat) (state : SyncRepState) (mode : WaitMode) :
    SyncRepState × List Waiter :=
  if state.lsn mode < ptr mode then
    let woken := syncRepWakeQueue false (ptr mode) (state.queue mode)
    ({ state with
        lsn := Function.update state.lsn mode (ptr mode)
        queue := Function.update state.queue mode woken.2 }, woken.1)
  else (state, [])

def takeoverMessage (config : SyncRepConfig) (walsnd : WalSnd) : String :=
  match config.syncrepMethod with
  | .priority =>
    s!"standby \"{walsnd.applicationName}\" is now a synchronous standby with priority " ++
      s!"{walsnd.syncStandbyPriority}"
  | .quorum =>
    s!"standby \"{walsnd.applicationName}\" is now a candidate for quorum synchronous standby"

def setAnnounce (state : SyncRepState) (me : Nat) (announce : Bool) : SyncRepState :=
  { state with announceNextTakeover := Function.update state.announceNextTakeover me announce }

def announceTakeover (config : Option SyncRepConfig) (walsnd : WalSnd) (me : Nat) (amSync : Bool)
    (state : SyncRepState) : SyncRepState :=
  match config with
  | none => state
  | some config =>
    if state.announceNextTakeover me && amSync then
      { setAnnounce state me false with log := state.log ++ [takeoverMessage config walsnd] }
    else state

abbrev Released := List (WaitMode × Waiter)

def releaseModes (ptr : WaitMode → Nat) (state : SyncRepState) : SyncRepState × Released :=
  let write := releaseMode ptr state .write
  let flush := releaseMode ptr write.1 .flush
  let apply := releaseMode ptr flush.1 .apply
  (apply.1, write.2.map (Prod.mk .write) ++ flush.2.map (Prod.mk .flush) ++
    apply.2.map (Prod.mk .apply))

def syncRepReleaseWaiters (config : Option SyncRepConfig) (me : Nat) (stray : WaitMode → Nat)
    (state : SyncRepState) : SyncRepState × Released :=
  match state.walsnds[me]? with
  | none => (state, [])
  | some walsnd =>
    if walsnd.syncStandbyPriority = 0 ∨ isStreaming walsnd.state = false ∨ walsnd.flush = 0 then
      (setAnnounce state me true, [])
    else
      let got := syncRepGetSyncRecPtr config state.walsnds me stray
      let announced := announceTakeover config walsnd me got.amSync state
      match got.positions with
      | none => (setAnnounce announced me (!got.amSync), [])
      | some ptr => releaseModes ptr announced

/-- `SyncRepQueueInsert`: behind the last waiter for an earlier position. -/
def syncRepQueueInsert (queue : List Waiter) (waiter : Waiter) : List Waiter :=
  let behind := queue.reverse.span fun other => decide (waiter.waitLSN ≤ other.waitLSN)
  behind.2.reverse ++ waiter :: behind.1.reverse

/-- A backend that asks for a position that has been released does not wait. -/
def syncRepWaitForLSN (state : SyncRepState) (mode : WaitMode) (waiter : Waiter) : SyncRepState :=
  if waiter.waitLSN ≤ state.lsn mode then state
  else
    { state with
      queue := Function.update state.queue mode
        (syncRepQueueInsert (state.queue mode) waiter) }

def syncRepCancelWait (state : SyncRepState) (proc : Nat) : SyncRepState :=
  { state with queue := fun mode => (state.queue mode).filter fun waiter => waiter.proc ≠ proc }

/-- What happens to the slots and queues: a slot gets any new content, a backend waits or gives up,
a walsender releases waiters. -/
inductive Event where
  | report (index : Nat) (walsnd : WalSnd)
  | wait (mode : WaitMode) (waiter : Waiter)
  | cancel (proc : Nat)
  | release (me : Nat) (stray : WaitMode → Nat)

def perform (config : Option SyncRepConfig) (state : SyncRepState) :
    Event → SyncRepState × Released
  | .report index walsnd => ({ state with walsnds := state.walsnds.set index walsnd }, [])
  | .wait mode waiter => (syncRepWaitForLSN state mode waiter, [])
  | .cancel proc => (syncRepCancelWait state proc, [])
  | .release me stray => syncRepReleaseWaiters config me stray state

end FortressQL.Replication.SyncRep
