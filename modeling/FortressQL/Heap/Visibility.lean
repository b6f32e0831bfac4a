import FortressQL.Heap.TupleHeader

/-!
# Tuple visibility

`heapam_visibility.c`: whether a snapshot sees a tuple, and what vacuum may think of it. What a call
asks the rest of the system is one record; hint bits are set on the tuple that comes back.
-/

namespace FortressQL.Heap

open Transam

section Answers

/-- The answers that a backend gets from the process array, the commit log and the like. -/
structure Backend where
  isCurrent : TransactionId → Bool
  isInProgress : TransactionId → Bool
  didCommit : TransactionId → Bool
  topmost : TransactionId → TransactionId
  /-- The members, with the caller's word on whether there are only lockers. -/
  members : MultiXactId → Bool → List MultiXactMember
  realCids : UInt32 → UInt32 × UInt32
  /-- The commit record is not flushed, nor held back by the page. -/
  hintMustWait : TransactionId → Bool

structure SnapshotData where
  xmin : TransactionId
  xmax : TransactionId
  xip : List TransactionId
  subxip : List TransactionId
  suboverflowed : Bool
  takenDuringRecovery : Bool
  curcid : UInt32

variable (backend : Backend)

def xidInMVCCSnapshot (xid : TransactionId) (snapshot : SnapshotData) : Bool :=
  if transactionIdPrecedes xid snapshot.xmin then false
  else if !transactionIdPrecedes xid snapshot.xmax then true
  else
    let top := if snapshot.suboverflowed then backend.topmost xid else xid
    if !snapshot.takenDuringRecovery then
      if !snapshot.suboverflowed && snapshot.subxip.contains xid then true
      else if snapshot.suboverflowed && transactionIdPrecedes top snapshot.xmin then false
      else snapshot.xip.contains top
    else if snapshot.suboverflowed && transactionIdPrecedes top snapshot.xmin then false
    else snapshot.subxip.contains top

def heapTupleGetUpdateXid (tuple : HeapTupleHeader) : TransactionId :=
  multiXactIdGetUpdateXid (backend.members tuple.xmax false)

def heapTupleHeaderGetUpdateXid (tuple : HeapTupleHeader) : TransactionId :=
  if !hasFlag tuple.infomask heapXmaxInvalid && hasFlag tuple.infomask heapXmaxIsMulti &&
      !hasFlag tuple.infomask heapXmaxLockOnly then
    heapTupleGetUpdateXid backend tuple
  else tuple.xmax

def multiXactIdIsRunning (multi : MultiXactId) (isLockOnly : Bool) : Bool :=
  (backend.members multi isLockOnly).any (fun member => backend.isCurrent member.xid) ||
    (backend.members multi isLockOnly).any fun member => backend.isInProgress member.xid

def heapTupleHeaderIsOnlyLocked (tuple : HeapTupleHeader) : Bool :=
  if hasFlag tuple.infomask heapXmaxInvalid then true
  else if hasFlag tuple.infomask heapXmaxLockOnly then true
  else if tuple.xmax = invalidTransactionId then true
  else if !hasFlag tuple.infomask heapXmaxIsMulti then false
  else
    let xmax := heapTupleGetUpdateXid backend tuple
    !(backend.isCurrent xmax || backend.isInProgress xmax || backend.didCommit xmax)

def heapTupleHeaderGetCmin (tuple : HeapTupleHeader) : UInt32 :=
  if hasFlag tuple.infomask heapCombocid then (backend.realCids tuple.field3).1 else tuple.field3

def heapTupleHeaderGetCmax (tuple : HeapTupleHeader) : UInt32 :=
  if hasFlag tuple.infomask heapCombocid then (backend.realCids tuple.field3).2 else tuple.field3

def setHintBits (tuple : HeapTupleHeader) (bits : Infomask) (xid : TransactionId) :
    HeapTupleHeader :=
  if xid ≠ invalidTransactionId ∧ backend.hintMustWait xid = true then tuple
  else { tuple with infomask := tuple.infomask ||| bits }

end Answers

section Mvcc

variable (backend : Backend) (snapshot : SnapshotData)

/-- Deleted by the own transaction: visible if only after the scan started. -/
def ownDeletion (tuple : HeapTupleHeader) : Bool :=
  snapshot.curcid ≤ heapTupleHeaderGetCmax backend tuple

def ownInsertion (tuple : HeapTupleHeader) : Bool × HeapTupleHeader :=
  if snapshot.curcid ≤ heapTupleHeaderGetCmin backend tuple then (false, tuple)
  else if hasFlag tuple.infomask heapXmaxInvalid then (true, tuple)
  else if heapXmaxIsLockedOnly tuple.infomask then (true, tuple)
  else if hasFlag tuple.infomask heapXmaxIsMulti then
    if !backend.isCurrent (heapTupleGetUpdateXid backend tuple) then (true, tuple)
    else (ownDeletion backend snapshot tuple, tuple)
  else if !backend.isCurrent tuple.xmax then
    (true, setHintBits backend tuple heapXmaxInvalid invalidTransactionId)
  else (ownDeletion backend snapshot tuple, tuple)

/-- The inserting transaction: an answer, or the tuple of a transaction that committed. -/
def inserterSatisfiesMVCC (tuple : HeapTupleHeader) :
    (Bool × HeapTupleHeader) ⊕ HeapTupleHeader :=
  if !heapTupleHeaderXminCommitted tuple then
    if heapTupleHeaderXminInvalid tuple then .inl (false, tuple)
    else if hasFlag tuple.infomask heapMovedOff then
      let xvac := heapTupleHeaderGetXvac tuple
      if backend.isCurrent xvac then .inl (false, tuple)
      else if !xidInMVCCSnapshot backend xvac snapshot then
        if backend.didCommit xvac then
          .inl (false, setHintBits backend tuple heapXminInvalid invalidTransactionId)
        else .inr (setHintBits backend tuple heapXminCommitted invalidTransactionId)
      else .inr tuple
    else if hasFlag tuple.infomask heapMovedIn then
      let xvac := heapTupleHeaderGetXvac tuple
      if !backend.isCurrent xvac then
        if xidInMVCCSnapshot backend xvac snapshot then .inl (false, tuple)
        else if backend.didCommit xvac then
          .inr (setHintBits backend tuple heapXminCommitted invalidTransactionId)
        else .inl (false, setHintBits backend tuple heapXminInvalid invalidTransactionId)
      else .inr tuple
    else if backend.isCurrent tuple.xmin then .inl (ownInsertion backend snapshot tuple)
    else if xidInMVCCSnapshot backend tuple.xmin snapshot then .inl (false, tuple)
    else if backend.didCommit tuple.xmin then
      .inr (setHintBits backend tuple heapXminCommitted tuple.xmin)
    else .inl (false, setHintBits backend tuple heapXminInvalid invalidTransactionId)
  else if !heapTupleHeaderXminFrozen tuple && xidInMVCCSnapshot backend tuple.xmin snapshot then
    .inl (false, tuple)
  else .inr tuple

def deleterSatisfiesMVCC (tuple : HeapTupleHeader) : Bool × HeapTupleHeader :=
  if hasFlag tuple.infomask heapXmaxInvalid then (true, tuple)
  else if heapXmaxIsLockedOnly tuple.infomask then (true, tuple)
  else if hasFlag tuple.infomask heapXmaxIsMulti then
    let xmax := heapTupleGetUpdateXid backend tuple
    if backend.isCurrent xmax then (ownDeletion backend snapshot tuple, tuple)
    else if xidInMVCCSnapshot backend xmax snapshot then (true, tuple)
    else if backend.didCommit xmax then (false, tuple)
    else (true, tuple)
  else if !hasFlag tuple.infomask heapXmaxCommitted then
    if backend.isCurrent tuple.xmax then (ownDeletion backend snapshot tuple, tuple)
    else if xidInMVCCSnapshot backend tuple.xmax snapshot then (true, tuple)
    else if !backend.didCommit tuple.xmax then
      (true, setHintBits backend tuple heapXmaxInvalid invalidTransactionId)
    else (false, setHintBits backend tuple heapXmaxCommitted tuple.xmax)
  else if xidInMVCCSnapshot backend tuple.xmax snapshot then (true, tuple)
  else (false, tuple)

def heapTupleSatisfiesMVCC (tuple : HeapTupleHeader) : Bool × HeapTupleHeader :=
  match inserterSatisfiesMVCC backend snapshot tuple with
  | .inl answer => answer
  | .inr hinted => deleterSatisfiesMVCC backend snapshot hinted

end Mvcc

section Vacuum

inductive HTSVResult where
  | dead
  | live
  | recentlyDead
  | insertInProgress
  | deleteInProgress
  deriving DecidableEq

/-- With `recentlyDead` comes the transaction to compare with the horizon. -/
structure VacuumAnswer where
  result : HTSVResult
  deadAfter : TransactionId
  tuple : HeapTupleHeader

variable (backend : Backend)

def vacuumAnswer (result : HTSVResult) (tuple : HeapTupleHeader) : VacuumAnswer :=
  ⟨result, invalidTransactionId, tuple⟩

def inserterSatisfiesVacuum (tuple : HeapTupleHeader) : VacuumAnswer ⊕ HeapTupleHeader :=
  if !heapTupleHeaderXminCommitted tuple then
    if heapTupleHeaderXminInvalid tuple then .inl (vacuumAnswer .dead tuple)
    else if hasFlag tuple.infomask heapMovedOff then
      let xvac := heapTupleHeaderGetXvac tuple
      if backend.isCurrent xvac then .inl (vacuumAnswer .deleteInProgress tuple)
      else if backend.isInProgress xvac then .inl (vacuumAnswer .deleteInProgress tuple)
      else if backend.didCommit xvac then
        .inl (vacuumAnswer .dead (setHintBits backend tuple heapXminInvalid invalidTransactionId))
      else .inr (setHintBits backend tuple heapXminCommitted invalidTransactionId)
    else if hasFlag tuple.infomask heapMovedIn then
      let xvac := heapTupleHeaderGetXvac tuple
      if backend.isCurrent xvac then .inl (vacuumAnswer .insertInProgress tuple)
      else if backend.isInProgress xvac then .inl (vacuumAnswer .insertInProgress tuple)
      else if backend.didCommit xvac then
        .inr (setHintBits backend tuple heapXminCommitted invalidTransactionId)
      else
        .inl (vacuumAnswer .dead (setHintBits backend tuple heapXminInvalid invalidTransactionId))
    else if backend.isCurrent tuple.xmin then
      if hasFlag tuple.infomask heapXmaxInvalid then .inl (vacuumAnswer .insertInProgress tuple)
      else if heapXmaxIsLockedOnly tuple.infomask || heapTupleHeaderIsOnlyLocked backend tuple then
        .inl (vacuumAnswer .insertInProgress tuple)
      else if backend.isCurrent (heapTupleHeaderGetUpdateXid backend tuple) then
        .inl (vacuumAnswer .deleteInProgress tuple)
      else .inl (vacuumAnswer .insertInProgress tuple)
    else if backend.isInProgress tuple.xmin then .inl (vacuumAnswer .insertInProgress tuple)
    else if backend.didCommit tuple.xmin then
      .inr (setHintBits backend tuple heapXminCommitted tuple.xmin)
    else .inl (vacuumAnswer .dead (setHintBits backend tuple heapXminInvalid invalidTransactionId))
  else .inr tuple

/-- A locker that is gone is hinted away. -/
def lockerGone (tuple : HeapTupleHeader) : HeapTupleHeader :=
  if !hasFlag tuple.infomask heapXmaxCommitted then
    if hasFlag tuple.infomask heapXmaxIsMulti then
      if !heapLockedUpgraded tuple.infomask && multiXactIdIsRunning backend tuple.xmax true then
        tuple
      else setHintBits backend tuple heapXmaxInvalid invalidTransactionId
    else if backend.isInProgress tuple.xmax then tuple
    else setHintBits backend tuple heapXmaxInvalid invalidTransactionId
  else tuple

def deleterSatisfiesVacuum (tuple : HeapTupleHeader) : VacuumAnswer :=
  if hasFlag tuple.infomask heapXmaxInvalid then vacuumAnswer .live tuple
  else if heapXmaxIsLockedOnly tuple.infomask then vacuumAnswer .live (lockerGone backend tuple)
  else if hasFlag tuple.infomask heapXmaxIsMulti then
    let xmax := heapTupleGetUpdateXid backend tuple
    if backend.isInProgress xmax then vacuumAnswer .deleteInProgress tuple
    else if backend.didCommit xmax then ⟨.recentlyDead, xmax, tuple⟩
    else if !multiXactIdIsRunning backend tuple.xmax false then
      vacuumAnswer .live (setHintBits backend tuple heapXmaxInvalid invalidTransactionId)
    else vacuumAnswer .live tuple
  else if !hasFlag tuple.infomask heapXmaxCommitted then
    if backend.isInProgress tuple.xmax then vacuumAnswer .deleteInProgress tuple
    else if backend.didCommit tuple.xmax then
      ⟨.recentlyDead, tuple.xmax, setHintBits backend tuple heapXmaxCommitted tuple.xmax⟩
    else vacuumAnswer .live (setHintBits backend tuple heapXmaxInvalid invalidTransactionId)
  else ⟨.recentlyDead, tuple.xmax, tuple⟩

def heapTupleSatisfiesVacuumHorizon (tuple : HeapTupleHeader) : VacuumAnswer :=
  match inserterSatisfiesVacuum backend tuple with
  | .inl answer => answer
  | .inr hinted => deleterSatisfiesVacuum backend hinted

def heapTupleSatisfiesVacuum (oldestXmin : TransactionId) (tuple : HeapTupleHeader) :
    HTSVResult × HeapTupleHeader :=
  let answer := heapTupleSatisfiesVacuumHorizon backend tuple
  if answer.result = .recentlyDead ∧ transactionIdPrecedes answer.deadAfter oldestXmin = true then
    (.dead, answer.tuple)
  else (answer.result, answer.tuple)

end Vacuum

end FortressQL.Heap
