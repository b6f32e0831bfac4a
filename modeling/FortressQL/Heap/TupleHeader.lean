import FortressQL.Transam.Clog

/-!
# Heap tuple headers

The fields and flags of `htup_details.h` that visibility reads, and the members
of a multixact.
-/

namespace FortressQL.Heap

open Transam

abbrev Infomask := BitVec 16

def heapXmaxKeyshrLock : Infomask := 0x0010#16
def heapCombocid : Infomask := 0x0020#16
def heapXmaxExclLock : Infomask := 0x0040#16
def heapXmaxLockOnly : Infomask := 0x0080#16
def heapXmaxShrLock : Infomask := heapXmaxExclLock ||| heapXmaxKeyshrLock
def heapLockMask : Infomask := heapXmaxShrLock ||| heapXmaxExclLock ||| heapXmaxKeyshrLock
def heapXminCommitted : Infomask := 0x0100#16
def heapXminInvalid : Infomask := 0x0200#16
def heapXminFrozen : Infomask := heapXminCommitted ||| heapXminInvalid
def heapXmaxCommitted : Infomask := 0x0400#16
def heapXmaxInvalid : Infomask := 0x0800#16
def heapXmaxIsMulti : Infomask := 0x1000#16
def heapMovedOff : Infomask := 0x4000#16
def heapMovedIn : Infomask := 0x8000#16
def heapMoved : Infomask := heapMovedOff ||| heapMovedIn

def heapXmaxBits : Infomask :=
  heapXmaxCommitted ||| heapXmaxInvalid ||| heapXmaxIsMulti ||| heapLockMask ||| heapXmaxLockOnly

def hasFlag (infomask mask : Infomask) : Bool := infomask &&& mask ≠ 0#16

def heapXmaxIsLockedOnly (infomask : Infomask) : Bool :=
  hasFlag infomask heapXmaxLockOnly ||
    (infomask &&& (heapXmaxIsMulti ||| heapLockMask) = heapXmaxExclLock)

def heapLockedUpgraded (infomask : Infomask) : Bool :=
  hasFlag infomask heapXmaxIsMulti && hasFlag infomask heapXmaxLockOnly &&
    (infomask &&& (heapXmaxExclLock ||| heapXmaxKeyshrLock) = 0#16)

section Headers

structure ItemPointer where
  blockNumber : Nat
  offsetNumber : Nat
  deriving DecidableEq

structure HeapTupleHeader where
  xmin : TransactionId
  /-- A transaction or, with `heapXmaxIsMulti`, a multixact. -/
  xmax : TransactionId
  /-- The command id or, in a moved tuple, the transaction of the move. -/
  field3 : UInt32
  ctid : ItemPointer
  infomask : Infomask
  infomask2 : Infomask
  deriving DecidableEq

variable (tuple : HeapTupleHeader)

def heapTupleHeaderXminCommitted : Bool := hasFlag tuple.infomask heapXminCommitted

def heapTupleHeaderXminInvalid : Bool :=
  tuple.infomask &&& (heapXminCommitted ||| heapXminInvalid) = heapXminInvalid

def heapTupleHeaderXminFrozen : Bool := tuple.infomask &&& heapXminFrozen = heapXminFrozen

def heapTupleHeaderGetXvac : TransactionId :=
  if hasFlag tuple.infomask heapMoved then tuple.field3 else invalidTransactionId

end Headers

abbrev MultiXactId := UInt32

inductive MultiXactStatus where
  | forKeyShare
  | forShare
  | forNoKeyUpdate
  | forUpdate
  | noKeyUpdate
  | update
  deriving DecidableEq

def isUpdateFromMxstatus : MultiXactStatus → Bool
  | .noKeyUpdate => true
  | .update => true
  | _ => false

structure MultiXactMember where
  xid : TransactionId
  status : MultiXactStatus
  deriving DecidableEq

def multiXactIdGetUpdateXid (members : List MultiXactMember) : TransactionId :=
  ((members.find? fun member => isUpdateFromMxstatus member.status).map MultiXactMember.xid).getD
    invalidTransactionId

section FlagFacts

variable {infomask mask other : Infomask}

theorem and_single_flag (index : Nat) :
    infomask &&& BitVec.twoPow 16 index =
      if hasFlag infomask (BitVec.twoPow 16 index) then BitVec.twoPow 16 index else 0#16 := by
  unfold hasFlag
  rw [BitVec.and_twoPow]
  split <;> simp

theorem and_xmin_flags :
    infomask &&& (heapXminCommitted ||| heapXminInvalid) =
      (if hasFlag infomask heapXminCommitted then heapXminCommitted else 0#16) |||
        (if hasFlag infomask heapXminInvalid then heapXminInvalid else 0#16) := by
  have committed : heapXminCommitted = BitVec.twoPow 16 8 := by decide
  have invalid : heapXminInvalid = BitVec.twoPow 16 9 := by decide
  rw [BitVec.and_or_distrib_left, committed, invalid, and_single_flag, and_single_flag]

theorem xmin_invalid_eq (tuple : HeapTupleHeader) :
    heapTupleHeaderXminInvalid tuple =
      (!hasFlag tuple.infomask heapXminCommitted && hasFlag tuple.infomask heapXminInvalid) := by
  unfold heapTupleHeaderXminInvalid
  rw [and_xmin_flags]
  cases hasFlag tuple.infomask heapXminCommitted <;>
    cases hasFlag tuple.infomask heapXminInvalid <;> decide

theorem xmin_frozen_eq (tuple : HeapTupleHeader) :
    heapTupleHeaderXminFrozen tuple =
      (hasFlag tuple.infomask heapXminCommitted && hasFlag tuple.infomask heapXminInvalid) := by
  unfold heapTupleHeaderXminFrozen heapXminFrozen
  rw [and_xmin_flags]
  cases hasFlag tuple.infomask heapXminCommitted <;>
    cases hasFlag tuple.infomask heapXminInvalid <;> decide

end FlagFacts

end FortressQL.Heap
