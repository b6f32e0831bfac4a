import FortressQL.Lib.CycleSearch
import Mathlib.Data.List.Perm.Basic

/-!
# The deadlock detector

`deadlock.c`: a search for cycles of waiting processes, and one for orders of the wait queues that
have none. A lock group counts as one. The report of a deadlock is left out.
-/

namespace FortressQL.Lmgr.Deadlock

open Lib.CycleSearch

structure PGProc (Proc Lock : Type) where
  lockGroupLeader : Option Proc
  lockGroupMembers : List Proc
  /-- The lock the process is queued for. -/
  waitLock : Option Lock
  waitLockMode : Nat
  isAutovacuum : Bool

/-- A lock with the conflicts of its lock method. Sets of modes are bit masks. -/
structure LockEntry (Proc : Type) where
  isRelationExtend : Bool
  numLockModes : Nat
  conflictTab : Nat → Nat
  /-- The holders with the modes they hold. -/
  procLocks : List (Proc × Nat)
  waitProcs : List Proc

structure LockTable (Proc Lock : Type) where
  procs : Proc → PGProc Proc Lock
  locks : Lock → LockEntry Proc
  queued : ∀ lock proc, proc ∈ (locks lock).waitProcs ↔ (procs proc).waitLock = some lock
  once : ∀ lock, (locks lock).waitProcs.Nodup
  leaders : ∀ proc leader, (procs proc).lockGroupLeader = some leader →
    (procs leader).lockGroupLeader = some leader
  members : ∀ proc leader, proc ∈ (procs leader).lockGroupMembers ↔
    (procs proc).lockGroupLeader = some leader

/-- A soft edge: the waiter comes behind the blocker in the queue of the lock. Both are leaders. -/
structure SoftEdge (Proc Lock : Type) where
  waiter : Proc
  blocker : Proc
  lock : Lock
  deriving DecidableEq

structure WaitOrder (Proc Lock : Type) where
  lock : Lock
  procs : List Proc
  deriving DecidableEq

variable {Proc Lock : Type} [DecidableEq Proc] [DecidableEq Lock]

section Edges

variable (table : LockTable Proc Lock)

def groupLeader (proc : Proc) : Proc := (table.procs proc).lockGroupLeader.getD proc

def conflictMask (entry : LockEntry Proc) (proc : Proc) : Nat :=
  entry.conflictTab (table.procs proc).waitLockMode

def holdsConflicting (entry : LockEntry Proc) (holdMask conflicts : Nat) : Bool :=
  (List.range' 1 entry.numLockModes).any fun mode => holdMask.testBit mode && conflicts.testBit mode

def hardBlockers (entry : LockEntry Proc) (checkProc : Proc) : List Proc :=
  (entry.procLocks.filter fun holder =>
    groupLeader table holder.1 ≠ groupLeader table checkProc &&
      holdsConflicting entry holder.2 (conflictMask table entry checkProc)).map Prod.fst

def requestConflicts (entry : LockEntry Proc) (checkProc proc : Proc) : Bool :=
  (conflictMask table entry checkProc).testBit (table.procs proc).waitLockMode

/-- The waiters ahead of the group in a proposed order, where groups are together. -/
def orderBlockers (entry : LockEntry Proc) (procs : List Proc) (checkProc : Proc) : List Proc :=
  (procs.takeWhile fun proc => groupLeader table proc ≠ groupLeader table checkProc).filter
    (requestConflicts table entry checkProc)

def lastGroupMember (entry : LockEntry Proc) (checkProc : Proc) : Option Proc :=
  if (table.procs checkProc).lockGroupLeader = none then some checkProc
  else entry.waitProcs.reverse.find? fun proc =>
    (table.procs proc).lockGroupLeader = some (groupLeader table checkProc)

/-- The waiters ahead of the last member of the group in the queue. -/
def queueBlockers (entry : LockEntry Proc) (checkProc : Proc) : List Proc :=
  (entry.waitProcs.takeWhile fun proc =>
      some proc ≠ lastGroupMember table entry checkProc).filter fun proc =>
    requestConflicts table entry checkProc proc &&
      groupLeader table proc ≠ groupLeader table checkProc

def softBlockers (orders : List (WaitOrder Proc Lock)) (lock : Lock) (checkProc : Proc) :
    List Proc :=
  match orders.find? fun order => order.lock = lock with
  | some order => orderBlockers table (table.locks lock) order.procs checkProc
  | none => queueBlockers table (table.locks lock) checkProc

/-- `FindLockCycleRecurseMember`: hard edges first, and none from the wait for a relation extension
lock. -/
def memberEdges (orders : List (WaitOrder Proc Lock)) (checkProc : Proc) :
    List (Proc × Option (SoftEdge Proc Lock)) :=
  match (table.procs checkProc).waitLock with
  | none => []
  | some lock =>
    let entry := table.locks lock
    if entry.isRelationExtend then []
    else
      (hardBlockers table entry checkProc).map (fun proc => (groupLeader table proc, none)) ++
        (softBlockers table orders lock checkProc).map fun proc =>
          (groupLeader table proc,
            some ⟨groupLeader table checkProc, groupLeader table proc, lock⟩)

/-- The edges of a group in the order `FindLockCycleRecurse` follows them: those of the leader, then
those of the other members. -/
def groupEdges (orders : List (WaitOrder Proc Lock)) (leader : Proc) :
    List (Proc × Option (SoftEdge Proc Lock)) :=
  (leader :: (table.procs leader).lockGroupMembers.filter fun member => member ≠ leader).flatMap
    (memberEdges table orders)

/-- Whether a cycle passes through the group of the process, and the soft edges of the one found.
The bound is on the length of a path; the source has room for as many visited processes, and an
`Assert` in place of a check. -/
def findLockCycle (maxBackends : Nat) (orders : List (WaitOrder Proc Lock)) (checkProc : Proc) :
    Option (Bool × List (SoftEdge Proc Lock)) :=
  let start := groupLeader table checkProc
  (search (groupEdges table orders) start maxBackends [] start).map fun found =>
    (found.cycle, found.labels)

end Edges

section TopologicalSort

variable (table : LockTable Proc Lock)

def memberAt (queue : List Proc) (group : Proc) (index : Nat) : Bool :=
  match queue[index]? with
  | none => false
  | some proc => proc = group || (table.procs proc).lockGroupLeader = some group

def representative (queue : List Proc) (group : Proc) : Option Nat :=
  (List.range queue.length).reverse.find? (memberAt table queue group)

/-- The other places of the group are output with its representative. -/
def markOthers (queue : List Proc) (group : Proc) (before : Nat → Int) (index : Nat) : Int :=
  if memberAt table queue group index ∧ some index ≠ representative table queue group then -1
  else before index

structure Counts where
  /-- The number of constraints that say a place must come before another one. -/
  beforeConstraints : Nat → Int
  /-- The places that must come before this one. -/
  afterConstraints : Nat → List Nat

def countConstraint (queue : List Proc) (counts : Counts) (constraint : SoftEdge Proc Lock) :
    Counts :=
  let marked := markOthers table queue constraint.waiter counts.beforeConstraints
  match representative table queue constraint.waiter with
  | none => { counts with beforeConstraints := marked }
  | some waiterAt =>
    let marked := markOthers table queue constraint.blocker marked
    match representative table queue constraint.blocker with
    | none => { counts with beforeConstraints := marked }
    | some blockerAt =>
      { beforeConstraints := Function.update marked waiterAt (marked waiterAt + 1)
        afterConstraints :=
          Function.update counts.afterConstraints blockerAt
            (waiterAt :: counts.afterConstraints blockerAt) }

/-- The last place without remaining constraints is output next, in front, with its whole group. -/
def outputGroups (queue : List Proc) (afterConstraints : Nat → List Nat) :
    Nat → (Nat → Int) → List Nat → List Nat → Option (List Nat)
  | _, _, [], ordering => some ordering
  | 0, _, _ :: _, _ => none
  | fuel + 1, before, first :: rest, ordering =>
    match (first :: rest).reverse.find? fun index => before index = 0 with
    | none => none
    | some chosen =>
      let inGroup : Nat → Bool := fun index =>
        match queue[chosen]? with
        | none => false
        | some proc => memberAt table queue (groupLeader table proc) index
      outputGroups queue afterConstraints fuel
        (fun index => before index - (afterConstraints chosen).count index)
        ((first :: rest).filter fun index => !inGroup index)
        (((first :: rest).filter inGroup).reverse ++ ordering)

def topoSort (queue : List Proc) (constraints : List (SoftEdge Proc Lock)) : Option (List Proc) :=
  let counts := constraints.foldl (countConstraint table queue) ⟨fun _ => 0, fun _ => []⟩
  (outputGroups table queue counts.afterConstraints queue.length counts.beforeConstraints
    (List.range queue.length) []).map fun ordering => ordering.filterMap fun index => queue[index]?

/-- The constraints from the last to the first, one order for each lock among them. -/
def expandFrom : List (SoftEdge Proc Lock) → List (WaitOrder Proc Lock) →
    Option (List (WaitOrder Proc Lock))
  | [], orders => some orders
  | constraint :: earlier, orders =>
    if orders.any fun order => order.lock = constraint.lock then expandFrom earlier orders
    else
      (topoSort table (table.locks constraint.lock).waitProcs
          (constraint :: earlier).reverse).bind fun procs =>
        expandFrom earlier (orders ++ [⟨constraint.lock, procs⟩])

def expandConstraints (constraints : List (SoftEdge Proc Lock)) :
    Option (List (WaitOrder Proc Lock)) :=
  expandFrom table constraints.reverse []

end TopologicalSort

section Check

variable (table : LockTable Proc Lock) (maxBackends : Nat)

inductive Configuration (Proc Lock : Type) where
  /-- A hard deadlock, contradictory constraints or no room. -/
  | failed (ranOut : Bool)
  | good (orders : List (WaitOrder Proc Lock))
  | soft (edges : List (SoftEdge Proc Lock))

/-- The cycles through the processes in turn; the soft edges of the last one found are returned. -/
def checkProcs (orders : List (WaitOrder Proc Lock)) :
    List Proc → List (SoftEdge Proc Lock) → Option (Configuration Proc Lock)
  | [], [] => some (.good orders)
  | [], first :: rest => some (.soft (first :: rest))
  | proc :: procs, softFound =>
    (findLockCycle table maxBackends orders proc).bind fun found =>
      match found with
      | (true, []) => some (.failed false)
      | (true, first :: rest) => checkProcs orders procs (first :: rest)
      | (false, _) => checkProcs orders procs softFound

def maxPossibleConstraints : Nat := maxBackends * 4

def testConfiguration (startProc : Proc) (nPossibleConstraints : Nat)
    (curConstraints : List (SoftEdge Proc Lock)) : Option (Configuration Proc Lock) :=
  if maxPossibleConstraints maxBackends < nPossibleConstraints + maxBackends then
    some (.failed true)
  else
    match expandConstraints table curConstraints with
    | none => some (.failed false)
    | some orders =>
      checkProcs table maxBackends orders
        (curConstraints.flatMap (fun constraint => [constraint.waiter, constraint.blocker]) ++
          [startProc]) []

/-- The orders of a solution, and whether the workspace for constraints ran out on the way. -/
structure Outcome (Proc Lock : Type) where
  solution : Option (List (WaitOrder Proc Lock))
  ranOut : Bool

/-- Each soft edge in turn as an addition to the constraints, until there is a solution. -/
def tryEdges (recurse : List (SoftEdge Proc Lock) → Option (Outcome Proc Lock))
    (curConstraints : List (SoftEdge Proc Lock)) :
    List (SoftEdge Proc Lock) → Bool → Option (Outcome Proc Lock)
  | [], ranOut => some ⟨none, ranOut⟩
  | edge :: edges, ranOut =>
    (recurse (curConstraints ++ [edge])).bind fun outcome =>
      if outcome.solution.isSome then some outcome
      else tryEdges recurse curConstraints edges (ranOut || outcome.ranOut)

/-- The room is what is left for constraints. A list of edges that is not saved is computed again.
-/
def deadLockCheckRecurse (proc : Proc) :
    Nat → Nat → List (SoftEdge Proc Lock) → Option (Outcome Proc Lock)
  | room, nPossibleConstraints, curConstraints =>
    (testConfiguration table maxBackends proc nPossibleConstraints curConstraints).bind
      fun configuration =>
        match configuration with
        | .failed ranOut => some ⟨none, ranOut⟩
        | .good orders => some ⟨some orders, false⟩
        | .soft edges =>
          match room with
          | 0 => some ⟨none, true⟩
          | room + 1 =>
            let nPossible :=
              if nPossibleConstraints + edges.length + maxBackends ≤
                  maxPossibleConstraints maxBackends then
                nPossibleConstraints + edges.length
              else nPossibleConstraints
            tryEdges (deadLockCheckRecurse proc room nPossible) curConstraints edges false

inductive DeadLockState where
  | noDeadlock
  | softDeadlock
  | hardDeadlock
  | blockedByAutovacuum
  deriving DecidableEq

structure CheckResult (Proc Lock : Type) where
  state : DeadLockState
  waitOrders : List (WaitOrder Proc Lock)
  ranOut : Bool
  deriving DecidableEq

/-- The last autovacuum worker found among the holders that block a process directly. -/
def blockingAutovacuum (proc : Proc) : Option Proc :=
  match (table.procs proc).waitLock with
  | none => none
  | some lock =>
    if (table.locks lock).isRelationExtend then none
    else ((hardBlockers table (table.locks lock) proc).filter fun blocker =>
      (table.procs blocker).isAutovacuum).getLast?

/-- Nothing comes back where the detector gives up. -/
def deadLockCheck (proc : Proc) : Option (CheckResult Proc Lock) :=
  (deadLockCheckRecurse table maxBackends proc maxBackends 0 []).bind fun outcome =>
    match outcome.solution with
    | none =>
      match findLockCycle table maxBackends [] proc with
      | some (true, _) => some ⟨.hardDeadlock, [], outcome.ranOut⟩
      | _ => none
    | some orders =>
      let state : DeadLockState :=
        if orders.length > 0 then .softDeadlock
        else if (blockingAutovacuum table proc).isSome then .blockedByAutovacuum
        else .noDeadlock
      some ⟨state, orders, outcome.ranOut⟩

/-- The queue of a lock once the orders are applied. -/
def queueAfter (orders : List (WaitOrder Proc Lock)) (lock : Lock) : List Proc :=
  match orders.find? fun order => order.lock = lock with
  | some order => order.procs
  | none => (table.locks lock).waitProcs

end Check

end FortressQL.Lmgr.Deadlock
