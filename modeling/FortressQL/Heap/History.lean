import FortressQL.Heap.Visibility
import Mathlib.Logic.Relation
import Mathlib.Logic.Function.Basic

/-!
# Transaction histories

The outcome of every transaction, and how a history goes on. Transaction ids are reused; those in
use lie within half the circle.
-/

namespace FortressQL.Heap

open Transam

inductive Outcome where
  | notStarted
  | inProgress
  | committed
  /-- Rolled back, or lost in a crash. -/
  | aborted
  deriving DecidableEq

structure History where
  oldestXid : TransactionId
  outcomes : TransactionId → Outcome
  members : MultiXactId → List MultiXactMember

namespace History

/-- The permanent transaction ids count as finished. -/
def status (history : History) (xid : TransactionId) : Outcome :=
  if transactionIdIsNormal xid then history.outcomes xid
  else if xid = invalidTransactionId then .aborted
  else .committed

def InWindow (history : History) (xid : TransactionId) : Prop :=
  transactionIdIsNormal xid = true → (xid - history.oldestXid).toNat < 2 ^ 31

instance (history : History) (xid : TransactionId) : Decidable (history.InWindow xid) :=
  inferInstanceAs (Decidable (_ → _))

/-- The transactions out of the new window are forgotten. -/
def advance (history : History) (oldestXid : TransactionId) : History :=
  { history with
    oldestXid := oldestXid
    outcomes := fun xid =>
      if InWindow { history with oldestXid := oldestXid } xid then history.outcomes xid
      else .notStarted }

end History

inductive HistoryStep : History → History → Prop where
  | assign (history : History) (xid : TransactionId) (normal : transactionIdIsNormal xid = true)
      (inside : history.InWindow xid) (free : history.outcomes xid = .notStarted) :
      HistoryStep history
        { history with outcomes := Function.update history.outcomes xid .inProgress }
  /-- A transaction with its subtransactions, one subtransaction, or all that a crash stops. -/
  | finish (history : History) (finishing : TransactionId → Bool) (committed : Bool)
      (running : ∀ xid, finishing xid = true → history.outcomes xid = .inProgress) :
      HistoryStep history { history with
        outcomes := fun xid =>
          if finishing xid then if committed then .committed else .aborted
          else history.outcomes xid }
  | advance (history : History) (oldestXid : TransactionId) :
      HistoryStep history (history.advance oldestXid)
  | record (history : History) (multi : MultiXactId) (members : List MultiXactMember) :
      HistoryStep history { history with members := Function.update history.members multi members }

/-- A transaction still in the process array may or may not be found committed in the log. -/
structure Reads (history : History) (backend : Backend) : Prop where
  inProgress : ∀ xid, backend.isInProgress xid = true ↔ history.status xid = .inProgress
  committed : ∀ xid, history.status xid ≠ .inProgress →
    (backend.didCommit xid = true ↔ history.status xid = .committed)
  current : ∀ xid, backend.isCurrent xid = true → history.status xid = .inProgress
  members : ∀ multi, backend.members multi false = history.members multi

def History.bystander (history : History) : Backend where
  isCurrent _ := false
  isInProgress xid := history.status xid = .inProgress
  didCommit xid := history.status xid = .committed
  topmost := id
  members multi _ := history.members multi
  realCids command := (command, command)
  hintMustWait _ := false

theorem bystander_reads (history : History) : Reads history history.bystander where
  inProgress _ := decide_eq_true_iff
  committed _ _ := decide_eq_true_iff
  current _ impossible := absurd impossible Bool.false_ne_true
  members _ := rfl

section Steps

variable {before after : History} {xid : TransactionId}

theorem step_finished (step : HistoryStep before after) (inside : after.InWindow xid)
    (finished : before.status xid = .committed ∨ before.status xid = .aborted) :
    after.status xid = before.status xid := by
  unfold History.status at finished ⊢
  by_cases normal : transactionIdIsNormal xid = true
  · rw [if_pos normal] at finished
    rw [if_pos normal, if_pos normal]
    cases step with
    | assign other _ _ free =>
      have different : xid ≠ other := by
        rintro rfl
        rw [free] at finished
        rcases finished with impossible | impossible <;> cases impossible
      exact Function.update_of_ne different _ _
    | finish finishing committed running =>
      refine if_neg fun stops => ?_
      rw [running xid stops] at finished
      rcases finished with impossible | impossible <;> cases impossible
    | advance oldestXid => exact if_pos inside
    | record multi members => rfl
  · rw [if_neg normal, if_neg normal]

end Steps

section Window

variable {history : History} {first second third : TransactionId}

theorem precedes_in_window (firstNormal : transactionIdIsNormal first = true)
    (secondNormal : transactionIdIsNormal second = true) (firstInside : history.InWindow first)
    (secondInside : history.InWindow second) :
    transactionIdPrecedes first second = true ↔
      (first - history.oldestXid).toNat < (second - history.oldestXid).toNat := by
  have firstBound := firstInside firstNormal
  have secondBound := secondInside secondNormal
  have secondLimit := second.toNat_lt
  unfold transactionIdPrecedes
  rw [if_neg (by simp [firstNormal, secondNormal]), decide_eq_true_eq]
  rw [UInt32.toNat_sub] at firstBound secondBound
  rw [UInt32.toNat_sub, UInt32.toNat_sub, UInt32.toNat_sub]
  omega

theorem precedes_horizon (firstInside : history.InWindow first)
    (secondInside : history.InWindow second) (thirdInside : history.InWindow third)
    (precedes : transactionIdPrecedes first second = true)
    (notBefore : transactionIdPrecedes third second = false) :
    transactionIdPrecedes first third = true := by
  by_cases normals : transactionIdIsNormal first = true ∧ transactionIdIsNormal second = true ∧
      transactionIdIsNormal third = true
  · obtain ⟨firstNormal, secondNormal, thirdNormal⟩ := normals
    rw [precedes_in_window firstNormal secondNormal firstInside secondInside] at precedes
    rw [← Bool.not_eq_true, precedes_in_window thirdNormal secondNormal thirdInside secondInside,
      Nat.not_lt] at notBefore
    rw [precedes_in_window firstNormal thirdNormal firstInside thirdInside]
    exact Nat.lt_of_lt_of_le precedes notBefore
  · -- with a permanent id among them, all comparisons that count are of plain numbers
    simp only [transactionIdPrecedes, transactionIdIsNormal, decide_eq_false_iff_not] at *
    split at precedes <;> split at notBefore <;> split <;>
      simp only [decide_eq_true_eq, decide_eq_false_iff_not] at * <;> omega

end Window

end FortressQL.Heap
