import FortressQL.Heap.History

/-!
# Dead tuples

What vacuum finds dead is seen by no snapshot behind the horizon, however the history goes on and
whatever true hint bits the tuple gets.
-/

namespace FortressQL.Heap

open Transam

variable {infomask other big : Infomask} {tuple hinted : HeapTupleHeader}
  {oldestXmin xid : TransactionId}

section Hints

def SameXmax (tuple other : HeapTupleHeader) : Prop :=
  tuple.xmax = other.xmax ∧ tuple.infomask &&& heapXmaxBits = other.infomask &&& heapXmaxBits

theorem has_flag_congr {small : Infomask} (same : infomask &&& big = other &&& big)
    (within : big &&& small = small) : hasFlag infomask small = hasFlag other small := by
  unfold hasFlag
  rw [← within, ← BitVec.and_assoc, same, BitVec.and_assoc]

theorem locked_only_congr (same : infomask &&& big = other &&& big)
    (lockOnly : big &&& heapXmaxLockOnly = heapXmaxLockOnly)
    (locks : big &&& (heapXmaxIsMulti ||| heapLockMask) = heapXmaxIsMulti ||| heapLockMask) :
    heapXmaxIsLockedOnly infomask = heapXmaxIsLockedOnly other := by
  unfold heapXmaxIsLockedOnly
  rw [has_flag_congr same lockOnly, ← locks, ← BitVec.and_assoc, same, BitVec.and_assoc]

variable (backend : Backend)

theorem hint_same_xmax (tuple : HeapTupleHeader) {bits : Infomask} (xid : TransactionId)
    (apart : bits &&& heapXmaxBits = 0#16) :
    SameXmax (setHintBits backend tuple bits xid) tuple := by
  unfold setHintBits
  split
  · exact ⟨rfl, rfl⟩
  · refine ⟨rfl, ?_⟩
    rw [BitVec.and_or_distrib_right, apart, BitVec.or_zero]

end Hints

def updater (history : History) (tuple : HeapTupleHeader) : TransactionId :=
  if hasFlag tuple.infomask heapXmaxIsMulti then
    multiXactIdGetUpdateXid (history.members tuple.xmax)
  else tuple.xmax

/-- The hint bits say what has happened. -/
structure Truthful (history : History) (tuple : HeapTupleHeader) : Prop where
  inserted : heapTupleHeaderXminCommitted tuple = true → heapTupleHeaderXminFrozen tuple = false →
    history.status tuple.xmin = .committed
  notInserted : heapTupleHeaderXminInvalid tuple = true → history.status tuple.xmin = .aborted
  deleted : hasFlag tuple.infomask heapXmaxCommitted = true →
    hasFlag tuple.infomask heapXmaxIsMulti = false →
    heapXmaxIsLockedOnly tuple.infomask = false → history.status tuple.xmax = .committed
  notDeleted : hasFlag tuple.infomask heapXmaxInvalid = true →
    heapXmaxIsLockedOnly tuple.infomask = false →
    history.status (updater history tuple) = .aborted

/-- The tuple names transactions that the history knows. The inserter of a frozen tuple may be
forgotten. -/
structure Resident (history : History) (tuple : HeapTupleHeader) : Prop where
  inserter : heapTupleHeaderXminFrozen tuple = true ∨
    (history.InWindow tuple.xmin ∧ history.status tuple.xmin ≠ .notStarted)
  deleter : history.InWindow (updater history tuple)

def NotMoved (tuple : HeapTupleHeader) : Prop := tuple.infomask &&& heapMoved = 0#16

theorem not_moved_off (notMoved : NotMoved tuple) :
    hasFlag tuple.infomask heapMovedOff = false ∧ hasFlag tuple.infomask heapMovedIn = false := by
  have both : hasFlag tuple.infomask heapMoved = false := by
    simp [hasFlag, show tuple.infomask &&& heapMoved = 0#16 from notMoved]
  unfold heapMoved at both
  have split : hasFlag tuple.infomask (heapMovedOff ||| heapMovedIn) =
      (hasFlag tuple.infomask heapMovedOff || hasFlag tuple.infomask heapMovedIn) := by
    unfold hasFlag
    rw [BitVec.and_or_distrib_left, Bool.eq_iff_iff, Bool.or_eq_true, decide_eq_true_eq,
      decide_eq_true_eq, decide_eq_true_eq, ne_eq, BitVec.or_eq_zero_iff]
    exact not_and_or
  rw [split] at both
  exact Bool.or_eq_false_iff.mp both

section Vacuum

variable {history : History} {backend : Backend}

def InserterJudged (history : History) (tuple : HeapTupleHeader) :
    VacuumAnswer ⊕ HeapTupleHeader → Prop
  | .inl answer =>
    answer.result ≠ .recentlyDead ∧
      (answer.result = .dead → heapTupleHeaderXminFrozen tuple = false ∧
        history.status tuple.xmin = .aborted)
  | .inr hinted =>
    SameXmax hinted tuple ∧
      (heapTupleHeaderXminFrozen tuple = true ∨ history.status tuple.xmin = .committed)

/-- Why vacuum finds a tuple dead. -/
def DeadFor (history : History) (tuple : HeapTupleHeader) (oldestXmin : TransactionId) : Prop :=
  (heapTupleHeaderXminFrozen tuple = false ∧ history.status tuple.xmin = .aborted) ∨
    ((heapTupleHeaderXminFrozen tuple = true ∨ history.status tuple.xmin = .committed) ∧
      heapXmaxIsLockedOnly tuple.infomask = false ∧
      history.status (updater history tuple) = .committed ∧
      transactionIdPrecedes (updater history tuple) oldestXmin = true)

variable (reads : Reads history backend) (truthful : Truthful history tuple)

include reads truthful

theorem inserter_judged (resident : Resident history tuple) (notMoved : NotMoved tuple) :
    InserterJudged history tuple (inserterSatisfiesVacuum backend tuple) := by
  obtain ⟨notOff, notIn⟩ := not_moved_off notMoved
  unfold inserterSatisfiesVacuum
  by_cases hinted : heapTupleHeaderXminCommitted tuple = true
  · rw [if_neg (by simp [hinted])]
    refine ⟨⟨rfl, rfl⟩, ?_⟩
    by_cases frozen : heapTupleHeaderXminFrozen tuple = true
    · exact .inl frozen
    · exact .inr (truthful.inserted hinted (Bool.eq_false_iff.mpr frozen))
  · have notFrozen : heapTupleHeaderXminFrozen tuple = false := by
      rw [xmin_frozen_eq]
      rw [heapTupleHeaderXminCommitted, Bool.not_eq_true] at hinted
      rw [hinted, Bool.false_and]
    have started : history.status tuple.xmin ≠ .notStarted :=
      (resident.inserter.resolve_left (by simp [notFrozen])).2
    rw [if_pos (by simp [hinted]), notOff, notIn]
    simp only [Bool.false_eq_true, if_false]
    split
    · rename_i invalid
      exact ⟨nofun, fun _ => ⟨notFrozen, truthful.notInserted invalid⟩⟩
    · split
      · split
        · exact ⟨nofun, nofun⟩
        · split
          · exact ⟨nofun, nofun⟩
          · split <;> exact ⟨nofun, nofun⟩
      · split
        · exact ⟨nofun, nofun⟩
        · rename_i _ notRunning
          have finished : history.status tuple.xmin ≠ .inProgress :=
            fun running => notRunning ((reads.inProgress _).mpr running)
          split
          · rename_i committed
            exact ⟨hint_same_xmax backend tuple _ (by decide),
              .inr ((reads.committed _ finished).mp committed)⟩
          · rename_i notCommitted
            refine ⟨nofun, fun _ => ⟨notFrozen, ?_⟩⟩
            have other := (reads.committed _ finished).not.mp notCommitted
            cases outcome : history.status tuple.xmin with
            | notStarted => exact absurd outcome started
            | inProgress => exact absurd outcome finished
            | committed => exact absurd outcome other
            | aborted => rfl

/-- A deleter that makes the tuple recently dead committed. -/
theorem deleter_judged (same : SameXmax hinted tuple) :
    (deleterSatisfiesVacuum backend hinted).result ≠ .dead ∧
      ((deleterSatisfiesVacuum backend hinted).result = .recentlyDead →
        (deleterSatisfiesVacuum backend hinted).deadAfter = updater history tuple ∧
        history.status (updater history tuple) = .committed ∧
        heapXmaxIsLockedOnly tuple.infomask = false) := by
  obtain ⟨sameXmax, sameFlags⟩ := same
  have invalid := has_flag_congr sameFlags (show heapXmaxBits &&& heapXmaxInvalid = _ by decide)
  have committed := has_flag_congr sameFlags (show heapXmaxBits &&& heapXmaxCommitted = _ by decide)
  have multi := has_flag_congr sameFlags (show heapXmaxBits &&& heapXmaxIsMulti = _ by decide)
  have locked := locked_only_congr sameFlags (by decide) (by decide)
  unfold deleterSatisfiesVacuum heapTupleGetUpdateXid
  rw [committed, multi, locked, sameXmax, reads.members]
  split
  · exact ⟨nofun, nofun⟩
  · split
    · exact ⟨nofun, nofun⟩
    · rename_i _ notLocked
      have notOnlyLocked := Bool.eq_false_iff.mpr notLocked
      split
      · rename_i isMulti
        have isUpdater : updater history tuple =
            multiXactIdGetUpdateXid (history.members tuple.xmax) := if_pos isMulti
        dsimp only
        rw [← isUpdater]
        split
        · exact ⟨nofun, nofun⟩
        · rename_i notRunning
          have finished := (reads.inProgress _).not.mp notRunning
          split
          · rename_i didCommit
            exact ⟨nofun,
              fun _ => ⟨rfl, (reads.committed _ finished).mp didCommit, notOnlyLocked⟩⟩
          · split <;> exact ⟨nofun, nofun⟩
      · rename_i notMulti
        have isUpdater : updater history tuple = tuple.xmax := if_neg notMulti
        rw [isUpdater]
        split
        · split
          · exact ⟨nofun, nofun⟩
          · rename_i notRunning
            have finished := (reads.inProgress _).not.mp notRunning
            split
            · rename_i didCommit
              exact ⟨nofun,
                fun _ => ⟨rfl, (reads.committed _ finished).mp didCommit, notOnlyLocked⟩⟩
            · exact ⟨nofun, nofun⟩
        · rename_i isCommitted
          refine ⟨nofun, fun _ => ⟨rfl, ?_, notOnlyLocked⟩⟩
          exact truthful.deleted (by simpa using isCommitted) (Bool.eq_false_iff.mpr notMulti)
            notOnlyLocked

theorem vacuum_dead (resident : Resident history tuple) (notMoved : NotMoved tuple)
    (dead : (heapTupleSatisfiesVacuum backend oldestXmin tuple).1 = .dead) :
    DeadFor history tuple oldestXmin := by
  have judged := inserter_judged reads truthful resident notMoved
  unfold heapTupleSatisfiesVacuum heapTupleSatisfiesVacuumHorizon at dead
  cases inserted : inserterSatisfiesVacuum backend tuple with
  | inl answer =>
    rw [inserted] at judged dead
    obtain ⟨notRecent, ifDead⟩ := judged
    rw [if_neg fun recent => notRecent recent.1] at dead
    exact .inl (ifDead dead)
  | inr hinted =>
    rw [inserted] at judged dead
    obtain ⟨same, committed⟩ := judged
    obtain ⟨notDead, ifRecent⟩ := deleter_judged reads truthful same
    dsimp only at dead
    split at dead
    · rename_i recent
      obtain ⟨isUpdater, deleted, notLocked⟩ := ifRecent recent.1
      exact .inr ⟨committed, notLocked, deleted, isUpdater ▸ recent.2⟩
    · exact absurd dead notDead

end Vacuum

section Continuation

def KeepsTuple (tuple : HeapTupleHeader) (before after : History) : Prop :=
  HistoryStep before after ∧ after.members tuple.xmax = before.members tuple.xmax ∧
    (heapTupleHeaderXminFrozen tuple = true ∨ after.InWindow tuple.xmin) ∧
    after.InWindow (updater after tuple)

variable {before after : History}

theorem same_updater {other : HeapTupleHeader} (sameXmax : other.xmax = tuple.xmax)
    (multi : hasFlag other.infomask heapXmaxIsMulti = hasFlag tuple.infomask heapXmaxIsMulti)
    (members : after.members tuple.xmax = before.members tuple.xmax) :
    updater after other = updater before tuple := by
  unfold updater
  rw [sameXmax, multi, members]

theorem keeps_dead (keeps : KeepsTuple tuple before after)
    (dead : DeadFor before tuple oldestXmin) : DeadFor after tuple oldestXmin := by
  obtain ⟨step, members, inserter, deleter⟩ := keeps
  have sameUpdater := same_updater rfl rfl members
  rw [sameUpdater] at deleter
  rcases dead with ⟨notFrozen, aborted⟩ | ⟨inserted, notLocked, deleted, precedes⟩
  · have inside := inserter.resolve_left (by simp [notFrozen])
    exact .inl ⟨notFrozen, (step_finished step inside (.inr aborted)).trans aborted⟩
  · refine .inr ⟨?_, notLocked, ?_, sameUpdater ▸ precedes⟩
    · rcases inserted with frozen | committed
      · exact .inl frozen
      · exact inserter.imp_right fun inside =>
          (step_finished step inside (.inl committed)).trans committed
    · rw [sameUpdater]
      exact (step_finished step deleter (.inl deleted)).trans deleted

theorem run_dead (run : Relation.ReflTransGen (KeepsTuple tuple) before after)
    (dead : DeadFor before tuple oldestXmin) : DeadFor after tuple oldestXmin := by
  induction run with
  | refl => exact dead
  | tail _ keeps ih => exact keeps_dead keeps ih

theorem run_resident (run : Relation.ReflTransGen (KeepsTuple tuple) before after)
    (resident : before.InWindow (updater before tuple)) : after.InWindow (updater after tuple) := by
  induction run with
  | refl => exact resident
  | tail _ keeps _ => exact keeps.2.2.2

end Continuation

section Snapshots

def hintBits : Infomask :=
  heapXminCommitted ||| heapXminInvalid ||| heapXmaxCommitted ||| heapXmaxInvalid

structure SameTuple (tuple seen : HeapTupleHeader) : Prop where
  xmin : seen.xmin = tuple.xmin
  xmax : seen.xmax = tuple.xmax
  flags : seen.infomask &&& ~~~hintBits = tuple.infomask &&& ~~~hintBits
  frozen : heapTupleHeaderXminFrozen seen = heapTupleHeaderXminFrozen tuple

variable {history : History} {backend : Backend} {tuple seen : HeapTupleHeader}
  {oldestXmin : TransactionId} {snapshot : SnapshotData}

theorem same_locked_only (same : SameTuple tuple seen) :
    heapXmaxIsLockedOnly seen.infomask = heapXmaxIsLockedOnly tuple.infomask :=
  locked_only_congr same.flags (by decide) (by decide)

theorem same_multi (same : SameTuple tuple seen) :
    hasFlag seen.infomask heapXmaxIsMulti = hasFlag tuple.infomask heapXmaxIsMulti :=
  has_flag_congr same.flags (by decide)

theorem same_not_moved (same : SameTuple tuple seen) (notMoved : NotMoved tuple) :
    NotMoved seen := by
  unfold NotMoved at ⊢
  have within : ~~~hintBits &&& heapMoved = heapMoved := by decide
  rw [← within, ← BitVec.and_assoc, same.flags, BitVec.and_assoc]
  exact notMoved

theorem unhinted_truthful (history : History) (unhinted : tuple.infomask &&& hintBits = 0#16) :
    Truthful history tuple := by
  have without {flag : Infomask} (within : hintBits &&& flag = flag) :
      hasFlag tuple.infomask flag = false := by
    rw [hasFlag, ← within, ← BitVec.and_assoc, unhinted, BitVec.zero_and]
    exact decide_eq_false (not_not_intro rfl)
  constructor
  case inserted =>
    intro committed _
    exact absurd (committed.symm.trans (without (by decide))) (by decide)
  case notInserted =>
    intro invalid
    rw [xmin_invalid_eq, without (show hintBits &&& heapXminInvalid = _ by decide),
      Bool.and_false] at invalid
    exact absurd invalid Bool.false_ne_true
  case deleted =>
    intro committed _ _
    exact absurd (committed.symm.trans (without (by decide))) (by decide)
  case notDeleted =>
    intro invalid _
    exact absurd (invalid.symm.trans (without (by decide))) (by decide)

theorem before_snapshot (xidInside : history.InWindow xid)
    (horizonInside : history.InWindow oldestXmin) (snapshotInside : history.InWindow snapshot.xmin)
    (precedes : transactionIdPrecedes xid oldestXmin = true)
    (horizon : transactionIdPrecedes snapshot.xmin oldestXmin = false) :
    xidInMVCCSnapshot backend xid snapshot = false := by
  unfold xidInMVCCSnapshot
  rw [if_pos (precedes_horizon xidInside horizonInside snapshotInside precedes horizon)]

section

variable (reads : Reads history backend)

include reads

theorem not_current (finished : history.status xid ≠ .inProgress) :
    backend.isCurrent xid = false :=
  Bool.eq_false_iff.mpr fun current => finished (reads.current xid current)

theorem aborted_unseen (truthful : Truthful history seen) (notMoved : NotMoved seen)
    (notFrozen : heapTupleHeaderXminFrozen seen = false)
    (aborted : history.status seen.xmin = .aborted) :
    (heapTupleSatisfiesMVCC backend snapshot seen).1 = false := by
  obtain ⟨notOff, notIn⟩ := not_moved_off notMoved
  have notHinted : heapTupleHeaderXminCommitted seen = false := by
    refine Bool.eq_false_iff.mpr fun hinted => ?_
    have committed := truthful.inserted hinted notFrozen
    rw [aborted] at committed
    cases committed
  have finished : history.status seen.xmin ≠ .inProgress := by
    rw [aborted]
    exact nofun
  have uncommitted : backend.didCommit seen.xmin = false := by
    refine Bool.eq_false_iff.mpr fun didCommit => ?_
    have committed := (reads.committed _ finished).mp didCommit
    rw [aborted] at committed
    cases committed
  unfold heapTupleSatisfiesMVCC inserterSatisfiesMVCC
  rw [notHinted, notOff, notIn, not_current reads finished, uncommitted]
  cases heapTupleHeaderXminInvalid seen <;>
    cases xidInMVCCSnapshot backend seen.xmin snapshot <;> rfl

theorem inserter_unseen (notMoved : NotMoved seen)
    (inserted : heapTupleHeaderXminFrozen seen = true ∨ history.status seen.xmin = .committed) :
    (∃ hinted, inserterSatisfiesMVCC backend snapshot seen = .inl (false, hinted)) ∨
      ∃ hinted, inserterSatisfiesMVCC backend snapshot seen = .inr hinted ∧
        SameXmax hinted seen := by
  obtain ⟨notOff, notIn⟩ := not_moved_off notMoved
  unfold inserterSatisfiesMVCC
  by_cases hinted : heapTupleHeaderXminCommitted seen = true
  · rw [if_neg (by simp [hinted])]
    split
    · exact .inl ⟨_, rfl⟩
    · exact .inr ⟨_, rfl, rfl, rfl⟩
  · have committed : history.status seen.xmin = .committed := by
      refine inserted.resolve_left fun frozen => hinted ?_
      rw [xmin_frozen_eq, Bool.and_eq_true] at frozen
      exact frozen.1
    have finished : history.status seen.xmin ≠ .inProgress := by
      rw [committed]
      exact nofun
    rw [if_pos (by simp [hinted]), notOff, notIn, not_current reads finished,
      (reads.committed _ finished).mpr committed]
    simp only [Bool.false_eq_true, if_false]
    split
    · exact .inl ⟨_, rfl⟩
    · split
      · exact .inl ⟨_, rfl⟩
      · exact .inr ⟨_, rfl, hint_same_xmax backend seen _ (by decide)⟩

theorem deleted_unseen (truthful : Truthful history seen) (same : SameXmax hinted seen)
    (notLocked : heapXmaxIsLockedOnly seen.infomask = false)
    (deleted : history.status (updater history seen) = .committed)
    (visible : xidInMVCCSnapshot backend (updater history seen) snapshot = false) :
    (deleterSatisfiesMVCC backend snapshot hinted).1 = false := by
  obtain ⟨sameXmax, sameFlags⟩ := same
  have invalid := has_flag_congr sameFlags (show heapXmaxBits &&& heapXmaxInvalid = _ by decide)
  have committed := has_flag_congr sameFlags (show heapXmaxBits &&& heapXmaxCommitted = _ by decide)
  have multi := has_flag_congr sameFlags (show heapXmaxBits &&& heapXmaxIsMulti = _ by decide)
  have locked := locked_only_congr sameFlags (by decide) (by decide)
  have finished : history.status (updater history seen) ≠ .inProgress := by
    rw [deleted]
    exact nofun
  have notInvalid : hasFlag seen.infomask heapXmaxInvalid = false := by
    refine Bool.eq_false_iff.mpr fun isInvalid => ?_
    have aborted := truthful.notDeleted isInvalid notLocked
    rw [deleted] at aborted
    cases aborted
  have current := not_current reads finished
  have didCommit := (reads.committed _ finished).mpr deleted
  unfold deleterSatisfiesMVCC heapTupleGetUpdateXid
  rw [invalid, committed, multi, locked, sameXmax, notInvalid, notLocked, reads.members]
  by_cases isMulti : hasFlag seen.infomask heapXmaxIsMulti = true
  · have isUpdater : updater history seen =
        multiXactIdGetUpdateXid (history.members seen.xmax) := if_pos isMulti
    simp [isMulti, ← isUpdater, current, visible, didCommit]
  · have isUpdater : updater history seen = seen.xmax := if_neg isMulti
    simp only [isMulti, ← isUpdater, current, visible, didCommit]
    cases hasFlag seen.infomask heapXmaxCommitted <;> rfl

theorem dead_unseen (dead : DeadFor history tuple oldestXmin)
    (resident : history.InWindow (updater history tuple)) (notMoved : NotMoved tuple)
    (same : SameTuple tuple seen) (truthful : Truthful history seen)
    (horizonInside : history.InWindow oldestXmin) (snapshotInside : history.InWindow snapshot.xmin)
    (horizon : transactionIdPrecedes snapshot.xmin oldestXmin = false) :
    (heapTupleSatisfiesMVCC backend snapshot seen).1 = false := by
  have seenNotMoved := same_not_moved same notMoved
  rcases dead with ⟨notFrozen, aborted⟩ | ⟨inserted, notLocked, deleted, precedes⟩
  · exact aborted_unseen reads truthful seenNotMoved (same.frozen.trans notFrozen)
      (same.xmin ▸ aborted)
  · have sameUpdater : updater history seen = updater history tuple :=
      same_updater same.xmax (same_multi same) rfl
    rw [← same.frozen, ← same.xmin] at inserted
    rcases inserter_unseen reads seenNotMoved inserted with ⟨hinted, answer⟩ |
      ⟨hinted, rest, sameXmax⟩
    · rw [heapTupleSatisfiesMVCC, answer]
    · rw [heapTupleSatisfiesMVCC, rest]
      refine deleted_unseen reads truthful sameXmax ((same_locked_only same).trans notLocked)
        (sameUpdater ▸ deleted) ?_
      rw [sameUpdater]
      exact before_snapshot resident horizonInside snapshotInside precedes horizon

end

/-- What vacuum calls dead is invisible then and later, to every snapshot behind the horizon. -/
theorem dead_tuple_invisible {history later : History} {backend reader : Backend}
    {tuple seen : HeapTupleHeader} {oldestXmin : TransactionId} {snapshot : SnapshotData}
    (reads : Reads history backend) (truthful : Truthful history tuple)
    (resident : Resident history tuple) (notMoved : NotMoved tuple)
    (dead : (heapTupleSatisfiesVacuum backend oldestXmin tuple).1 = .dead)
    (continues : Relation.ReflTransGen (KeepsTuple tuple) history later)
    (readsLater : Reads later reader) (same : SameTuple tuple seen)
    (truthfulLater : Truthful later seen) (horizonInside : later.InWindow oldestXmin)
    (snapshotInside : later.InWindow snapshot.xmin)
    (horizon : transactionIdPrecedes snapshot.xmin oldestXmin = false) :
    (heapTupleSatisfiesMVCC reader snapshot seen).1 = false := by
  have deadNow := vacuum_dead reads truthful resident notMoved dead
  exact dead_unseen readsLater (run_dead continues deadNow)
    (run_resident continues resident.deleter) notMoved same truthfulLater horizonInside
    snapshotInside horizon

def twoCommits : History where
  oldestXid := 3
  outcomes xid := if xid = 100 ∨ xid = 101 then .committed else .notStarted
  members _ := []

def deletedTuple : HeapTupleHeader where
  xmin := 100
  xmax := 101
  field3 := 0
  ctid := ⟨0, 1⟩
  infomask := 0#16
  infomask2 := 0#16

theorem deleted_tuple_invisible :
    (heapTupleSatisfiesVacuum twoCommits.bystander 200 deletedTuple).1 = .dead ∧
      ∃ later : History, HistoryStep twoCommits later ∧
        (heapTupleSatisfiesMVCC later.bystander ⟨300, 301, [300], [], false, false, 0⟩
          deletedTuple).1 = false := by
  have starts : HistoryStep twoCommits _ := HistoryStep.assign twoCommits 300 rfl (by decide) rfl
  have keeps : KeepsTuple deletedTuple twoCommits _ :=
    ⟨starts, rfl, .inr (by decide), by decide⟩
  have notMoved : NotMoved deletedTuple := rfl
  have dead : (heapTupleSatisfiesVacuum twoCommits.bystander 200 deletedTuple).1 = .dead := by
    decide
  refine ⟨dead, _, starts, ?_⟩
  exact dead_tuple_invisible (bystander_reads twoCommits) (unhinted_truthful _ rfl)
    ⟨.inr ⟨by decide, by decide⟩, by decide⟩ notMoved dead
    (Relation.ReflTransGen.single keeps) (bystander_reads _) ⟨rfl, rfl, rfl, rfl⟩
    (unhinted_truthful _ rfl)
    (by decide) (by decide) (by decide)

end Snapshots

end FortressQL.Heap
