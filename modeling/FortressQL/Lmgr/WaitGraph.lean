import FortressQL.Lib.Precedence
import FortressQL.Lmgr.Deadlock
import Mathlib.Data.Fintype.Basic

/-!
# The waits-for graph

What a group waits for, stated over the lock table and an order for each queue. The detector follows
the edges of this graph.
-/

namespace FortressQL.Lmgr.WaitGraph

open List Lib.CycleSearch Lib.Precedence Lmgr.Deadlock

variable {Proc Lock : Type} [DecidableEq Proc]

section Graph

variable (table : LockTable Proc Lock)

def Blocks (ahead : List Proc → Proc → Proc → Prop) (queue : List Proc) (entry : LockEntry Proc)
    (waiter blocker : Proc) : Prop :=
  (∃ holder ∈ entry.procLocks, holder.1 = blocker ∧
    holdsConflicting entry holder.2 (conflictMask table entry waiter) = true) ∨
  (requestConflicts table entry waiter blocker = true ∧ ahead queue blocker waiter)

def WaitsFor (considered : Lock → Prop) (ahead : List Proc → Proc → Proc → Prop)
    (queues : Lock → List Proc) (leader blockerLeader : Proc) : Prop :=
  ∃ lock waiter blocker, considered lock ∧ (table.procs waiter).waitLock = some lock ∧
    groupLeader table waiter = leader ∧ groupLeader table blocker = blockerLeader ∧
    leader ≠ blockerLeader ∧ Blocks table ahead (queues lock) (table.locks lock) waiter blocker

instance [DecidableEq Lock] [Fintype Proc] [Fintype Lock] (considered : Lock → Prop)
    [DecidablePred considered] (ahead : List Proc → Proc → Proc → Prop)
    [∀ queue first second, Decidable (ahead queue first second)] (queues : Lock → List Proc)
    (leader blockerLeader : Proc) :
    Decidable (WaitsFor table considered ahead queues leader blockerLeader) :=
  inferInstanceAs (Decidable (∃ lock waiter blocker, considered lock ∧
    (table.procs waiter).waitLock = some lock ∧ groupLeader table waiter = leader ∧
    groupLeader table blocker = blockerLeader ∧ leader ≠ blockerLeader ∧
    ((∃ holder ∈ (table.locks lock).procLocks, holder.1 = blocker ∧
        holdsConflicting (table.locks lock) holder.2
          (conflictMask table (table.locks lock) waiter) = true) ∨
      (requestConflicts table (table.locks lock) waiter blocker = true ∧
        ahead (queues lock) blocker waiter))))

def AheadOfGroup (queue : List Proc) (first second : Proc) : Prop :=
  ∃ member, groupLeader table member = groupLeader table second ∧ Earlier queue first member

def queuesOf (lock : Lock) : List Proc := (table.locks lock).waitProcs

def NotExtension (lock : Lock) : Prop := (table.locks lock).isRelationExtend = false

end Graph

section Groups

variable {table : LockTable Proc Lock}

omit [DecidableEq Proc] in
theorem group_leader_leads (table : LockTable Proc Lock) (proc : Proc) :
    groupLeader table (groupLeader table proc) = groupLeader table proc := by
  unfold groupLeader
  cases own : (table.procs proc).lockGroupLeader with
  | none => rw [Option.getD_none, own, Option.getD_none]
  | some leader => rw [Option.getD_some, table.leaders proc leader own, Option.getD_some]

omit [DecidableEq Proc] in
theorem group_members {leader member : Proc} (leads : groupLeader table leader = leader) :
    member = leader ∨ member ∈ (table.procs leader).lockGroupMembers ↔
      groupLeader table member = leader := by
  rw [table.members]
  constructor
  · rintro (rfl | joined)
    · exact leads
    · rw [groupLeader, joined, Option.getD_some]
  · intro same
    unfold groupLeader at same
    cases own : (table.procs member).lockGroupLeader with
    | none =>
      rw [own, Option.getD_none] at same
      exact .inl same
    | some other =>
      rw [own, Option.getD_some] at same
      exact .inr (same ▸ rfl)

omit [DecidableEq Proc] in
theorem in_group_iff {leader member : Proc} (leads : groupLeader table leader = leader) :
    (member = leader ∨ (table.procs member).lockGroupLeader = some leader) ↔
      groupLeader table member = leader := by
  rw [← table.members, group_members leads]

end Groups

section Edges

variable {table : LockTable Proc Lock}

def Together (table : LockTable Proc Lock) (procs : List Proc) : Prop :=
  ∀ first second third, Earlier procs first second → Earlier procs second third →
    groupLeader table first = groupLeader table third →
      groupLeader table second = groupLeader table first

def Arranged (table : LockTable Proc Lock) (orders : List (WaitOrder Proc Lock)) : Prop :=
  ∀ order ∈ orders, order.procs.Perm (queuesOf table order.lock) ∧ Together table order.procs

variable {entry : LockEntry Proc} {checkProc proc : Proc} {orders : List (WaitOrder Proc Lock)}

theorem order_blockers_iff {procs : List Proc} (together : Together table procs)
    (queued : checkProc ∈ procs) :
    proc ∈ orderBlockers table entry procs checkProc ↔
      requestConflicts table entry checkProc proc = true ∧
        groupLeader table proc ≠ groupLeader table checkProc ∧
        AheadOfGroup table procs proc checkProc := by
  unfold orderBlockers
  rw [mem_filter, member_take_while, and_comm]
  refine and_congr_right fun _ => ?_
  simp only [decide_eq_true_eq]
  constructor
  · rintro ⟨member, other, before⟩
    refine ⟨other, checkProc, rfl, ?_⟩
    have different : proc ≠ checkProc := fun same => other (same ▸ rfl)
    refine (earlier_total member queued different).resolve_right fun after => ?_
    exact before checkProc after rfl
  · rintro ⟨other, groupMember, sameGroup, ahead⟩
    refine ⟨earlier_member ahead, other, fun earlier before inGroup => other ?_⟩
    exact (together earlier proc groupMember before ahead (inGroup.trans sameGroup.symm)).trans
      inGroup

theorem last_group_member (table : LockTable Proc Lock) (once : entry.waitProcs.Nodup)
    (queued : checkProc ∈ entry.waitProcs) :
    ∃ last, lastGroupMember table entry checkProc = some last ∧ last ∈ entry.waitProcs ∧
      groupLeader table last = groupLeader table checkProc ∧
      ∀ member ∈ entry.waitProcs, groupLeader table member = groupLeader table checkProc →
        member = last ∨ Earlier entry.waitProcs member last := by
  unfold lastGroupMember
  have leads := group_leader_leads table checkProc
  split
  · rename_i alone
    have itself : groupLeader table checkProc = checkProc := by
      rw [groupLeader, alone, Option.getD_none]
    refine ⟨checkProc, rfl, queued, rfl, fun member _ same => .inl ?_⟩
    rw [itself] at same
    rcases (in_group_iff itself).mpr same with isLeader | joined
    · exact isLeader
    · have leader := table.leaders member checkProc joined
      rw [alone] at leader
      cases leader
  · rename_i grouped
    have joined {member : Proc} :
        (table.procs member).lockGroupLeader = some (groupLeader table checkProc) ↔
          groupLeader table member = groupLeader table checkProc := by
      rw [← in_group_iff leads]
      refine ⟨.inr, fun either => either.elim (fun isLeader => ?_) id⟩
      obtain ⟨leader, own⟩ := Option.ne_none_iff_exists'.mp grouped
      have chosen : groupLeader table checkProc = leader := by
        rw [groupLeader, own, Option.getD_some]
      rw [isLeader, chosen]
      exact table.leaders checkProc leader own
    obtain ⟨last, found⟩ : ∃ last, (entry.waitProcs.reverse.find? fun proc =>
        (table.procs proc).lockGroupLeader = some (groupLeader table checkProc)) = some last :=
      Option.isSome_iff_exists.mp (List.find?_isSome.mpr
        ⟨checkProc, mem_reverse.mpr queued, decide_eq_true (joined.mpr rfl)⟩)
    obtain ⟨member, qualifies, others⟩ := find_last once found
    refine ⟨last, found, member, joined.mp (of_decide_eq_true qualifies), ?_⟩
    exact fun other otherMember same => others other otherMember (decide_eq_true (joined.mpr same))

theorem queue_blockers_iff (once : entry.waitProcs.Nodup) (queued : checkProc ∈ entry.waitProcs) :
    proc ∈ queueBlockers table entry checkProc ↔
      requestConflicts table entry checkProc proc = true ∧
        groupLeader table proc ≠ groupLeader table checkProc ∧
        AheadOfGroup table entry.waitProcs proc checkProc := by
  obtain ⟨last, found, lastMember, sameGroup, others⟩ :=
    last_group_member table once queued
  unfold queueBlockers
  rw [found, mem_filter, member_take_while, Bool.and_eq_true, and_comm, and_assoc]
  refine and_congr_right fun _ => ?_
  simp only [decide_eq_true_eq]
  refine and_congr_right fun other => ?_
  constructor
  · rintro ⟨member, different, before⟩
    refine ⟨last, sameGroup, ?_⟩
    refine (earlier_total member lastMember fun same => different (same ▸ rfl)).resolve_right ?_
    exact fun after => before last after rfl
  · rintro ⟨groupMember, inGroup, ahead⟩
    have aheadOfLast : Earlier entry.waitProcs proc last := by
      rcases others groupMember ahead.1 inGroup with rfl | later
      · exact ahead
      · exact earlier_trans ahead later
    refine ⟨earlier_member ahead, fun same => ?_, fun earlier before same => ?_⟩
    · exact earlier_ne aheadOfLast (Option.some.inj same)
    · rw [Option.some.inj same] at before
      exact earlier_asymm aheadOfLast before

theorem hard_blockers_iff :
    proc ∈ hardBlockers table entry checkProc ↔
      groupLeader table proc ≠ groupLeader table checkProc ∧
        ∃ holder ∈ entry.procLocks, holder.1 = proc ∧
          holdsConflicting entry holder.2 (conflictMask table entry checkProc) = true := by
  unfold hardBlockers
  simp only [mem_map, mem_filter, Bool.and_eq_true, decide_eq_true_eq]
  constructor
  · rintro ⟨holder, ⟨member, other, conflicts⟩, rfl⟩
    exact ⟨other, holder, member, rfl, conflicts⟩
  · rintro ⟨other, holder, member, rfl, conflicts⟩
    exact ⟨holder, ⟨member, other, conflicts⟩, rfl⟩

variable [DecidableEq Lock]

theorem soft_blockers_iff (arranged : Arranged table orders) {lock : Lock}
    (waits : (table.procs checkProc).waitLock = some lock) :
    proc ∈ softBlockers table orders lock checkProc ↔
      requestConflicts table (table.locks lock) checkProc proc = true ∧
        groupLeader table proc ≠ groupLeader table checkProc ∧
        AheadOfGroup table (queueAfter table orders lock) proc checkProc := by
  have queued := (table.queued lock checkProc).mpr waits
  unfold softBlockers queueAfter
  cases found : orders.find? fun order => order.lock = lock with
  | none => exact queue_blockers_iff (table.once lock) queued
  | some order =>
    have sameLock : order.lock = lock := of_decide_eq_true
      (List.find?_some (p := fun order : WaitOrder Proc Lock => decide (order.lock = lock)) found)
    obtain ⟨permuted, together⟩ := arranged order (mem_of_find?_eq_some found)
    rw [sameLock] at permuted
    exact order_blockers_iff together (permuted.mem_iff.mpr queued)

theorem member_edges_iff {target : Proc} {label : Option (SoftEdge Proc Lock)} :
    (target, label) ∈ memberEdges table orders checkProc ↔
      ∃ lock blocker, (table.procs checkProc).waitLock = some lock ∧ NotExtension table lock ∧
        groupLeader table blocker = target ∧
        ((label = none ∧ blocker ∈ hardBlockers table (table.locks lock) checkProc) ∨
          (label = some ⟨groupLeader table checkProc, target, lock⟩ ∧
            blocker ∈ softBlockers table orders lock checkProc)) := by
  unfold memberEdges
  cases waits : (table.procs checkProc).waitLock with
  | none => simp
  | some lock =>
    by_cases extension : (table.locks lock).isRelationExtend = true
    · simp [extension, NotExtension]
    · dsimp only
      rw [if_neg extension, mem_append, mem_map, mem_map]
      have considered : NotExtension table lock := Bool.eq_false_of_not_eq_true extension
      constructor
      · rintro (⟨blocker, member, found⟩ | ⟨blocker, member, found⟩)
        · cases found
          exact ⟨lock, blocker, rfl, considered, rfl, .inl ⟨rfl, member⟩⟩
        · cases found
          exact ⟨lock, blocker, rfl, considered, rfl, .inr ⟨rfl, member⟩⟩
      · rintro ⟨other, blocker, same, -, rfl, ⟨rfl, member⟩ | ⟨rfl, member⟩⟩ <;> cases same
        · exact .inl ⟨blocker, member, rfl⟩
        · exact .inr ⟨blocker, member, rfl⟩

theorem group_edges_iff {leader : Proc} (leads : groupLeader table leader = leader)
    {edge : Proc × Option (SoftEdge Proc Lock)} :
    edge ∈ groupEdges table orders leader ↔
      ∃ member, groupLeader table member = leader ∧ edge ∈ memberEdges table orders member := by
  unfold groupEdges
  rw [mem_flatMap]
  refine exists_congr fun member => and_congr_left fun _ => ?_
  rw [← group_members leads]
  by_cases same : member = leader <;> simp [same]

/-- The detector follows an edge exactly where one group waits for the other. -/
theorem edge_iff (arranged : Arranged table orders) {leader target : Proc}
    (leads : groupLeader table leader = leader) :
    Edge (groupEdges table orders) leader target ↔
      WaitsFor table (NotExtension table) (AheadOfGroup table) (queueAfter table orders) leader
        target := by
  unfold Edge
  simp only [group_edges_iff leads, member_edges_iff]
  constructor
  · rintro ⟨label, waiter, rfl, lock, blocker, waits, considered, rfl, hard | soft⟩
    · obtain ⟨other, held⟩ := hard_blockers_iff.mp hard.2
      exact ⟨lock, waiter, blocker, considered, waits, rfl, rfl, Ne.symm other, .inl held⟩
    · obtain ⟨conflicts, other, ahead⟩ := (soft_blockers_iff arranged waits).mp soft.2
      exact ⟨lock, waiter, blocker, considered, waits, rfl, rfl, Ne.symm other,
        .inr ⟨conflicts, ahead⟩⟩
  · rintro ⟨lock, waiter, blocker, considered, waits, rfl, rfl, other, held | ahead⟩
    · exact ⟨none, waiter, rfl, lock, blocker, waits, considered, rfl,
        .inl ⟨rfl, hard_blockers_iff.mpr ⟨Ne.symm other, held⟩⟩⟩
    · exact ⟨_, waiter, rfl, lock, blocker, waits, considered, rfl,
        .inr ⟨rfl, (soft_blockers_iff arranged waits).mpr ⟨ahead.1, Ne.symm other, ahead.2⟩⟩⟩

end Edges

end FortressQL.Lmgr.WaitGraph
