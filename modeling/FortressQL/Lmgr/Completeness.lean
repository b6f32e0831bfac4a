import FortressQL.Lmgr.Resolution
import Mathlib.Algebra.BigOperators.Group.Finset.Basic
import Mathlib.Algebra.BigOperators.Group.Finset.Piecewise
import Mathlib.Data.Finset.Max

/-!
# What the detector does not overlook

Without lock groups, let the queues have an order without a cycle. The search tries the edges that
are the other way round there, and sorting succeeds on what an order meets.
-/

namespace FortressQL.Lmgr.Completeness

open Function List Relation Lib.CycleSearch Lib.Precedence Lmgr.Deadlock Lmgr.WaitGraph
open Lmgr.QueueOrders Lmgr.Resolution

variable {Proc Lock : Type} [DecidableEq Proc]

def NoGroups (table : LockTable Proc Lock) : Prop :=
  ∀ proc, (table.procs proc).lockGroupLeader = none

section Alone

variable {table : LockTable Proc Lock} (alone : NoGroups table)

include alone

omit [DecidableEq Proc] in
theorem leader_alone (proc : Proc) : groupLeader table proc = proc := by
  rw [groupLeader, alone proc, Option.getD_none]

omit [DecidableEq Proc] in
theorem leading_alone (constraints : List (SoftEdge Proc Lock)) : Leading table constraints :=
  fun constraint _ => ⟨leader_alone alone constraint.waiter, leader_alone alone constraint.blocker⟩

theorem ahead_alone {queue : List Proc} {first second : Proc} :
    AheadOfGroup table queue first second ↔ Earlier queue first second := by
  unfold AheadOfGroup
  simp [leader_alone alone]

theorem member_at_alone {queue : List Proc} {proc : Proc} {index : Nat} :
    memberAt table queue proc index = true ↔ queue[index]? = some proc := by
  rw [member_at_iff (leader_alone alone proc)]
  simp [leader_alone alone]

theorem representative_alone {queue : List Proc} {proc : Proc} {index : Nat}
    (found : representative table queue proc = some index) : queue[index]? = some proc :=
  (member_at_alone alone).mp (representative_last found).1

theorem mark_others_alone {queue : List Proc} (once : queue.Nodup) (proc : Proc)
    (before : Nat → Int) : markOthers table queue proc before = before := by
  funext index
  unfold markOthers
  split
  · rename_i marked
    obtain ⟨member, notLast⟩ := marked
    cases found : representative table queue proc with
    | none =>
      have absent := List.find?_eq_none.mp found index
        (mem_reverse.mpr (mem_range.mpr (member_at_bound member)))
      exact absurd member absent
    | some last =>
      have placed := representative_alone alone found
      have same := same_place once ((member_at_alone alone).mp member) placed
      exact absurd (same ▸ found.symm) notLast
  · rfl

end Alone

section Sorting

variable {table : LockTable Proc Lock} {queue star : List Proc}

def Balanced (counts : Counts) (left : Finset Nat) : Prop :=
  ∀ index, counts.beforeConstraints index =
    ∑ place ∈ left, ((counts.afterConstraints place).count index : Int)

def Met (queue star : List Proc) (afterConstraints : Nat → List Nat) : Prop :=
  ∀ place, ∀ index ∈ afterConstraints place, ∃ waiter blocker,
    queue[index]? = some waiter ∧ queue[place]? = some blocker ∧ Earlier star waiter blocker

variable {counts : Counts}

theorem count_constraint_alone (alone : NoGroups table) (once : queue.Nodup)
    {constraint : SoftEdge Proc Lock}
    (meets : constraint.waiter ∈ queue → Earlier star constraint.waiter constraint.blocker)
    (balanced : Balanced counts (Finset.range queue.length))
    (met : Met queue star counts.afterConstraints) :
    Balanced (countConstraint table queue counts constraint) (Finset.range queue.length) ∧
      Met queue star (countConstraint table queue counts constraint).afterConstraints := by
  unfold countConstraint
  simp only [mark_others_alone alone once]
  split
  · exact ⟨balanced, met⟩
  · rename_i waiterAt waiterFound
    split
    · exact ⟨balanced, met⟩
    · rename_i blockerAt blockerFound
      have waiterPlaced := representative_alone alone waiterFound
      have blockerPlaced := representative_alone alone blockerFound
      have inside : blockerAt ∈ Finset.range queue.length :=
        Finset.mem_range.mpr (List.getElem?_eq_some_iff.mp blockerPlaced).1
      constructor
      · intro index
        have counted (place : Nat) :
            (((Function.update counts.afterConstraints blockerAt
              (waiterAt :: counts.afterConstraints blockerAt)) place).count index : Int) =
              ((counts.afterConstraints place).count index : Int) +
                if place = blockerAt then (if waiterAt = index then 1 else 0) else 0 := by
          by_cases same : place = blockerAt
          · subst same
            by_cases isWaiter : waiterAt = index <;> simp [isWaiter]
          · rw [update_of_ne same, if_neg same, Int.add_zero]
        simp only [counted]
        rw [Finset.sum_add_distrib, Finset.sum_ite_eq' _ blockerAt, if_pos inside, ← balanced index]
        by_cases same : index = waiterAt
        · subst same
          rw [update_self, if_pos rfl]
        · rw [update_of_ne same, if_neg (Ne.symm same), Int.add_zero]
      · intro place index listed
        dsimp only at listed
        by_cases same : place = blockerAt
        · subst same
          rw [update_self] at listed
          rcases mem_cons.mp listed with rfl | older
          · exact ⟨_, _, waiterPlaced, blockerPlaced, meets (mem_of_getElem? waiterPlaced)⟩
          · exact met place index older
        · rw [update_of_ne same] at listed
          exact met place index listed

theorem count_constraints_alone (alone : NoGroups table) (once : queue.Nodup)
    (constraints : List (SoftEdge Proc Lock))
    (meets : ∀ constraint ∈ constraints, constraint.waiter ∈ queue →
      Earlier star constraint.waiter constraint.blocker)
    (balanced : Balanced counts (Finset.range queue.length))
    (met : Met queue star counts.afterConstraints) :
    Balanced (constraints.foldl (countConstraint table queue) counts)
        (Finset.range queue.length) ∧
      Met queue star (constraints.foldl (countConstraint table queue) counts).afterConstraints := by
  induction constraints generalizing counts with
  | nil => exact ⟨balanced, met⟩
  | cons constraint rest ih =>
    obtain ⟨stillBalanced, stillMet⟩ :=
      count_constraint_alone alone once (meets constraint mem_cons_self) balanced met
    exact ih (fun other member => meets other (mem_cons_of_mem _ member)) stillBalanced stillMet

theorem last_unconstrained {left : List Nat} (some_ : left ≠ [])
    (balanced : Balanced counts left.toFinset) (met : Met queue star counts.afterConstraints) :
    ∃ index ∈ left, counts.beforeConstraints index = 0 := by
  let rank : Nat → Nat := fun index => (queue[index]?).elim 0 star.idxOf
  obtain ⟨last, member, highest⟩ :=
    Finset.exists_max_image left.toFinset rank (toFinset_nonempty_iff left |>.mpr some_)
  refine ⟨last, mem_toFinset.mp member, ?_⟩
  rw [balanced last]
  refine Finset.sum_eq_zero fun place placeMember => ?_
  rw [count_eq_zero_of_not_mem, Int.natCast_zero]
  intro listed
  obtain ⟨waiter, blocker, waiterAt, blockerAt, before⟩ := met place last listed
  have ranked := highest place placeMember
  simp only [rank, waiterAt, blockerAt] at ranked
  exact not_le.mpr before.2 ranked

theorem output_groups_succeeds (alone : NoGroups table) (once : queue.Nodup)
    {afterConstraints : Nat → List Nat} (met : Met queue star afterConstraints) (fuel : Nat)
    {before : Nat → Int} {left ordering : List Nat} (enough : left.length ≤ fuel)
    (unique : left.Nodup) (within : ∀ index ∈ left, index < queue.length)
    (balanced : Balanced ⟨before, afterConstraints⟩ left.toFinset) :
    (outputGroups table queue afterConstraints fuel before left ordering).isSome = true := by
  induction fuel generalizing before left ordering with
  | zero =>
    rw [length_eq_zero_iff.mp (Nat.le_zero.mp enough)]
    rfl
  | succ fuel ih =>
    cases left with
    | nil => rfl
    | cons first rest =>
      obtain ⟨zeroAt, zeroMember, zero⟩ :=
        last_unconstrained (cons_ne_nil first rest) balanced met
      rw [outputGroups]
      cases found : (first :: rest).reverse.find? fun index => before index = 0 with
      | none =>
        have nonzero := List.find?_eq_none.mp found zeroAt (mem_reverse.mpr zeroMember)
        exact absurd (decide_eq_true zero) nonzero
      | some chosen =>
        have member : chosen ∈ first :: rest :=
          mem_reverse.mp (mem_of_find?_eq_some found)
        have bound := within chosen member
        have placed := getElem?_eq_getElem bound
        have others : ((first :: rest).filter fun index =>
            !memberAt table queue (groupLeader table queue[chosen]) index) =
              (first :: rest).erase chosen := by
          rw [unique.erase_eq_filter]
          refine filter_congr fun index _ => ?_
          rw [leader_alone alone, bne, Bool.not_inj_iff, Bool.eq_iff_iff, member_at_alone alone,
            beq_iff_eq]
          exact ⟨fun at_ => same_place once at_ placed, fun same => same ▸ placed⟩
        dsimp only
        rw [placed]
        rw [others]
        refine ih ?_ (unique.erase chosen) ?_ ?_
        · rw [length_erase_of_mem member]
          exact Nat.pred_le_pred enough
        · exact fun index inRest => within index (mem_of_mem_erase inRest)
        · intro index
          dsimp only
          have total := balanced index
          dsimp only at total
          rw [← Finset.add_sum_erase _ _ (mem_toFinset.mpr member)] at total
          have erased : ((first :: rest).erase chosen).toFinset =
              (first :: rest).toFinset.erase chosen := by
            ext other
            rw [mem_toFinset, unique.mem_erase_iff, Finset.mem_erase, mem_toFinset]
          rw [erased]
          omega

theorem topo_sort_succeeds (alone : NoGroups table) (once : queue.Nodup)
    {constraints : List (SoftEdge Proc Lock)}
    (meets : ∀ constraint ∈ constraints, constraint.waiter ∈ queue →
      Earlier star constraint.waiter constraint.blocker) :
    (topoSort table queue constraints).isSome = true := by
  unfold topoSort
  have initial : Balanced ⟨fun _ => 0, fun _ => []⟩ (Finset.range queue.length) := by
    intro index
    simp
  obtain ⟨balanced, met⟩ := count_constraints_alone alone once constraints meets initial
    (fun place index listed => absurd listed not_mem_nil)
  rw [Option.isSome_map]
  refine output_groups_succeeds alone once met queue.length ?_ nodup_range ?_ ?_
  · rw [length_range]
  · exact fun index member => mem_range.mp member
  · rwa [show (List.range queue.length).toFinset = Finset.range queue.length by ext; simp]

end Sorting

section Search

variable {table : LockTable Proc Lock} {maxBackends : Nat} {queues : Lock → List Proc}

def Meets (queues : Lock → List Proc) (constraints : List (SoftEdge Proc Lock)) : Prop :=
  ∀ constraint ∈ constraints,
    Earlier (queues constraint.lock) constraint.waiter constraint.blocker

def Rearranged (table : LockTable Proc Lock) (queues : Lock → List Proc) : Prop :=
  ∀ lock, (queues lock).Perm (queuesOf table lock)

variable {proc : Proc} {constraints : List (SoftEdge Proc Lock)}
  {orders : List (WaitOrder Proc Lock)}

theorem meets_queue (rearranged : Rearranged table queues) (meets : Meets queues constraints)
    (lock : Lock) (constraint : SoftEdge Proc Lock) (member : constraint ∈ constraints)
    (queued : constraint.waiter ∈ queuesOf table lock) :
    Earlier (queues lock) constraint.waiter constraint.blocker := by
  have before := meets constraint member
  have own := (rearranged constraint.lock).mem_iff.mp (earlier_member before)
  have waits := (table.queued lock constraint.waiter).mp queued
  rw [(table.queued constraint.lock constraint.waiter).mp own] at waits
  cases waits
  exact before

variable [DecidableEq Lock]

section

variable (alone : NoGroups table) (rearranged : Rearranged table queues)

include alone rearranged

theorem expand_from_succeeds (remaining : List (SoftEdge Proc Lock))
    (meets : Meets queues remaining) (orders : List (WaitOrder Proc Lock)) :
    (expandFrom table remaining orders).isSome = true := by
  induction remaining generalizing orders with
  | nil => rfl
  | cons constraint earlier ih =>
    have rest : Meets queues earlier := fun other member =>
      meets other (mem_cons_of_mem _ member)
    rw [expandFrom]
    split
    · exact ih rest orders
    · obtain ⟨procs, sorted⟩ := Option.isSome_iff_exists.mp
        (topo_sort_succeeds alone (table.once constraint.lock)
          fun other member queued => meets_queue rearranged meets constraint.lock other
            (mem_reverse.mp member) queued)
      rw [sorted]
      exact ih rest _

theorem expand_constraints_succeeds (meets : Meets queues constraints) :
    ∃ orders, expandConstraints table constraints = some orders ∧ Arranged table orders := by
  obtain ⟨orders, expanded⟩ := Option.isSome_iff_exists.mp
    (expand_from_succeeds alone rearranged constraints.reverse
      (fun constraint member => meets constraint (mem_reverse.mp member)) [])
  exact ⟨orders, expanded, expand_arranged (leading_alone alone constraints) expanded⟩

theorem edge_kept (arranged : Arranged table orders) {target : Proc}
    {label : Option (SoftEdge Proc Lock)} (edge : (target, label) ∈ groupEdges table orders proc)
    (kept : ∀ value ∈ label, ¬ Earlier (queues value.lock) value.waiter value.blocker) :
    WaitsFor table (fun _ => True) Earlier queues proc target := by
  obtain ⟨waiter, sameGroup, memberEdge⟩ := (group_edges_iff (leader_alone alone proc)).mp edge
  obtain ⟨lock, blocker, waits, -, blockerLeads, hard | ⟨rfl, soft⟩⟩ :=
    member_edges_iff.mp memberEdge
  · obtain ⟨other, held⟩ := hard_blockers_iff.mp hard.2
    rw [sameGroup, blockerLeads] at other
    exact ⟨lock, waiter, blocker, trivial, waits, sameGroup, blockerLeads, Ne.symm other, .inl held⟩
  · obtain ⟨conflicts, other, ahead⟩ := (soft_blockers_iff arranged waits).mp soft
    have notTurned := kept _ rfl
    rw [ahead_alone alone] at ahead
    rw [sameGroup, blockerLeads] at other
    rw [leader_alone alone] at blockerLeads sameGroup
    subst blockerLeads sameGroup
    rw [leader_alone alone] at notTurned
    have inQueue {member : Proc} (queued : member ∈ queueAfter table orders lock) :
        member ∈ queues lock :=
      (rearranged lock).mem_iff.mpr ((queue_after_perm arranged lock).mem_iff.mp queued)
    have before := (earlier_total (inQueue ahead.1) (inQueue (earlier_member ahead))
      (Ne.symm other)).resolve_left notTurned
    exact ⟨lock, waiter, blocker, trivial, waits, leader_alone alone waiter,
      leader_alone alone blocker, Ne.symm other, .inr ⟨conflicts, before⟩⟩

/-- In every cycle found, the order without cycles turns some soft edge round. -/
theorem cycle_turned
    (acyclic : ∀ node, ¬ TransGen (WaitsFor table (fun _ => True) Earlier queues) node node)
    (arranged : Arranged table orders) {labels : List (SoftEdge Proc Lock)}
    (found : findLockCycle table maxBackends orders proc = some (true, labels)) :
    ∃ label ∈ labels, Earlier (queues label.lock) label.waiter label.blocker := by
  by_contra none
  refine acyclic _ (TransGen.mono ?_ _ _ (find_cycle found).1)
  rintro first second ⟨label, edge, known⟩
  exact edge_kept alone rearranged arranged edge fun value isLabel turned =>
    none ⟨value, known value isLabel, turned⟩

end

omit [DecidableEq Proc] [DecidableEq Lock] in
theorem try_edges_in_vain {recurse : List (SoftEdge Proc Lock) → Option (Outcome Proc Lock)}
    (edges : List (SoftEdge Proc Lock)) {ranOut : Bool}
    (tried : tryEdges recurse constraints edges ranOut = some ⟨none, false⟩) :
    ranOut = false ∧ ∀ edge ∈ edges, recurse (constraints ++ [edge]) = some ⟨none, false⟩ := by
  induction edges generalizing ranOut with
  | nil =>
    cases tried
    exact ⟨rfl, fun edge member => absurd member not_mem_nil⟩
  | cons edge rest ih =>
    rw [tryEdges] at tried
    obtain ⟨⟨solution, innerRanOut⟩, recursed, continued⟩ := Option.bind_eq_some_iff.mp tried
    cases solution with
    | some orders => cases continued
    | none =>
      obtain ⟨room, others⟩ := ih continued
      obtain ⟨rfl, rfl⟩ := Bool.or_eq_false_iff.mp room
      refine ⟨rfl, fun other member => ?_⟩
      rcases mem_cons.mp member with rfl | later
      · exact recursed
      · exact others other later

theorem recurse_finds (alone : NoGroups table) (rearranged : Rearranged table queues)
    (acyclic : ∀ node, ¬ TransGen (WaitsFor table (fun _ => True) Earlier queues) node node)
    (room : Nat) {nPossibleConstraints : Nat} (meets : Meets queues constraints) :
    deadLockCheckRecurse table maxBackends proc room nPossibleConstraints constraints ≠
      some ⟨none, false⟩ := by
  induction room using Nat.strong_induction_on generalizing nPossibleConstraints constraints with
  | h room ih =>
    intro recursed
    obtain ⟨configuration, tested, came⟩ := dead_lock_check_recurse_cases recursed
    obtain ⟨orders, expanded, arranged⟩ :=
      expand_constraints_succeeds alone rearranged meets
    rcases test_configuration_cases tested with rfl | ⟨contradictory, -⟩ | ⟨same, again, checked⟩
    · cases came
    · rw [expanded] at contradictory
      cases contradictory
    · rw [expanded] at again
      cases again
      cases configuration with
      | failed ranOut =>
        obtain ⟨-, other, -, found⟩ := checked
        obtain ⟨label, member, -⟩ := cycle_turned alone rearranged acyclic arranged found
        exact absurd member not_mem_nil
      | good result => cases came
      | soft edges =>
        rcases came with impossible | ⟨less, nPossible, rfl, tried⟩
        · cases impossible
        · obtain ⟨some_, none | ⟨other, -, found⟩⟩ := checked
          · exact some_ none
          · obtain ⟨label, member, turned⟩ :=
              cycle_turned alone rearranged acyclic arranged found
            refine ih less (Nat.lt_succ_self less) ?_
              ((try_edges_in_vain edges tried).2 label member)
            intro constraint known
            rcases mem_append.mp known with old | new
            · exact meets constraint old
            · rw [mem_singleton.mp new]
              exact turned

end Search

variable [DecidableEq Lock]

/-- Without lock groups, where the detector reports a deadlock and had room enough, every order of
the queues has a cycle. -/
theorem hard_deadlock_unavoidable {table : LockTable Proc Lock} {maxBackends : Nat} {proc : Proc}
    {result : CheckResult Proc Lock} (alone : NoGroups table)
    (checked : deadLockCheck table maxBackends proc = some result)
    (hard : result.state = .hardDeadlock) (roomy : result.ranOut = false)
    (queues : Lock → List Proc) (rearranged : Rearranged table queues) :
    ∃ nodes : Cycle Proc, nodes ≠ Cycle.nil ∧
      nodes.Chain (WaitsFor table (fun _ => True) Earlier queues) := by
  by_contra noCycle
  obtain ⟨⟨solution, ranOut⟩, recursed, sameRoom, ⟨unsolved, -, -⟩ | ⟨-, resolved⟩⟩ :=
    dead_lock_check_cases checked
  · rw [roomy] at sameRoom
    subst sameRoom unsolved
    refine recurse_finds alone rearranged (fun node returns => noCycle ?_) maxBackends ?_ recursed
    · obtain ⟨nodes, member, chain⟩ := cycle_of_returns returns
      exact ⟨nodes, fun empty => Cycle.notMem_nil node (empty ▸ member), chain⟩
    · exact fun constraint member => absurd member not_mem_nil
  · exact resolved hard

/-- The first cycle found has a soft edge, which is turned around in vain. -/
theorem useless_turn_unavoidable :
    findLockCycle uselessTurn 5 [] 0 = some (true, [⟨1, 2, 1⟩]) ∧
      ∃ result, deadLockCheck uselessTurn 5 0 = some result ∧
        result.state = .hardDeadlock ∧ result.ranOut = false ∧
        ∀ queues, Rearranged uselessTurn queues →
          ∃ nodes : Cycle (Fin 5), nodes ≠ Cycle.nil ∧
            nodes.Chain (WaitsFor uselessTurn (fun _ => True) Earlier queues) := by
  have checked : deadLockCheck uselessTurn 5 0 = some ⟨.hardDeadlock, [], false⟩ := by
    decide +kernel
  have alone : NoGroups uselessTurn := by
    unfold NoGroups
    decide
  exact ⟨by decide +kernel, _, checked, rfl, rfl, hard_deadlock_unavoidable alone checked rfl rfl⟩

end FortressQL.Lmgr.Completeness
