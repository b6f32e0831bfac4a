import FortressQL.Lmgr.Resolution
import Mathlib.Data.Fintype.Card

/-!
# The detector comes back

With room for every process, no search for a cycle runs out, and a deadlock that has no solution
does not disappear.
-/

namespace FortressQL.Lmgr.DetectorRoom

open Option List Lib.CycleSearch Lib.Precedence Lmgr.Deadlock Lmgr.WaitGraph Lmgr.QueueOrders
open Lmgr.Resolution

variable {Proc Lock : Type} [DecidableEq Proc] [DecidableEq Lock]

structure Fits (table : LockTable Proc Lock) (maxBackends : Nat) (backends : Finset Proc) :
    Prop where
  room : backends.card ≤ maxBackends
  waiters : ∀ proc lock, (table.procs proc).waitLock = some lock → proc ∈ backends
  holders : ∀ lock, ∀ holder ∈ (table.locks lock).procLocks, holder.1 ∈ backends
  leaders : ∀ proc ∈ backends, groupLeader table proc ∈ backends

variable {table : LockTable Proc Lock} {maxBackends : Nat} {backends : Finset Proc}
  {orders : List (WaitOrder Proc Lock)} {proc : Proc} {constraints : List (SoftEdge Proc Lock)}

section

variable (fits : Fits table maxBackends backends) (arranged : Arranged table orders)

include fits arranged

theorem edges_inside {edge : Proc × Option (SoftEdge Proc Lock)}
    (member : edge ∈ groupEdges table orders proc) :
    edge.1 ∈ backends ∧
      ∀ label ∈ edge.2, label.waiter ∈ backends ∧ label.blocker ∈ backends := by
  obtain ⟨target, label⟩ := edge
  obtain ⟨waiter, -, memberEdge⟩ := mem_flatMap.mp member
  obtain ⟨lock, blocker, waits, -, rfl, ⟨rfl, hard⟩ | ⟨rfl, soft⟩⟩ :=
    member_edges_iff.mp memberEdge
  · obtain ⟨-, holder, held, rfl, -⟩ := hard_blockers_iff.mp hard
    refine ⟨fits.leaders _ (fits.holders lock holder held), fun label isLabel => ?_⟩
    cases isLabel
  · obtain ⟨-, -, last, -, ahead⟩ := (soft_blockers_iff arranged waits).mp soft
    have queued := (queue_after_perm arranged lock).mem_iff.mp (earlier_member ahead)
    have blockerInside := fits.leaders _
      (fits.waiters blocker lock ((table.queued lock blocker).mp queued))
    refine ⟨blockerInside, fun label isLabel => ?_⟩
    cases isLabel
    exact ⟨fits.leaders _ (fits.waiters waiter lock waits), blockerInside⟩

theorem find_lock_cycle_ends (member : proc ∈ backends) :
    ∃ found, findLockCycle table maxBackends orders proc = some found := by
  obtain ⟨found, searched, -⟩ :=
    @search_ends _ _ _ (groupEdges table orders) (groupLeader table proc) backends
      (fun node _ edge inside => (edges_inside fits arranged inside).1) maxBackends []
      (groupLeader table proc) (fits.leaders proc member)
      (le_trans (Finset.card_le_card Finset.sdiff_subset) fits.room)
  exact ⟨_, by rw [findLockCycle, searched, map_some]⟩

theorem check_procs_ends (procs : List Proc) (inside : ∀ proc ∈ procs, proc ∈ backends)
    (softFound : List (SoftEdge Proc Lock)) :
    ∃ configuration,
      checkProcs table maxBackends orders procs softFound = some configuration := by
  induction procs generalizing softFound with
  | nil => cases softFound <;> exact ⟨_, rfl⟩
  | cons proc procs ih =>
    have rest : ∀ other ∈ procs, other ∈ backends := fun other member =>
      inside other (mem_cons_of_mem _ member)
    obtain ⟨⟨cycle, labels⟩, found⟩ :=
      find_lock_cycle_ends fits arranged (inside proc mem_cons_self)
    rw [checkProcs, found]
    cases cycle with
    | false => exact ih rest softFound
    | true =>
      cases labels with
      | nil => exact ⟨_, rfl⟩
      | cons first others => exact ih rest (first :: others)

end

def Inside (table : LockTable Proc Lock) (backends : Finset Proc)
    (constraints : List (SoftEdge Proc Lock)) : Prop :=
  Leading table constraints ∧
    ∀ constraint ∈ constraints, constraint.waiter ∈ backends ∧ constraint.blocker ∈ backends

theorem test_configuration_ends (fits : Fits table maxBackends backends) (member : proc ∈ backends)
    (nPossibleConstraints : Nat) (inside : Inside table backends constraints) :
    ∃ configuration, testConfiguration table maxBackends proc nPossibleConstraints constraints =
      some configuration := by
  unfold testConfiguration
  split
  · exact ⟨_, rfl⟩
  · split
    · exact ⟨_, rfl⟩
    · rename_i orders expanded
      refine check_procs_ends fits (expand_arranged inside.1 expanded) _ (fun other named => ?_) []
      rcases mem_append.mp named with constrained | isProc
      · obtain ⟨constraint, known, either⟩ := mem_flatMap.mp constrained
        obtain ⟨waiterInside, blockerInside⟩ := inside.2 constraint known
        rcases mem_cons.mp either with rfl | isBlocker
        · exact waiterInside
        · rw [mem_singleton.mp isBlocker]
          exact blockerInside
      · rw [mem_singleton.mp isProc]
        exact member

theorem tested_edges_inside (fits : Fits table maxBackends backends) {nPossibleConstraints : Nat}
    {edges : List (SoftEdge Proc Lock)} (inside : Inside table backends constraints)
    (tested : testConfiguration table maxBackends proc nPossibleConstraints constraints =
      some (.soft edges)) : Inside table backends edges := by
  refine ⟨tested_edges_leading tested, fun edge member => ?_⟩
  rcases test_configuration_cases tested with
    failed | ⟨-, failed⟩ | ⟨orders, expanded, some_, found⟩
  · cases failed
  · cases failed
  · rcases found with none | ⟨other, -, cycle⟩
    · exact absurd none some_
    · obtain ⟨first, second, labelled⟩ := (find_cycle cycle).2 edge member
      exact (edges_inside fits (expand_arranged inside.1 expanded) labelled).2 edge rfl

omit [DecidableEq Proc] [DecidableEq Lock] in
theorem try_edges_ends {recurse : List (SoftEdge Proc Lock) → Option (Outcome Proc Lock)}
    (edges : List (SoftEdge Proc Lock)) (ranOut : Bool)
    (ends : ∀ edge ∈ edges, ∃ outcome, recurse (constraints ++ [edge]) = some outcome) :
    ∃ outcome, tryEdges recurse constraints edges ranOut = some outcome := by
  induction edges generalizing ranOut with
  | nil => exact ⟨_, rfl⟩
  | cons edge rest ih =>
    obtain ⟨inner, recursed⟩ := ends edge mem_cons_self
    rw [tryEdges, recursed, bind_some]
    split
    · exact ⟨_, rfl⟩
    · exact ih _ fun other member => ends other (mem_cons_of_mem _ member)

theorem dead_lock_check_recurse_ends (fits : Fits table maxBackends backends)
    (member : proc ∈ backends) (room nPossibleConstraints : Nat)
    (inside : Inside table backends constraints) :
    ∃ outcome, deadLockCheckRecurse table maxBackends proc room nPossibleConstraints constraints =
      some outcome := by
  induction room generalizing nPossibleConstraints constraints with
  | zero =>
    obtain ⟨configuration, tested⟩ :=
      test_configuration_ends fits member nPossibleConstraints inside
    rw [deadLockCheckRecurse.eq_def]
    dsimp only
    rw [tested]
    cases configuration <;> exact ⟨_, rfl⟩
  | succ room ih =>
    obtain ⟨configuration, tested⟩ :=
      test_configuration_ends fits member nPossibleConstraints inside
    rw [deadLockCheckRecurse.eq_def]
    dsimp only
    rw [tested]
    cases configuration with
    | failed ranOut => exact ⟨_, rfl⟩
    | good orders => exact ⟨_, rfl⟩
    | soft edges =>
      obtain ⟨leading, named⟩ := tested_edges_inside fits inside tested
      refine try_edges_ends edges false fun edge known => ih _ ⟨?_, ?_⟩
      · intro constraint either
        rcases mem_append.mp either with old | new
        · exact inside.1 constraint old
        · exact mem_singleton.mp new ▸ leading edge known
      · intro constraint either
        rcases mem_append.mp either with old | new
        · exact inside.2 constraint old
        · exact mem_singleton.mp new ▸ named edge known

theorem no_cycle_solved {labels : List (SoftEdge Proc Lock)} (room : Nat)
    (found : findLockCycle table maxBackends [] proc = some (false, labels)) :
    deadLockCheckRecurse table maxBackends proc room 0 [] = some ⟨some [], false⟩ := by
  have tested : testConfiguration table maxBackends proc 0 [] = some (.good []) := by
    rw [testConfiguration, if_neg]
    · change checkProcs table maxBackends [] [proc] [] = _
      rw [checkProcs, found]
      rfl
    · rw [maxPossibleConstraints]
      omega
  rw [deadLockCheckRecurse.eq_def]
  dsimp only
  rw [tested]
  rfl

theorem dead_lock_check_ends (fits : Fits table maxBackends backends) (member : proc ∈ backends) :
    ∃ result, deadLockCheck table maxBackends proc = some result := by
  have noConstraints : Inside table backends [] :=
    ⟨fun _ absent => absurd absent not_mem_nil, fun _ absent => absurd absent not_mem_nil⟩
  have arranged : Arranged table [] := fun _ absent => absurd absent not_mem_nil
  obtain ⟨⟨solution, ranOut⟩, recursed⟩ :=
    dead_lock_check_recurse_ends fits member maxBackends 0 noConstraints
  obtain ⟨⟨cycle, labels⟩, found⟩ := find_lock_cycle_ends fits arranged member
  rw [deadLockCheck, recursed, bind_some]
  cases solution with
  | some orders => exact ⟨_, rfl⟩
  | none =>
    cases cycle with
    | true => exact ⟨_, by rw [found]⟩
    | false =>
      rw [no_cycle_solved maxBackends found] at recursed
      cases recursed

theorem waiting_twice_checked : ∃ result, deadLockCheck waitingTwice 4 0 = some result :=
  have fits : Fits waitingTwice 4 Finset.univ := ⟨by decide, by simp, by simp, by simp⟩
  dead_lock_check_ends fits (Finset.mem_univ 0)

section Exact

variable (table : LockTable Proc Lock) (orders : List (WaitOrder Proc Lock))

/-- The blocker stands before the whole group in the proposed order of the queue, or before its last
member in the queue as it is. -/
def StandsBefore (lock : Lock) (waiter blocker : Proc) : Prop :=
  match orders.find? fun order => order.lock = lock with
  | some order => blocker ∈ order.procs ∧ ∀ other, Earlier order.procs other blocker →
      groupLeader table other ≠ groupLeader table waiter
  | none => AheadOfGroup table (queuesOf table lock) blocker waiter

/-- The process waits for another group: a hard edge has no label, a soft one is its label. -/
def MemberWaits (waiter target : Proc) (label : Option (SoftEdge Proc Lock)) : Prop :=
  ∃ lock blocker, (table.procs waiter).waitLock = some lock ∧ NotExtension table lock ∧
    groupLeader table blocker = target ∧ target ≠ groupLeader table waiter ∧
    ((label = none ∧ ∃ holder ∈ (table.locks lock).procLocks, holder.1 = blocker ∧
        holdsConflicting (table.locks lock) holder.2
          (conflictMask table (table.locks lock) waiter) = true) ∨
      (label = some ⟨groupLeader table waiter, target, lock⟩ ∧
        requestConflicts table (table.locks lock) waiter blocker = true ∧
        StandsBefore table orders lock waiter blocker))

def GroupWaits (leader target : Proc) (label : Option (SoftEdge Proc Lock)) : Prop :=
  ∃ waiter, groupLeader table waiter = leader ∧ MemberWaits table orders waiter target label

/-- An edge is called soft only if its waiter is not waiting for a holder of the same group. -/
def ReportedEdge (leader target : Proc) (label : Option (SoftEdge Proc Lock)) : Prop :=
  ∃ waiter, groupLeader table waiter = leader ∧ MemberWaits table orders waiter target label ∧
    (label ≠ none → ¬ MemberWaits table orders waiter target none)

variable {table orders} {waiter target : Proc} {label : Option (SoftEdge Proc Lock)}

theorem member_waits_iff :
    (target, label) ∈ memberEdges table orders waiter ↔
      MemberWaits table orders waiter target label := by
  rw [member_edges_iff]
  refine exists_congr fun lock => exists_congr fun blocker => and_congr_right fun waits =>
    and_congr_right fun _ => and_congr_right fun leads => ?_
  have soft : blocker ∈ softBlockers table orders lock waiter ↔
      target ≠ groupLeader table waiter ∧
        requestConflicts table (table.locks lock) waiter blocker = true ∧
        StandsBefore table orders lock waiter blocker := by
    subst leads
    unfold softBlockers StandsBefore
    cases orders.find? fun order => order.lock = lock with
    | some order =>
      simp only [orderBlockers, mem_filter, member_take_while, decide_eq_true_eq]
      tauto
    | none =>
      dsimp only
      rw [queue_blockers_iff (table.once lock) ((table.queued lock waiter).mpr waits), queuesOf]
      tauto
  rw [soft, hard_blockers_iff, leads]
  by_cases own : target = groupLeader table waiter <;> simp [own]

theorem hard_edge_first {edge : SoftEdge Proc Lock}
    (first : (memberEdges table orders waiter).find? (fun other => other.1 = target) =
      some (target, some edge)) : ¬ MemberWaits table orders waiter target none := by
  rw [← member_waits_iff]
  intro member
  obtain ⟨lock, blocker, waits, considered, rfl, ⟨-, hard⟩ | soft⟩ := member_edges_iff.mp member
  · rw [memberEdges, waits] at first
    dsimp only at first
    rw [if_neg (by rw [considered]; decide), List.find?_append, or_eq_some_iff] at first
    rcases first with inHard | ⟨notHard, -⟩
    · obtain ⟨_, -, same⟩ := mem_map.mp (mem_of_find?_eq_some inHard)
      exact some_ne_none edge (congrArg Prod.snd same).symm
    · exact List.find?_eq_none.mp notHard _ (mem_map_of_mem hard) (decide_eq_true rfl)
  · cases soft.1

theorem first_edge_reported {leader : Proc} (leads : groupLeader table leader = leader)
    (first : FirstEdge (groupEdges table orders) leader target label) :
    ReportedEdge table orders leader target label := by
  rw [FirstEdge, groupEdges, List.find?_flatMap] at first
  obtain ⟨waiter, member, found⟩ := exists_of_findSome?_eq_some first
  have sameGroup :=
    (mem_cons.mp member).imp_right fun other => (mem_filter.mp other).1
  refine ⟨waiter, (group_members leads).mp sameGroup,
    member_waits_iff.mp (mem_of_find?_eq_some found), fun called => ?_⟩
  obtain ⟨edge, rfl⟩ := ne_none_iff_exists'.mp called
  exact hard_edge_first found

theorem way_reported {goal node : Proc} {nodes : List Proc} {labels : List (SoftEdge Proc Lock)}
    (leads : groupLeader table node = node)
    (way : Way (FirstEdge (groupEdges table orders)) goal nodes node labels) :
    Way (ReportedEdge table orders) goal nodes node labels := by
  induction way with
  | here => exact .here
  | onward first rest ih =>
    obtain ⟨waiter, -, ⟨lock, blocker, -, -, rfl, -⟩, -⟩ := first_edge_reported leads first
    exact .onward (first_edge_reported leads first) (ih (group_leader_leads table blocker))

theorem way_waits {goal node : Proc} {nodes : List Proc} {labels : List (SoftEdge Proc Lock)}
    (way : Way (ReportedEdge table orders) goal nodes node labels) :
    Relation.ReflTransGen (fun first second => ∃ label, GroupWaits table orders first second label)
      node goal := by
  induction way with
  | here => exact .refl
  | onward reported rest ih =>
    obtain ⟨waiter, inGroup, waits, -⟩ := reported
    exact .head ⟨_, waiter, inGroup, waits⟩ ih

/-- The search says whether a cycle passes through the group of the process, and the soft edges are
those of one such cycle. -/
theorem find_lock_cycle_exact [Fintype Proc] (table : LockTable Proc Lock)
    (orders : List (WaitOrder Proc Lock)) (proc : Proc) (extra : Nat) :
    ∃ cycle softEdges,
      findLockCycle table (Fintype.card Proc + extra) orders proc = some (cycle, softEdges) ∧
      (cycle = true ↔ Relation.TransGen (fun first second => ∃ label,
        GroupWaits table orders first second label) (groupLeader table proc)
          (groupLeader table proc)) ∧
      (cycle = true → ∃ nodes, (groupLeader table proc :: nodes).Nodup ∧
        Way (ReportedEdge table orders) (groupLeader table proc) (groupLeader table proc :: nodes)
          (groupLeader table proc) softEdges) := by
  obtain ⟨found, searched, -⟩ :=
    @search_ends _ _ _ (groupEdges table orders) (groupLeader table proc) Finset.univ
      (fun _ _ _ _ => Finset.mem_univ _) (Fintype.card Proc + extra) []
      (groupLeader table proc) (Finset.mem_univ _)
      (le_trans (Finset.card_le_univ _) (Nat.le_add_right _ extra))
  refine ⟨found.cycle, found.labels, by rw [findLockCycle, searched, map_some], ?_⟩
  cases cycle : found.cycle with
  | false =>
    refine ⟨⟨nofun, fun waits => absurd ?_ (search_sound searched cycle)⟩, nofun⟩
    refine Relation.TransGen.mono (fun leader target => ?_) _ _ waits
    rintro ⟨label, waiter, rfl, waiting⟩
    exact ⟨label, (group_edges_iff (group_leader_leads table waiter)).mpr
      ⟨waiter, rfl, member_waits_iff.mpr waiting⟩⟩
  | true =>
    obtain ⟨nodes, way, once⟩ := search_path searched cycle
    have reported := way_reported (group_leader_leads table proc) way
    refine ⟨⟨fun _ => ?_, fun _ => rfl⟩, fun _ => ⟨nodes, once, reported⟩⟩
    generalize found.labels = labels at reported
    cases reported with
    | onward edge rest =>
      obtain ⟨waiter, inGroup, waits, -⟩ := edge
      exact .head' ⟨_, waiter, inGroup, waits⟩ (way_waits rest)

theorem soft_edge_also_hard :
    findLockCycle waitingTwice 4 [] 0 = some (true, [⟨0, 2, 0⟩]) ∧
      GroupWaits waitingTwice [] 0 2 none :=
  ⟨by decide +kernel, 1, rfl, 1, 2, rfl, rfl, rfl, by decide,
    Or.inl ⟨rfl, (2, 2 ^ 7), by decide, rfl, by decide +kernel⟩⟩

end Exact

end FortressQL.Lmgr.DetectorRoom
