import FortressQL.Lmgr.QueueOrders

/-!
# What the detector leaves behind

The orders of a solution passed a search for cycles through every process named in a constraint. An
edge that the rearrangement adds leads into one of those, so it is on no cycle.
-/

namespace FortressQL.Lmgr.Resolution

open Option List Relation Lib.CycleSearch Lib.Precedence Lmgr.Deadlock Lmgr.WaitGraph
open Lmgr.QueueOrders

variable {Proc Lock : Type} [DecidableEq Proc] [DecidableEq Lock]

section Cycles

variable {table : LockTable Proc Lock} {maxBackends : Nat} {orders : List (WaitOrder Proc Lock)}
  {proc : Proc} {labels : List (SoftEdge Proc Lock)}

theorem find_lock_cycle_returns {cycle : Bool}
    (found : findLockCycle table maxBackends orders proc = some (cycle, labels)) :
    ∃ result, search (groupEdges table orders) (groupLeader table proc) maxBackends []
      (groupLeader table proc) = some result ∧ result.cycle = cycle ∧ result.labels = labels := by
  obtain ⟨result, searched, same⟩ := map_eq_some_iff.mp found
  cases same
  exact ⟨result, searched, rfl, rfl⟩

theorem find_no_cycle (found : findLockCycle table maxBackends orders proc = some (false, labels)) :
    ¬ TransGen (Edge (groupEdges table orders)) (groupLeader table proc)
      (groupLeader table proc) := by
  obtain ⟨result, searched, nothing, -⟩ := find_lock_cycle_returns found
  exact search_sound searched nothing

theorem find_cycle (found : findLockCycle table maxBackends orders proc = some (true, labels)) :
    TransGen (LabelledEdge (groupEdges table orders) labels) (groupLeader table proc)
        (groupLeader table proc) ∧
      ∀ label ∈ labels, ∃ first second, (second, some label) ∈ groupEdges table orders first := by
  obtain ⟨result, searched, cycle, rfl⟩ := find_lock_cycle_returns found
  exact search_cycle searched cycle

theorem soft_edges_leading
    (known : ∀ label ∈ labels,
      ∃ first second, (second, some label) ∈ groupEdges table orders first) :
    Leading table labels := by
  intro label member
  obtain ⟨first, second, edge⟩ := known label member
  obtain ⟨groupMember, -, memberEdge⟩ := mem_flatMap.mp edge
  obtain ⟨lock, blocker, -, -, rfl, hard | soft⟩ := member_edges_iff.mp memberEdge
  · cases hard.1
  · cases soft.1
    exact ⟨group_leader_leads table groupMember, group_leader_leads table blocker⟩

theorem waits_for_edge (arranged : Arranged table orders) {leader target : Proc}
    (waits : WaitsFor table (NotExtension table) (AheadOfGroup table) (queueAfter table orders)
      leader target) : Edge (groupEdges table orders) leader target := by
  have leads : groupLeader table leader = leader := by
    obtain ⟨-, waiter, -, -, -, rfl, -⟩ := waits
    exact group_leader_leads table waiter
  exact (edge_iff arranged leads).mpr waits

end Cycles

section Configurations

variable (table : LockTable Proc Lock) (maxBackends : Nat)

/-- What the search through a list of processes has established. -/
def Checked (orders : List (WaitOrder Proc Lock)) (procs : List Proc)
    (softFound : List (SoftEdge Proc Lock)) : Configuration Proc Lock → Prop
  | .failed ranOut =>
    ranOut = false ∧ ∃ proc ∈ procs, findLockCycle table maxBackends orders proc = some (true, [])
  | .good result =>
    result = orders ∧ softFound = [] ∧
      ∀ proc ∈ procs, ∃ labels, findLockCycle table maxBackends orders proc = some (false, labels)
  | .soft edges =>
    edges ≠ [] ∧ (edges = softFound ∨
      ∃ proc ∈ procs, findLockCycle table maxBackends orders proc = some (true, edges))

def constrainedProcs (constraints : List (SoftEdge Proc Lock)) (startProc : Proc) : List Proc :=
  constraints.flatMap (fun constraint => [constraint.waiter, constraint.blocker]) ++ [startProc]

variable {table maxBackends} {configuration : Configuration Proc Lock} {startProc : Proc}
  {nPossibleConstraints : Nat} {constraints : List (SoftEdge Proc Lock)}

theorem check_procs_cases {orders : List (WaitOrder Proc Lock)} (procs : List Proc)
    {softFound : List (SoftEdge Proc Lock)}
    (checked : checkProcs table maxBackends orders procs softFound = some configuration) :
    Checked table maxBackends orders procs softFound configuration := by
  induction procs generalizing softFound with
  | nil =>
    cases softFound with
    | nil =>
      cases checked
      exact ⟨rfl, rfl, fun proc member => absurd member not_mem_nil⟩
    | cons first rest =>
      cases checked
      exact ⟨cons_ne_nil first rest, .inl rfl⟩
  | cons proc procs ih =>
    obtain ⟨⟨cycle, labels⟩, found, continued⟩ := bind_eq_some_iff.mp checked
    cases cycle with
    | true =>
      cases labels with
      | nil =>
        cases continued
        exact ⟨rfl, proc, mem_cons_self, found⟩
      | cons first rest =>
        have later := ih continued
        cases configuration with
        | failed ranOut =>
          obtain ⟨same, other, member, hard⟩ := later
          exact ⟨same, other, mem_cons_of_mem _ member, hard⟩
        | good result => cases later.2.1
        | soft edges =>
          obtain ⟨some_, rfl | ⟨other, member, cycle⟩⟩ := later
          · exact ⟨some_, .inr ⟨proc, mem_cons_self, found⟩⟩
          · exact ⟨some_, .inr ⟨other, mem_cons_of_mem _ member, cycle⟩⟩
    | false =>
      have later := ih continued
      cases configuration with
      | failed ranOut =>
        obtain ⟨same, other, member, hard⟩ := later
        exact ⟨same, other, mem_cons_of_mem _ member, hard⟩
      | good result =>
        obtain ⟨same, nothing, others⟩ := later
        refine ⟨same, nothing, fun other member => ?_⟩
        rcases mem_cons.mp member with rfl | inside
        · exact ⟨labels, found⟩
        · exact others other inside
      | soft edges =>
        refine ⟨later.1, later.2.imp_right fun ⟨other, member, cycle⟩ => ?_⟩
        exact ⟨other, mem_cons_of_mem _ member, cycle⟩

theorem test_configuration_cases
    (tested : testConfiguration table maxBackends startProc nPossibleConstraints constraints =
      some configuration) :
    configuration = .failed true ∨
      (expandConstraints table constraints = none ∧ configuration = .failed false) ∨
      ∃ orders, expandConstraints table constraints = some orders ∧
        Checked table maxBackends orders (constrainedProcs constraints startProc) []
          configuration := by
  unfold testConfiguration at tested
  split at tested
  · cases tested
    exact .inl rfl
  · split at tested
    · rename_i contradictory
      cases tested
      exact .inr (.inl ⟨contradictory, rfl⟩)
    · rename_i orders expanded
      exact .inr (.inr ⟨orders, expanded, check_procs_cases _ tested⟩)

theorem tested_edges_leading {edges : List (SoftEdge Proc Lock)}
    (tested : testConfiguration table maxBackends startProc nPossibleConstraints constraints =
      some (.soft edges)) : Leading table edges := by
  rcases test_configuration_cases tested with
    failed | ⟨-, failed⟩ | ⟨orders, -, some_, none | found⟩
  · cases failed
  · cases failed
  · exact absurd none some_
  · obtain ⟨proc, -, cycle⟩ := found
    exact soft_edges_leading (find_cycle cycle).2

end Configurations

section Solutions

variable {table : LockTable Proc Lock} {maxBackends : Nat} {proc : Proc}
  {nPossibleConstraints : Nat} {constraints : List (SoftEdge Proc Lock)}
  {outcome : Outcome Proc Lock}

omit [DecidableEq Proc] [DecidableEq Lock] in
theorem try_edges_solution {recurse : List (SoftEdge Proc Lock) → Option (Outcome Proc Lock)}
    (edges : List (SoftEdge Proc Lock)) {ranOut : Bool} {orders : List (WaitOrder Proc Lock)}
    (tried : tryEdges recurse constraints edges ranOut = some outcome)
    (solved : outcome.solution = some orders) :
    ∃ edge ∈ edges, recurse (constraints ++ [edge]) = some outcome := by
  induction edges generalizing ranOut with
  | nil =>
    cases tried
    cases solved
  | cons edge rest ih =>
    rw [tryEdges] at tried
    obtain ⟨inner, recursed, continued⟩ := bind_eq_some_iff.mp tried
    split at continued
    · cases continued
      exact ⟨edge, mem_cons_self, recursed⟩
    · obtain ⟨other, member, found⟩ := ih continued
      exact ⟨other, mem_cons_of_mem _ member, found⟩

/-- Orders that come from constraints and leave no cycle through a process named in one, nor through
the process that is checked. -/
def Solution (table : LockTable Proc Lock) (maxBackends : Nat) (proc : Proc)
    (orders : List (WaitOrder Proc Lock)) : Prop :=
  ∃ constraints, Leading table constraints ∧ expandConstraints table constraints = some orders ∧
    ∀ named ∈ constrainedProcs constraints proc,
      ∃ labels, findLockCycle table maxBackends orders named = some (false, labels)

/-- How an outcome comes from the configuration that was tested. -/
def Recursed (table : LockTable Proc Lock) (maxBackends : Nat) (proc : Proc) (room : Nat)
    (constraints : List (SoftEdge Proc Lock)) (outcome : Outcome Proc Lock) :
    Configuration Proc Lock → Prop
  | .failed ranOut => outcome = ⟨none, ranOut⟩
  | .good orders => outcome = ⟨some orders, false⟩
  | .soft edges =>
    outcome = ⟨none, true⟩ ∨
      ∃ less nPossible, room = less + 1 ∧
        tryEdges (deadLockCheckRecurse table maxBackends proc less nPossible) constraints edges
          false = some outcome

theorem dead_lock_check_recurse_cases {room : Nat}
    (recursed : deadLockCheckRecurse table maxBackends proc room nPossibleConstraints constraints =
      some outcome) :
    ∃ configuration,
      testConfiguration table maxBackends proc nPossibleConstraints constraints =
        some configuration ∧
      Recursed table maxBackends proc room constraints outcome configuration := by
  rw [deadLockCheckRecurse.eq_def] at recursed
  obtain ⟨configuration, tested, continued⟩ := bind_eq_some_iff.mp recursed
  refine ⟨configuration, tested, ?_⟩
  cases configuration with
  | failed ranOut => exact (some.inj continued).symm
  | good orders => exact (some.inj continued).symm
  | soft edges =>
    cases room with
    | zero => exact .inl (some.inj continued).symm
    | succ less => exact .inr ⟨less, _, rfl, continued⟩

theorem dead_lock_check_recurse_solution (room : Nat) {orders : List (WaitOrder Proc Lock)}
    (leading : Leading table constraints)
    (recursed : deadLockCheckRecurse table maxBackends proc room nPossibleConstraints constraints =
      some outcome) (solved : outcome.solution = some orders) :
    Solution table maxBackends proc orders := by
  induction room using Nat.strong_induction_on generalizing nPossibleConstraints constraints with
  | h room ih =>
    obtain ⟨configuration, tested, came⟩ := dead_lock_check_recurse_cases recursed
    cases configuration with
    | failed ranOut =>
      subst came
      cases solved
    | good found =>
      subst came
      cases solved
      rcases test_configuration_cases tested with failed | ⟨-, failed⟩ | ⟨same, expanded, good⟩
      · cases failed
      · cases failed
      · obtain ⟨rfl, -, free⟩ := good
        exact ⟨constraints, leading, expanded, free⟩
    | soft edges =>
      rcases came with rfl | ⟨less, nPossible, rfl, tried⟩
      · cases solved
      · obtain ⟨edge, member, again⟩ := try_edges_solution edges tried solved
        refine ih less (Nat.lt_succ_self less) ?_ again
        intro constraint known
        rcases mem_append.mp known with old | new
        · exact leading constraint old
        · rw [mem_singleton.mp new]
          exact tested_edges_leading tested edge member

theorem dead_lock_check_cases {result : CheckResult Proc Lock}
    (checked : deadLockCheck table maxBackends proc = some result) :
    ∃ outcome, deadLockCheckRecurse table maxBackends proc maxBackends 0 [] = some outcome ∧
      result.ranOut = outcome.ranOut ∧
      ((outcome.solution = none ∧ result.state = .hardDeadlock ∧ result.waitOrders = []) ∨
        (outcome.solution = some result.waitOrders ∧ result.state ≠ .hardDeadlock)) := by
  obtain ⟨outcome, recursed, continued⟩ := bind_eq_some_iff.mp checked
  refine ⟨outcome, recursed, ?_⟩
  split at continued
  · rename_i unsolved
    split at continued
    · cases continued
      exact ⟨rfl, .inl ⟨unsolved, rfl, rfl⟩⟩
    · cases continued
  · rename_i orders solved
    cases continued
    refine ⟨rfl, .inr ⟨solved, ?_⟩⟩
    split
    · exact nofun
    · split
      · exact nofun
      · exact nofun

end Solutions

section Resolution

variable {table : LockTable Proc Lock}

def Resolves (table : LockTable Proc Lock) (considered : Lock → Prop)
    (ahead : List Proc → Proc → Proc → Prop) (queues : Lock → List Proc) (proc : Proc) : Prop :=
  (∀ lock, (queues lock).Perm (queuesOf table lock)) ∧
    ∀ nodes : Cycle Proc, nodes.Chain (WaitsFor table considered ahead queues) →
      groupLeader table proc ∉ nodes ∧
        nodes.Chain (WaitsFor table considered ahead (queuesOf table))

theorem queue_after_perm {orders : List (WaitOrder Proc Lock)} (arranged : Arranged table orders)
    (lock : Lock) : (queueAfter table orders lock).Perm (queuesOf table lock) := by
  unfold queueAfter
  split
  · rename_i order found
    have sameLock := List.find?_some found
    rw [decide_eq_true_eq] at sameLock
    rw [← sameLock]
    exact (arranged order (mem_of_find?_eq_some found)).1
  · exact List.Perm.refl _

theorem waits_for_old {constraints : List (SoftEdge Proc Lock)}
    {orders : List (WaitOrder Proc Lock)} (leading : Leading table constraints)
    (expanded : expandConstraints table constraints = some orders) {considered : Lock → Prop}
    {leader target : Proc}
    (waits : WaitsFor table considered (AheadOfGroup table) (queueAfter table orders) leader
      target) :
    WaitsFor table considered (AheadOfGroup table) (queuesOf table) leader target ∨
      ∃ constraint ∈ constraints, constraint.waiter = target := by
  obtain ⟨lock, waiter, blocker, isConsidered, waitLock, rfl, rfl, other, held | soft⟩ := waits
  · exact .inl ⟨lock, waiter, blocker, isConsidered, waitLock, rfl, rfl, other, .inl held⟩
  · obtain ⟨conflicts, member, sameGroup, ahead⟩ := soft
    have old (aheadBefore : AheadOfGroup table (queuesOf table lock) blocker waiter) :
        WaitsFor table considered (AheadOfGroup table) (queuesOf table)
          (groupLeader table waiter) (groupLeader table blocker) :=
      ⟨lock, waiter, blocker, isConsidered, waitLock, rfl, rfl, other,
        .inr ⟨conflicts, aheadBefore⟩⟩
    unfold queueAfter at ahead
    split at ahead
    · rename_i order found
      have sameLock := List.find?_some found
      rw [decide_eq_true_eq] at sameLock
      obtain ⟨-, -, follows⟩ := expand_constraints_returns leading expanded order
        (mem_of_find?_eq_some found)
      rw [sameLock] at follows
      rcases follows blocker member ahead with same | ⟨last, inGroup, before⟩ | named
      · exact absurd (same.trans sameGroup).symm other
      · exact .inl (old ⟨last, inGroup.trans sameGroup, before⟩)
      · exact .inr named
    · exact .inl (old ⟨member, sameGroup, ahead⟩)

theorem solution_resolves {maxBackends : Nat} {proc : Proc} {orders : List (WaitOrder Proc Lock)}
    (solution : Solution table maxBackends proc orders) :
    Resolves table (NotExtension table) (AheadOfGroup table) (queueAfter table orders) proc := by
  obtain ⟨constraints, leading, expanded, free⟩ := solution
  have arranged := expand_arranged leading expanded
  refine ⟨queue_after_perm arranged, fun nodes chain => ?_⟩
  have absent {named : Proc} (member : named ∈ constrainedProcs constraints proc) :
      groupLeader table named ∉ nodes := by
    intro onCycle
    obtain ⟨labels, found⟩ := free named member
    exact find_no_cycle found (TransGen.mono (fun _ _ => waits_for_edge arranged) _ _
      (chain_returns chain onCycle))
  refine ⟨absent (mem_append_right _ (mem_singleton_self proc)), ?_⟩
  refine chain_narrows chain fun leader target onCycle waits => ?_
  rcases waits_for_old leading expanded waits with old | ⟨constraint, member, rfl⟩
  · exact old
  · have named : constraint.waiter ∈ constrainedProcs constraints proc :=
      mem_append_left _ (mem_flatMap.mpr ⟨constraint, member, mem_cons_self⟩)
    have off := absent named
    rw [(leading constraint member).1] at off
    exact absurd onCycle off

/-- Unless it reports a deadlock, the detector leaves no cycle through the process and no new one.
-/
theorem dead_lock_check_resolves {maxBackends : Nat} {proc : Proc} {result : CheckResult Proc Lock}
    (checked : deadLockCheck table maxBackends proc = some result)
    (resolved : result.state ≠ .hardDeadlock) :
    Resolves table (NotExtension table) (AheadOfGroup table)
      (queueAfter table result.waitOrders) proc := by
  obtain ⟨outcome, recursed, -, ⟨-, hard, -⟩ | ⟨solved, -⟩⟩ := dead_lock_check_cases checked
  · exact absurd hard resolved
  · refine solution_resolves (dead_lock_check_recurse_solution maxBackends ?_ recursed solved)
    exact fun constraint member => absurd member not_mem_nil

/-- `LockConflicts`, with the bits of the modes that conflict with each mode. -/
def lockConflicts : Nat → Nat
  | 1 => 0b100000000
  | 2 => 0b110000000
  | 3 => 0b111100000
  | 4 => 0b111110000
  | 5 => 0b111011000
  | 6 => 0b111111000
  | 7 => 0b111111100
  | 8 => 0b111111110
  | _ => 0

def lockEntry {count : Nat} (isRelationExtend : Bool) (holder : Fin count) (mode : Nat)
    (waitProcs : List (Fin count)) : LockEntry (Fin count) where
  isRelationExtend := isRelationExtend
  numLockModes := 8
  conflictTab := lockConflicts
  procLocks := [(holder, 2 ^ mode)]
  waitProcs := waitProcs

def ungrouped {count : Nat} {Locks : Type} (waitLock : Option Locks) (waitLockMode : Nat) :
    PGProc (Fin count) Locks where
  lockGroupLeader := none
  lockGroupMembers := []
  waitLock := waitLock
  waitLockMode := waitLockMode
  isAutovacuum := false

def grouped {count : Nat} {Locks : Type} (leader : Fin count) (members : List (Fin count))
    (waitLock : Option Locks) (waitLockMode : Nat) : PGProc (Fin count) Locks where
  lockGroupLeader := some leader
  lockGroupMembers := members
  waitLock := waitLock
  waitLockMode := waitLockMode
  isAutovacuum := false

def crossedLocks (isRelationExtend : Bool) : LockTable (Fin 2) (Fin 2) where
  procs := fun proc => ungrouped (some proc) 7
  locks := fun lock => lockEntry isRelationExtend (1 - lock) 7 [lock]
  queued := by cases isRelationExtend <;> decide
  once := by cases isRelationExtend <;> decide
  leaders := by cases isRelationExtend <;> decide
  members := by cases isRelationExtend <;> decide

/-- Two processes 4 and 6 whose order is a deadlock, behind the group of 0 and 1, which has process
2 between its members. -/
def dividedGroup : LockTable (Fin 8) (Fin 3) where
  procs := fun
    | 0 => grouped 0 [0, 1] (some 0) 3
    | 1 => grouped 0 [] (some 0) 1
    | 2 => grouped 2 [2, 3] (some 0) 5
    | 3 => grouped 2 [] (some 1) 7
    | 4 => grouped 4 [4, 5] (some 0) 6
    | 5 => grouped 4 [] (some 2) 7
    | 6 => ungrouped (some 0) 6
    | 7 => ungrouped none 0
  locks := fun
    | 0 => lockEntry false 7 8 [0, 2, 1, 4, 6]
    | 1 => lockEntry false 0 7 [3]
    | 2 => lockEntry false 6 7 [5]
  queued := by decide
  once := by decide
  leaders := by decide
  members := by decide

/-- Process 2 is ahead of 0 in the queue of a lock that 3 shares, and holds what the other member of
the group of 0 waits for. Process 3 waits for that member. -/
def waitingTwice : LockTable (Fin 4) (Fin 3) where
  procs := fun
    | 0 => grouped 0 [0, 1] (some 0) 5
    | 1 => grouped 0 [] (some 1) 7
    | 2 => ungrouped (some 0) 7
    | 3 => ungrouped (some 2) 7
  locks := fun
    | 0 => lockEntry false 3 5 [2, 0]
    | 1 => lockEntry false 2 7 [1]
    | 2 => lockEntry false 1 7 [3]
  queued := by decide
  once := by decide
  leaders := by decide
  members := by decide

/-- Process 0 waits for 1 and 4, and 3 and 4 wait for it. Process 1 stands behind 2 in the queue of
a lock that 3 shares. -/
def uselessTurn : LockTable (Fin 5) (Fin 4) where
  procs := fun
    | 0 => ungrouped (some 0) 7
    | 1 => ungrouped (some 1) 5
    | 2 => ungrouped (some 1) 7
    | 3 => ungrouped (some 2) 7
    | 4 => ungrouped (some 3) 7
  locks := fun
    | 0 => { lockEntry false 1 5 [0] with procLocks := [(1, 2 ^ 5), (4, 2 ^ 5)] }
    | 1 => lockEntry false 3 5 [2, 1]
    | 2 => lockEntry false 0 7 [3]
    | 3 => lockEntry false 0 7 [4]
  queued := by decide
  once := by decide
  leaders := by decide
  members := by decide

theorem mutual_cycle {Node : Type} {leads : Node → Node → Prop} {first second : Node} :
    Cycle.Chain leads (([first, second] : List Node) : Cycle Node) ↔
      leads first second ∧ leads second first := by
  simp

/-- Crossed waits for relation extension locks pass for no deadlock, and a rearrangement can bring a
divided group behind the process in its middle. The first table does not arise: an `Assert` in
`LockAcquireExtended` says that a holder of an extension lock asks for no other lock. -/
theorem plain_graph_not_resolved :
    (∃ result, deadLockCheck (crossedLocks true) 2 0 = some result ∧
      result.state ≠ .hardDeadlock ∧
      ¬ Resolves (crossedLocks true) (fun _ => True) Earlier
        (queueAfter (crossedLocks true) result.waitOrders) 0) ∧
    (∃ result, deadLockCheck dividedGroup 8 6 = some result ∧ result.state ≠ .hardDeadlock ∧
      ¬ Resolves dividedGroup (fun _ => True) Earlier
        (queueAfter dividedGroup result.waitOrders) 6) := by
  constructor
  · refine ⟨⟨.noDeadlock, [], false⟩, by decide +kernel, by decide, ?_⟩
    rintro ⟨-, cycles⟩
    have crossed := cycles ([0, 1] : List (Fin 2)) (mutual_cycle.mpr (by decide +kernel))
    exact crossed.1 (by decide)
  · refine ⟨⟨.softDeadlock, [⟨0, [2, 1, 0, 6, 4]⟩], false⟩, by decide +kernel, by decide, ?_⟩
    rintro ⟨-, cycles⟩
    have divided := cycles ([0, 2] : List (Fin 8)) (mutual_cycle.mpr (by decide +kernel))
    have notBefore :
        ¬ WaitsFor dividedGroup (fun _ => True) Earlier (queuesOf dividedGroup) 0 2 := by
      decide +kernel
    exact notBefore (mutual_cycle.mp divided.2).1

/-- The same table, where the group counts from the place of its last member. -/
theorem divided_group_resolved :
    ∃ result, deadLockCheck dividedGroup 8 6 = some result ∧ result.state ≠ .hardDeadlock ∧
      Resolves dividedGroup (NotExtension dividedGroup) (AheadOfGroup dividedGroup)
        (queueAfter dividedGroup result.waitOrders) 6 := by
  have checked : deadLockCheck dividedGroup 8 6 =
      some ⟨.softDeadlock, [⟨0, [2, 1, 0, 6, 4]⟩], false⟩ := by
    decide +kernel
  exact ⟨_, checked, by decide, dead_lock_check_resolves checked (by decide)⟩

end Resolution

end FortressQL.Lmgr.Resolution
