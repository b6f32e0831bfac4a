import FortressQL.Lmgr.WaitGraph

/-!
# The orders of `TopoSort`

An order it returns is a rearrangement of the queue with the members of each group together. A
waiter that overtakes a whole group belongs to the waiter of one of the constraints.
-/

namespace FortressQL.Lmgr.QueueOrders

open Function List Lib.Precedence Lmgr.Deadlock Lmgr.WaitGraph

variable {first index : Nat} {ordering result : List Nat} {before : Nat → Int} {Proc Lock : Type}
  [DecidableEq Proc]

def Leading (table : LockTable Proc Lock) (constraints : List (SoftEdge Proc Lock)) : Prop :=
  ∀ constraint ∈ constraints, groupLeader table constraint.waiter = constraint.waiter ∧
    groupLeader table constraint.blocker = constraint.blocker

section Places

variable {table : LockTable Proc Lock} {queue : List Proc}

theorem member_at_iff {leader : Proc} (leads : groupLeader table leader = leader) :
    memberAt table queue leader index = true ↔
      ∃ proc, queue[index]? = some proc ∧ groupLeader table proc = leader := by
  unfold memberAt
  cases queue[index]? with
  | none => simp
  | some proc =>
    simp [in_group_iff leads]

theorem member_at_bound {group : Proc} (member : memberAt table queue group index = true) :
    index < queue.length := by
  by_contra outside
  rw [memberAt, getElem?_eq_none (Nat.le_of_not_lt outside)] at member
  cases member

theorem representative_last {group : Proc} {last : Nat}
    (found : representative table queue group = some last) :
    memberAt table queue group last = true ∧
      ∀ index, memberAt table queue group index = true → index ≤ last := by
  obtain ⟨-, member, others⟩ := find_last nodup_range found
  refine ⟨member, fun index qualifies => ?_⟩
  rcases others index (mem_range.mpr (member_at_bound qualifies)) qualifies with same | before
  · exact le_of_eq same
  · exact le_of_lt (earlier_of_pairwise pairwise_lt_range before)

theorem index_at {proc : Proc} (once : queue.Nodup) (placed : queue[index]? = some proc) :
    queue.idxOf proc = index := by
  obtain ⟨bound, rfl⟩ := List.getElem?_eq_some_iff.mp placed
  exact once.idxOf_getElem index bound

theorem same_place (once : queue.Nodup) {proc : Proc} {second : Nat}
    (firstAt : queue[first]? = some proc) (secondAt : queue[second]? = some proc) :
    first = second :=
  (index_at once firstAt).symm.trans (index_at once secondAt)

theorem earlier_at {first second : Proc} {before after : Nat} (once : queue.Nodup)
    (firstAt : queue[before]? = some first) (secondAt : queue[after]? = some second)
    (order : before < after) : Earlier queue first second := by
  refine ⟨mem_of_getElem? secondAt, ?_⟩
  rw [index_at once firstAt, index_at once secondAt]
  exact order

end Places

section Counting

variable (table : LockTable Proc Lock) (queue : List Proc) (constraints : List (SoftEdge Proc Lock))

def Named (proc : Proc) : Prop :=
  ∃ constraint ∈ constraints, constraint.waiter = groupLeader table proc

/-- Why the count of a place is not zero: it is not the last one of its group, or the group is the
waiter of a constraint. -/
def Pending (index : Nat) : Prop :=
  ∃ proc, queue[index]? = some proc ∧
    ((∃ later member, index < later ∧ queue[later]? = some member ∧
        groupLeader table member = groupLeader table proc) ∨
      Named table constraints proc)

structure PendingCounts (counts : Counts) : Prop where
  counted : ∀ index, counts.beforeConstraints index ≠ 0 → Pending table queue constraints index
  listed : ∀ place, ∀ index ∈ counts.afterConstraints place, Pending table queue constraints index

omit [DecidableEq Proc] in
theorem no_counts_pending :
    PendingCounts table queue constraints ⟨fun _ => 0, fun _ => []⟩ :=
  ⟨fun _ counted => absurd rfl counted, fun _ _ member => absurd member not_mem_nil⟩

variable {table queue constraints}

theorem mark_others_pending {group : Proc} (leads : groupLeader table group = group)
    (pending : ∀ index, before index ≠ 0 → Pending table queue constraints index) (index : Nat)
    (counted : markOthers table queue group before index ≠ 0) :
    Pending table queue constraints index := by
  unfold markOthers at counted
  split at counted
  · rename_i marked
    obtain ⟨member, notLast⟩ := marked
    obtain ⟨proc, placed, inGroup⟩ := (member_at_iff leads).mp member
    cases found : representative table queue group with
    | none =>
      have absent := find?_eq_none.mp found index
        (mem_reverse.mpr (mem_range.mpr (member_at_bound member)))
      exact absurd member absent
    | some last =>
      obtain ⟨lastMember, others⟩ := representative_last found
      obtain ⟨other, otherPlaced, otherInGroup⟩ := (member_at_iff leads).mp lastMember
      have different : index ≠ last := fun same => notLast (by rw [found, same])
      have before := lt_of_le_of_ne (others index member) different
      exact ⟨proc, placed, .inl ⟨last, other, before, otherPlaced, otherInGroup.trans inGroup.symm⟩⟩
  · exact pending index counted

variable {counts : Counts}

theorem count_constraint_pending {constraint : SoftEdge Proc Lock}
    (leading : Leading table constraints) (member : constraint ∈ constraints)
    (pending : PendingCounts table queue constraints counts) :
    PendingCounts table queue constraints (countConstraint table queue counts constraint) := by
  obtain ⟨waiterLeads, blockerLeads⟩ := leading constraint member
  have marked := mark_others_pending waiterLeads pending.counted
  unfold countConstraint
  split
  · exact ⟨marked, pending.listed⟩
  · rename_i waiterAt found
    have markedTwice := mark_others_pending blockerLeads marked
    split
    · exact ⟨markedTwice, pending.listed⟩
    · rename_i blockerAt _
      have named : Pending table queue constraints waiterAt := by
        obtain ⟨proc, placed, inGroup⟩ :=
          (member_at_iff waiterLeads).mp (representative_last found).1
        exact ⟨proc, placed, .inr ⟨constraint, member, inGroup.symm⟩⟩
      constructor
      · intro index counted
        by_cases same : index = waiterAt
        · exact same ▸ named
        · dsimp only at counted
          rw [update_of_ne same] at counted
          exact markedTwice index counted
      · intro place index listed
        dsimp only at listed
        by_cases same : place = blockerAt
        · subst same
          rw [update_self] at listed
          rcases mem_cons.mp listed with isWaiter | older
          · exact isWaiter ▸ named
          · exact pending.listed place index older
        · rw [update_of_ne same] at listed
          exact pending.listed place index listed

theorem count_constraints_pending (leading : Leading table constraints)
    (remaining : List (SoftEdge Proc Lock)) (within : remaining ⊆ constraints)
    (pending : PendingCounts table queue constraints counts) :
    PendingCounts table queue constraints
      (remaining.foldl (countConstraint table queue) counts) := by
  induction remaining generalizing counts with
  | nil => exact pending
  | cons constraint rest ih =>
    exact ih (fun _ member => within (mem_cons_of_mem _ member))
      (count_constraint_pending leading (within mem_cons_self) pending)

end Counting

section Output

variable {table : LockTable Proc Lock} {queue : List Proc} {constraints : List (SoftEdge Proc Lock)}

def procsAt (queue : List Proc) (indices : List Nat) : List Proc :=
  indices.filterMap fun index => queue[index]?

variable {proc : Proc} {left : List Nat} {afterConstraints : Nat → List Nat}

omit [DecidableEq Proc] in
theorem member_procs_at {indices : List Nat} :
    proc ∈ procsAt queue indices ↔ ∃ index ∈ indices, queue[index]? = some proc := by
  unfold procsAt
  rw [mem_filterMap]

omit [DecidableEq Proc] in
theorem procs_at_range : procsAt queue (range queue.length) = queue := by
  unfold procsAt
  induction queue with
  | nil => rfl
  | cons first rest ih =>
    rw [length_cons, range_succ_eq_map, filterMap_cons, getElem?_cons_zero, filterMap_map]
    simp only [comp_def, getElem?_cons_succ]
    rw [ih]

/-- The places still to output: in ascending order, and whole groups. -/
structure Remaining (table : LockTable Proc Lock) (queue : List Proc) (left : List Nat) : Prop where
  ascending : left.Pairwise (· < ·)
  within : ∀ index ∈ left, index < queue.length
  whole : ∀ index ∈ left, ∀ other proc member, queue[index]? = some proc →
    queue[other]? = some member → groupLeader table member = groupLeader table proc → other ∈ left

/-- What holds where one process comes before another in the output. -/
def Follows (table : LockTable Proc Lock) (queue : List Proc)
    (constraints : List (SoftEdge Proc Lock)) (first second : Proc) : Prop :=
  groupLeader table first = groupLeader table second ∨ AheadOfGroup table queue first second ∨
    Named table constraints first

omit [DecidableEq Proc] in
theorem named_behind {chosen : Nat} (remaining : Remaining table queue left)
    (pending : ∀ index, before index ≠ 0 → Pending table queue constraints index)
    (lastZero : ∀ index ∈ left, before index = 0 → index ≤ chosen) (distance : Nat) :
    ∀ index proc, queue.length - index ≤ distance → index ∈ left → chosen < index →
      queue[index]? = some proc → Named table constraints proc := by
  induction distance with
  | zero =>
    intro index proc near member behind placed
    have bound := remaining.within index member
    omega
  | succ distance ih =>
    intro index proc near member behind placed
    have counted : before index ≠ 0 := fun zero =>
      not_lt.mpr (lastZero index member zero) behind
    obtain ⟨other, otherPlaced, later | named⟩ := pending index counted
    · rw [placed] at otherPlaced
      cases otherPlaced
      obtain ⟨last, groupMember, after, lastPlaced, sameGroup⟩ := later
      have bound := remaining.within index member
      have lastLeft :=
        remaining.whole index member last proc groupMember placed lastPlaced sameGroup
      obtain ⟨constraint, known, isWaiter⟩ := ih last groupMember (by omega) lastLeft
        (lt_trans behind after) lastPlaced
      exact ⟨constraint, known, isWaiter.trans sameGroup⟩
    · rw [placed] at otherPlaced
      cases otherPlaced
      exact named

theorem together_nil : Together table [] := by
  intro first second third before
  exact absurd before.1 not_mem_nil

theorem together_append {front back : List Proc} {leader : Proc} (together : Together table front)
    (others : ∀ proc ∈ front, groupLeader table proc ≠ leader)
    (group : ∀ proc ∈ back, groupLeader table proc = leader) : Together table (front ++ back) := by
  intro first second third before after same
  have member := mem_append.mp after.1
  by_cases inFront : third ∈ front
  · have afterFront := (earlier_append_left inFront).mp after
    have beforeFront := (earlier_append_left (earlier_member afterFront)).mp before
    exact together first second third beforeFront afterFront same
  · have inBack := group third (member.resolve_left inFront)
    have firstBehind : first ∉ front := fun inside => others first inside (same.trans inBack)
    have secondBehind : second ∉ front := fun inside =>
      firstBehind (earlier_member ((earlier_append_left inside).mp before))
    rw [group second ((mem_append.mp before.1).resolve_left secondBehind), same, inBack]

/-- What the group of the chosen place takes from the places left. -/
def groupAt (table : LockTable Proc Lock) (queue : List Proc) (proc : Proc) (index : Nat) : Bool :=
  memberAt table queue (groupLeader table proc) index

theorem group_at_iff :
    groupAt table queue proc index = true ↔ ∃ member, queue[index]? = some member ∧
        groupLeader table member = groupLeader table proc :=
  member_at_iff (group_leader_leads table proc)

theorem remaining_filter (remaining : Remaining table queue left) (proc : Proc) :
    Remaining table queue (left.filter fun index => !groupAt table queue proc index) := by
  refine ⟨remaining.ascending.filter _, fun index member => ?_, ?_⟩
  · exact remaining.within index (mem_of_mem_filter member)
  · intro index member other first second firstAt secondAt same
    obtain ⟨inLeft, outside⟩ := mem_filter.mp member
    refine mem_filter.mpr
      ⟨remaining.whole index inLeft other first second firstAt secondAt same, ?_⟩
    rw [Bool.not_eq_true', ← Bool.not_eq_true, group_at_iff] at outside ⊢
    rintro ⟨same', placed, inGroup⟩
    rw [secondAt] at placed
    cases placed
    exact outside ⟨first, firstAt, same.symm.trans inGroup⟩

theorem procs_inside {other : Proc}
    (member : other ∈ procsAt queue (left.filter (groupAt table queue proc)).reverse) :
    groupLeader table other = groupLeader table proc := by
  obtain ⟨index, inGroup, placed⟩ := member_procs_at.mp member
  rw [mem_reverse] at inGroup
  obtain ⟨found, foundAt, same⟩ := group_at_iff.mp (mem_filter.mp inGroup).2
  rw [placed] at foundAt
  cases foundAt
  exact same

theorem procs_outside {out : List Nat} {other : Proc}
    (permuted : out.Perm (left.filter fun index => !groupAt table queue proc index))
    (member : other ∈ procsAt queue out) :
    ∃ index ∈ left, queue[index]? = some other ∧
      groupLeader table other ≠ groupLeader table proc := by
  obtain ⟨index, inOut, placed⟩ := member_procs_at.mp member
  obtain ⟨inLeft, notGroup⟩ := mem_filter.mp (permuted.mem_iff.mp inOut)
  rw [Bool.not_eq_true', ← Bool.not_eq_true, group_at_iff] at notGroup
  exact ⟨index, inLeft, placed, fun same => notGroup ⟨other, placed, same⟩⟩

/-- One round: the last place without constraints, its group, and the rest. -/
theorem output_round {fuel : Nat} {rest : List Nat}
    (remaining : Remaining table queue (first :: rest))
    (sorted : outputGroups table queue afterConstraints (fuel + 1) before (first :: rest) ordering =
      some result) :
    ∃ chosen proc, queue[chosen]? = some proc ∧
      (∀ index ∈ first :: rest, before index = 0 → index ≤ chosen) ∧
      outputGroups table queue afterConstraints fuel
        (fun index => before index - (afterConstraints chosen).count index)
        ((first :: rest).filter fun index => !groupAt table queue proc index)
        (((first :: rest).filter (groupAt table queue proc)).reverse ++ ordering) =
          some result := by
  rw [outputGroups] at sorted
  split at sorted
  · cases sorted
  · rename_i chosen found
    obtain ⟨member, -, others⟩ :=
      find_last (remaining.ascending.imp fun less => ne_of_lt less) found
    have bound := remaining.within chosen member
    rw [getElem?_eq_getElem bound] at sorted
    refine ⟨chosen, queue[chosen], getElem?_eq_getElem bound, ?_, sorted⟩
    intro index left zero
    rcases others index left (decide_eq_true zero) with same | before
    · exact le_of_eq same
    · exact le_of_lt (earlier_of_pairwise remaining.ascending before)

theorem output_groups (once : queue.Nodup)
    (listed : ∀ place, ∀ index ∈ afterConstraints place, Pending table queue constraints index)
    (fuel : Nat) (remaining : Remaining table queue left)
    (pending : ∀ index, before index ≠ 0 → Pending table queue constraints index)
    (sorted : outputGroups table queue afterConstraints fuel before left ordering = some result) :
    ∃ out, result = out ++ ordering ∧ out.Perm left ∧ Together table (procsAt queue out) ∧
      (procsAt queue out).Pairwise (Follows table queue constraints) := by
  induction fuel generalizing before left ordering with
  | zero =>
    cases left with
    | nil =>
      cases sorted
      exact ⟨[], rfl, Perm.refl _, together_nil, Pairwise.nil⟩
    | cons first rest => cases sorted
  | succ fuel ih =>
    cases left with
    | nil =>
      cases sorted
      exact ⟨[], rfl, Perm.refl _, together_nil, Pairwise.nil⟩
    | cons first rest =>
      obtain ⟨chosen, proc, placed, lastZero, continued⟩ := output_round remaining sorted
      have stillPending : ∀ index,
          before index - (afterConstraints chosen).count index ≠ 0 →
            Pending table queue constraints index := by
        intro index counted
        by_cases member : index ∈ afterConstraints chosen
        · exact listed chosen index member
        · rw [count_eq_zero_of_not_mem member] at counted
          exact pending index (by simpa using counted)
      obtain ⟨out, rfl, permuted, together, follows⟩ :=
        ih (remaining_filter remaining proc) stillPending continued
      have outside {other : Proc} (member : other ∈ procsAt queue out) :=
        procs_outside permuted member
      refine ⟨out ++ ((first :: rest).filter (groupAt table queue proc)).reverse, ?_, ?_, ?_, ?_⟩
      · rw [append_assoc]
      · refine (permuted.append (reverse_perm _)).trans ?_
        exact perm_append_comm.trans (filter_append_perm _ _)
      · rw [procsAt, filterMap_append]
        exact together_append together (fun other member => (outside member).choose_spec.2.2)
          fun other member => procs_inside member
      · rw [procsAt, filterMap_append, pairwise_append]
        refine ⟨follows, ?_, fun ahead aheadMember behind behindMember => ?_⟩
        · refine pairwise_of_forall_mem_list fun one oneMember two twoMember => .inl ?_
          exact (procs_inside oneMember).trans (procs_inside twoMember).symm
        · obtain ⟨index, inLeft, at_, other⟩ := outside aheadMember
          rcases lt_trichotomy index chosen with less | same | greater
          · exact .inr (.inl ⟨proc, (procs_inside behindMember).symm,
              earlier_at once at_ placed less⟩)
          · rw [same, placed] at at_
            cases at_
            exact absurd rfl other
          · exact .inr (.inr (named_behind remaining pending lastZero _ index ahead
              le_rfl inLeft greater at_))

theorem topo_sort_returns (once : queue.Nodup) (leading : Leading table constraints)
    {procs : List Proc} (sorted : topoSort table queue constraints = some procs) :
    procs.Perm queue ∧ Together table procs ∧
      ∀ first second, Earlier procs first second →
        Follows table queue constraints first second := by
  obtain ⟨ordering, output, rfl⟩ := Option.map_eq_some_iff.mp sorted
  have counts := count_constraints_pending leading constraints (List.Subset.refl _)
    (no_counts_pending table queue constraints)
  have remaining : Remaining table queue (List.range queue.length) := by
    refine ⟨pairwise_lt_range, fun index member => mem_range.mp member, ?_⟩
    intro index _ other _ member _ placed _
    exact mem_range.mpr (List.getElem?_eq_some_iff.mp placed).1
  obtain ⟨out, rfl, permuted, together, follows⟩ :=
    output_groups once counts.listed queue.length remaining counts.counted output
  rw [append_nil]
  refine ⟨?_, together, fun first second earlier => earlier_of_pairwise follows earlier⟩
  have mapped := permuted.filterMap fun index => queue[index]?
  rwa [← procsAt, ← procsAt, procs_at_range] at mapped

end Output

section Expansion

variable [DecidableEq Lock] {table : LockTable Proc Lock} {orders : List (WaitOrder Proc Lock)}

theorem expand_from_returns (remaining : List (SoftEdge Proc Lock))
    {result : List (WaitOrder Proc Lock)}
    (expanded : expandFrom table remaining orders = some result) :
    ∀ order ∈ result, order ∈ orders ∨ ∃ used ⊆ remaining,
      topoSort table (queuesOf table order.lock) used = some order.procs := by
  induction remaining generalizing orders with
  | nil =>
    cases expanded
    exact fun order member => .inl member
  | cons constraint earlier ih =>
    intro order member
    rw [expandFrom] at expanded
    split at expanded
    · rcases ih expanded order member with old | ⟨used, within, sorted⟩
      · exact .inl old
      · exact .inr ⟨used, Subset.trans within (subset_cons_self _ _), sorted⟩
    · obtain ⟨procs, sorted, continued⟩ := Option.bind_eq_some_iff.mp expanded
      rcases ih continued order member with known | ⟨used, within, sortedLater⟩
      · rcases mem_append.mp known with old | new
        · exact .inl old
        · rw [mem_singleton.mp new]
          exact .inr ⟨_, fun _ inside => mem_reverse.mp inside, sorted⟩
      · exact .inr ⟨used, Subset.trans within (subset_cons_self _ _), sortedLater⟩

section

variable {constraints : List (SoftEdge Proc Lock)} (leading : Leading table constraints)
  (expanded : expandConstraints table constraints = some orders)

include leading expanded

theorem expand_constraints_returns :
    ∀ order ∈ orders, order.procs.Perm (queuesOf table order.lock) ∧ Together table order.procs ∧
      ∀ first second, Earlier order.procs first second →
        Follows table (queuesOf table order.lock) constraints first second := by
  intro order member
  rcases expand_from_returns constraints.reverse expanded order member with
    absent | ⟨used, within, sorted⟩
  · cases absent
  · have known : used ⊆ constraints := fun constraint inside =>
      mem_reverse.mp (within inside)
    obtain ⟨permuted, together, follows⟩ := topo_sort_returns (table.once order.lock)
      (fun constraint inside => leading constraint (known inside)) sorted
    refine ⟨permuted, together, fun first second earlier => ?_⟩
    rcases follows first second earlier with same | ahead | ⟨constraint, inside, isWaiter⟩
    · exact .inl same
    · exact .inr (.inl ahead)
    · exact .inr (.inr ⟨constraint, known inside, isWaiter⟩)

theorem expand_arranged : Arranged table orders := by
  intro order member
  obtain ⟨permuted, together, -⟩ := expand_constraints_returns leading expanded order member
  exact ⟨permuted, together⟩

end

end Expansion

end FortressQL.Lmgr.QueueOrders
