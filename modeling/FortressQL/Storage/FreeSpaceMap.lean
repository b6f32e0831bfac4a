import FortressQL.Storage.BufPage
import Mathlib.Tactic.Ring

/-!
# Free space map addresses

`freespace.c` numbers the pages of the map's tree. No count made for an address of the tree
leaves the range of an `int`, so they are natural numbers here.
-/

namespace FortressQL.Storage.FreeSpaceMap

/-- `SlotsPerFSMPage`: what the page header, `fp_next_slot` and the inner nodes leave. -/
def slotsPerFSMPage : Nat := BufPage.blcksz - 24 - 4 - (BufPage.blcksz / 2 - 1)

def fsmTreeDepth : Nat := if slotsPerFSMPage ≥ 1626 then 3 else 4

structure FSMAddress where
  level : Nat
  logpageno : Nat

namespace FSMAddress

def fsmRootAddress : FSMAddress := ⟨fsmTreeDepth - 1, 0⟩

/-- The loop over the levels: the pages needed to address a leaf page. -/
def countPages : Nat → Nat → Nat
  | 0, _ => 0
  | rounds + 1, leafno => leafno + 1 + countPages rounds (leafno / slotsPerFSMPage)

def fsmLogicalToPhysical (addr : FSMAddress) : Nat :=
  countPages fsmTreeDepth ((· * slotsPerFSMPage)^[addr.level] addr.logpageno) - addr.level - 1

def fsmGetParent (child : FSMAddress) : FSMAddress × Nat :=
  (⟨child.level + 1, child.logpageno / slotsPerFSMPage⟩, child.logpageno % slotsPerFSMPage)

def fsmGetChild (parent : FSMAddress) (slot : Nat) : FSMAddress :=
  ⟨parent.level - 1, parent.logpageno * slotsPerFSMPage + slot⟩

/-- The subtree of a page. The valid addresses are those below the root's. -/
inductive Below (addr : FSMAddress) : FSMAddress → Prop
  | self : Below addr addr
  | down {level page slot} : slot < slotsPerFSMPage →
      Below addr (fsmGetChild ⟨level + 1, page⟩ slot) → Below addr ⟨level + 1, page⟩

/-- The pages of a whole subtree whose top page is on the level. -/
def subtreePages : Nat → Nat
  | 0 => 1
  | level + 1 => 1 + slotsPerFSMPage * subtreePages level

/-- The page a number of blocks behind the top page of a subtree, depth first. -/
def locate : Nat → Nat → Nat → FSMAddress
  | level + 1, page, offset + 1 =>
    locate level (page * slotsPerFSMPage + offset / subtreePages level)
      (offset % subtreePages level)
  | level, page, _ => ⟨level, page⟩

variable {addr top : FSMAddress} {level page slot offset : Nat}

theorem subtree_pages_succ (level : Nat) :
    subtreePages (level + 1) = slotsPerFSMPage ^ (level + 1) + subtreePages level := by
  induction level with
  | zero => simp [subtreePages, add_comm]
  | succ level ih =>
    rw [subtreePages]
    nth_rewrite 1 [ih]
    rw [subtreePages]
    ring

theorem count_pages_least (rounds leafno : Nat) : rounds ≤ countPages rounds leafno := by
  induction rounds generalizing leafno with
  | zero => exact Nat.zero_le _
  | succ rounds ih => have := ih (leafno / slotsPerFSMPage); simp only [countPages]; omega

theorem slots_pos : 0 < slotsPerFSMPage := by decide

theorem child_parent (inside : slot < slotsPerFSMPage) :
    (page * slotsPerFSMPage + slot) / slotsPerFSMPage = page := by
  rw [add_comm, Nat.add_mul_div_right _ _ slots_pos, Nat.div_eq_of_lt inside, zero_add]

-- Below the parent's level the slot counts in full, above it the division drops it.
theorem count_pages_slot (page : Nat) (inside : slot < slotsPerFSMPage) {level rounds : Nat}
    (low : level < rounds) :
    countPages rounds ((page * slotsPerFSMPage + slot) * slotsPerFSMPage ^ level) =
      countPages rounds (page * slotsPerFSMPage * slotsPerFSMPage ^ level) +
        slot * subtreePages level := by
  induction level generalizing rounds with
  | zero =>
    obtain ⟨rounds, rfl⟩ := Nat.exists_eq_add_one_of_ne_zero low.ne_bot
    simp only [countPages, pow_zero, mul_one, child_parent inside, Nat.mul_div_cancel _ slots_pos,
      subtreePages]
    omega
  | succ level ih =>
    obtain ⟨rounds, rfl⟩ := Nat.exists_eq_add_one_of_ne_zero low.ne_bot
    simp only [countPages, pow_succ, ← mul_assoc, Nat.mul_div_cancel _ slots_pos,
      ih (Nat.lt_of_succ_lt_succ low), subtree_pages_succ]
    ring

theorem physical_child (low : level + 1 < fsmTreeDepth) (inside : slot < slotsPerFSMPage) :
    (fsmGetChild ⟨level + 1, page⟩ slot).fsmLogicalToPhysical =
      fsmLogicalToPhysical ⟨level + 1, page⟩ + 1 + slot * subtreePages level := by
  have := count_pages_least fsmTreeDepth (page * slotsPerFSMPage * slotsPerFSMPage ^ level)
  simp only [fsmLogicalToPhysical, fsmGetChild, Nat.add_sub_cancel, mul_right_iterate,
    Function.iterate_succ_apply, count_pages_slot page inside (Nat.lt_of_succ_lt low)]
  omega

theorem subtree_pages_pos : 0 < subtreePages level := by cases level <;> simp [subtreePages]

theorem below_trans {mid : FSMAddress} (below : mid.Below top) (deeper : addr.Below mid) :
    addr.Below top := by
  induction below with
  | self => exact deeper
  | down inside _ ih => exact .down inside ih

theorem below_level (below : addr.Below top) : addr.level ≤ top.level := by
  induction below with
  | self => rfl
  | down _ _ ih => exact Nat.le_succ_of_le ih

theorem locate_physical (below : addr.Below top) (low : top.level < fsmTreeDepth) :
    ∃ offset < subtreePages top.level, locate top.level top.logpageno offset = addr ∧
      addr.fsmLogicalToPhysical = top.fsmLogicalToPhysical + offset := by
  induction below with
  | self => exact ⟨0, subtree_pages_pos, by simp [locate]⟩
  | @down level page slot inside below ih =>
    obtain ⟨offset, bound, located, blocks⟩ := ih (Nat.lt_of_succ_lt low)
    have fits := Nat.mul_le_mul_right (subtreePages level) inside
    rw [physical_child low inside] at blocks
    simp only [fsmGetChild, Nat.add_sub_cancel] at bound located
    refine ⟨offset + slot * subtreePages level + 1, ?_, ?_, by omega⟩
    · simp only [Nat.succ_mul, subtreePages] at fits ⊢
      omega
    · rw [locate, Nat.add_mul_div_right _ _ subtree_pages_pos, Nat.div_eq_of_lt bound, zero_add,
        Nat.add_mul_mod_self_right, Nat.mod_eq_of_lt bound, located]

theorem physical_locate (low : level < fsmTreeDepth) (bound : offset < subtreePages level) :
    (locate level page offset).Below ⟨level, page⟩ ∧
    (locate level page offset).fsmLogicalToPhysical =
      fsmLogicalToPhysical ⟨level, page⟩ + offset := by
  induction level generalizing page offset with
  | zero =>
    obtain rfl : offset = 0 := Nat.lt_one_iff.mp bound
    exact ⟨.self, rfl⟩
  | succ level ih =>
    cases offset with
    | zero => exact ⟨.self, rfl⟩
    | succ offset =>
      have inside : offset / subtreePages level < slotsPerFSMPage := by
        rw [Nat.div_lt_iff_lt_mul subtree_pages_pos]
        simp only [subtreePages] at bound
        omega
      obtain ⟨below, blocks⟩ := @ih (page * slotsPerFSMPage + offset / subtreePages level)
        (offset % subtreePages level) (Nat.lt_of_succ_lt low) (Nat.mod_lt _ subtree_pages_pos)
      refine ⟨.down inside below, blocks.trans ?_⟩
      have := Nat.div_add_mod' offset (subtreePages level)
      have := @physical_child level page _ low inside
      simp only [fsmGetChild, Nat.add_sub_cancel] at this
      omega

theorem physical_inj (low : top.level < fsmTreeDepth) :
    {addr | Below addr top}.InjOn fsmLogicalToPhysical := by
  intro one below other below' same
  obtain ⟨offset, -, rfl, blocks⟩ := locate_physical below low
  obtain ⟨offset', -, rfl, blocks'⟩ := locate_physical below' low
  rw [show offset = offset' by omega]

theorem addresses_depth_first :
    Set.BijOn fsmLogicalToPhysical {addr | Below addr fsmRootAddress}
      {block | block < subtreePages fsmRootAddress.level} ∧
    ∀ addr, Below addr fsmRootAddress →
      (∀ page, Below page fsmRootAddress → (page.Below addr ↔
        addr.fsmLogicalToPhysical ≤ page.fsmLogicalToPhysical ∧
        page.fsmLogicalToPhysical < addr.fsmLogicalToPhysical + subtreePages addr.level)) ∧
      fsmGetChild (fsmGetParent addr).1 (fsmGetParent addr).2 = addr ∧
      (0 < addr.level → ∀ slot < slotsPerFSMPage, (fsmGetChild addr slot).Below addr ∧
        fsmGetParent (fsmGetChild addr slot) = (addr, slot) ∧
        (fsmGetChild addr slot).fsmLogicalToPhysical =
          addr.fsmLogicalToPhysical + 1 + slot * subtreePages (addr.level - 1)) := by
  have root : fsmRootAddress.level < fsmTreeDepth := by decide
  have first : fsmRootAddress.fsmLogicalToPhysical = 0 := by decide
  refine ⟨⟨fun addr below => ?_, physical_inj root, fun block bound => ?_⟩,
    fun addr valid => ⟨?_, ?_, ?_⟩⟩
  · obtain ⟨offset, bound, -, blocks⟩ := locate_physical below root
    rwa [blocks, first, zero_add]
  · have located := @physical_locate _ 0 _ root bound
    exact ⟨_, located.1, located.2.trans (by simpa [fsmRootAddress] using first)⟩
  · intro page valid'
    have low := (below_level valid).trans_lt root
    refine ⟨fun below => ?_, fun ⟨least, bound⟩ => ?_⟩
    · obtain ⟨offset, bound, -, blocks⟩ := locate_physical below low
      omega
    · obtain ⟨offset, blocks⟩ := Nat.exists_eq_add_of_le least
      obtain ⟨below, blocks'⟩ := @physical_locate _ addr.logpageno offset low (by omega)
      rwa [physical_inj root valid' (below_trans valid below) (blocks.trans blocks'.symm)]
  · simp [fsmGetChild, fsmGetParent, Nat.div_add_mod']
  · obtain ⟨level | level, page⟩ := addr
    · exact fun high => (Nat.not_lt_zero _ high).elim
    · refine fun _ slot inside => ⟨.down inside .self, ?_,
        physical_child ((below_level valid).trans_lt root) inside⟩
      simp [fsmGetChild, fsmGetParent, child_parent inside, Nat.mod_eq_of_lt inside]

end FSMAddress

end FortressQL.Storage.FreeSpaceMap
