import FortressQL.Lib.ByteMemory

/-!
# Streams on pages

A stream of bytes on pages of one size, each with a header. As the end of something, a position
between two pages counts to the first of them.
-/

namespace FortressQL.Lib.PagedStream

open List Lib.ByteStrings Lib.ByteMemory

structure Layout where
  pageSize : Nat
  header : Nat → Nat
  room : ∀ page, header page < pageSize

theorem next_page_le (size : Nat) {first second : Nat} (before : first < second) :
    first * size + size ≤ second * size := by
  rw [← Nat.succ_mul]
  exact Nat.mul_le_mul_right size before

variable (layout : Layout)

namespace Layout

def capacity (page : Nat) : Nat := layout.pageSize - layout.header page

def base : Nat → Nat
  | 0 => 0
  | page + 1 => base page + layout.capacity page

/-- The address behind the first `used` bytes that the stream has on a page. -/
def address (page used : Nat) : Nat := page * layout.pageSize + layout.header page + used

theorem capacity_pos (page : Nat) : 0 < layout.capacity page :=
  Nat.sub_pos_of_lt (layout.room page)

theorem header_capacity (page : Nat) :
    layout.header page + layout.capacity page = layout.pageSize :=
  Nat.add_sub_cancel' (le_of_lt (layout.room page))

theorem address_capacity (page : Nat) :
    layout.address page (layout.capacity page) = (page + 1) * layout.pageSize := by
  rw [address, add_assoc, header_capacity, Nat.succ_mul]

variable {first second used page position : Nat} {memory : Memory} {bytes : Bytes}

theorem base_le (ordered : first ≤ second) : layout.base first ≤ layout.base second := by
  induction ordered with
  | refl => exact le_refl _
  | step _ ih => exact le_trans ih (Nat.le_add_right _ _)

theorem page_le_of_base (before : layout.base first ≤ layout.base second + used)
    (inside : used < layout.capacity second) : first ≤ second := by
  by_contra behind
  have further := layout.base_le (show second + 1 ≤ first by omega)
  rw [base] at further
  omega

def locateFrom (page used : Nat) : Nat × Nat :=
  if used < layout.capacity page then (page, used)
  else locateFrom (page + 1) (used - layout.capacity page)
termination_by used
decreasing_by
  have positive := layout.capacity_pos page
  omega

def locate (position : Nat) : Nat × Nat := layout.locateFrom 0 position

def physical (position : Nat) : Nat :=
  layout.address (layout.locate position).1 (layout.locate position).2

def boundary (position : Nat) : Nat :=
  if (layout.locate position).2 = 0 then (layout.locate position).1 * layout.pageSize
  else layout.physical position

theorem locate_from_base (page used : Nat) :
    layout.locateFrom 0 (layout.base page + used) = layout.locateFrom page used := by
  induction page generalizing used with
  | zero => rw [base, zero_add]
  | succ page ih =>
    rw [base, add_assoc, ih, locateFrom, if_neg (by omega), Nat.add_sub_cancel_left]

theorem locate_at (inside : used < layout.capacity page) :
    layout.locate (layout.base page + used) = (page, used) := by
  rw [locate, locate_from_base, locateFrom, if_pos inside]

theorem located (position : Nat) :
    ∃ page used, used < layout.capacity page ∧ position = layout.base page + used := by
  induction position with
  | zero => exact ⟨0, 0, layout.capacity_pos 0, rfl⟩
  | succ position ih =>
    obtain ⟨page, used, inside, rfl⟩ := ih
    by_cases full : used + 1 < layout.capacity page
    · exact ⟨page, used + 1, full, by omega⟩
    · refine ⟨page + 1, 0, layout.capacity_pos _, ?_⟩
      rw [base]
      omega

theorem physical_at (inside : used < layout.capacity page) :
    layout.physical (layout.base page + used) = layout.address page used := by
  rw [physical, locate_at layout inside]

theorem physical_of (split : position = layout.base page + used)
    (inside : used < layout.capacity page) :
    layout.physical position = layout.address page used := by
  rw [split, layout.physical_at inside]

theorem boundary_start (page : Nat) :
    layout.boundary (layout.base page) = page * layout.pageSize := by
  have start := layout.locate_at (layout.capacity_pos page)
  rw [add_zero] at start
  rw [boundary, start, if_pos rfl]

theorem boundary_at (filled : 0 < used) (inside : used ≤ layout.capacity page) :
    layout.boundary (layout.base page + used) = layout.address page used := by
  by_cases full : used = layout.capacity page
  · subst full
    rw [address_capacity, ← layout.boundary_start (page + 1), base]
  · have within : used < layout.capacity page := by omega
    rw [boundary, locate_at layout within, if_neg (ne_of_gt filled), physical_at layout within]

theorem physical_add {offset : Nat} (inside : used + offset < layout.capacity page)
    (at' : position = layout.base page + used) :
    layout.physical (position + offset) = layout.physical position + offset := by
  subst at'
  rw [add_assoc, layout.physical_at inside, layout.physical_at (by omega), address, address,
    ← add_assoc]

theorem physical_lt_boundary (before : first < second) :
    layout.physical first < layout.boundary second := by
  obtain ⟨page, used, inside, rfl⟩ := layout.located first
  obtain ⟨page', used', inside', rfl⟩ := layout.located second
  have ordered : page ≤ page' := layout.page_le_of_base (by omega) inside'
  have capacities := layout.header_capacity page
  rw [layout.physical_at inside]
  rcases Nat.eq_zero_or_pos used' with rfl | filled
  · rw [add_zero, layout.boundary_start]
    have behind : page + 1 ≤ page' := by
      by_contra same
      obtain rfl : page = page' := by omega
      omega
    have further := next_page_le layout.pageSize behind
    rw [address]
    omega
  · rw [layout.boundary_at filled (le_of_lt inside'), address, address]
    rcases eq_or_lt_of_le ordered with rfl | behind
    · omega
    · have further := next_page_le layout.pageSize behind
      omega

theorem boundary_le_physical (position : Nat) :
    layout.boundary position ≤ layout.physical position := by
  obtain ⟨page, used, inside, rfl⟩ := layout.located position
  rw [layout.physical_at inside]
  rcases Nat.eq_zero_or_pos used with rfl | filled
  · rw [add_zero, layout.boundary_start, address]
    omega
  · rw [layout.boundary_at filled (le_of_lt inside)]

theorem physical_lt (before : first < second) : layout.physical first < layout.physical second :=
  lt_of_lt_of_le (layout.physical_lt_boundary before) (layout.boundary_le_physical second)

theorem boundary_le (ordered : first ≤ second) :
    layout.boundary first ≤ layout.boundary second := by
  rcases eq_or_lt_of_le ordered with rfl | before
  · exact le_refl _
  · exact le_of_lt (lt_of_le_of_lt (layout.boundary_le_physical first)
      (layout.physical_lt_boundary before))

def Holds (memory : Memory) (position : Nat) (bytes : Bytes) : Prop :=
  ∀ offset < bytes.length, memory (layout.physical (position + offset)) = bytes.getD offset 0

variable {layout}

theorem holds_nil (memory : Memory) (position : Nat) : layout.Holds memory position [] :=
  fun _ inside => absurd inside (Nat.not_lt_zero _)

theorem holds_append {first second : Bytes} :
    layout.Holds memory position (first ++ second) ↔ layout.Holds memory position first ∧
        layout.Holds memory (position + first.length) second := by
  constructor
  · intro both
    constructor
    · intro offset inside
      rw [both offset (by rw [length_append]; omega), getD_append _ _ _ _ inside]
    · intro offset inside
      rw [add_assoc, both _ (by rw [length_append]; omega),
        getD_append_right _ _ _ _ (Nat.le_add_right _ _), Nat.add_sub_cancel_left]
  · rintro ⟨left, right⟩ offset inside
    rw [length_append] at inside
    by_cases early : offset < first.length
    · rw [left offset early, getD_append _ _ _ _ early]
    · have late := right (offset - first.length) (by omega)
      rw [add_assoc, Nat.add_sub_cancel' (by omega)] at late
      rw [late, getD_append_right _ _ _ _ (by omega)]

theorem Holds.frame {memory' : Memory} (holds : layout.Holds memory position bytes)
    (same : ∀ location < layout.boundary (position + bytes.length),
      memory' location = memory location) : layout.Holds memory' position bytes := by
  intro offset inside
  rw [same _ (layout.physical_lt_boundary (by omega)), holds offset inside]

theorem Holds.load (holds : layout.Holds memory (layout.base page + used) bytes)
    (fits : used + bytes.length ≤ layout.capacity page) :
    load memory (layout.address page used) bytes.length = bytes := by
  apply load_eq
  intro offset inside
  have found := holds offset inside
  rwa [layout.physical_add (by omega) rfl, layout.physical_at (by omega)] at found

theorem holds_store (memory : Memory) (fits : used + bytes.length ≤ layout.capacity page) :
    layout.Holds (store memory (layout.address page used) bytes) (layout.base page + used)
      bytes := by
  intro offset inside
  rw [layout.physical_add (by omega) rfl, layout.physical_at (by omega),
    store_inside memory _ bytes inside]

end Layout

end FortressQL.Lib.PagedStream
