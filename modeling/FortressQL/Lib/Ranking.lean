import Mathlib.Data.List.GetD
import Mathlib.Data.List.Sort

/-!
# The oldest and the n-th latest of a list of positions

A minimum that starts from zero and takes zero for "nothing yet" is a lower bound of a list without
zeros.
-/

namespace FortressQL.Lib.Ranking

open List

variable {positions : List Nat}

section Descending

variable {Item : Type*}

def descending (positions : List Nat) : List Nat :=
  positions.mergeSort fun first second => decide (second ≤ first)

theorem descending_perm (positions : List Nat) : (descending positions).Perm positions :=
  mergeSort_perm _ _

theorem descending_sorted (positions : List Nat) :
    (descending positions).Pairwise fun first second => second ≤ first := by
  have sorted : (descending positions).Pairwise
      fun first second => decide (second ≤ first) = true := by
    apply pairwise_mergeSort
    · intro first second third before behind
      rw [decide_eq_true_eq] at before behind ⊢
      exact le_trans behind before
    · intro first second
      rw [Bool.or_eq_true, decide_eq_true_eq, decide_eq_true_eq]
      exact le_total second first
  exact sorted.imp fun ordered => of_decide_eq_true ordered

theorem descending_reached {place : Nat} (inside : place < positions.length) :
    place + 1 ≤ positions.countP fun position =>
      decide ((descending positions).getD place 0 ≤ position) := by
  have length : (descending positions).length = positions.length :=
    (descending_perm positions).length_eq
  have sorted := pairwise_iff_getElem.mp (descending_sorted positions)
  have before : ((descending positions).take (place + 1)).countP
      (fun position => decide ((descending positions).getD place 0 ≤ position)) = place + 1 := by
    rw [countP_eq_length.mpr, length_take_of_le (by omega)]
    intro position member
    obtain ⟨index, bound, rfl⟩ := getElem_of_mem member
    rw [length_take] at bound
    rw [decide_eq_true_eq, getElem_take, getD_eq_getElem _ _ (by omega)]
    rcases lt_or_ge index place with earlier | later
    · exact sorted index place (by omega) (by omega) earlier
    · obtain rfl : index = place := by omega
      exact le_refl _
  rw [← (descending_perm positions).countP_eq, ← before]
  exact (take_sublist _ _).countP_le

theorem ranked_items (items : List Item) (position : Item → Nat) {rank : Nat} (some' : 0 < rank)
    (enough : rank ≤ items.length) :
    ∃ chosen rest : List Item, (chosen ++ rest).Perm items ∧ chosen.length = rank ∧
      ∀ item ∈ chosen,
        (descending (items.map position)).getD (rank - 1) 0 ≤ position item := by
  generalize reachedAt : (descending (items.map position)).getD (rank - 1) 0 = bound
  have counted := descending_reached (show rank - 1 < (items.map position).length by
    rw [length_map]
    omega)
  rw [reachedAt, countP_map, countP_eq_length_filter] at counted
  let reaching := items.filter ((fun position => decide (bound ≤ position)) ∘ position)
  refine ⟨reaching.take rank, reaching.drop rank ++
    items.filter fun item => !((fun position => decide (bound ≤ position)) ∘ position) item,
    ?_, ?_, ?_⟩
  · rw [← append_assoc, take_append_drop]
    exact filter_append_perm _ items
  · apply length_take_of_le
    show rank ≤ (items.filter _).length
    omega
  · intro item member
    have reaches := of_mem_filter (mem_of_mem_take member)
    exact of_decide_eq_true reaches

end Descending

/-- One step of a minimum for which zero means that there is none yet. -/
def older (oldest position : Nat) : Nat :=
  if oldest = 0 ∨ oldest > position then position else oldest

def oldest (positions : List Nat) : Nat := positions.foldl older 0

theorem fold_older_le (valid : ∀ position ∈ positions, position ≠ 0) {start : Nat}
    (started : start ≠ 0) :
    positions.foldl older start ≤ start ∧
      ∀ position ∈ positions, positions.foldl older start ≤ position := by
  induction positions generalizing start with
  | nil => exact ⟨le_refl _, fun _ member => absurd member not_mem_nil⟩
  | cons first rest ih =>
    have firstValid := valid first mem_cons_self
    have step : older start first ≠ 0 ∧ older start first ≤ start ∧
        older start first ≤ first := by
      unfold older
      split_ifs <;> omega
    obtain ⟨bound, others⟩ := ih (fun position member =>
      valid position (mem_cons_of_mem _ member)) step.1
    refine ⟨le_trans bound step.2.1, ?_⟩
    intro position member
    rcases mem_cons.mp member with rfl | member
    · exact le_trans bound step.2.2
    · exact others position member

theorem oldest_le (valid : ∀ position ∈ positions, position ≠ 0) :
    ∀ position ∈ positions, oldest positions ≤ position := by
  intro position member
  cases positions with
  | nil => exact absurd member not_mem_nil
  | cons first rest =>
    have firstValid := valid first mem_cons_self
    obtain ⟨bound, others⟩ := fold_older_le (fun position member =>
      valid position (mem_cons_of_mem _ member)) firstValid
    rcases mem_cons.mp member with rfl | member
    · exact bound
    · exact others position member

theorem oldest_last_zero (last : positions.getLast? = some 0) : oldest positions = 0 := by
  obtain ⟨-, rfl⟩ := List.getLast?_eq_some_iff.mp last
  rw [oldest, foldl_append, foldl_cons, older]
  split_ifs with smaller
  · rfl
  · omega

end FortressQL.Lib.Ranking
