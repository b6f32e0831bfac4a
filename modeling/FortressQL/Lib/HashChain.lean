import Mathlib.Data.List.Chain

/-!
# Hash chains

Each row but the first names the digest of the row before it. If a digest commits to the
predecessor, no digest occurs twice and no predecessor is named twice.
-/

namespace FortressQL.Lib.HashChain

open Option
open List

variable {Row Digest : Type*} (prev : Row → Option Digest) (digest : Row → Digest)

/-- Each row names the digest of the row before it. -/
def Consecutive (rows : List Row) : Prop :=
  rows.IsChain fun earlier later => prev later = some (digest earlier)

structure Linked (rows : List Row) : Prop where
  first : ∀ row ∈ rows.head?, prev row = none
  next : Consecutive prev digest rows

variable {prev digest}

theorem linked_nil : Linked prev digest [] := ⟨by simp, isChain_nil⟩

theorem Linked.append_row {rows : List Row} (linked : Linked prev digest rows) {row : Row}
    (names : prev row = rows.getLast?.map digest) : Linked prev digest (rows ++ [row]) := by
  constructor
  · intro first member
    cases rows with
    | nil =>
      obtain rfl : row = first := by simpa using member
      exact names
    | cons head tail => exact linked.first first (by simpa using member)
  · apply List.IsChain.append linked.next (isChain_singleton row)
    intro last lastMember other otherMember
    obtain rfl : row = other := by simpa using otherMember
    rw [names, Option.mem_def.mp lastMember, Option.map_some]

theorem Linked.left_of_append {first second : List Row}
    (linked : Linked prev digest (first ++ second)) : Linked prev digest first := by
  refine ⟨?_, linked.next.left_of_append⟩
  intro row member
  cases first with
  | nil => simp at member
  | cons head tail => exact linked.first row (by simpa using member)

section

variable {rows : List Row} (linked : Linked prev digest rows)

include linked

theorem Linked.named (index : Nat) (bound : index + 1 < rows.length) :
    prev rows[index + 1] = some (digest rows[index]) :=
  isChain_iff_getElem.mp linked.next index bound

theorem Linked.start (bound : 0 < rows.length) : prev rows[0] = none :=
  linked.first rows[0] (by simp [List.head?_eq_getElem?])

theorem Linked.named_member {row : Row} (member : row ∈ rows) {named : Digest}
    (names : prev row = some named) : ∃ earlier ∈ rows, digest earlier = named := by
  obtain ⟨index, bound, rfl⟩ := mem_iff_getElem.mp member
  cases index with
  | zero =>
    rw [linked.start bound] at names
    simp at names
  | succ index =>
    rw [linked.named index bound] at names
    exact ⟨rows[index], getElem_mem _, some.inj names⟩

end

section Distinct

variable {rows : List Row} (linked : Linked prev digest rows)
  (committing : ∀ left ∈ rows, ∀ right ∈ rows, digest left = digest right → prev left = prev right)

include linked committing

/-- Equal digests would lead back, one predecessor at a time, to the first row. -/
theorem Linked.digests_differ (left right : Nat) (order : left < right)
    (bound : right < rows.length) : digest rows[left] ≠ digest rows[right] := by
  induction left generalizing right with
  | zero =>
    obtain ⟨before, rfl⟩ := Nat.exists_eq_add_one_of_ne_zero (ne_of_gt order)
    intro same
    have prevs := committing _ (getElem_mem _) _ (getElem_mem _) same
    rw [linked.start (by omega), linked.named before bound] at prevs
    simp at prevs
  | succ left ih =>
    obtain ⟨before, rfl⟩ := Nat.exists_eq_add_one_of_ne_zero (ne_of_gt (Nat.zero_lt_of_lt order))
    intro same
    have prevs := committing _ (getElem_mem _) _ (getElem_mem _) same
    rw [linked.named left (by omega), linked.named before bound] at prevs
    exact ih before (by omega) (by omega) (some.inj prevs)

theorem Linked.prevs_distinct : (rows.map prev).Nodup := by
  rw [nodup_iff_pairwise_ne, pairwise_iff_getElem]
  intro left right leftBound rightBound order
  simp only [length_map] at leftBound rightBound
  rw [getElem_map, getElem_map]
  obtain ⟨before, rfl⟩ := Nat.exists_eq_add_one_of_ne_zero (ne_of_gt (Nat.zero_lt_of_lt order))
  rw [linked.named before rightBound]
  cases left with
  | zero =>
    rw [linked.start leftBound]
    simp
  | succ left =>
    rw [linked.named left leftBound]
    intro same
    exact linked.digests_differ committing left before (by omega) (by omega) (some.inj same)

end Distinct

end FortressQL.Lib.HashChain
