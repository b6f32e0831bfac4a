import Mathlib.Data.List.Basic
import Mathlib.Data.List.Nodup
import Mathlib.Data.List.TakeWhile

/-!
# Who stands before whom in a list

An element stands before another one if its first place comes earlier. On the elements of a list
this is a strict total order.
-/

namespace FortressQL.Lib.Precedence

open List

variable {Item : Type*} [DecidableEq Item]

def Earlier (list : List Item) (first second : Item) : Prop :=
  second ∈ list ∧ list.idxOf first < list.idxOf second

instance (list : List Item) (first second : Item) : Decidable (Earlier list first second) :=
  inferInstanceAs (Decidable (_ ∧ _))

variable {list : List Item} {first second third : Item}

section

variable (before : Earlier list first second)

include before

theorem earlier_member : first ∈ list := by
  have bound := idxOf_lt_length_of_mem before.1
  exact idxOf_lt_length_iff.mp (lt_trans before.2 bound)

theorem earlier_ne : first ≠ second := by
  rintro rfl
  exact lt_irrefl _ before.2

theorem earlier_trans (after : Earlier list second third) : Earlier list first third :=
  ⟨after.1, lt_trans before.2 after.2⟩

theorem earlier_asymm : ¬ Earlier list second first :=
  fun after => lt_asymm before.2 after.2

end

theorem earlier_total (firstMember : first ∈ list) (secondMember : second ∈ list)
    (different : first ≠ second) : Earlier list first second ∨ Earlier list second first := by
  have places : list.idxOf first ≠ list.idxOf second :=
    fun same => different ((idxOf_inj firstMember).mp same)
  rcases Nat.lt_or_gt_of_ne places with before | after
  · exact .inl ⟨secondMember, before⟩
  · exact .inr ⟨firstMember, after⟩

theorem earlier_cons_head (member : second ∈ list) (different : first ≠ second) :
    Earlier (first :: list) first second := by
  refine ⟨mem_cons_of_mem first member, ?_⟩
  rw [idxOf_cons_self, idxOf_cons_ne _ different]
  exact Nat.succ_pos _

theorem earlier_cons_tail {head : Item} (notFirst : head ≠ first) (notSecond : head ≠ second) :
    Earlier (head :: list) first second ↔ Earlier list first second := by
  unfold Earlier
  rw [idxOf_cons_ne _ notFirst, idxOf_cons_ne _ notSecond, mem_cons,
    or_iff_right (Ne.symm notSecond), Nat.succ_lt_succ_iff]

theorem not_earlier_head {head : Item} : ¬ Earlier (head :: list) first head := by
  rintro ⟨-, before⟩
  rw [idxOf_cons_self] at before
  exact Nat.not_lt_zero _ before

theorem member_take_while {qualifies : Item → Bool} :
    first ∈ list.takeWhile qualifies ↔ first ∈ list ∧ qualifies first = true ∧
        ∀ other, Earlier list other first → qualifies other = true := by
  induction list with
  | nil => simp
  | cons head rest ih =>
    by_cases qualified : qualifies head = true
    · rw [takeWhile_cons_of_pos qualified]
      by_cases same : head = first
      · subst same
        simp only [mem_cons_self, qualified, true_and, true_iff]
        exact fun other before => absurd before not_earlier_head
      · rw [mem_cons, or_iff_right (Ne.symm same), ih, mem_cons, or_iff_right (Ne.symm same)]
        refine and_congr_right fun member => and_congr_right fun _ => ?_
        refine forall_congr' fun other => ?_
        by_cases isHead : head = other
        · subst isHead
          exact ⟨fun _ _ => qualified, fun _ _ => qualified⟩
        · rw [earlier_cons_tail isHead same]
    · rw [takeWhile_cons_of_neg qualified]
      refine ⟨fun member => absurd member not_mem_nil, ?_⟩
      rintro ⟨member, holds, before⟩
      by_cases same : head = first
      · exact absurd (same ▸ holds) qualified
      · exact absurd (before head (earlier_cons_head
          ((mem_cons.mp member).resolve_left (Ne.symm same)) same)) qualified

theorem earlier_append_left {rest : List Item} (member : second ∈ list) :
    Earlier (list ++ rest) first second ↔ Earlier list first second := by
  unfold Earlier
  rw [idxOf_append_of_mem member]
  by_cases inList : first ∈ list
  · rw [idxOf_append_of_mem inList]
    simp [member]
  · have bound := idxOf_lt_length_of_mem member
    have later := idxOf_eq_length inList
    rw [idxOf_append_of_notMem inList]
    omega

theorem earlier_of_pairwise {relation : Item → Item → Prop} (pairwise : list.Pairwise relation)
    (before : Earlier list first second) : relation first second := by
  have firstBound := idxOf_lt_length_of_mem (earlier_member before)
  have secondBound := idxOf_lt_length_of_mem before.1
  have related := pairwise_iff_getElem.mp pairwise _ _ firstBound secondBound before.2
  rwa [getElem_idxOf, getElem_idxOf] at related

theorem find_last {qualifies : Item → Bool} {last : Item} (unique : list.Nodup)
    (found : list.reverse.find? qualifies = some last) :
    last ∈ list ∧ qualifies last = true ∧
      ∀ other ∈ list, qualifies other = true → other = last ∨ Earlier list other last := by
  have member : last ∈ list := mem_reverse.mp (mem_of_find?_eq_some found)
  refine ⟨member, List.find?_some found, fun other otherMember holds => ?_⟩
  by_contra neither
  obtain ⟨different, notBefore⟩ := not_or.mp neither
  have after := (earlier_total otherMember member different).resolve_left notBefore
  rw [List.find?_eq_some_iff_append] at found
  obtain ⟨-, behind, ahead, reversed, none⟩ := found
  have shape : list = ahead.reverse ++ last :: behind.reverse := by
    rw [← reverse_reverse list, reversed]
    simp
  have notBehind : other ∉ behind := fun isBehind => by
    have absent := none other isBehind
    rw [holds] at absent
    cases absent
  have isAhead : other ∈ ahead.reverse := by
    rw [shape] at otherMember
    rcases mem_append.mp otherMember with inAhead | inRest
    · exact inAhead
    · rcases mem_cons.mp inRest with same | inBehind
      · exact absurd same different
      · exact absurd (mem_reverse.mp inBehind) notBehind
  rw [shape] at after unique
  have early := (earlier_append_left isAhead).mp after
  have twice := (nodup_append.mp unique).2.2 last (earlier_member early) last mem_cons_self
  exact twice rfl

end FortressQL.Lib.Precedence
