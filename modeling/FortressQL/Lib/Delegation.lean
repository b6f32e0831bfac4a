import Mathlib.Logic.Relation
import Mathlib.Order.WellFounded
import Mathlib.Data.Finite.Defs
import Mathlib.Data.Fintype.Order

/-!
# Delegated rights

Whoever holds the option of a right may give it away. A grant is supported if options lead from the
owner to its giver; one step back is enough while options off the owner form no cycle.
-/

namespace FortressQL.Lib.Delegation

open Relation

variable {Role : Type*}

def Supported (owner : Role) (grants options : Role → Role → Prop) : Prop :=
  ∀ giver receiver, grants giver receiver → ReflTransGen options owner giver

def Holds (owner : Role) (options : Role → Role → Prop) (role : Role) : Prop :=
  role = owner ∨ ∃ giver, options giver role

def LocallySupported (owner : Role) (grants options : Role → Role → Prop) : Prop :=
  ∀ giver receiver, grants giver receiver → Holds owner options giver

def Off (owner : Role) (options : Role → Role → Prop) (giver receiver : Role) : Prop :=
  options giver receiver ∧ giver ≠ owner ∧ receiver ≠ owner

def AcyclicOff (owner : Role) (options : Role → Role → Prop) : Prop :=
  ∀ role, ¬ TransGen (Off owner options) role role

variable {grants options : Role → Role → Prop}

theorem locally_of_supported {owner : Role} (supported : Supported owner grants options) :
    LocallySupported owner grants options := by
  intro giver receiver granted
  rcases ReflTransGen.cases_tail (supported giver receiver granted) with same | ⟨before, -, last⟩
  · exact .inl same
  · exact .inr ⟨before, last⟩

theorem acyclic_well_founded [Finite Role] {owner : Role} (acyclic : AcyclicOff owner options) :
    WellFounded (TransGen (Off owner options)) := by
  have irreflexive : Std.Irrefl (TransGen (Off owner options)) := ⟨acyclic⟩
  exact Finite.wellFounded_of_trans_of_irrefl _

/-- Going back from giver to giver ends at the owner. -/
theorem supported_of_locally [Finite Role] {owner : Role}
    (within : ∀ giver receiver, options giver receiver → grants giver receiver)
    (locally_ : LocallySupported owner grants options) (acyclic : AcyclicOff owner options) :
    Supported owner grants options := by
  intro giver
  induction giver using (acyclic_well_founded acyclic).induction with
  | _ giver ih =>
    intro receiver granted
    by_cases top : giver = owner
    · rw [top]
    · obtain ⟨before, option⟩ := (locally_ giver receiver granted).resolve_left top
      by_cases first : before = owner
      · exact ReflTransGen.single (first ▸ option)
      · have step : Off owner options before giver := ⟨option, first, top⟩
        exact (ih before (TransGen.single step) giver (within before giver option)).tail option

theorem acyclic_mono {owner : Role} {fewer : Role → Role → Prop}
    (acyclic : AcyclicOff owner options)
    (less : ∀ giver receiver, fewer giver receiver → options giver receiver) :
    AcyclicOff owner fewer := by
  intro role cycle
  refine acyclic role (TransGen.mono ?_ role role cycle)
  intro giver receiver off
  exact ⟨less giver receiver off.1, off.2⟩

theorem path_with_edge {relation : Role → Role → Prop} {first second start finish : Role}
    (path : TransGen (fun giver receiver => relation giver receiver ∨
      giver = first ∧ receiver = second) start finish) :
    TransGen relation start finish ∨
      ReflTransGen relation start first ∧ ReflTransGen relation second finish := by
  induction path with
  | single step =>
    rcases step with old | ⟨rfl, rfl⟩
    · exact .inl (TransGen.single old)
    · exact .inr ⟨ReflTransGen.refl, ReflTransGen.refl⟩
  | tail before step ih =>
    rcases step with old | ⟨rfl, rfl⟩
    · exact ih.imp (fun path => path.tail old) fun path => ⟨path.1, path.2.tail old⟩
    · rcases ih with path | path
      · exact .inr ⟨path.to_reflTransGen, ReflTransGen.refl⟩
      · exact .inr ⟨path.1, ReflTransGen.refl⟩

theorem acyclic_insert {owner : Role} {more : Role → Role → Prop} {first second : Role}
    (acyclic : AcyclicOff owner options) (added : ∀ giver receiver, more giver receiver →
      options giver receiver ∨ giver = first ∧ receiver = second)
    (apart : first ≠ owner → second ≠ owner → ¬ ReflTransGen (Off owner options) second first) :
    AcyclicOff owner more := by
  by_cases touches : first = owner ∨ second = owner
  · intro role cycle
    refine acyclic role (TransGen.mono ?_ role role cycle)
    intro giver receiver off
    refine ⟨(added giver receiver off.1).resolve_right ?_, off.2⟩
    rintro ⟨rfl, rfl⟩
    exact touches.elim off.2.1 off.2.2
  · obtain ⟨notFirst, notSecond⟩ := not_or.mp touches
    intro role cycle
    have widened : TransGen (fun giver receiver => Off owner options giver receiver ∨
        giver = first ∧ receiver = second) role role := by
      refine TransGen.mono ?_ role role cycle
      intro giver receiver off
      exact (added giver receiver off.1).imp_left fun old => ⟨old, off.2⟩
    rcases path_with_edge widened with old | ⟨toFirst, fromSecond⟩
    · exact acyclic role old
    · exact apart notFirst notSecond (fromSecond.trans toFirst)

section Renaming

variable {owner newOwner : Role} {rename : Role → Role}

def Renamed (rename : Role → Role) (relation : Role → Role → Prop) (giver receiver : Role) : Prop :=
  ∃ oldGiver oldReceiver, rename oldGiver = giver ∧ rename oldReceiver = receiver ∧
    relation oldGiver oldReceiver

theorem locally_supported_rename (ownerRenamed : rename owner = newOwner)
    (locally_ : LocallySupported owner grants options) :
    LocallySupported newOwner (Renamed rename grants) (Renamed rename options) := by
  rintro giver receiver ⟨oldGiver, oldReceiver, rfl, rfl, granted⟩
  rcases locally_ oldGiver oldReceiver granted with same | ⟨before, option⟩
  · exact .inl (same ▸ ownerRenamed)
  · exact .inr ⟨rename before, before, oldGiver, rfl, rfl, option⟩

theorem acyclic_rename (ownerRenamed : rename owner = newOwner)
    (othersKept : ∀ role, rename role ≠ newOwner → rename role = role)
    (acyclic : AcyclicOff owner options) : AcyclicOff newOwner (Renamed rename options) := by
  intro role cycle
  refine acyclic role (TransGen.mono ?_ role role cycle)
  rintro giver receiver ⟨⟨oldGiver, oldReceiver, rfl, rfl, option⟩, notGiver, notReceiver⟩
  rw [othersKept oldGiver notGiver, othersKept oldReceiver notReceiver]
  refine ⟨option, ?_, ?_⟩
  · rintro rfl
    exact notGiver ownerRenamed
  · rintro rfl
    exact notReceiver ownerRenamed

end Renaming

end FortressQL.Lib.Delegation
