import Mathlib.Algebra.GroupWithZero.Nat
import Mathlib.Data.List.Forall2
import Mathlib.Tactic.Common

/-!
# Error reports

What `ereport` raises: the level that decides how far it unwinds, the error code
and the texts. Levels below `ERROR` only log and are not represented.
-/

namespace FortressQL.Elog

open List

inductive Elevel where
  | error
  | panic
  deriving DecidableEq, Repr

inductive Errcode where
  | internalError
  | dataCorrupted
  | outOfMemory
  | fileAccess
  | protocolViolation
  | featureNotSupported
  | invalidParameterValue
  | invalidAuthorizationSpecification
  | configurationLimitExceeded
  | objectNotInPrerequisiteState
  | wrongObjectType
  | externalRoutineException
  | divisionByZero
  | insufficientPrivilege
  | nullValueNotAllowed
  | invalidTextRepresentation
  | cantChangeRuntimeParam
  | invalidGrantOperation
  | dependentObjectsStillExist
  deriving DecidableEq, Repr

structure ErrorReport where
  elevel : Elevel
  errcode : Errcode
  errmsg : String
  errdetail : String := ""
  errhint : String := ""
  deriving DecidableEq, Repr

abbrev Raises := Except ErrorReport

def ensure (condition : Prop) [Decidable condition] (report : ErrorReport) : Raises Unit :=
  if condition then .ok () else .error report

variable {condition : Prop} {report : ErrorReport}

theorem ensure_holds [Decidable condition] (holds : condition) : ensure condition report = .ok () :=
  if_pos holds

theorem ensure_returns [Decidable condition] {done : Unit} :
    ensure condition report = .ok done ↔ condition := by
  unfold ensure
  split <;> simp [*]

section Sequencing

variable {Failure Value Result : Type} {next : Value → Except Failure Result}

@[simp]
theorem ok_then (value : Value) : (Except.ok value >>= next) = next value := rfl

@[simp]
theorem error_then (failure : Failure) :
    ((Except.error failure : Except Failure Value) >>= next) = .error failure := rfl

variable {before : Except Failure Value} {action : Value → Except Failure Result}
  {items : List Value} {results : List Result}

theorem sequence_returns {result : Result} :
    (before >>= next) = .ok result ↔ ∃ value, before = .ok value ∧ next value = .ok result := by
  cases before with
  | error failure => simp
  | ok value => simp

theorem sequence_commutes {Image Outcome : Type} {before' : Except Failure Image}
    {next' : Image → Except Failure Outcome} (image : Value → Image) {outcome : Result → Outcome}
    (first : before.map image = before')
    (rest : ∀ value, (next value).map outcome = next' (image value)) :
    (before >>= next).map outcome = before' >>= next' := by
  subst first
  cases before with
  | error failure => rfl
  | ok value => exact rest value

theorem ensure_commutes {Outcome : Type} [Decidable condition] {next : Unit → Raises Result}
    {next' : Unit → Raises Outcome} {outcome : Result → Outcome}
    (rest : (next ()).map outcome = next' ()) :
    (ensure condition report >>= next).map outcome = ensure condition report >>= next' := by
  unfold ensure
  split_ifs with holds
  · exact rest
  · rfl

theorem map_m_returns :
    items.mapM action = .ok results ↔
      List.Forall₂ (fun item result => action item = .ok result) items results := by
  induction items generalizing results with
  | nil =>
    rw [forall₂_nil_left_iff]
    exact ⟨fun same => (Except.ok.inj same).symm, fun same => congrArg Except.ok same.symm⟩
  | cons item rest ih =>
    rw [mapM_cons, forall₂_cons_left_iff]
    simp only [sequence_returns, ih]
    constructor
    · rintro ⟨result, first, others, remaining, same⟩
      exact ⟨result, others, first, remaining, (Except.ok.inj same).symm⟩
    · rintro ⟨result, others, first, remaining, rfl⟩
      exact ⟨result, first, others, remaining, rfl⟩

theorem map_m_members (returned : items.mapM action = .ok results) :
    (∀ item ∈ items, ∃ result ∈ results, action item = .ok result) ∧
      ∀ result ∈ results, ∃ item ∈ items, action item = .ok result := by
  have each := map_m_returns.mp returned
  clear returned
  induction each with
  | nil => simp
  | cons first rest ih =>
    constructor
    · rintro item (_ | ⟨_, member⟩)
      · exact ⟨_, mem_cons_self, first⟩
      · obtain ⟨result, found, same⟩ := ih.1 item member
        exact ⟨result, mem_cons_of_mem _ found, same⟩
    · rintro result (_ | ⟨_, member⟩)
      · exact ⟨_, mem_cons_self, first⟩
      · obtain ⟨item, found, same⟩ := ih.2 result member
        exact ⟨item, mem_cons_of_mem _ found, same⟩

end Sequencing

end FortressQL.Elog
