import Mathlib.Data.List.Basic

/-!
# Runs of a deterministic machine

A run folds the step function over a list of operations. What every admissible step keeps holds
after every run of admissible steps.
-/

namespace FortressQL.Lib.Runs

variable {State Op : Type*} (step : State → Op → State)

def run (initial : State) (ops : List Op) : State := ops.foldl step initial

theorem run_append (initial : State) (first second : List Op) :
    run step initial (first ++ second) = run step (run step initial first) second :=
  List.foldl_append

/-- Every operation of the run is admissible in the state it starts from. -/
def Admissible (allowed : State → Op → Prop) : State → List Op → Prop
  | _, [] => True
  | state, op :: rest => allowed state op ∧ Admissible allowed (step state op) rest

variable (allowed : State → Op → Prop)

theorem admissible_of_forall (always : ∀ state op, allowed state op) (initial : State)
    (ops : List Op) : Admissible step allowed initial ops := by
  induction ops generalizing initial with
  | nil => trivial
  | cons op rest ih => exact ⟨always initial op, ih (step initial op)⟩

theorem admissible_append (initial : State) (first second : List Op) :
    Admissible step allowed initial (first ++ second) ↔ Admissible step allowed initial first ∧
        Admissible step allowed (run step initial first) second := by
  induction first generalizing initial with
  | nil => exact ⟨fun holds => ⟨trivial, holds⟩, fun holds => holds.2⟩
  | cons op rest ih =>
    rw [List.cons_append, Admissible, ih, ← and_assoc]
    rfl

theorem run_invariant (invariant : State → Prop)
    (preserved : ∀ state op, allowed state op → invariant state → invariant (step state op))
    (initial : State) (ops : List Op) (admissible : Admissible step allowed initial ops)
    (holds : invariant initial) : invariant (run step initial ops) := by
  induction ops generalizing initial with
  | nil => exact holds
  | cons op rest ih =>
    obtain ⟨first, remaining⟩ := admissible
    exact ih (step initial op) remaining (preserved initial op first holds)

theorem run_invariant_always (invariant : State → Prop)
    (preserved : ∀ state op, invariant state → invariant (step state op))
    (initial : State) (ops : List Op) (holds : invariant initial) :
    invariant (run step initial ops) :=
  run_invariant step (fun _ _ => True) invariant (fun state op _ => preserved state op) initial ops
    (admissible_of_forall step _ (fun _ _ => trivial) initial ops) holds

section Fallible

variable {Failure : Type*} (fallible : State → Op → Except Failure State)

/-- A run of a step that may fail ends with the first failure. -/
def runFallible : State → List Op → Except Failure State
  | state, [] => .ok state
  | state, op :: rest =>
    match fallible state op with
    | .error failure => .error failure
    | .ok next => runFallible next rest

theorem fallible_invariant (invariant : State → Prop)
    (preserved : ∀ state op next, fallible state op = .ok next → invariant state → invariant next)
    (initial final : State) (ops : List Op) (ran : runFallible fallible initial ops = .ok final)
    (holds : invariant initial) :
    invariant final := by
  induction ops generalizing initial with
  | nil =>
    cases ran
    exact holds
  | cons op rest ih =>
    cases stepped : fallible initial op with
    | error failure => simp [runFallible, stepped] at ran
    | ok next =>
      rw [runFallible, stepped] at ran
      exact ih next ran (preserved initial op next stepped holds)

theorem run_fallible_append (initial : State) (first second : List Op) {middle : State}
    (ran : runFallible fallible initial first = .ok middle) :
    runFallible fallible initial (first ++ second) = runFallible fallible middle second := by
  induction first generalizing initial with
  | nil =>
    cases ran
    rfl
  | cons op rest ih =>
    cases stepped : fallible initial op with
    | error failure => simp [runFallible, stepped] at ran
    | ok next =>
      rw [runFallible, stepped] at ran
      rw [List.cons_append, runFallible, stepped]
      exact ih next ran

theorem run_fallible_commutes {Image ImageOp : Type*}
    (fallible' : Image → ImageOp → Except Failure Image) (image : State → Image)
    (imageOp : Op → ImageOp)
    (commutes : ∀ state op, (fallible state op).map image = fallible' (image state) (imageOp op))
    (initial : State) (ops : List Op) :
    (runFallible fallible initial ops).map image =
      runFallible fallible' (image initial) (ops.map imageOp) := by
  induction ops generalizing initial with
  | nil => rfl
  | cons op rest ih =>
    rw [List.map_cons, runFallible, runFallible, ← commutes initial op]
    cases fallible initial op with
    | error failure => rfl
    | ok next => exact ih next

end Fallible

end FortressQL.Lib.Runs
