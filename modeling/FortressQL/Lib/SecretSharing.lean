import Mathlib.LinearAlgebra.Lagrange
import Mathlib.Probability.Distributions.Uniform

/-!
# Threshold sharing over a field

A secret is the constant coefficient of a polynomial, a share the value at a nonzero point. One
point too few leaves every constant possible, each through one choice of the others.
-/

namespace FortressQL.Lib.SecretSharing

open List
open Polynomial Finset Function

variable {F : Type*} [Field F]

def evalCoefficients (point : F) : List F → F
  | [] => 0
  | coefficient :: rest => coefficient + point * evalCoefficients point rest

noncomputable def polynomialOf : List F → F[X]
  | [] => 0
  | coefficient :: rest => C coefficient + X * polynomialOf rest

theorem eval_polynomial_of (point : F) (coefficients : List F) :
    (polynomialOf coefficients).eval point = evalCoefficients point coefficients := by
  induction coefficients with
  | nil => exact eval_zero
  | cons coefficient rest ih =>
    simp [polynomialOf, evalCoefficients, ih]

theorem coeff_polynomial_of (coefficients : List F) (index : Nat) :
    (polynomialOf coefficients).coeff index = coefficients.getD index 0 := by
  induction coefficients generalizing index with
  | nil => simp [polynomialOf]
  | cons coefficient rest ih =>
    cases index with
    | zero => simp [polynomialOf]
    | succ index => simp [polynomialOf, ih]

theorem degree_polynomial_of (coefficients : List F) :
    (polynomialOf coefficients).degree < coefficients.length := by
  rw [degree_lt_iff_coeff_zero]
  intro index past
  rw [coeff_polynomial_of, List.getD_eq_getElem?_getD, getElem?_eq_none past, Option.getD_none]

theorem polynomial_of_coefficients {count : Nat} {polynomial : F[X]}
    (small : polynomial.degree < count) :
    polynomialOf (ofFn fun index : Fin count => polynomial.coeff index) = polynomial := by
  ext index
  rw [coeff_polynomial_of]
  by_cases bound : index < count
  · simp [bound]
  · have past := (degree_lt_iff_coeff_zero _ _).mp small index (Nat.le_of_not_lt bound)
    simp [bound, past]

theorem polynomial_of_injective {left right : List F} (sameLength : left.length = right.length)
    (same : polynomialOf left = polynomialOf right) : left = right := by
  apply List.ext_getElem sameLength
  intro index leftBound rightBound
  have coefficients := congrArg (fun polynomial => polynomial.coeff index) same
  simpa [coeff_polynomial_of, leftBound, rightBound] using coefficients

section Recovery

variable {count : Nat} (nodes values : Fin count → F)

/-- The value at zero of the basis polynomial of one node. -/
def weightAtZero (index : Fin count) : F :=
  (∏ other, if index = other then 1 else 0 - nodes other) /
    ∏ other, if index = other then 1 else nodes index - nodes other

def valueAtZero : F := ∑ index, values index * weightAtZero nodes index

theorem eval_basis_zero (index : Fin count) :
    (Lagrange.basis univ nodes index).eval 0 = weightAtZero nodes index := by
  have skip (term : Fin count → F) : (∏ other ∈ univ.erase index, term other) =
      ∏ other, if index = other then 1 else term other := by
    have skipped := prod_erase univ (a := index)
      (f := fun other => if index = other then 1 else term other) (if_pos rfl)
    rw [← skipped]
    apply prod_congr rfl
    intro other member
    rw [if_neg (ne_of_mem_erase member).symm]
  rw [Lagrange.basis, eval_prod, weightAtZero, ← skip fun other => 0 - nodes other,
    ← skip fun other => nodes index - nodes other, ← prod_div_distrib]
  apply prod_congr rfl
  intro other _
  rw [Lagrange.basisDivisor, eval_mul, eval_C, eval_sub, eval_X, eval_C, div_eq_inv_mul]

theorem value_at_zero_eq :
    valueAtZero nodes values = (Lagrange.interpolate univ nodes values).eval 0 := by
  rw [Lagrange.interpolate_apply, eval_finsetSum]
  apply sum_congr rfl
  intro index _
  rw [eval_mul, eval_C, eval_basis_zero]

theorem weight_denominator_ne_zero (distinct : Injective nodes) (index : Fin count) :
    (∏ other, if index = other then 1 else nodes index - nodes other) ≠ 0 := by
  apply prod_ne_zero_iff.mpr
  intro other _
  split_ifs with same
  · exact one_ne_zero
  · exact sub_ne_zero.mpr fun equal => same (distinct equal)

theorem recovered_constant (distinct : Injective nodes) (constant : F) (rest : List F)
    (enough : rest.length < count) :
    valueAtZero nodes (fun index => evalCoefficients (nodes index) (constant :: rest)) =
      constant := by
  have degree : (polynomialOf (constant :: rest)).degree < (univ : Finset (Fin count)).card := by
    refine (degree_polynomial_of _).trans_le ?_
    rw [card_univ, Fintype.card_fin]
    exact_mod_cast enough
  rw [value_at_zero_eq, ← Lagrange.eq_interpolate_of_eval_eq _ distinct.injOn degree]
  · rw [eval_polynomial_of, evalCoefficients, zero_mul, add_zero]
  · intro index _
    exact eval_polynomial_of _ _

end Recovery

section Secrecy

variable {count : Nat} (nodes : Fin count → F)

/-- The shares at the nodes, as a function of the coefficients that are drawn. -/
def sharesOf (constant : F) (drawn : Fin count → F) : Fin count → F :=
  fun index => evalCoefficients (nodes index) (constant :: List.ofFn drawn)

def withZero : Option (Fin count) → F
  | none => 0
  | some index => nodes index

theorem with_zero_injective (distinct : Injective nodes)
    (nonzero : ∀ index, nodes index ≠ 0) : Injective (withZero nodes) := by
  intro left right same
  cases left with
  | none =>
    cases right with
    | none => rfl
    | some index => exact absurd same.symm (nonzero index)
  | some index =>
    cases right with
    | none => exact absurd same (nonzero index)
    | some other => exact congrArg some (distinct same)

theorem eval_at_zero (constant : F) (rest : List F) :
    (polynomialOf (constant :: rest)).eval 0 = constant := by
  rw [eval_polynomial_of, evalCoefficients, zero_mul, add_zero]

theorem degree_shared (constant : F) (drawn : Fin count → F) :
    (polynomialOf (constant :: ofFn drawn)).degree <
      (univ : Finset (Option (Fin count))).card := by
  refine (degree_polynomial_of _).trans_le ?_
  simp

section

variable (distinct : Function.Injective nodes) (nonzero : ∀ index, nodes index ≠ 0) (constant : F)

include distinct nonzero constant

theorem shares_of_injective : Injective (sharesOf nodes constant) := by
  intro left right same
  have polynomials : polynomialOf (constant :: ofFn left) =
      polynomialOf (constant :: ofFn right) := by
    refine eq_of_degrees_lt_of_eval_index_eq univ
      (with_zero_injective nodes distinct nonzero).injOn (degree_shared constant left)
      (degree_shared constant right) ?_
    intro node _
    cases node with
    | none => rw [withZero, eval_at_zero, eval_at_zero]
    | some index =>
      rw [eval_polynomial_of, eval_polynomial_of]
      exact congrFun same index
  have lists := polynomial_of_injective (by simp) polynomials
  exact List.ofFn_injective (List.cons.inj lists).2

theorem shares_of_surjective : Surjective (sharesOf nodes constant) := by
  intro shares
  -- The polynomial through the shares and, at zero, the constant.
  let target : Option (Fin count) → F := fun node => node.elim constant shares
  let polynomial := Lagrange.interpolate univ (withZero nodes) target
  have apart : Set.InjOn (withZero nodes) (univ : Finset (Option (Fin count))) :=
    (with_zero_injective nodes distinct nonzero).injOn
  have passes (node : Option (Fin count)) : polynomial.eval (withZero nodes node) = target node :=
    Lagrange.eval_interpolate_at_node target apart (mem_univ node)
  have small : polynomial.degree < (count + 1 : Nat) := by
    have bound := Lagrange.degree_interpolate_lt target apart
    rwa [card_univ, Fintype.card_option, Fintype.card_fin] at bound
  have constantTerm : polynomial.coeff 0 = constant := by
    rw [coeff_zero_eq_eval_zero]
    exact passes none
  refine ⟨fun index => polynomial.coeff (index + 1), ?_⟩
  funext index
  have rebuilt := polynomial_of_coefficients small
  rw [List.ofFn_succ, Fin.val_zero, constantTerm] at rebuilt
  rw [sharesOf, ← eval_polynomial_of]
  have value := passes (some index)
  rw [← rebuilt] at value
  exact value

theorem shares_of_bijective : Bijective (sharesOf nodes constant) :=
  ⟨shares_of_injective nodes distinct nonzero constant,
    shares_of_surjective nodes distinct nonzero constant⟩

end

/-- A string of secrets is shared position by position. -/
def shareStrings {size : Nat} (secret : Fin size → F) (drawn : Fin size → Fin count → F) :
    Fin count → Fin size → F :=
  fun index position => sharesOf nodes (secret position) (drawn position) index

theorem share_strings_bijective (distinct : Injective nodes)
    (nonzero : ∀ index, nodes index ≠ 0) {size : Nat} (secret : Fin size → F) :
    Bijective (shareStrings nodes secret) := by
  have positions := Bijective.piMap fun position =>
    shares_of_bijective nodes distinct nonzero (secret position)
  exact (Equiv.piComm fun _ _ => F).bijective.comp positions

end Secrecy

section Uniform

variable {Coins View : Type*} [Fintype Coins] [Nonempty Coins] [Fintype View] [Nonempty View]

theorem uniform_map_bijective {view : Coins → View} (bijective : Bijective view) :
    (PMF.uniformOfFintype Coins).map view = PMF.uniformOfFintype View := by
  ext seen
  obtain ⟨coins, rfl⟩ := bijective.surjective seen
  rw [PMF.map_apply, tsum_eq_single coins, if_pos rfl, PMF.uniformOfFintype_apply,
    PMF.uniformOfFintype_apply, Fintype.card_of_bijective bijective]
  intro other different
  exact if_neg fun same => different (bijective.injective same.symm)

end Uniform

end FortressQL.Lib.SecretSharing
