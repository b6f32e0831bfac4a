import Mathlib.Data.List.TakeWhile
import Mathlib.Tactic.Common

/-!
# Scanning delimited text

Reading up to a stop symbol, and tokens between delimiters in the manner of `strtok`.
-/

namespace FortressQL.Lib.Scan

open List

variable {Symbol : Type*} [DecidableEq Symbol]

def takeUntil (stop : Symbol) (text : List Symbol) : List Symbol :=
  text.takeWhile fun symbol => !decide (symbol = stop)

def afterFirst (stop : Symbol) (text : List Symbol) : List Symbol :=
  (text.dropWhile fun symbol => !decide (symbol = stop)).drop 1

theorem clean_passes {stop : Symbol} {value : List Symbol} (clean : stop ∉ value) :
    ∀ symbol ∈ value, (!decide (symbol = stop)) = true := by
  intro symbol member
  simp only [Bool.not_eq_true', decide_eq_false_iff_not]
  exact fun same => clean (same ▸ member)

variable (stop : Symbol) (value rest : List Symbol)

theorem take_until_stop (clean : stop ∉ value) :
    takeUntil stop (value ++ stop :: rest) = value := by
  simp [takeUntil, takeWhile_append_of_pos (clean_passes clean)]

theorem take_until_end (value : List Symbol) (clean : stop ∉ value) :
    takeUntil stop value = value :=
  takeWhile_eq_self_iff.mpr (clean_passes clean)

theorem after_first_stop (clean : stop ∉ value) :
    afterFirst stop (value ++ stop :: rest) = rest := by
  simp [afterFirst, dropWhile_append_of_pos (clean_passes clean)]

theorem after_first_end (value : List Symbol) (clean : stop ∉ value) :
    afterFirst stop value = [] := by
  have emptied : (value.dropWhile fun symbol => !decide (symbol = stop)) = [] :=
    dropWhile_eq_nil_iff.mpr (clean_passes clean)
  rw [afterFirst, emptied]
  rfl

variable (text : List Symbol)

theorem take_until_clean : stop ∉ takeUntil stop text := by
  intro member
  simpa using mem_takeWhile_imp member

theorem split_at_stop :
    text = takeUntil stop text ++ stop :: afterFirst stop text ∨
      (text = takeUntil stop text ∧ afterFirst stop text = []) := by
  induction text with
  | nil => exact .inr ⟨rfl, rfl⟩
  | cons symbol rest ih =>
    by_cases same : symbol = stop
    · subst same
      simp [takeUntil, afterFirst]
    · have takeCons : takeUntil stop (symbol :: rest) = symbol :: takeUntil stop rest := by
        simp [takeUntil, same]
      have afterCons : afterFirst stop (symbol :: rest) = afterFirst stop rest := by
        simp [afterFirst, same]
      rw [takeCons, afterCons, cons_append, cons.injEq, cons.injEq]
      rcases ih with found | ended
      · exact .inl ⟨rfl, found⟩
      · exact .inr ⟨⟨rfl, ended.1⟩, ended.2⟩

/-- `strtok`: skips delimiters, then reads a non-empty token and drops the delimiter that
ended it. -/
def strtok (delims : List Symbol) (text : List Symbol) : Option (List Symbol × List Symbol) :=
  match text.dropWhile fun symbol => decide (symbol ∈ delims) with
  | [] => none
  | body@(_ :: _) =>
    some (body.takeWhile fun symbol => !decide (symbol ∈ delims),
      (body.dropWhile fun symbol => !decide (symbol ∈ delims)).drop 1)

theorem strtok_token (delims token rest : List Symbol) (delim : Symbol) (nonempty : token ≠ [])
    (clean : ∀ symbol ∈ token, symbol ∉ delims) (isDelim : delim ∈ delims) :
    strtok delims (token ++ delim :: rest) = some (token, rest) := by
  have passes : ∀ symbol ∈ token, (!decide (symbol ∈ delims)) = true := by
    intro symbol member
    simpa using clean symbol member
  cases token with
  | nil => contradiction
  | cons head tail =>
    have headClean : head ∉ delims := clean head mem_cons_self
    have unskipped : ((head :: tail) ++ delim :: rest).dropWhile
        (fun symbol => decide (symbol ∈ delims)) = (head :: tail) ++ delim :: rest := by
      simp [headClean]
    have taken : ((head :: tail) ++ delim :: rest).takeWhile
        (fun symbol => !decide (symbol ∈ delims)) = head :: tail := by
      rw [takeWhile_append_of_pos passes]
      simp [isDelim]
    have dropped : ((head :: tail) ++ delim :: rest).dropWhile
        (fun symbol => !decide (symbol ∈ delims)) = delim :: rest := by
      rw [dropWhile_append_of_pos passes]
      simp [isDelim]
    unfold strtok
    rw [unskipped]
    simp only [cons_append] at taken dropped ⊢
    rw [taken, dropped]
    rfl

theorem strtok_all (nonempty : text ≠ []) : strtok [] text = some (text, []) := by
  cases text with
  | nil => contradiction
  | cons head tail =>
    have dropped : tail.dropWhile (fun _ => true) = [] :=
      dropWhile_eq_nil_iff.mpr fun _ _ => rfl
    simp [strtok, dropped]

end FortressQL.Lib.Scan
