import FortressQL.Lib.ByteStrings
import Mathlib.Data.List.TakeWhile
import Mathlib.Data.Nat.Digits.Defs
import Mathlib.Tactic.NormNum.Basic

/-!
# Decimal numbers as text

What `printf("%d")` writes and what `strtol` reads, on a machine with 64-bit `long` and
32-bit `int`.
-/

namespace FortressQL.Lib.Decimal

open List Lib.ByteStrings

def decimal (number : Nat) : Bytes :=
  if number = 0 then [48]
  else (Nat.digits 10 number).reverse.map fun value => UInt8.ofNat (48 + value)

def printInt (number : Int) : Bytes :=
  if number < 0 then 45 :: decimal number.natAbs else decimal number.toNat

def isDigit (char : UInt8) : Bool := decide (48 ≤ char) && decide (char ≤ 57)

def isSpace (char : UInt8) : Bool := char == 32 || (decide (9 ≤ char) && decide (char ≤ 13))

def digitsValue (digits : Bytes) : Nat :=
  digits.foldl (fun value char => value * 10 + (char.toNat - 48)) 0

structure StrtolResult where
  value : Int
  rest : Bytes
  outOfRange : Bool

def longMax : Int := 9223372036854775807

def longMin : Int := -9223372036854775808

def readSign : Bytes → Bool × Bytes
  | 45 :: rest => (true, rest)
  | 43 :: rest => (false, rest)
  | text => (false, text)

/-- `strtol` with base 10: leading space, an optional sign, digits. Without digits nothing
is consumed. -/
def strtol (text : Bytes) : StrtolResult :=
  let signed := readSign (text.dropWhile isSpace)
  let digits := signed.2.takeWhile isDigit
  if digits = [] then { value := 0, rest := text, outOfRange := false }
  else
    let magnitude : Int := digitsValue digits
    let value := if signed.1 then -magnitude else magnitude
    let rest := signed.2.dropWhile isDigit
    if longMax < value then { value := longMax, rest := rest, outOfRange := true }
    else if value < longMin then { value := longMin, rest := rest, outOfRange := true }
    else { value := value, rest := rest, outOfRange := false }

def intOfLong (value : Int) : Int := value.bmod 4294967296

variable (number : Nat)

theorem decimal_nonempty : decimal number ≠ [] := by
  unfold decimal
  split_ifs with zero
  · exact cons_ne_nil _ _
  · simp [Nat.digits_ne_nil_iff_ne_zero.mpr zero]

theorem decimal_is_digit : ∀ char ∈ decimal number, isDigit char = true := by
  intro char member
  unfold decimal at member
  split_ifs at member with zero
  · rw [mem_singleton.mp member]
    decide
  · obtain ⟨value, valueMember, rfl⟩ := mem_map.mp member
    have small : value < 10 := Nat.digits_lt_base (by decide) (mem_reverse.mp valueMember)
    have digit : ∀ value : Fin 10, isDigit (UInt8.ofNat (48 + value.val)) = true := by decide
    exact digit ⟨value, small⟩

theorem digits_value_map (values : List Nat) (small : ∀ value ∈ values, value < 10) :
    digitsValue (values.reverse.map fun value => UInt8.ofNat (48 + value)) =
      Nat.ofDigits 10 values := by
  unfold digitsValue
  rw [foldl_map, foldl_reverse]
  induction values with
  | nil => rfl
  | cons value rest ih =>
    have bound := small value mem_cons_self
    have restSmall : ∀ other ∈ rest, other < 10 := fun other member =>
      small other (mem_cons_of_mem _ member)
    rw [foldr_cons, ih restSmall, Nat.ofDigits_cons, UInt8.toNat_ofNat']
    omega

theorem digits_value_decimal : digitsValue (decimal number) = number := by
  unfold decimal
  split_ifs with zero
  · rw [zero]
    rfl
  · rw [digits_value_map _ fun value member => Nat.digits_lt_base (by decide) member,
      Nat.ofDigits_digits]

theorem digit_no_space_or_sign {char : UInt8} (digit : isDigit char = true) :
    isSpace char = false ∧ char ≠ 45 ∧ char ≠ 43 := by
  simp only [isDigit, Bool.and_eq_true, decide_eq_true_eq] at digit
  have lower : 48 ≤ char.toNat := digit.1
  have above : ∀ other : UInt8, other.toNat < 48 → char ≠ other := by
    intro other small same
    rw [same] at lower
    omega
  refine ⟨?_, above 45 (by decide), above 43 (by decide)⟩
  simp only [isSpace, Bool.or_eq_false_iff, Bool.and_eq_false_iff, beq_eq_false_iff_ne,
    decide_eq_false_iff_not]
  refine ⟨above 32 (by decide), Or.inr ?_⟩
  intro small
  have bound : char.toNat ≤ 13 := small
  omega

theorem decimal_starts :
    (decimal number).dropWhile isSpace = decimal number ∧
      readSign (decimal number) = (false, decimal number) := by
  have allDigits := decimal_is_digit number
  cases shape : decimal number with
  | nil => exact ⟨rfl, rfl⟩
  | cons head tail =>
    have headDigit : isDigit head = true := allDigits head (by simp [shape])
    obtain ⟨notSpace, notMinus, notPlus⟩ := digit_no_space_or_sign headDigit
    refine ⟨by simp [notSpace], ?_⟩
    unfold readSign
    split
    · simp_all
    · simp_all
    · rfl

theorem strtol_decimal (fits : (number : Int) ≤ longMax) :
    strtol (decimal number) = { value := number, rest := [], outOfRange := false } := by
  have allDigits := decimal_is_digit number
  obtain ⟨unspaced, unsigned⟩ := decimal_starts number
  have taken : (decimal number).takeWhile isDigit = decimal number :=
    takeWhile_eq_self_iff.mpr allDigits
  have dropped : (decimal number).dropWhile isDigit = [] :=
    dropWhile_eq_nil_iff.mpr allDigits
  have notBelow : ¬ (number : Int) < longMin := by
    unfold longMin
    omega
  simp [strtol, unspaced, unsigned, taken, dropped, if_neg (decimal_nonempty number),
    digits_value_decimal, if_neg (not_lt.mpr fits), if_neg notBelow]

theorem int_of_long_small (value : Int) (nonnegative : 0 ≤ value) (small : value < 2147483648) :
    intOfLong value = value := by
  exact Int.bmod_eq_of_le (by omega) (by omega)

end FortressQL.Lib.Decimal
