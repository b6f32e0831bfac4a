import Mathlib.Algebra.Field.MinimalAxioms
import Mathlib.GroupTheory.OrderOfElement
import FortressQL.Elog
import FortressQL.Lib.ByteMaps

/-!
# Arithmetic in GF(256)

The byte arithmetic of key escrow. Multiplication is additive, so its laws follow from a table over
the powers of two. Every nonzero byte is a power of 3, so the bytes are a field.
-/

namespace FortressQL.Pgcrypto.Gf256

open Elog Lib.ByteMaps Finset

def shiftAndReduce (a : UInt8) : UInt8 :=
  if a &&& 0x80 ≠ 0 then (a <<< 1) ^^^ 0x1B else a <<< 1

def gf256MulLoop : Nat → UInt8 → UInt8 → UInt8 → UInt8
  | 0, _, _, result => result
  | rounds + 1, a, b, result =>
    gf256MulLoop rounds (shiftAndReduce a) (b >>> 1)
      (if b &&& 1 ≠ 0 then result ^^^ a else result)

def gf256Mul (a b : UInt8) : UInt8 := gf256MulLoop 8 a b 0

def gf256InvLoop (a : UInt8) : Nat → UInt8 → UInt8
  | 0, result => result
  | rounds + 1, result => gf256InvLoop a rounds (gf256Mul (gf256Mul result result) a)

def gf256Power254 (a : UInt8) : UInt8 :=
  let result := gf256InvLoop a 6 a
  gf256Mul result result

def divisionByZero : ErrorReport :=
  { elevel := .error
    errcode := .divisionByZero
    errmsg := "GF(256) division by zero" }

def gf256Inv (a : UInt8) : Raises UInt8 :=
  if a = 0 then .error divisionByZero else .ok (gf256Power254 a)

def gf256Div (a b : UInt8) : Raises UInt8 := do
  let inverse ← gf256Inv b
  return gf256Mul a inverse

variable (a : UInt8)

theorem shift_and_reduce_eq : shiftAndReduce a = (a <<< 1) ^^^ select 0x80 0x1B a :=
  xor_select (a <<< 1) 0x80 0x1B a

theorem shift_and_reduce_additive : XorAdditive shiftAndReduce := by
  intro left right
  rw [shift_and_reduce_eq, shift_and_reduce_eq, shift_and_reduce_eq, UInt8.shiftLeft_xor,
    select_additive (by decide)]
  exact xor_cancel_middle _ _ _ _

variable (rounds : Nat)

theorem gf256_mul_loop_step (a b result : UInt8) :
    gf256MulLoop (rounds + 1) a b result =
      gf256MulLoop rounds (shiftAndReduce a) (b >>> 1) (result ^^^ select 1 a b) := by
  rw [gf256MulLoop, xor_select]

theorem gf256_mul_loop_left (a other b result otherResult : UInt8) :
    gf256MulLoop rounds (a ^^^ other) b (result ^^^ otherResult) =
      gf256MulLoop rounds a b result ^^^ gf256MulLoop rounds other b otherResult := by
  induction rounds generalizing a other b result otherResult with
  | zero => rfl
  | succ rounds ih =>
    rw [gf256_mul_loop_step, gf256_mul_loop_step, gf256_mul_loop_step,
      shift_and_reduce_additive, select_xor, xor_cancel_middle, ih]

theorem gf256_mul_loop_right (a b other result otherResult : UInt8) :
    gf256MulLoop rounds a (b ^^^ other) (result ^^^ otherResult) =
      gf256MulLoop rounds a b result ^^^ gf256MulLoop rounds a other otherResult := by
  induction rounds generalizing a b other result otherResult with
  | zero => rfl
  | succ rounds ih =>
    rw [gf256_mul_loop_step, gf256_mul_loop_step, gf256_mul_loop_step,
      UInt8.shiftRight_xor, select_additive (by decide), xor_cancel_middle, ih]

theorem gf256_mul_xor_left (b : UInt8) : XorAdditive fun a => gf256Mul a b := by
  intro left right
  exact gf256_mul_loop_left 8 left right b 0 0

theorem gf256_mul_xor_right : XorAdditive (gf256Mul a) := by
  intro left right
  exact gf256_mul_loop_right 8 a left right 0 0

theorem gf256_mul_comm (a b : UInt8) : gf256Mul a b = gf256Mul b a := by
  apply additive_ext (gf256_mul_xor_left b) (gf256_mul_xor_right b)
  intro unit member
  apply additive_ext (gf256_mul_xor_right unit) (gf256_mul_xor_left unit)
  revert unit member
  decide +kernel

theorem gf256_mul_assoc (a b c : UInt8) :
    gf256Mul (gf256Mul a b) c = gf256Mul a (gf256Mul b c) := by
  -- Both sides are additive in each argument, so the powers of two decide.
  refine additive_ext ((gf256_mul_xor_left c).after (gf256_mul_xor_left b))
    (gf256_mul_xor_left (gf256Mul b c)) ?_ a
  intro first firstUnit
  refine additive_ext ((gf256_mul_xor_left c).after (gf256_mul_xor_right first))
    ((gf256_mul_xor_right first).after (gf256_mul_xor_left c)) ?_ b
  intro second secondUnit
  refine additive_ext (gf256_mul_xor_right _)
    ((gf256_mul_xor_right first).after (gf256_mul_xor_right second)) ?_ c
  revert first firstUnit second secondUnit
  decide +kernel

theorem one_gf256_mul : gf256Mul 1 a = a := by
  revert a
  apply forall_byte
  decide +kernel

@[ext]
structure Element where
  byte : UInt8
  deriving DecidableEq

/-- Multiplication alone, before it is known to have inverses. -/
abbrev multiplicative : CommMonoid Element where
  mul left right := ⟨gf256Mul left.byte right.byte⟩
  one := ⟨1⟩
  mul_assoc left middle right := Element.ext (gf256_mul_assoc left.byte middle.byte right.byte)
  one_mul element := Element.ext (one_gf256_mul element.byte)
  mul_one element :=
    Element.ext ((gf256_mul_comm element.byte 1).trans (one_gf256_mul element.byte))
  mul_comm left right := Element.ext (gf256_mul_comm left.byte right.byte)

theorem gf256_inv_loop_power (a : Element) (rounds count : Nat) :
    letI := multiplicative
    (⟨gf256InvLoop a.byte rounds (a ^ count).byte⟩ : Element) =
      a ^ (2 ^ rounds * (count + 1) - 1) := by
  let _ := multiplicative
  induction rounds generalizing count with
  | zero => rw [pow_zero, one_mul]; rfl
  | succ rounds ih =>
    have squared : gf256Mul (gf256Mul (a ^ count).byte (a ^ count).byte) a.byte =
        (a ^ (count + count + 1)).byte := by
      rw [pow_succ, pow_add]
      rfl
    have exponent : 2 ^ rounds * (count + count + 1 + 1) = 2 ^ (rounds + 1) * (count + 1) := by
      rw [pow_succ, mul_assoc]
      congr 1
      omega
    rw [← exponent, ← ih, ← squared]
    rfl

theorem gf256_power254_eq (a : Element) :
    letI := multiplicative
    (⟨gf256Power254 a.byte⟩ : Element) = a ^ 254 := by
  let _ := multiplicative
  have power : (⟨gf256InvLoop a.byte 6 a.byte⟩ : Element) = a ^ 127 := by
    have looped := gf256_inv_loop_power a 6 1
    rwa [pow_one] at looped
  calc (⟨gf256Power254 a.byte⟩ : Element)
      = ⟨gf256InvLoop a.byte 6 a.byte⟩ * ⟨gf256InvLoop a.byte 6 a.byte⟩ := rfl
    _ = a ^ 254 := by rw [power, ← pow_add]

def generator : Element := ⟨3⟩

theorem generator_power_255 :
    letI := multiplicative
    generator ^ 255 = 1 := by
  decide +kernel

theorem generator_order :
    letI := multiplicative
    orderOf generator = 255 := by
  let _ := multiplicative
  refine orderOf_eq_of_pow_and_pow_div_prime (by decide) generator_power_255 ?_
  intro prime isPrime divides
  have factors : prime = 3 ∨ prime = 5 ∨ prime = 17 := by
    rw [show 255 = 3 * (5 * 17) from rfl, isPrime.dvd_mul, isPrime.dvd_mul,
      Nat.prime_dvd_prime_iff_eq isPrime (by decide),
      Nat.prime_dvd_prime_iff_eq isPrime (by decide),
      Nat.prime_dvd_prime_iff_eq isPrime (by decide)] at divides
    exact divides
  rcases factors with rfl | rfl | rfl
  · decide +kernel
  · decide +kernel
  · decide +kernel

theorem generator_power_nonzero (exponent : Nat) :
    letI := multiplicative
    (generator ^ exponent).byte ≠ 0 := by
  let _ := multiplicative
  intro zero
  have one : generator ^ exponent * generator ^ (254 * exponent) = 1 := by
    rw [← pow_add, add_comm, ← Nat.succ_mul, pow_mul, generator_power_255, one_pow]
  have vanishes : gf256Mul (generator ^ exponent).byte (generator ^ (254 * exponent)).byte = 0 := by
    rw [zero]
    exact (gf256_mul_xor_left _).map_zero
  exact absurd (vanishes.symm.trans (congrArg Element.byte one)) (by decide)

/-- The powers of the generator are distinct and as many as the nonzero bytes. -/
theorem generator_powers (a : Element) (nonzero : a.byte ≠ 0) :
    letI := multiplicative
    ∃ exponent, generator ^ exponent = a := by
  let _ := multiplicative
  let number := fun exponent : Nat => (generator ^ exponent).byte.toNat
  have distinct : Set.InjOn number (range 255) := by
    intro first firstBound second secondBound same
    rw [← generator_order, coe_range] at firstBound secondBound
    exact pow_injOn_Iio_orderOf firstBound secondBound (Element.ext (UInt8.toNat_inj.mp same))
  have inside : ∀ byte : UInt8, byte ≠ 0 → byte.toNat ∈ Ico 1 256 := by
    intro byte differs
    rw [mem_Ico, Nat.one_le_iff_ne_zero]
    exact ⟨fun zero => differs (UInt8.toNat_inj.mp zero), byte.toNat_lt⟩
  have all : (range 255).image number = Ico 1 256 := by
    apply eq_of_subset_of_card_le
    · intro value member
      obtain ⟨exponent, -, rfl⟩ := mem_image.mp member
      exact inside _ (generator_power_nonzero exponent)
    · rw [card_image_of_injOn distinct, card_range, Nat.card_Ico]
  have found : a.byte.toNat ∈ (range 255).image number := by
    rw [all]
    exact inside a.byte nonzero
  obtain ⟨exponent, -, same⟩ := mem_image.mp found
  exact ⟨exponent, Element.ext (UInt8.toNat_inj.mp same)⟩

theorem gf256_mul_power254 (nonzero : a ≠ 0) : gf256Mul a (gf256Power254 a) = 1 := by
  let _ := multiplicative
  obtain ⟨exponent, power⟩ := generator_powers ⟨a⟩ nonzero
  have inverse : (⟨a⟩ : Element) * ⟨gf256Power254 a⟩ = 1 := by
    rw [gf256_power254_eq ⟨a⟩, ← pow_succ', ← power, ← pow_mul, mul_comm, pow_mul,
      generator_power_255, one_pow]
  exact congrArg Element.byte inverse

namespace Element

instance : Add Element := ⟨fun left right => ⟨left.byte ^^^ right.byte⟩⟩

instance : Mul Element := ⟨fun left right => ⟨gf256Mul left.byte right.byte⟩⟩

instance : Neg Element := ⟨fun element => element⟩

instance : Inv Element := ⟨fun element => ⟨gf256Power254 element.byte⟩⟩

instance : Zero Element := ⟨⟨0⟩⟩

instance : One Element := ⟨⟨1⟩⟩

instance : Field Element := Field.ofMinimalAxioms Element
  (fun left middle right => Element.ext (UInt8.xor_assoc left.byte middle.byte right.byte))
  (fun _ => Element.ext UInt8.zero_xor)
  (fun _ => Element.ext UInt8.xor_self)
  (fun left middle right => Element.ext (gf256_mul_assoc left.byte middle.byte right.byte))
  (fun left right => Element.ext (gf256_mul_comm left.byte right.byte))
  (fun element => Element.ext (one_gf256_mul element.byte))
  (fun element nonzero => Element.ext (gf256_mul_power254 element.byte fun zero =>
    nonzero (Element.ext zero)))
  (by decide)
  (fun left middle right => Element.ext (gf256_mul_xor_right left.byte middle.byte right.byte))
  ⟨0, 1, by decide⟩

@[simp]
theorem mk_xor (left right : UInt8) : (⟨left ^^^ right⟩ : Element) = ⟨left⟩ + ⟨right⟩ := rfl

@[simp]
theorem mk_gf256_mul (left right : UInt8) :
    (⟨gf256Mul left right⟩ : Element) = ⟨left⟩ * ⟨right⟩ := rfl

theorem mk_gf256_power254 (byte : UInt8) :
    (⟨gf256Power254 byte⟩ : Element) = (⟨byte⟩ : Element)⁻¹ := rfl

theorem mk_injective : Function.Injective Element.mk := fun _ _ same => congrArg byte same

theorem sub_eq (left right : Element) : left - right = left + right := by
  rfl

end Element

theorem gf256_div_returns {a b : UInt8} (nonzero : b ≠ 0) :
    gf256Div a b = .ok (gf256Mul a (gf256Power254 b)) := by
  simp only [gf256Div, gf256Inv, if_neg nonzero]
  rfl

end FortressQL.Pgcrypto.Gf256
