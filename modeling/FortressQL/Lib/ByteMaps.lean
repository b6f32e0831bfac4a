import Mathlib.Algebra.GroupWithZero.Nat
import Mathlib.Data.List.Basic
import Mathlib.Tactic.Common

/-!
# Additive maps on bytes

A map of bytes that respects exclusive or is determined by its values on the eight powers of two, so
an identity between products becomes a finite table.
-/

namespace FortressQL.Lib.ByteMaps

def XorAdditive (map : UInt8 → UInt8) : Prop :=
  ∀ left right, map (left ^^^ right) = map left ^^^ map right

def unitBytes : List UInt8 := [1, 2, 4, 8, 16, 32, 64, 128]

def xorSum (bytes : List UInt8) : UInt8 := bytes.foldr (fun byte sum => byte ^^^ sum) 0

theorem forall_byte {property : UInt8 → Prop} (every : ∀ number : Fin 256,
    property (UInt8.ofNat number.val)) (byte : UInt8) : property byte := by
  have found := every ⟨byte.toNat, byte.toNat_lt⟩
  rwa [UInt8.ofNat_toNat] at found

theorem byte_eq_xor_sum (byte : UInt8) :
    byte = xorSum (unitBytes.map fun unit => byte &&& unit) := by
  revert byte
  apply forall_byte
  decide +kernel

theorem and_unit_cases (byte : UInt8) :
    ∀ unit ∈ unitBytes, byte &&& unit = 0 ∨ byte &&& unit = unit := by
  revert byte
  apply forall_byte
  decide +kernel

theorem and_xor_right (left right mask : UInt8) :
    (left ^^^ right) &&& mask = (left &&& mask) ^^^ (right &&& mask) := by
  apply UInt8.toBitVec_inj.mp
  apply BitVec.eq_of_getElem_eq
  intro index bound
  simp only [UInt8.toBitVec_and, UInt8.toBitVec_xor, BitVec.getElem_and, BitVec.getElem_xor]
  exact Bool.and_xor_distrib_right _ _ _

theorem or_and_mask (left right mask : UInt8) :
    (left ||| right) &&& mask = (left &&& mask) ||| (right &&& mask) := by
  apply UInt8.toBitVec_inj.mp
  exact BitVec.and_or_distrib_right

theorem xor_cancel_middle (first second third fourth : UInt8) :
    (first ^^^ second) ^^^ (third ^^^ fourth) = (first ^^^ third) ^^^ (second ^^^ fourth) := by
  rw [UInt8.xor_assoc, UInt8.xor_assoc, ← UInt8.xor_assoc second, UInt8.xor_comm second third,
    UInt8.xor_assoc third]

def select (unit value byte : UInt8) : UInt8 := if byte &&& unit ≠ 0 then value else 0

theorem xor_select (result unit value byte : UInt8) :
    (if byte &&& unit ≠ 0 then result ^^^ value else result) =
      result ^^^ select unit value byte := by
  unfold select
  split_ifs
  · rfl
  · exact UInt8.xor_zero.symm

theorem select_additive {unit : UInt8} (single : unit ∈ unitBytes) (value : UInt8) :
    XorAdditive (select unit value) := by
  intro left right
  have present : unit ≠ 0 := by
    rintro rfl
    revert single
    decide
  unfold select
  rw [and_xor_right]
  rcases and_unit_cases left unit single with leftBit | leftBit <;>
    rcases and_unit_cases right unit single with rightBit | rightBit
  all_goals rw [leftBit, rightBit]
  all_goals simp [present]

theorem select_xor (unit left right byte : UInt8) :
    select unit (left ^^^ right) byte = select unit left byte ^^^ select unit right byte := by
  unfold select
  split_ifs
  · rfl
  · exact UInt8.xor_zero.symm

theorem XorAdditive.after {map other : UInt8 → UInt8} (additive : XorAdditive map)
    (otherAdditive : XorAdditive other) : XorAdditive fun byte => map (other byte) := by
  intro left right
  change map (other (left ^^^ right)) = _
  rw [otherAdditive, additive]

section Maps

variable {map other : UInt8 → UInt8}

theorem XorAdditive.map_zero (additive : XorAdditive map) : map 0 = 0 := by
  have twice := additive 0 0
  rwa [UInt8.xor_self, UInt8.xor_self] at twice

theorem XorAdditive.map_xor_sum (additive : XorAdditive map) (bytes : List UInt8) :
    map (xorSum bytes) = xorSum (bytes.map map) := by
  induction bytes with
  | nil => exact additive.map_zero
  | cons byte rest ih =>
    change map (byte ^^^ xorSum rest) = map byte ^^^ xorSum (rest.map map)
    rw [additive, ih]

theorem additive_ext (additive : XorAdditive map) (otherAdditive : XorAdditive other)
    (units : ∀ unit ∈ unitBytes, map unit = other unit) (byte : UInt8) : map byte = other byte := by
  rw [byte_eq_xor_sum byte, additive.map_xor_sum, otherAdditive.map_xor_sum, List.map_map,
    List.map_map]
  congr 1
  apply List.map_congr_left
  intro unit member
  rcases and_unit_cases byte unit member with absent | present
  · simp [absent, additive.map_zero, otherAdditive.map_zero]
  · simp [present, units unit member]

end Maps

end FortressQL.Lib.ByteMaps
