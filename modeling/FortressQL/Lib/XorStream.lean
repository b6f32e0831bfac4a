import FortressQL.Lib.ByteStrings

/-!
# Additive stream ciphers on fixed buffers

A keystream is xored into the bytes of a buffer from some offset on. The first
`offset` bytes are not touched; doing it twice restores the buffer.
-/

namespace FortressQL.Lib.XorStream

open Lib.ByteStrings

variable {size : Nat}

def xorFrom (offset : Nat) (stream : Nat → UInt8) (buffer : Vector UInt8 size) :
    Vector UInt8 size :=
  Vector.ofFn fun index =>
    if index.val < offset then buffer[index] else buffer[index] ^^^ stream (index.val - offset)

section

variable (offset : Nat) (stream : Nat → UInt8) (buffer : Vector UInt8 size)

include offset stream buffer

theorem byte_at_xor_from_clear {index : Nat} (clear : index < offset) :
    byteAt (xorFrom offset stream buffer) index = byteAt buffer index := by
  unfold byteAt xorFrom
  split_ifs
  · simp [clear]
  · rfl

theorem byte_at_xor_from_covered {index : Nat} (covered : offset ≤ index) (bound : index < size) :
    byteAt (xorFrom offset stream buffer) index =
      byteAt buffer index ^^^ stream (index - offset) := by
  rw [byte_at_eq _ _ bound, byte_at_eq _ _ bound]
  simp [xorFrom, not_lt.mpr covered]

theorem xor_from_xor_from : xorFrom offset stream (xorFrom offset stream buffer) = buffer := by
  apply Vector.ext
  intro index bound
  simp only [xorFrom, Vector.getElem_ofFn, Fin.getElem_fin]
  split_ifs
  · rfl
  · rw [UInt8.xor_assoc, UInt8.xor_self, UInt8.xor_zero]

end

theorem xor_from_compose (offset : Nat) (first second : Nat → UInt8) (buffer : Vector UInt8 size) :
    xorFrom offset second (xorFrom offset first buffer) =
      xorFrom offset (fun position => first position ^^^ second position) buffer := by
  apply Vector.ext
  intro index bound
  simp only [xorFrom, Vector.getElem_ofFn, Fin.getElem_fin]
  split_ifs
  · rfl
  · rw [UInt8.xor_assoc]

theorem set_word16_xor_from {offset field : Nat} (clear : field + 1 < offset) (value : Nat)
    (stream : Nat → UInt8) (buffer : Vector UInt8 size) :
    setWord16 (xorFrom offset stream buffer) field value =
      xorFrom offset stream (setWord16 buffer field value) := by
  apply Vector.ext
  intro index bound
  simp only [setWord16, xorFrom, Vector.getElem_ofFn, Fin.getElem_fin]
  split_ifs <;> first | rfl | omega

/-- The keystream has no effect on a buffer of `size` bytes. -/
def Silent (size offset : Nat) (stream : Nat → UInt8) : Prop :=
  ∀ position, offset + position < size → stream position = 0

theorem xor_from_eq_self_iff (offset : Nat) (stream : Nat → UInt8) (buffer : Vector UInt8 size) :
    xorFrom offset stream buffer = buffer ↔ Silent size offset stream := by
  constructor
  · intro same position bound
    have bytes := byte_at_xor_from_covered offset stream buffer (Nat.le_add_right _ _) bound
    rw [same, Nat.add_sub_cancel_left] at bytes
    exact UInt8.xor_right_inj (byteAt buffer (offset + position)) |>.mp
      (bytes.symm.trans (UInt8.xor_zero).symm)
  · intro silent
    apply vector_ext_byte_at
    intro index bound
    rcases lt_or_ge index offset with clear | covered
    · exact byte_at_xor_from_clear offset stream buffer clear
    · have quiet := silent (index - offset) (by omega)
      rw [byte_at_xor_from_covered offset stream buffer covered bound, quiet, UInt8.xor_zero]

theorem silent_xor_iff (size offset : Nat) (first second : Nat → UInt8) :
    Silent size offset (fun position => first position ^^^ second position) ↔
      ∀ position, offset + position < size → first position = second position := by
  refine forall_congr' fun position => forall_congr' fun _ => ?_
  exact UInt8.xor_eq_zero_iff

end FortressQL.Lib.XorStream
