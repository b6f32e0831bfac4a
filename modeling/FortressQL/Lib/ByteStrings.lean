import Mathlib.Algebra.GroupWithZero.Nat
import Mathlib.Data.List.Basic
import Mathlib.Data.Vector.Basic
import Mathlib.Tactic.Common

/-!
# Byte strings and little-endian words

Texts are lists of bytes, fixed buffers are vectors. A field of a buffer is
read as a natural number, so that field comparisons stay linear arithmetic.
-/

namespace FortressQL.Lib.ByteStrings

abbrev Bytes := List UInt8

def ascii (text : String) : Bytes := text.toList.map fun char => UInt8.ofNat char.toNat

/-- Total byte access: positions past the end read as zero. -/
def byteAt {size : Nat} (buffer : Vector UInt8 size) (index : Nat) : UInt8 :=
  if bound : index < size then buffer[index] else 0

variable {size : Nat} (buffer : Vector UInt8 size)

theorem byte_at_eq (index : Nat) (bound : index < size) : byteAt buffer index = buffer[index] := by
  simp [byteAt, bound]

variable {left right : Vector UInt8 size}

theorem vector_ext_byte_at (same : ∀ index < size, byteAt left index = byteAt right index) :
    left = right := by
  apply Vector.ext
  intro index bound
  have bytes := same index bound
  rwa [byte_at_eq left index bound, byte_at_eq right index bound] at bytes

def word16 {size : Nat} (buffer : Vector UInt8 size) (offset : Nat) : Nat :=
  (byteAt buffer offset).toNat + 256 * (byteAt buffer (offset + 1)).toNat

def word32 {size : Nat} (buffer : Vector UInt8 size) (offset : Nat) : UInt32 :=
  UInt32.ofNat (word16 buffer offset + 65536 * word16 buffer (offset + 2))

theorem word16_congr {offset : Nat} (first : byteAt left offset = byteAt right offset)
    (second : byteAt left (offset + 1) = byteAt right (offset + 1)) :
    word16 left offset = word16 right offset := by
  rw [word16, word16, first, second]

/-- Overwrites the two bytes at `offset` with a little-endian value. -/
def setWord16 {size : Nat} (buffer : Vector UInt8 size) (offset value : Nat) :
    Vector UInt8 size :=
  Vector.ofFn fun index =>
    if index.val = offset then UInt8.ofNat value
    else if index.val = offset + 1 then UInt8.ofNat (value / 256)
    else getElem buffer index index.isLt

theorem byte_at_set_word16_other (offset value index : Nat) (first : index ≠ offset)
    (second : index ≠ offset + 1) :
    byteAt (setWord16 buffer offset value) index = byteAt buffer index := by
  unfold byteAt setWord16
  split_ifs with bound
  · simp [first, second]
  · rfl

theorem byte_at_set_word16_low (offset value : Nat) (room : offset < size) :
    byteAt (setWord16 buffer offset value) offset = UInt8.ofNat value := by
  rw [byte_at_eq _ _ room]
  simp [setWord16]

theorem byte_at_set_word16_congr {index : Nat} (offset value : Nat)
    (same : byteAt left index = byteAt right index) :
    byteAt (setWord16 left offset value) index = byteAt (setWord16 right offset value) index := by
  unfold byteAt setWord16 at *
  split_ifs at same ⊢ with bound
  · simp [same]
  · rfl

theorem set_word16_set_word16 (offset first second : Nat) :
    setWord16 (setWord16 buffer offset first) offset second =
      setWord16 buffer offset second := by
  apply Vector.ext
  intro index bound
  simp only [setWord16, Vector.getElem_ofFn, Fin.getElem_fin]
  split_ifs <;> rfl

theorem word16_set_word16 (offset value : Nat) (room : offset + 1 < size) (small : value < 65536) :
    word16 (setWord16 buffer offset value) offset = value := by
  have firstBound : offset < size := by omega
  rw [word16, byte_at_eq _ _ firstBound, byte_at_eq _ _ room]
  simp only [setWord16, Vector.getElem_ofFn, if_true, if_neg (Nat.succ_ne_self offset),
    UInt8.toNat_ofNat']
  omega

theorem word16_set_word16_apart (offset value other : Nat)
    (apart : other + 1 < offset ∨ offset + 1 < other) :
    word16 (setWord16 buffer offset value) other = word16 buffer other := by
  apply word16_congr
  · exact byte_at_set_word16_other buffer offset value other (by omega) (by omega)
  · exact byte_at_set_word16_other buffer offset value (other + 1) (by omega) (by omega)

def encodeWord32 (value : UInt32) : Bytes :=
  [UInt8.ofNat value.toNat, UInt8.ofNat (value.toNat / 256),
    UInt8.ofNat (value.toNat / 65536), UInt8.ofNat (value.toNat / 16777216)]

@[simp] theorem encode_word32_length (value : UInt32) : (encodeWord32 value).length = 4 := rfl

theorem encode_word32_injective : Function.Injective encodeWord32 := by
  intro left right same
  simp only [encodeWord32, List.cons.injEq, ← UInt8.toNat_inj, UInt8.toNat_ofNat'] at same
  have leftBound := left.toNat_lt
  have rightBound := right.toNat_lt
  apply UInt32.toNat_inj.mp
  omega

def decodeWord32 (data : Bytes) : UInt32 :=
  UInt32.ofNat ((data.getD 0 0).toNat + 256 * (data.getD 1 0).toNat +
    65536 * (data.getD 2 0).toNat + 16777216 * (data.getD 3 0).toNat)

theorem decode_encode_word32 (value : UInt32) (rest : Bytes) :
    decodeWord32 (encodeWord32 value ++ rest) = value := by
  have bound := value.toNat_lt
  apply UInt32.toNat_inj.mp
  simp only [decodeWord32, encodeWord32, List.cons_append, List.getD_cons_zero, List.getD_cons_succ,
    UInt32.toNat_ofNat', UInt8.toNat_ofNat']
  omega

theorem eq_of_bytes {count left right : Nat} (leftBound : left < 256 ^ count)
    (rightBound : right < 256 ^ count)
    (same : ∀ index < count, left / 256 ^ index % 256 = right / 256 ^ index % 256) :
    left = right := by
  induction count generalizing left right with
  | zero => omega
  | succ count ih =>
    have low : left % 256 = right % 256 := by simpa using same 0 (Nat.zero_lt_succ count)
    have high : left / 256 = right / 256 := by
      apply ih (Nat.div_lt_of_lt_mul (by omega)) (Nat.div_lt_of_lt_mul (by omega))
      intro index bound
      have byte := same (index + 1) (Nat.succ_lt_succ bound)
      rwa [Nat.pow_succ', ← Nat.div_div_eq_div_mul, ← Nat.div_div_eq_div_mul] at byte
    omega

end FortressQL.Lib.ByteStrings
