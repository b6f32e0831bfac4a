import FortressQL.Lib.ByteStrings

/-!
# Numbers in little-endian byte order

A number in a field of a given width, and the number that a field holds. A field holds what was
put in, as long as the number fits.
-/

namespace FortressQL.Lib.LittleEndian

open Lib.ByteStrings

def encodeLe : Nat → Nat → Bytes
  | 0, _ => []
  | width + 1, value => UInt8.ofNat value :: encodeLe width (value / 256)

def decodeLe : Bytes → Nat
  | [] => 0
  | byte :: rest => byte.toNat + 256 * decodeLe rest

@[simp]
theorem encode_le_length (width value : Nat) : (encodeLe width value).length = width := by
  induction width generalizing value with
  | zero => rfl
  | succ width ih => simp [encodeLe, ih]

theorem decode_encode_le_mod (width value : Nat) :
    decodeLe (encodeLe width value) = value % 256 ^ width := by
  induction width generalizing value with
  | zero => simp [encodeLe, decodeLe, Nat.mod_one]
  | succ width ih =>
    have power : 256 ^ (width + 1) = 256 * 256 ^ width := Nat.pow_succ'
    rw [encodeLe, decodeLe, ih, UInt8.toNat_ofNat', power, Nat.mod_mul]

theorem decode_encode_le {width value : Nat} (fits : value < 256 ^ width) :
    decodeLe (encodeLe width value) = value := by
  rw [decode_encode_le_mod, Nat.mod_eq_of_lt fits]

@[simp]
theorem drop_encode_le {width value count : Nat} (past : width ≤ count) :
    (encodeLe width value).drop count = [] :=
  List.drop_eq_nil_of_le (by rwa [encode_le_length])

@[simp]
theorem take_encode_le {width value count : Nat} (past : width ≤ count) :
    (encodeLe width value).take count = encodeLe width value :=
  List.take_of_length_le (by rwa [encode_le_length])

end FortressQL.Lib.LittleEndian
