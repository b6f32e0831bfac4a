import FortressQL.Elog
import FortressQL.Lib.ByteStrings

/-!
# The secret key as text

`bytes_to_hex` of the tool `pg_tde_master_key`, and the loop of `tde_unwrap_master_key` that
reads the text back two characters at a time with `sscanf`.
-/

namespace FortressQL.Tde.KeyText

open List Elog Lib.ByteStrings

def hexchars : Bytes := ascii "0123456789abcdef"

def hexDigit (value : Nat) : UInt8 := hexchars.getD value 0

def bytesToHex (data : Bytes) : Bytes :=
  data.flatMap fun byte => [hexDigit (byte.toNat / 16), hexDigit (byte.toNat % 16)]

def hexValue (char : UInt8) : Option Nat :=
  if 48 ≤ char ∧ char ≤ 57 then some (char.toNat - 48)
  else if 97 ≤ char ∧ char ≤ 102 then some (char.toNat - 87)
  else if 65 ≤ char ∧ char ≤ 70 then some (char.toNat - 55)
  else none

/-- The characters `sscanf` skips: space, tab, newline, vertical tab, form feed, return. -/
def isSpace (char : UInt8) : Bool := char = 32 ∨ (9 ≤ char ∧ char ≤ 13)

/-- `sscanf(text, "%02x", &byte)` cut to a byte: white space, then at most two characters, of which
the first may be a sign. A lone `0x` matches with the value zero, as in glibc. -/
def scanHexByte (text : Bytes) : Option UInt8 :=
  match text.dropWhile isSpace with
  | [] => none
  | [char] => (hexValue char).map UInt8.ofNat
  | first :: second :: _ =>
    match hexValue first, hexValue second with
    | some high, some low => some (UInt8.ofNat (16 * high + low))
    | some value, none => some (UInt8.ofNat value)
    | none, some value =>
      if first = 43 then some (UInt8.ofNat value)
      else if first = 45 then some (UInt8.ofNat (256 - value))
      else none
    | none, none => none

def oddLengthHex : ErrorReport :=
  { elevel := .error
    errcode := .invalidParameterValue
    errmsg := "TDE: FORTRESSQL_KEM_SECRET_KEY has odd-length hex string" }

def invalidHex : ErrorReport :=
  { elevel := .error
    errcode := .invalidParameterValue
    errmsg := "TDE: invalid hex in FORTRESSQL_KEM_SECRET_KEY" }

/-- The loop moves on by two characters, whatever `sscanf` consumed. -/
def decodeHexLoop : Bytes → Raises Bytes
  | first :: second :: rest =>
    match scanHexByte (first :: second :: rest) with
    | none => .error invalidHex
    | some byte => (decodeHexLoop rest).map fun bytes => byte :: bytes
  | _ => .ok []

def decodeSecretKey (seckeyHex : Bytes) : Raises Bytes := do
  ensure (seckeyHex.length % 2 = 0) oddLengthHex
  decodeHexLoop seckeyHex

theorem hex_value_digit (value : Fin 16) :
    hexValue (hexDigit value) = some value.val ∧ isSpace (hexDigit value) = false := by
  revert value
  decide

theorem scan_hex_digits (byte : UInt8) (rest : Bytes) :
    scanHexByte (hexDigit (byte.toNat / 16) :: hexDigit (byte.toNat % 16) :: rest) =
      some byte := by
  have bound := byte.toNat_lt
  obtain ⟨high, visible⟩ := hex_value_digit ⟨byte.toNat / 16, by omega⟩
  obtain ⟨low, -⟩ := hex_value_digit ⟨byte.toNat % 16, by omega⟩
  have whole : 16 * (byte.toNat / 16) + byte.toNat % 16 = byte.toNat := by omega
  rw [scanHexByte, dropWhile_cons_of_neg (by simp [visible])]
  simp [high, low, whole]

theorem bytes_to_hex_length (data : Bytes) : (bytesToHex data).length = 2 * data.length := by
  induction data with
  | nil => rfl
  | cons byte data ih =>
    simp only [bytesToHex, flatMap_cons, length_append, length_cons] at ih ⊢
    simp only [length_nil]
    omega

theorem decode_hex_loop_bytes (data : Bytes) : decodeHexLoop (bytesToHex data) = .ok data := by
  induction data with
  | nil => rfl
  | cons byte data ih =>
    simp only [bytesToHex, flatMap_cons, cons_append, nil_append] at ih ⊢
    simp only [decodeHexLoop, scan_hex_digits, ih]
    rfl

theorem decode_secret_key_hex (data : Bytes) : decodeSecretKey (bytesToHex data) = .ok data := by
  have even : (bytesToHex data).length % 2 = 0 := by
    rw [bytes_to_hex_length]
    omega
  rw [decodeSecretKey, ensure_holds even, ok_then, decode_hex_loop_bytes]

end FortressQL.Tde.KeyText
