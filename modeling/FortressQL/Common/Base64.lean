import FortressQL.Lib.ByteStrings

/-!
# Base64

`base64.c`. Encoding works on groups of three bytes; decoding is the character machine
of the source, with its treatment of padding and of the space in the target buffer.
-/

namespace FortressQL.Common.Base64

open List Lib.ByteStrings

def base64Table : Bytes :=
  ascii "ABCDEFGHIJKLMNOPQRSTUVWXYZabcdefghijklmnopqrstuvwxyz0123456789+/"

/-- `b64lookup`, with `-1` outside the alphabet. -/
def b64lookup : List Int :=
  [-1, -1, -1, -1, -1, -1, -1, -1, -1, -1, -1, -1, -1, -1, -1, -1,
   -1, -1, -1, -1, -1, -1, -1, -1, -1, -1, -1, -1, -1, -1, -1, -1,
   -1, -1, -1, -1, -1, -1, -1, -1, -1, -1, -1, 62, -1, -1, -1, 63,
   52, 53, 54, 55, 56, 57, 58, 59, 60, 61, -1, -1, -1, -1, -1, -1,
   -1, 0, 1, 2, 3, 4, 5, 6, 7, 8, 9, 10, 11, 12, 13, 14,
   15, 16, 17, 18, 19, 20, 21, 22, 23, 24, 25, -1, -1, -1, -1, -1,
   -1, 26, 27, 28, 29, 30, 31, 32, 33, 34, 35, 36, 37, 38, 39, 40,
   41, 42, 43, 44, 45, 46, 47, 48, 49, 50, 51, -1, -1, -1, -1, -1]

def padding : UInt8 := 61

def digit (value : Nat) : UInt8 := base64Table.getD (value % 64) 0

/-- `pg_b64_encode` into a buffer of `pg_b64_enc_len` bytes, as every caller has it. -/
def encodeText : Bytes → Bytes
  | [] => []
  | [first] =>
    let buf := first.toNat * 65536
    [digit (buf / 262144), digit (buf / 4096), padding, padding]
  | [first, second] =>
    let buf := first.toNat * 65536 + second.toNat * 256
    [digit (buf / 262144), digit (buf / 4096), digit (buf / 64), padding]
  | first :: second :: third :: rest =>
    let buf := first.toNat * 65536 + second.toNat * 256 + third.toNat
    digit (buf / 262144) :: digit (buf / 4096) :: digit (buf / 64) :: digit buf ::
      encodeText rest

def pgB64EncLen (srclen : Nat) : Nat := (srclen + 2) / 3 * 4

def pgB64DecLen (srclen : Nat) : Nat := srclen * 3 / 4

/-- Bytes written, bit buffer, characters in the current group, and the padding that ended the text.
-/
structure DecodeState where
  written : Bytes
  buf : Nat
  pos : Nat
  ended : Nat

def isWhitespace (char : UInt8) : Bool := char == 32 || char == 9 || char == 10 || char == 13

/-- The six bits of a character and the new value of `end`; `none` is the error exit. -/
def sextet (state : DecodeState) (char : UInt8) : Option (Nat × Nat) :=
  if isWhitespace char then none
  else if char = padding then
    if state.ended ≠ 0 then some (0, state.ended)
    else if state.pos = 2 then some (0, 1)
    else if state.pos = 3 then some (0, 2)
    else none
  else if 0 < char ∧ char < 127 then
    match b64lookup.getD char.toNat (-1) with
    | .ofNat value => some (value, state.ended)
    | .negSucc _ => none
  else none

/-- The bytes of a full group: one, two or three, depending on `end`. -/
def groupBytes (buf ended : Nat) : Bytes :=
  UInt8.ofNat (buf / 65536) ::
    ((if ended = 0 ∨ 1 < ended then [UInt8.ofNat (buf / 256)] else []) ++
      (if ended = 0 ∨ 2 < ended then [UInt8.ofNat buf] else []))

def decodeStep (dstlen : Nat) (state : DecodeState) (char : UInt8) : Option DecodeState :=
  match sextet state char with
  | none => none
  | some (bits, ended) =>
    let buf := state.buf * 64 + bits
    if state.pos + 1 = 4 then
      let written := state.written ++ groupBytes buf ended
      if written.length ≤ dstlen then
        some { written := written, buf := 0, pos := 0, ended := ended }
      else none
    else some { state with buf := buf, pos := state.pos + 1, ended := ended }

def decodeLoop (dstlen : Nat) : DecodeState → Bytes → Option DecodeState
  | state, [] => some state
  | state, char :: rest =>
    match decodeStep dstlen state char with
    | none => none
    | some next => decodeLoop dstlen next rest

/-- `pg_b64_decode`; `none` is the result -1. -/
def pgB64Decode (src : Bytes) (dstlen : Nat) : Option Bytes :=
  match decodeLoop dstlen { written := [], buf := 0, pos := 0, ended := 0 } src with
  | none => none
  | some final => if final.pos ≠ 0 then none else some final.written

variable (src : Bytes)

theorem encode_text_length : (encodeText src).length = pgB64EncLen src.length := by
  induction src using encodeText.induct with
  | case1 => simp [encodeText, pgB64EncLen]
  | case2 first => simp [encodeText, pgB64EncLen]
  | case3 first second => simp [encodeText, pgB64EncLen]
  | case4 first second third rest ih =>
    simp only [encodeText, length_cons, ih, pgB64EncLen]
    omega

theorem digit_lookup (value : Nat) :
    isWhitespace (digit value) = false ∧ digit value ≠ padding ∧
      (0 < digit value ∧ digit value < 127) ∧
      b64lookup.getD (digit value).toNat (-1) = Int.ofNat (value % 64) := by
  have inTable : ∀ index : Fin 64,
      isWhitespace (base64Table.getD index.val 0) = false ∧
        base64Table.getD index.val 0 ≠ padding ∧
        (0 < base64Table.getD index.val 0 ∧ base64Table.getD index.val 0 < 127) ∧
        b64lookup.getD (base64Table.getD index.val 0).toNat (-1) = Int.ofNat index.val := by
    decide +kernel
  exact inTable ⟨value % 64, Nat.mod_lt _ (by decide)⟩

theorem sextet_digit (state : DecodeState) (value : Nat) :
    sextet state (digit value) = some (value % 64, state.ended) := by
  obtain ⟨notSpace, notPadding, ascii, looked⟩ := digit_lookup value
  rw [sextet, notSpace, if_neg Bool.false_ne_true, if_neg notPadding, if_pos ascii, looked]

/-- A group of four characters, read from a group boundary. -/
theorem decode_loop_group {dstlen : Nat} {written bytes : Bytes} {buf third fourth : Nat}
    {thirdChar fourthChar : UInt8} {thirdEnd fourthEnd : Nat} (rest : Bytes)
    (thirdRead : ∀ buf, sextet ⟨written, buf, 2, 0⟩ thirdChar = some (third, thirdEnd))
    (fourthRead : ∀ buf, sextet ⟨written, buf, 3, thirdEnd⟩ fourthChar = some (fourth, fourthEnd))
    (joined : ((buf / 262144 % 64 * 64 + buf / 4096 % 64) * 64 + third) * 64 + fourth = buf)
    (decodes : groupBytes buf fourthEnd = bytes) (room : (written ++ bytes).length ≤ dstlen) :
    decodeLoop dstlen ⟨written, 0, 0, 0⟩
        (digit (buf / 262144) :: digit (buf / 4096) :: thirdChar :: fourthChar :: rest) =
      decodeLoop dstlen ⟨written ++ bytes, 0, 0, fourthEnd⟩ rest := by
  simp only [decodeLoop, decodeStep, sextet_digit, thirdRead, fourthRead, zero_mul, zero_add,
    Nat.reduceEqDiff, if_false, if_true, joined, decodes, if_pos room]

theorem group_bytes_three (first second third : UInt8) :
    groupBytes (first.toNat * 65536 + second.toNat * 256 + third.toNat) 0 =
      [first, second, third] := by
  have firstBound := first.toNat_lt
  have secondBound := second.toNat_lt
  have thirdBound := third.toNat_lt
  simp only [groupBytes, true_or, if_true, singleton_append, cons.injEq, and_true,
    ← UInt8.toNat_inj, UInt8.toNat_ofNat']
  omega

theorem group_bytes_two (first second : UInt8) :
    groupBytes (first.toNat * 65536 + second.toNat * 256) 2 = [first, second] := by
  have firstBound := first.toNat_lt
  have secondBound := second.toNat_lt
  have twoWritten : groupBytes (first.toNat * 65536 + second.toNat * 256) 2 =
      [UInt8.ofNat ((first.toNat * 65536 + second.toNat * 256) / 65536),
        UInt8.ofNat ((first.toNat * 65536 + second.toNat * 256) / 256)] := rfl
  simp only [twoWritten, cons.injEq, and_true, ← UInt8.toNat_inj, UInt8.toNat_ofNat']
  omega

theorem group_bytes_one (first : UInt8) : groupBytes (first.toNat * 65536) 1 = [first] := by
  have firstBound := first.toNat_lt
  have oneWritten : groupBytes (first.toNat * 65536) 1 =
      [UInt8.ofNat (first.toNat * 65536 / 65536)] := rfl
  simp only [oneWritten, cons.injEq, and_true, ← UInt8.toNat_inj, UInt8.toNat_ofNat']
  omega

variable (written : Bytes)

theorem sextet_padding_two (buf : Nat) :
    sextet ⟨written, buf, 2, 0⟩ padding = some (0, 1) := rfl

theorem sextet_padding_three (buf : Nat) :
    sextet ⟨written, buf, 3, 0⟩ padding = some (0, 2) := rfl

theorem sextet_padding_again (buf : Nat) :
    sextet ⟨written, buf, 3, 1⟩ padding = some (0, 1) := rfl

theorem decode_loop_encode_text (dstlen : Nat) (written src : Bytes)
    (room : written.length + src.length ≤ dstlen) :
    ∃ ended, decodeLoop dstlen ⟨written, 0, 0, 0⟩ (encodeText src) =
      some ⟨written ++ src, 0, 0, ended⟩ := by
  -- By groups of three bytes; the two shorter groups end in padding and leave `end` set.
  induction src using encodeText.induct generalizing written with
  | case1 => exact ⟨0, by simp [encodeText, decodeLoop]⟩
  | case2 first =>
    have bound := first.toNat_lt
    rw [encodeText, decode_loop_group [] (sextet_padding_two written) (sextet_padding_again written)
      (by omega) (group_bytes_one first) (by simpa using room)]
    exact ⟨1, rfl⟩
  | case3 first second =>
    have firstBound := first.toNat_lt
    have secondBound := second.toNat_lt
    rw [encodeText, decode_loop_group [] (fun _ => sextet_digit _ _) (sextet_padding_three written)
      (by omega) (group_bytes_two first second) (by simpa using room)]
    exact ⟨2, rfl⟩
  | case4 first second third rest ih =>
    have firstBound := first.toNat_lt
    have secondBound := second.toNat_lt
    have thirdBound := third.toNat_lt
    have longer : (written ++ [first, second, third]).length = written.length + 3 := by simp
    simp only [length_cons] at room
    rw [encodeText, decode_loop_group _ (fun _ => sextet_digit _ _) (fun _ => sextet_digit _ _)
      (by omega) (group_bytes_three first second third) (by omega)]
    obtain ⟨ended, decoded⟩ := ih (written ++ [first, second, third]) (by omega)
    refine ⟨ended, ?_⟩
    rw [decoded, append_assoc]
    rfl

theorem pg_b64_decode_encode_text :
    pgB64Decode (encodeText src) (pgB64DecLen (encodeText src).length) = some src := by
  have room : ([] : Bytes).length + src.length ≤ pgB64DecLen (encodeText src).length := by
    rw [encode_text_length, length_nil, pgB64DecLen, pgB64EncLen]
    omega
  obtain ⟨ended, decoded⟩ := decode_loop_encode_text _ [] src room
  rw [pgB64Decode, decoded]
  rfl

def isBase64Char (char : UInt8) : Bool := base64Table.contains char || char == padding

theorem digit_is_base64_char (value : Nat) : isBase64Char (digit value) = true := by
  have bound : value % 64 < base64Table.length := Nat.mod_lt _ (by decide)
  have member : digit value ∈ base64Table := by
    rw [digit, getD_eq_getElem?_getD, getElem?_eq_getElem bound]
    exact getElem_mem bound
  simp [isBase64Char, member]

theorem encode_text_chars : ∀ char ∈ encodeText src, isBase64Char char = true := by
  have paddingChar : isBase64Char padding = true := by simp [isBase64Char]
  induction src using encodeText.induct with
  | case1 => simp [encodeText]
  | case2 first => simp [encodeText, digit_is_base64_char, paddingChar]
  | case3 first second => simp [encodeText, digit_is_base64_char, paddingChar]
  | case4 first second third rest ih => simpa [encodeText, digit_is_base64_char] using ih

theorem encode_text_avoids (symbol : UInt8) (outside : isBase64Char symbol = false) :
    symbol ∉ encodeText src := by
  intro member
  rw [encode_text_chars src symbol member] at outside
  cases outside

theorem encode_text_nonempty (nonempty : src ≠ []) : encodeText src ≠ [] := by
  intro empty
  have lengths := encode_text_length src
  have positive := length_pos_iff.mpr nonempty
  rw [empty, length_nil, pgB64EncLen] at lengths
  omega

end FortressQL.Common.Base64
