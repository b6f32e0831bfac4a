import FortressQL.Lib.Scan
import FortressQL.Scram.Keys

/-!
# Attributes of SCRAM messages

Both ends read a message as comma-separated `name=value` attributes and differ only in
how they report an error. A reader is characterised by what its input looked like.
-/

namespace FortressQL.Scram.Messages

open Common.Base64 Lib.ByteStrings Lib.Decimal Lib.Scan Scram.Keys

/-- The character at the read position; a terminator at the end. -/
def peek (text : Bytes) : UInt8 := text.headD 0

def attrVal (name : UInt8) (value : Bytes) : Bytes := name :: equals :: value

def clientFirstBare (nonce : Bytes) : Bytes :=
  attrVal 'n'.toUInt8 [] ++ comma :: attrVal 'r'.toUInt8 nonce

def clientFinalWithoutProof (binding nonce : Bytes) : Bytes :=
  attrVal 'c'.toUInt8 binding ++ comma :: attrVal 'r'.toUInt8 nonce

def clientFinal (binding nonce proof : Bytes) : Bytes :=
  clientFinalWithoutProof binding nonce ++ comma :: attrVal 'p'.toUInt8 (encodeText proof)

def serverFirst (nonce salt : Bytes) (iterations : Int) : Bytes :=
  attrVal 'r'.toUInt8 nonce ++ comma ::
    (attrVal 's'.toUInt8 salt ++ comma :: attrVal 'i'.toUInt8 (printInt iterations))

/-- `read_attr_value` up to the error reports. -/
def readAttr {Failure : Type} (unexpected missingEquals : Failure) (attr : UInt8)
    (input : Bytes) : Except Failure (Bytes × Bytes) :=
  if peek input ≠ attr then .error unexpected
  else if peek (input.drop 1) ≠ equals then .error missingEquals
  else .ok (takeUntil comma (input.drop 2), afterFirst comma (input.drop 2))

structure Delimited (text value rest : Bytes) : Prop where
  clean : comma ∉ value
  shape : text = value ++ comma :: rest ∨ (text = value ∧ rest = [])

theorem delimited_scan (text : Bytes) :
    Delimited text (takeUntil comma text) (afterFirst comma text) :=
  ⟨take_until_clean comma text, split_at_stop comma text⟩

theorem scan_delimited {text value rest : Bytes} (delimited : Delimited text value rest) :
    takeUntil comma text = value ∧ afterFirst comma text = rest := by
  rcases delimited.shape with more | ended
  · rw [more]
    exact ⟨take_until_stop comma value rest delimited.clean,
      after_first_stop comma value rest delimited.clean⟩
  · rw [ended.1, ended.2]
    exact ⟨take_until_end comma value delimited.clean, after_first_end comma value delimited.clean⟩

theorem peek_cons {text : Bytes} {char : UInt8} (shown : peek text = char) (nonzero : char ≠ 0) :
    text = char :: text.drop 1 := by
  cases text with
  | nil => exact absurd shown.symm nonzero
  | cons first rest => rw [← shown]; rfl

section ReadAttr

variable {Failure : Type} {unexpected missingEquals : Failure} {attr : UInt8}
  {input value rest : Bytes}

theorem read_attr_sound (nonzero : attr ≠ 0)
    (read : readAttr unexpected missingEquals attr input = .ok (value, rest)) :
    ∃ text, input = attrVal attr text ∧ Delimited text value rest := by
  unfold readAttr at read
  split_ifs at read with first second
  rw [not_not] at first second
  have parts := Prod.mk.inj (Except.ok.inj read)
  refine ⟨input.drop 2, ?_, parts.1 ▸ parts.2 ▸ delimited_scan _⟩
  have head := peek_cons first nonzero
  have tail := peek_cons second (by decide)
  rw [head, tail]
  rfl

theorem read_attr_complete {text : Bytes} (delimited : Delimited text value rest) :
    readAttr unexpected missingEquals attr (attrVal attr text) = .ok (value, rest) := by
  have scanned := scan_delimited delimited
  simp [readAttr, attrVal, peek, scanned.1, scanned.2]

theorem read_attr_more (clean : comma ∉ value) :
    readAttr unexpected missingEquals attr (attrVal attr value ++ comma :: rest) =
      .ok (value, rest) :=
  read_attr_complete ⟨clean, .inl rfl⟩

theorem read_attr_last (clean : comma ∉ value) :
    readAttr unexpected missingEquals attr (attrVal attr value) = .ok (value, []) :=
  read_attr_complete ⟨clean, .inr ⟨rfl, rfl⟩⟩

end ReadAttr

def hexDigit (value : Nat) : Char := (Nat.toDigits 16 value).headD '0'

def sanitizeChar (char : UInt8) : String :=
  if 0x21 ≤ char ∧ char ≤ 0x7E then
    "'" ++ String.singleton (Char.ofNat char.toNat) ++ "'"
  else
    "0x" ++ String.ofList [hexDigit (char.toNat / 16), hexDigit (char.toNat % 16)]

def textOf (bytes : Bytes) : String := String.ofList (bytes.map fun byte => Char.ofNat byte.toNat)

def sanitizeStr (text : Bytes) : String :=
  textOf ((text.take 30).map fun char => if 0x21 ≤ char ∧ char ≤ 0x7E then char else 63)

def isScramPrintable (text : Bytes) : Bool :=
  text.all fun char => decide (0x21 ≤ char ∧ char ≤ 0x7E ∧ char ≠ comma)

/-! Characters of the texts that the two ends generate. -/

variable (src : Bytes)

theorem encode_text_clean : comma ∉ encodeText src :=
  encode_text_avoids src comma (by decide +kernel)

theorem encode_text_nul_free : (0 : UInt8) ∉ encodeText src :=
  encode_text_avoids src 0 (by decide +kernel)

theorem decimal_avoids (number : Nat) (symbol : UInt8) (outside : isDigit symbol = false) :
    symbol ∉ decimal number := by
  intro member
  rw [decimal_is_digit number symbol member] at outside
  cases outside

theorem base64_char_printable (char : UInt8) (inAlphabet : isBase64Char char = true) :
    0x21 ≤ char ∧ char ≤ 0x7E ∧ char ≠ comma := by
  have alphabet : ∀ char ∈ padding :: base64Table, 0x21 ≤ char ∧ char ≤ 0x7E ∧ char ≠ comma := by
    decide +kernel
  apply alphabet
  simp only [isBase64Char, Bool.or_eq_true, List.contains_iff_mem, beq_iff_eq] at inAlphabet
  exact List.mem_cons.mpr inAlphabet.symm

theorem encode_text_printable : isScramPrintable (encodeText src) = true := by
  unfold isScramPrintable
  rw [List.all_eq_true]
  intro char member
  exact decide_eq_true (base64_char_printable char (encode_text_chars src char member))

structure PlainValue (value : Bytes) : Prop where
  clean : comma ∉ value
  nulFree : 0 ∉ value

theorem plain_value_encode_text : PlainValue (encodeText src) :=
  ⟨encode_text_clean src, encode_text_nul_free src⟩

theorem plain_value_append {left right : Bytes} (leftPlain : PlainValue left)
    (rightPlain : PlainValue right) : PlainValue (left ++ right) where
  clean := by simp [leftPlain.clean, rightPlain.clean]
  nulFree := by simp [leftPlain.nulFree, rightPlain.nulFree]

theorem plain_value_printable {nonce : Bytes} (printable : isScramPrintable nonce = true) :
    PlainValue nonce := by
  have chars : ∀ char ∈ nonce, 0x21 ≤ char ∧ char ≤ 0x7E ∧ char ≠ comma := by
    simpa [isScramPrintable] using printable
  constructor
  · intro member
    exact (chars comma member).2.2 rfl
  · intro member
    exact absurd (chars 0 member).1 (by decide)

theorem plain_value_decimal (number : Nat) : PlainValue (decimal number) :=
  ⟨decimal_avoids number comma (by decide), decimal_avoids number 0 (by decide)⟩

end FortressQL.Scram.Messages
