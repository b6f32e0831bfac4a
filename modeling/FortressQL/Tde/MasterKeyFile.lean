import FortressQL.Lib.Authenticated
import FortressQL.Lib.Fields
import FortressQL.Pqc.Kem
import FortressQL.Tde.KeyCache
import FortressQL.Tde.KeyText

/-!
# The master key file

`global/pg_encryption/master.key`, its writer `tde_write_master_key_file` and its reader
`tde_unwrap_master_key`. The writer opens the file in place, and may fail or end in any call.
-/

namespace FortressQL.Tde.MasterKeyFile

open List hiding Vector
open Elog Lib.Authenticated Lib.ByteStrings Lib.Fields Pqc.Kem Tde.KeyCache Tde.KeyText

def tdeGcmIvLen : Nat := 12

def tdeGcmTagLen : Nat := 16

abbrev TdeGcm : Type := Cipher tdeGcmTagLen

@[ext]
structure MasterKeyFileHeader where
  magic : UInt32
  version : UInt32
  kemAlg : UInt32
  pubkeyLen : UInt32
  ciphertextLen : UInt32
  reserved : UInt32

def tdeMasterKeyMagic : UInt32 := 0x54444531

def tdeVersion : UInt32 := 1

def encodeHeader (hdr : MasterKeyFileHeader) : Bytes :=
  encodeWord32 hdr.magic ++ (encodeWord32 hdr.version ++ (encodeWord32 hdr.kemAlg ++
    (encodeWord32 hdr.pubkeyLen ++ (encodeWord32 hdr.ciphertextLen ++
      encodeWord32 hdr.reserved))))

def headerSize : Nat := 24

def decodeHeader (data : Bytes) : MasterKeyFileHeader :=
  { magic := decodeWord32 data
    version := decodeWord32 (data.drop 4)
    kemAlg := decodeWord32 (data.drop 8)
    pubkeyLen := decodeWord32 (data.drop 12)
    ciphertextLen := decodeWord32 (data.drop 16)
    reserved := decodeWord32 (data.drop 20) }

structure WrappedKey where
  publicKey : Bytes
  kemCiphertext : Bytes
  gcmIv : Bytes
  encryptedMk : Bytes
  gcmTag : Bytes

def WrappedKey.header (wrapped : WrappedKey) : MasterKeyFileHeader :=
  { magic := tdeMasterKeyMagic
    version := tdeVersion
    kemAlg := mlKem768Number
    pubkeyLen := UInt32.ofNat wrapped.publicKey.length
    ciphertextLen := UInt32.ofNat wrapped.kemCiphertext.length
    reserved := 0 }

def WrappedKey.fields (wrapped : WrappedKey) : List Bytes :=
  [encodeHeader wrapped.header, wrapped.publicKey, wrapped.kemCiphertext, wrapped.gcmIv,
    wrapped.encryptedMk, wrapped.gcmTag]

def WrappedKey.content (wrapped : WrappedKey) : Bytes := wrapped.fields.flatten

/-- How a call on the file ends. In the last case the process does not come back from it. -/
inductive CallEnd where
  | succeeds
  | fails
  | crashes
  deriving DecidableEq

/-- Of the bytes handed to stdio when the run stops, `reached` have been written to the file. -/
structure FileCalls where
  allocate : CallEnd
  write : Nat → CallEnd
  fsync : CallEnd
  free : CallEnd
  reached : Nat

inductive WriteEnd where
  | returned
  | raised (report : ErrorReport)
  | crashed

def couldNotCreate (path : String) : ErrorReport :=
  { elevel := .error
    errcode := .fileAccess
    errmsg := s!"TDE: could not create master key file \"{path}\"" }

def couldNotWrite (path : String) : ErrorReport :=
  { elevel := .error
    errcode := .fileAccess
    errmsg := s!"TDE: could not write master key file \"{path}\"" }

def couldNotClose (path : String) : ErrorReport :=
  { elevel := .error
    errcode := .fileAccess
    errmsg := s!"TDE: could not close master key file \"{path}\"" }

/-- The chain of `fwrite` calls: what was handed to stdio, and how the last call ended. -/
def writeFields (write : Nat → CallEnd) : Nat → Bytes → List Bytes → Bytes × CallEnd
  | _, handed, [] => (handed, .succeeds)
  | index, handed, field :: rest =>
    match write index with
    | .succeeds => writeFields write (index + 1) (handed ++ field) rest
    | ended => (handed ++ field, ended)

/-- `tde_write_master_key_file`, with the file it leaves. A failed `pg_fsync` only warns. -/
def tdeWriteMasterKeyFile (path : String) (calls : FileCalls) (file : Option Bytes)
    (fields : List Bytes) : Option Bytes × WriteEnd :=
  match calls.allocate with
  | .fails => (file, .raised (couldNotCreate path))
  | .crashes => (file, .crashed)
  | .succeeds =>
    match writeFields calls.write 0 [] fields with
    | (handed, .fails) => (some (handed.take calls.reached), .raised (couldNotWrite path))
    | (handed, .crashes) => (some (handed.take calls.reached), .crashed)
    | (handed, .succeeds) =>
      if calls.fsync = .crashes then (some (handed.take calls.reached), .crashed)
      else
        match calls.free with
        | .succeeds => (some handed, .returned)
        | .fails => (some (handed.take calls.reached), .raised (couldNotClose path))
        | .crashes => (some (handed.take calls.reached), .crashed)

def corrupted (message : String) : ErrorReport :=
  { elevel := .error, errcode := .dataCorrupted, errmsg := message }

def hex8 (value : UInt32) : String :=
  let digits := (Nat.toDigits 16 value.toNat).map Char.toUpper
  String.ofList (List.replicate (8 - digits.length) '0' ++ digits)

def parseMasterKeyFile (data : Bytes) : Raises (UInt32 × WrappedKey) := do
  ensure (headerSize ≤ data.length) (corrupted "TDE: could not read master key file header")
  let hdr := decodeHeader data
  ensure (hdr.magic = tdeMasterKeyMagic)
    (corrupted s!"TDE: invalid master key file magic: 0x{hex8 hdr.magic}")
  ensure (hdr.version = tdeVersion)
    (corrupted s!"TDE: unsupported master key file version: {hdr.version}")
  ensure (hdr.pubkeyLen ≠ 0 ∧ hdr.pubkeyLen ≤ 8192 ∧ hdr.ciphertextLen ≠ 0 ∧
      hdr.ciphertextLen ≤ 8192)
    (corrupted (s!"TDE: master key file has invalid field sizes: pubkey_len={hdr.pubkeyLen}, " ++
      s!"ciphertext_len={hdr.ciphertextLen}"))
  match readFields [hdr.pubkeyLen.toNat, hdr.ciphertextLen.toNat, tdeGcmIvLen, tdeAesKeyLen,
      tdeGcmTagLen] (data.drop headerSize) with
  | some [publicKey, kemCiphertext, gcmIv, encryptedMk, gcmTag] =>
    return (hdr.kemAlg, ⟨publicKey, kemCiphertext, gcmIv, encryptedMk, gcmTag⟩)
  | _ => .error (corrupted "TDE: master key file is truncated")

def couldNotOpen (path : String) : ErrorReport :=
  { elevel := .error
    errcode := .fileAccess
    errmsg := s!"TDE: could not open master key file \"{path}\""
    errhint := "Run tde_generate_master_key() to create one." }

def decapsulationFailed : ErrorReport :=
  { elevel := .error
    errcode := .internalError
    errmsg := "TDE: ML-KEM decapsulation failed"
    errhint := "Verify that the correct ML-KEM secret key is provided." }

def unwrapContextFailed : ErrorReport :=
  { elevel := .error
    errcode := .outOfMemory
    errmsg := "TDE: failed to allocate GCM context for unwrap" }

def unwrappingFailed : ErrorReport :=
  { elevel := .error
    errcode := .internalError
    errmsg := "TDE: AES-256-GCM unwrapping of master key failed"
    errhint := "The master key file may be corrupted or the wrong " ++
      "ML-KEM secret key was provided." }

structure GcmCalls where
  context : Bool
  cipher : Bool

def gcmWorks : GcmCalls := ⟨true, true⟩

def toKey (bytes : Bytes) : Key := Vector.ofFn fun index => bytes.getD index 0

/-- `tde_unwrap_master_key`. `file` is what `AllocateFile` opens, `seckeyHex` what the provider
returns. -/
def tdeUnwrapMasterKey (library : KemLibrary) (gcm : TdeGcm) (calls : GcmCalls) (path : String)
    (file : Option Bytes) (seckeyHex : Raises Bytes) : Raises Key :=
  match file with
  | none => .error (couldNotOpen path)
  | some data => do
      let (kemAlg, wrapped) ← parseMasterKeyFile data
      let text ← seckeyHex
      let seckey ← decodeSecretKey text
      let ctx ← pqcKemNew library kemAlg
      let decapsulated ← pqcKemDecaps ctx wrapped.kemCiphertext seckey
      match decapsulated with
      | none => .error decapsulationFailed
      | some sharedSecret => do
          ensure (calls.context = true) unwrapContextFailed
          match calls.cipher, gcm.decrypt sharedSecret wrapped.gcmIv wrapped.encryptedMk
              wrapped.gcmTag with
          | true, some masterKey => return toKey masterKey
          | _, _ => .error unwrappingFailed

variable (hdr : MasterKeyFileHeader)

theorem encode_header_length : (encodeHeader hdr).length = headerSize := by
  simp [encodeHeader, headerSize]

theorem drop_header (rest : Bytes) : (encodeHeader hdr ++ rest).drop headerSize = rest := by
  rw [← encode_header_length hdr, drop_left]

theorem decode_encode_header (rest : Bytes) : decodeHeader (encodeHeader hdr ++ rest) = hdr := by
  have word : ∀ (value : UInt32) (tail : Bytes) (count : Nat),
      (encodeWord32 value ++ tail).drop (4 + count) = tail.drop count := by
    intro value tail count
    rw [drop_append, encode_word32_length, Nat.add_sub_cancel_left,
      drop_of_length_le (by rw [encode_word32_length]; omega), nil_append]
  ext
  all_goals
    simp [decodeHeader, encodeHeader]
  · rw [decode_encode_word32]
  · rw [word _ _ 0, drop_zero, decode_encode_word32]
  · rw [word _ _ 4, word _ _ 0, drop_zero, decode_encode_word32]
  · rw [word _ _ 8, word _ _ 4, word _ _ 0, drop_zero, decode_encode_word32]
  · rw [word _ _ 12, word _ _ 8, word _ _ 4, word _ _ 0, drop_zero, decode_encode_word32]
  · rw [word _ _ 16, word _ _ 12, word _ _ 8, word _ _ 4, word _ _ 0, drop_zero,
      decode_encode_word32]

structure WrappedKey.Sized (wrapped : WrappedKey) : Prop where
  publicKey : wrapped.publicKey.length ≠ 0 ∧ wrapped.publicKey.length ≤ 8192
  kemCiphertext : wrapped.kemCiphertext.length ≠ 0 ∧ wrapped.kemCiphertext.length ≤ 8192
  gcmIv : wrapped.gcmIv.length = tdeGcmIvLen
  encryptedMk : wrapped.encryptedMk.length = tdeAesKeyLen
  gcmTag : wrapped.gcmTag.length = tdeGcmTagLen

section Reading

variable {wrapped : WrappedKey}

def WrappedKey.body (wrapped : WrappedKey) : List Bytes :=
  [wrapped.publicKey, wrapped.kemCiphertext, wrapped.gcmIv, wrapped.encryptedMk, wrapped.gcmTag]

theorem content_header (wrapped : WrappedKey) :
    wrapped.content = encodeHeader wrapped.header ++ wrapped.body.flatten := rfl

theorem WrappedKey.Sized.lengths (sized : wrapped.Sized) :
    [wrapped.header.pubkeyLen.toNat, wrapped.header.ciphertextLen.toNat, tdeGcmIvLen,
      tdeAesKeyLen, tdeGcmTagLen] = wrapped.body.map List.length := by
  have publicKey := sized.publicKey.2
  have kemCiphertext := sized.kemCiphertext.2
  simp only [WrappedKey.header, WrappedKey.body, map_cons, map_nil, sized.gcmIv, sized.encryptedMk,
    sized.gcmTag, UInt32.toNat_ofNat', cons.injEq, and_true]
  omega

theorem length_field {length : Nat} (positive : length ≠ 0) (small : length ≤ 8192) :
    UInt32.ofNat length ≠ 0 ∧ UInt32.ofNat length ≤ 8192 := by
  have value : (UInt32.ofNat length).toNat = length := by
    rw [UInt32.toNat_ofNat', Nat.mod_eq_of_lt (by omega)]
  rw [ne_eq, ← UInt32.toNat_inj, UInt32.le_iff_toNat_le, value]
  exact ⟨positive, small⟩

/-- What stands behind the last field is not read. -/
theorem parse_content_append (sized : wrapped.Sized) (rest : Bytes) :
    parseMasterKeyFile (wrapped.content ++ rest) = .ok (mlKem768Number, wrapped) := by
  have whole : wrapped.content ++ rest =
      encodeHeader wrapped.header ++ (wrapped.body.flatten ++ rest) := by
    rw [content_header, append_assoc]
  have long : headerSize ≤ (wrapped.content ++ rest).length := by
    rw [whole, length_append, encode_header_length]
    omega
  have publicKey := length_field sized.publicKey.1 sized.publicKey.2
  have kemCiphertext := length_field sized.kemCiphertext.1 sized.kemCiphertext.2
  have body : (wrapped.content ++ rest).drop headerSize = wrapped.body.flatten ++ rest := by
    rw [whole, drop_header]
  have fields := read_fields_flatten wrapped.body rest
  rw [← sized.lengths, ← body] at fields
  have header : decodeHeader (wrapped.content ++ rest) = wrapped.header := by
    rw [whole, decode_encode_header]
  have sizes : wrapped.header.pubkeyLen ≠ 0 ∧ wrapped.header.pubkeyLen ≤ 8192 ∧
      wrapped.header.ciphertextLen ≠ 0 ∧ wrapped.header.ciphertextLen ≤ 8192 :=
    ⟨publicKey.1, publicKey.2, kemCiphertext.1, kemCiphertext.2⟩
  have magic : wrapped.header.magic = tdeMasterKeyMagic := rfl
  have version : wrapped.header.version = tdeVersion := rfl
  simp only [parseMasterKeyFile, header, ensure_holds sizes, fields]
  rfl

theorem parse_content (sized : wrapped.Sized) :
    parseMasterKeyFile wrapped.content = .ok (mlKem768Number, wrapped) := by
  have parsed := parse_content_append sized []
  rwa [append_nil] at parsed

theorem parse_truncated (sized : wrapped.Sized) {count : Nat}
    (short : count < wrapped.content.length) :
    ∃ report, parseMasterKeyFile (wrapped.content.take count) = .error report := by
  cases outcome : parseMasterKeyFile (wrapped.content.take count) with
  | error report => exact ⟨report, rfl⟩
  | ok parsed =>
    simp only [parseMasterKeyFile, sequence_returns, ensure_returns] at outcome
    obtain ⟨_, long, _, -, _, -, _, -, read⟩ := outcome
    rw [content_header, length_append, encode_header_length] at short
    have beyond : headerSize ≤ count := by
      rw [length_take] at long
      omega
    have kept : wrapped.content.take count = encodeHeader wrapped.header ++
        wrapped.body.flatten.take (count - headerSize) := by
      rw [content_header, take_append, encode_header_length,
        take_of_length_le (by rw [encode_header_length]; exact beyond)]
    have missing : readFields (wrapped.body.map List.length)
        (wrapped.body.flatten.take (count - headerSize)) = none := by
      apply read_fields_none
      rw [length_take, ← length_flatten]
      omega
    rw [kept, decode_encode_header, drop_header, sized.lengths, missing] at read
    simp at read

end Reading

section Writing

variable {calls : FileCalls} {fields : List Bytes}

theorem write_fields_cases (write : Nat → CallEnd) (index : Nat) (handed : Bytes)
    (fields : List Bytes) :
    (writeFields write index handed fields = (handed ++ fields.flatten, .succeeds) ∧
        ∀ later < fields.length, write (index + later) = .succeeds) ∨
      ∃ stop < fields.length, write (index + stop) ≠ .succeeds ∧
        (∀ earlier < stop, write (index + earlier) = .succeeds) ∧
        writeFields write index handed fields =
          (handed ++ (fields.take (stop + 1)).flatten, write (index + stop)) := by
  induction fields generalizing index handed with
  | nil => exact .inl ⟨by simp [writeFields], by simp⟩
  | cons field rest ih =>
    cases ended : write index with
    | succeeds =>
      have unfolded : writeFields write index handed (field :: rest) =
        writeFields write (index + 1) (handed ++ field) rest := by
          rw [writeFields, ended]
      have shifted : ∀ {count : Nat}, (∀ later < count, write (index + 1 + later) = .succeeds) →
          ∀ later < count + 1, write (index + later) = .succeeds := by
        intro count succeed later bound
        cases later with
        | zero => exact ended
        | succ later =>
          rw [add_comm later 1, ← add_assoc]
          exact succeed later (Nat.lt_of_succ_lt_succ bound)
      rw [unfolded]
      rcases ih (index + 1) (handed ++ field) with ⟨whole, succeed⟩ | stopped
      · refine .inl ⟨by rw [whole, flatten_cons, append_assoc], ?_⟩
        exact fun later bound => shifted succeed later (by simpa using bound)
      · obtain ⟨stop, bound, fails, succeed, result⟩ := stopped
        rw [add_assoc, add_comm 1] at fails result
        refine .inr ⟨stop + 1, by simpa using bound, fails, shifted succeed, ?_⟩
        rw [result, take_succ_cons, flatten_cons, append_assoc]
    | fails =>
      refine .inr ⟨0, by simp, by rw [add_zero, ended]; decide, by simp, ?_⟩
      simp [writeFields, ended]
    | crashes =>
      refine .inr ⟨0, by simp, by rw [add_zero, ended]; decide, by simp, ?_⟩
      simp [writeFields, ended]

structure FileCalls.Undisturbed (calls : FileCalls) (count : Nat) : Prop where
  write : ∀ index < count, calls.write index = .succeeds
  fsync : calls.fsync ≠ .crashes
  free : calls.free = .succeeds

def FileCalls.Delivers (calls : FileCalls) (count size : Nat) : Prop :=
  calls.Undisturbed count ∨
    (∀ index, index + 1 < count → calls.write index = .succeeds) ∧ size ≤ calls.reached

theorem interrupted_not_undisturbed {count stop : Nat} (bound : stop < count)
    (interrupted : calls.write stop ≠ .succeeds) : ¬ calls.Undisturbed count :=
  fun undisturbed => interrupted (undisturbed.write stop bound)

theorem take_flatten_short (ends : ∃ init last, fields = init ++ [last] ∧ last ≠ [])
    {count : Nat} (early : count < fields.length) :
    (fields.take count).flatten.length < fields.flatten.length := by
  obtain ⟨init, last, rfl, nonempty⟩ := ends
  rw [length_append, length_singleton] at early
  have whole := congrArg (fun parts : List Bytes => parts.flatten.length)
    (take_append_drop count init)
  have positive := length_pos_iff.mpr nonempty
  simp only [flatten_append, length_append] at whole
  rw [take_append_of_le_length (by omega), flatten_append, length_append, flatten_singleton]
  omega

theorem write_file_content {path : String} {file : Option Bytes}
    (opened : calls.allocate = .succeeds) :
    (tdeWriteMasterKeyFile path calls file fields).1 =
      if (writeFields calls.write 0 [] fields).2 = .succeeds ∧ calls.fsync ≠ .crashes ∧
          calls.free = .succeeds then some (writeFields calls.write 0 [] fields).1
      else some ((writeFields calls.write 0 [] fields).1.take calls.reached) := by
  rw [tdeWriteMasterKeyFile, opened]
  rcases writeFields calls.write 0 [] fields with ⟨-, ended⟩
  cases ended with
  | fails => rfl
  | crashes => rfl
  | succeeds =>
    by_cases crashes : calls.fsync = .crashes
    · simp [crashes]
    · cases closed : calls.free <;> simp [crashes]

theorem write_file_opened (path : String) (file : Option Bytes)
    (opened : calls.allocate = .succeeds)
    (ends : ∃ init last, fields = init ++ [last] ∧ last ≠ []) :
    ∃ count, (tdeWriteMasterKeyFile path calls file fields).1 = some (fields.flatten.take count) ∧
      (fields.flatten.length ≤ count ↔ calls.Delivers fields.length fields.flatten.length) := by
  rw [write_file_content opened]
  rcases write_fields_cases calls.write 0 [] fields with ⟨result, succeed⟩ | stopped
  · simp only [zero_add] at succeed
    rw [result, nil_append]
    by_cases closes : calls.fsync ≠ .crashes ∧ calls.free = .succeeds
    · refine ⟨fields.flatten.length, by rw [if_pos ⟨rfl, closes⟩, take_length], ?_⟩
      exact iff_of_true le_rfl (.inl ⟨succeed, closes.1, closes.2⟩)
    · refine ⟨calls.reached, by rw [if_neg (fun all => closes all.2)], ?_⟩
      constructor
      · intro arrived
        exact .inr ⟨fun index bound => succeed index (by omega), arrived⟩
      · rintro (undisturbed | ⟨-, arrived⟩)
        · exact absurd ⟨undisturbed.fsync, undisturbed.free⟩ closes
        · exact arrived
  · obtain ⟨stop, bound, interrupted, succeed, result⟩ := stopped
    simp only [zero_add] at interrupted succeed result
    rw [result, if_neg (fun all => interrupted all.1), nil_append]
    have disturbed := interrupted_not_undisturbed bound interrupted
    by_cases last : stop + 1 = fields.length
    · refine ⟨calls.reached, by rw [last, take_length], ?_⟩
      constructor
      · intro arrived
        exact .inr ⟨fun index early => succeed index (by omega), arrived⟩
      · rintro (undisturbed | ⟨-, arrived⟩)
        · exact absurd undisturbed disturbed
        · exact arrived
    · have early : stop + 1 < fields.length := by omega
      have split : fields.flatten =
          (fields.take (stop + 1)).flatten ++ (fields.drop (stop + 1)).flatten := by
        rw [← flatten_append, take_append_drop]
      have short := take_flatten_short ends early
      refine ⟨min calls.reached (fields.take (stop + 1)).flatten.length, ?_, ?_⟩
      · conv => rhs; rw [split, ← take_take, take_left]
      · apply iff_of_false
        · omega
        · rintro (undisturbed | ⟨all, -⟩)
          · exact disturbed undisturbed
          · exact interrupted (all stop early)

theorem write_file_returns_iff {path : String} {file after : Option Bytes} :
    tdeWriteMasterKeyFile path calls file fields = (after, .returned) ↔
      calls.allocate = .succeeds ∧ calls.Undisturbed fields.length ∧
        after = some fields.flatten := by
  cases opened : calls.allocate with
  | fails => simp [tdeWriteMasterKeyFile, opened]
  | crashes => simp [tdeWriteMasterKeyFile, opened]
  | succeeds =>
    rcases write_fields_cases calls.write 0 [] fields with ⟨result, succeed⟩ | stopped
    · simp only [zero_add] at succeed
      by_cases crashes : calls.fsync = .crashes
      · have disturbed : ¬ calls.Undisturbed fields.length :=
          fun undisturbed => undisturbed.fsync crashes
        simp [tdeWriteMasterKeyFile, opened, result, crashes, disturbed]
      · have undisturbed : calls.Undisturbed fields.length ↔ calls.free = .succeeds :=
          ⟨FileCalls.Undisturbed.free, fun closed => ⟨succeed, crashes, closed⟩⟩
        cases closed : calls.free <;>
          simp [tdeWriteMasterKeyFile, opened, result, crashes, undisturbed, closed, eq_comm]
    · obtain ⟨stop, bound, interrupted, -, result⟩ := stopped
      simp only [zero_add] at interrupted
      have disturbed := interrupted_not_undisturbed bound interrupted
      cases ended : calls.write stop with
      | succeeds => exact absurd ended interrupted
      | fails => simp [tdeWriteMasterKeyFile, opened, result, ended, disturbed]
      | crashes => simp [tdeWriteMasterKeyFile, opened, result, ended, disturbed]

end Writing

end FortressQL.Tde.MasterKeyFile
