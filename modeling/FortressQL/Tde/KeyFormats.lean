import FortressQL.Lib.ByteMemory
import FortressQL.Tde.KeyProvider
import FortressQL.Tde.MasterKeyRotation
import Mathlib.Data.List.TakeWhile

/-!
# Formats the tool and the server share

`pg_tde_master_key` has its own writer of the master key file and prints the secret key as text. The
server reads both, and accepts more than the tool writes.
-/

namespace FortressQL.Tde.KeyFormats

open List Elog Lib.ByteMemory Lib.ByteStrings Lib.Fields Pqc.Kem Tde.KeyCache Tde.KeyManage
open Tde.KeyProvider Tde.KeyText Tde.MasterKeyFile Tde.MasterKeyRotation

variable {data text : Bytes}

/-- The header as the tool fills it in, with constants of its own. -/
def toolHeader (publicKeyLen ciphertextLen : Nat) : MasterKeyFileHeader :=
  { magic := 0x54444531
    version := 1
    kemAlg := 1
    pubkeyLen := UInt32.ofNat publicKeyLen
    ciphertextLen := UInt32.ofNat ciphertextLen
    reserved := 0 }

def appendPiece (filebuf : Memory × Nat) (piece : Bytes) : Memory × Nat :=
  (store filebuf.1 filebuf.2 piece, filebuf.2 + piece.length)

/-- What `generate_and_write_master_key` hands to `write_secure_file`; `malloc` returned
`memory`. -/
def generateAndWriteMasterKey (memory : Memory) (wrapped : WrappedKey) : Bytes :=
  let hdr := toolHeader wrapped.publicKey.length wrapped.kemCiphertext.length
  let filelen := headerSize + wrapped.publicKey.length + wrapped.kemCiphertext.length +
    tdeGcmIvLen + tdeAesKeyLen + tdeGcmTagLen
  let filebuf := [encodeHeader hdr, wrapped.publicKey, wrapped.kemCiphertext, wrapped.gcmIv,
    wrapped.encryptedMk, wrapped.gcmTag].foldl appendPiece (memory, 0)
  load filebuf.1 0 filelen

theorem append_pieces (pieces : List Bytes) (filebuf : Memory × Nat) :
    load (pieces.foldl appendPiece filebuf).1 0 (filebuf.2 + pieces.flatten.length) =
      load filebuf.1 0 filebuf.2 ++ pieces.flatten := by
  induction pieces generalizing filebuf with
  | nil => simp
  | cons piece rest ih =>
    have first : load (store filebuf.1 filebuf.2 piece) 0 (filebuf.2 + piece.length) =
        load filebuf.1 0 filebuf.2 ++ piece := by
      rw [load_append, load_store_apart _ (.inl (by omega)), zero_add, load_store]
    have later := ih (appendPiece filebuf piece)
    simp only [appendPiece] at later
    rw [first, append_assoc, add_assoc] at later
    rwa [flatten_cons, length_append]

theorem tool_file_content {wrapped : WrappedKey} (sized : wrapped.Sized) (memory : Memory) :
    generateAndWriteMasterKey memory wrapped = wrapped.content := by
  have filled := append_pieces wrapped.fields (memory, 0)
  have filelen : wrapped.fields.flatten.length = headerSize + wrapped.publicKey.length +
      wrapped.kemCiphertext.length + tdeGcmIvLen + tdeAesKeyLen + tdeGcmTagLen := by
    rw [← sized.gcmIv, ← sized.encryptedMk, ← sized.gcmTag, ← encode_header_length wrapped.header]
    simp [WrappedKey.fields, add_assoc]
  rw [zero_add, filelen] at filled
  exact filled

/-- The header is acceptable and all bytes that it announces are there. -/
structure Complete (data : Bytes) : Prop where
  header : headerSize ≤ data.length
  magic : (decodeHeader data).magic = tdeMasterKeyMagic
  version : (decodeHeader data).version = tdeVersion
  sizes : (decodeHeader data).pubkeyLen ≠ 0 ∧ (decodeHeader data).pubkeyLen ≤ 8192 ∧
    (decodeHeader data).ciphertextLen ≠ 0 ∧ (decodeHeader data).ciphertextLen ≤ 8192
  fields : headerSize + (decodeHeader data).pubkeyLen.toNat +
    (decodeHeader data).ciphertextLen.toNat + tdeGcmIvLen + tdeAesKeyLen + tdeGcmTagLen ≤
      data.length

theorem parsed_complete {parsed : UInt32 × WrappedKey}
    (returned : parseMasterKeyFile data = .ok parsed) : Complete data := by
  simp only [parseMasterKeyFile, sequence_returns, ensure_returns] at returned
  obtain ⟨_, header, _, magic, _, version, _, sizes, read⟩ := returned
  refine ⟨header, magic, version, sizes, ?_⟩
  by_contra short
  rw [read_fields_none] at read
  · cases read
  · simp only [length_drop, sum_cons]
    omega

def unwrapMasterKey (library : KemLibrary) (gcm : TdeGcm) (calls : GcmCalls) (path : String)
    (file : Option Bytes) (seckeyHex : Raises Bytes) (state : KeyState) : Outcome :=
  match state.masterKey with
  | some _ => returned state
  | none =>
    match tdeUnwrapMasterKey library gcm calls path file seckeyHex with
    | .error report => raise state report
    | .ok masterKey => returned { state with masterKey := some masterKey }

theorem master_key_file_agreement :
    (∀ wrapped : WrappedKey, wrapped.Sized →
      (∀ memory path calls file after,
        tdeWriteMasterKeyFile path calls file wrapped.fields = (after, .returned) ↔
          calls.allocate = .succeeds ∧ calls.Undisturbed wrapped.fields.length ∧
            after = some (generateAndWriteMasterKey memory wrapped)) ∧
      ∀ memory, parseMasterKeyFile (generateAndWriteMasterKey memory wrapped) =
        .ok (mlKem768Number, wrapped)) ∧
    ∀ data, ¬ Complete data → ∀ library gcm calls path seckeyHex state, state.masterKey = none →
      ∃ report, unwrapMasterKey library gcm calls path (some data) seckeyHex state =
        raise state report := by
  constructor
  · intro wrapped sized
    simp only [tool_file_content sized]
    exact ⟨fun _ _ _ _ _ => write_file_returns_iff, fun _ => parse_content sized⟩
  · intro data incomplete library gcm calls path seckeyHex state unloaded
    cases parsed : parseMasterKeyFile data with
    | error report =>
      exact ⟨report, by simp [unwrapMasterKey, unloaded, tdeUnwrapMasterKey, parsed]⟩
    | ok fields => exact absurd (parsed_complete parsed) incomplete

/-- A byte behind the last field makes a file that neither writer writes and the server
accepts. -/
theorem trailing_byte_accepted :
    ∃ data, (∀ wrapped : WrappedKey, wrapped.Sized →
        ∀ memory, generateAndWriteMasterKey memory wrapped ≠ data) ∧
      (unwrapMasterKey sampleLibrary sampleGcm gcmWorks (tdeMasterKeyPath "data") (some data)
        (.ok (bytesToHex (sampleGenerated 1).secretKey)) ⟨none, none⟩).raised = none := by
  have sized := (sample_wraps 1).sized (sample_standard sampleKem rfl)
  refine ⟨(sampleGenerated 1).wrapped.content ++ [0], ?_, ?_⟩
  · intro wrapped other memory same
    rw [tool_file_content other] at same
    have parsed := parse_content other
    rw [same, parse_content_append sized] at parsed
    cases parsed
    simpa using congrArg List.length same
  · have opened : tdeUnwrapMasterKey sampleLibrary sampleGcm gcmWorks (tdeMasterKeyPath "data")
        (some ((sampleGenerated 1).wrapped.content ++ [0]))
        (.ok (bytesToHex (sampleGenerated 1).secretKey)) = .ok (sampleGenerated 1).masterKey := by
      refine Eq.trans ?_ (sample_unwraps 1)
      simp [tdeUnwrapMasterKey, sampleFile, parse_content_append sized, parse_content sized]
    rw [unwrapMasterKey, opened]
    rfl

theorem drop_blanks {blanks : Bytes} (blank : ∀ char ∈ blanks, isBlank char = true)
    (visible : ∀ char ∈ text.head?, isBlank char = false) :
    (blanks ++ text).dropWhile isBlank = text := by
  rw [dropWhile_append_of_pos blank]
  cases text with
  | nil => rfl
  | cons first rest => exact dropWhile_cons_of_neg (by simp [visible first rfl])

theorem strip_whitespace_around {before text after : Bytes}
    (blankBefore : ∀ char ∈ before, isBlank char = true)
    (blankAfter : ∀ char ∈ after, isBlank char = true)
    (visible : ∀ char ∈ text, isBlank char = false) (nonempty : text ≠ []) :
    stripWhitespace (before ++ (text ++ after)) = text := by
  rw [stripWhitespace, drop_blanks blankBefore, reverse_append, drop_blanks, reverse_reverse]
  · exact fun char member => blankAfter char (mem_reverse.mp member)
  · exact fun char first => visible char (mem_reverse.mp (mem_of_mem_head? first))
  · rw [List.head?_append_of_ne_nil _ nonempty]
    exact fun char first => visible char (mem_of_mem_head? first)

theorem strip_whitespace_visible (visible : ∀ char ∈ text, isBlank char = false) :
    stripWhitespace text = text := by
  cases text with
  | nil => rfl
  | cons first rest =>
    have stripped := @strip_whitespace_around [] (first :: rest) [] (by simp) (by simp) visible
      (cons_ne_nil _ _)
    rwa [append_nil] at stripped

theorem strip_whitespace_sublist (text : Bytes) : (stripWhitespace text).Sublist text := by
  have stripped := (dropWhile_sublist isBlank (l := (text.dropWhile isBlank).reverse)).reverse
  rw [reverse_reverse] at stripped
  exact stripped.trans (dropWhile_sublist isBlank)

theorem hex_visible {char : UInt8} (member : char ∈ bytesToHex data) :
    isBlank char = false ∧ char ≠ 0 := by
  have digits : ∀ value : Fin 16, isBlank (hexDigit value) = false ∧ hexDigit value ≠ 0 := by
    decide
  obtain ⟨byte, -, digit⟩ := mem_flatMap.mp member
  have bound := byte.toNat_lt
  simp only [mem_cons, not_mem_nil, or_false] at digit
  rcases digit with rfl | rfl
  · exact digits ⟨byte.toNat / 16, by omega⟩
  · exact digits ⟨byte.toNat % 16, by omega⟩

def FileHolds (sources : KeySources) (content : Bytes) : Prop :=
  sources.tdeKeyProvider = .file ∧ sources.tdeKeyFile ≠ "" ∧
    sources.stat sources.tdeKeyFile = true ∧ sources.fopen sources.tdeKeyFile = some content

theorem fetch_file_hex {sources : KeySources} {before after : Bytes}
    (holds : FileHolds sources (before ++ (bytesToHex data ++ after))) (nonempty : data ≠ [])
    (blankBefore : ∀ char ∈ before, isBlank char = true)
    (blankAfter : ∀ char ∈ after, isBlank char = true)
    (room : before.length + 2 * data.length ≤ tdeMaxHexKeyLen) :
    tdeKeyProviderFetch sources = .ok (bytesToHex data) := by
  obtain ⟨provider, named, found, opened⟩ := holds
  have long : (bytesToHex data).length ≠ 0 := by
    have positive := length_pos_iff.mpr nonempty
    rw [bytes_to_hex_length]
    omega
  have digits := length_pos_iff.mp (Nat.pos_of_ne_zero long)
  obtain ⟨cut, blankCut, buffer⟩ : ∃ cut, (∀ char ∈ cut, isBlank char = true) ∧
      (before ++ (bytesToHex data ++ after)).take tdeMaxHexKeyLen =
        before ++ (bytesToHex data ++ cut) := by
    refine ⟨after.take (tdeMaxHexKeyLen - before.length - 2 * data.length),
      fun char member => blankAfter char (mem_of_mem_take member), ?_⟩
    rw [take_append, take_append, bytes_to_hex_length, take_of_length_le (by omega),
      take_of_length_le (by rw [bytes_to_hex_length]; omega)]
  have blank : ∀ char : UInt8, isBlank char = true → char ≠ 0 := by
    rintro _ blank rfl
    cases blank
  have whole : cString (before ++ (bytesToHex data ++ cut)) =
      before ++ (bytesToHex data ++ cut) := by
    apply takeWhile_eq_self_iff.mpr
    intro char member
    simp only [mem_append] at member
    apply decide_eq_true
    rcases member with member | member | member
    · exact blank char (blankBefore char member)
    · exact (hex_visible member).2
    · exact blank char (blankCut char member)
  have read : (before ++ (bytesToHex data ++ cut)).length ≠ 0 := by
    simp [digits]
  have trimmed := strip_whitespace_around blankBefore blankCut
    (fun char member => (hex_visible member).1) digits
  simp only [tdeKeyProviderFetch, provider, tdeKeyProviderFetchFile, ensure_holds named,
    ensure_holds found, opened, buffer, ensure_holds read, whole, trimmed, ensure_holds long]
  rfl

theorem decode_hex_loop_cases (text : Bytes) :
    (∃ key, decodeHexLoop text = .ok key ∧ key.length = text.length / 2 ∧
        ∀ index, 2 * index + 1 < text.length →
          (scanHexByte (text.drop (2 * index))).isSome = true) ∨
      ∃ index, 2 * index + 1 < text.length ∧ scanHexByte (text.drop (2 * index)) = none ∧
        decodeHexLoop text = .error invalidHex := by
  fun_induction decodeHexLoop text with
  | case1 first second rest refused => exact .inr ⟨0, by simp, refused, rfl⟩
  | case2 first second rest byte scanned ih =>
    rcases ih with ⟨key, returned, length, later⟩ | ⟨index, inside, refused, raised⟩
    · refine .inl ⟨byte :: key, by rw [returned]; rfl, by simp [length]; omega, ?_⟩
      intro index bound
      cases index with
      | zero => exact Option.isSome_of_mem scanned
      | succ index => exact later index (by simp at bound; omega)
    · exact .inr ⟨index + 1, by simp; omega, refused, by rw [raised]; rfl⟩
  | case3 text short =>
    have length : text.length < 2 := by
      by_contra long
      match text with
      | [] => simp at long
      | [_] => simp at long
      | first :: second :: rest => exact short _ _ _ rfl
    exact .inl ⟨[], rfl, by simp; omega, by omega⟩

/-- Twice as many hexadecimal digits as the key has bytes. -/
def IsHexKey (secretKeyLen : Nat) (text : Bytes) : Prop :=
  text.length = 2 * secretKeyLen ∧ ∀ char ∈ text, (hexValue char).isSome = true

theorem is_hex_key_stripped {secretKeyLen : Nat} (length : text.length = 2 * secretKeyLen) :
    IsHexKey secretKeyLen (stripWhitespace text) ↔
      ∀ char ∈ text, (hexValue char).isSome = true := by
  constructor
  · intro isHex
    have same := (strip_whitespace_sublist text).eq_of_length (isHex.1.trans length.symm)
    rw [← same]
    exact isHex.2
  · intro digits
    rw [strip_whitespace_visible]
    · exact ⟨length, digits⟩
    · intro char member
      by_contra blank
      simp only [isBlank, Bool.not_eq_false, decide_eq_true_eq] at blank
      rcases blank with rfl | rfl | rfl | rfl <;> cases digits _ member

/-- The way of the text of a secret key into `pqc_kem_decaps`. -/
def decapsWith (ctx : PqcKemContext) (ciphertext text : Bytes) : Raises (Option Bytes) := do
  let seckey ← decodeSecretKey text
  pqcKemDecaps ctx ciphertext seckey

theorem decaps_with_raises_iff (ctx : PqcKemContext) (text : Bytes) :
    (∀ ciphertext, ∃ report, decapsWith ctx ciphertext text = .error report) ↔
      ¬ (text.length = 2 * ctx.oqsKem.lengthSecretKey ∧
        ∀ index < ctx.oqsKem.lengthSecretKey,
          (scanHexByte (text.drop (2 * index))).isSome = true) := by
  by_cases even : text.length % 2 = 0
  · rcases decode_hex_loop_cases text with ⟨key, returned, length, scanned⟩ | stopped
    · simp only [decapsWith, decodeSecretKey, ensure_holds even, ok_then, returned, pqcKemDecaps]
      by_cases sized : key.length = ctx.oqsKem.lengthSecretKey
      · apply iff_of_false
        · intro raises
          obtain ⟨report, raised⟩ := raises (replicate ctx.oqsKem.lengthCiphertext 0)
          rw [ensure_holds length_replicate, ensure_holds sized] at raised
          cases raised
        · exact not_not_intro ⟨by omega, fun index bound => scanned index (by omega)⟩
      · refine iff_of_true ?_ (fun accepted => sized (by omega))
        intro ciphertext
        unfold ensure
        split_ifs
        · exact ⟨_, rfl⟩
        · exact ⟨_, rfl⟩
    · obtain ⟨index, inside, refused, raised⟩ := stopped
      apply iff_of_true
      · intro _
        exact ⟨invalidHex, by
          simp [decapsWith, decodeSecretKey, ensure_holds even, raised]⟩
      · intro accepted
        have found := accepted.2 index (by omega)
        rw [refused] at found
        cases found
  · refine iff_of_true (fun _ => ⟨oddLengthHex, ?_⟩) (fun accepted => even (by omega))
    simp [decapsWith, decodeSecretKey, ensure, if_neg even]

/-- The tool's text comes back as the key, whatever blanks stand around it in the file, and no
other text is used as a key. -/
def KeyTextReads (ctx : PqcKemContext) (text : Bytes) : Prop :=
  (∀ sources before after data, data.length = ctx.oqsKem.lengthSecretKey → data ≠ [] →
    FileHolds sources (before ++ (bytesToHex data ++ after)) →
    (∀ char ∈ before, isBlank char = true) → (∀ char ∈ after, isBlank char = true) →
    before.length + 2 * data.length ≤ tdeMaxHexKeyLen →
    (tdeKeyProviderFetch sources >>= decodeSecretKey) = .ok data) ∧
  (¬ IsHexKey ctx.oqsKem.lengthSecretKey (stripWhitespace text) →
    ∀ ciphertext, ∃ report, decapsWith ctx ciphertext text = .error report)

theorem key_text_reads_iff (ctx : PqcKemContext) (text : Bytes) :
    KeyTextReads ctx text ↔
      (text.length = 2 * ctx.oqsKem.lengthSecretKey →
        (∀ index < ctx.oqsKem.lengthSecretKey,
          (scanHexByte (text.drop (2 * index))).isSome = true) →
        ∀ char ∈ text, (hexValue char).isSome = true) := by
  unfold KeyTextReads
  rw [and_iff_right, decaps_with_raises_iff, not_imp_not, and_imp]
  · exact forall_congr' fun length => imp_congr_right fun _ => is_hex_key_stripped length
  intro sources before after data _ nonempty holds blankBefore blankAfter room
  rw [fetch_file_hex holds nonempty blankBefore blankAfter room, ok_then, decode_secret_key_hex]

/-- A digit and a letter that is none make the byte of the digit. -/
theorem half_digit_accepted :
    ∃ sources text, tdeKeyProviderFetch sources = .ok text ∧
      ¬ IsHexKey 2400 (stripWhitespace text) ∧
      decodeSecretKey text = .ok (5 :: List.replicate 2399 0) := by
  generalize padding : replicate 2399 (0 : UInt8) = bytes
  have length : (53 :: 103 :: bytesToHex bytes).length = 2 * 2400 := by
    rw [length_cons, length_cons, bytes_to_hex_length, ← padding, length_replicate]
  have whole : cString (53 :: 103 :: bytesToHex bytes) = 53 :: 103 :: bytesToHex bytes := by
    apply takeWhile_eq_self_iff.mpr
    simp only [forall_mem_cons]
    exact ⟨rfl, rfl, fun char member => decide_eq_true (hex_visible member).2⟩
  refine ⟨⟨.env, some (53 :: 103 :: bytesToHex bytes), "", fun _ => false, fun _ => none, "",
    fun _ => none⟩, 53 :: 103 :: bytesToHex bytes, ?_, ?_, ?_⟩
  · simp [tdeKeyProviderFetch, tdeKeyProviderFetchEnv, whole]
  · intro isHex
    cases (is_hex_key_stripped length).mp isHex 103 (by simp)
  · have even : (53 :: 103 :: bytesToHex bytes).length % 2 = 0 := by
      rw [length]
    rw [decodeSecretKey, ensure_holds even, decodeHexLoop, decode_hex_loop_bytes]
    rfl

end FortressQL.Tde.KeyFormats
