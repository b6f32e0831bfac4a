import FortressQL.Lib.Authenticated
import FortressQL.Lib.ChunkSequences

/-!
# The encrypted stream of pg_dump

`compress_pqc.c` over the AES-GCM calls of `pqc-common.c`. A stream decrypts to what was encrypted.
Any other sequence of inputs fails, unless it is cut at the end, which nothing marks.
-/

namespace FortressQL.Dump.ChunkStream

open List hiding Vector

open Lib.Authenticated Lib.ByteStrings Lib.ChunkSequences Option

variable {tag chunk : Bytes}

def pqcAesIvLen : Nat := 12

def pqcAesTagLen : Nat := 16

abbrev AesGcm : Type := Cipher pqcAesTagLen

/-- What the chunk functions use of their states, with the bytes the running hash has consumed. -/
structure StreamState where
  aesKey : Bytes
  aesIv : Vector UInt8 pqcAesIvLen
  chunkCounter : UInt64
  hashed : Bytes

def StreamState.advance (state : StreamState) : StreamState :=
  { state with chunkCounter := state.chunkCounter + 1 }

def StreamState.digest (state : StreamState) (data : Bytes) : StreamState :=
  { state with hashed := state.hashed ++ data }

/-- Which calls of the C library and of OpenSSL succeed. -/
structure StreamCalls where
  digestUpdate : Bool
  allocates : Bool
  cipher : Bool
  allocatesOutput : Bool

structure StreamCalls.Succeed (calls : StreamCalls) : Prop where
  digestUpdate : calls.digestUpdate = true
  allocates : calls.allocates = true
  cipher : calls.cipher = true
  allocatesOutput : calls.allocatesOutput = true

def allSucceed : StreamCalls := ⟨true, true, true, true⟩

theorem all_succeed : allSucceed.Succeed := ⟨rfl, rfl, rfl, rfl⟩

def counterByte (counter : UInt64) (index : Nat) : UInt8 :=
  UInt8.ofNat (counter.toNat / 256 ^ index)

def xorCounterByte (counter : UInt64) (iv : Vector UInt8 pqcAesIvLen) (index : Fin 8) :
    Vector UInt8 pqcAesIvLen :=
  let place : Fin pqcAesIvLen := ⟨pqcAesIvLen - 1 - index, by rw [pqcAesIvLen]; omega⟩
  iv.set place (iv[place] ^^^ counterByte counter index)

def makeChunkIv (baseIv : Vector UInt8 pqcAesIvLen) (counter : UInt64) :
    Vector UInt8 pqcAesIvLen :=
  (List.finRange 8).foldl (xorCounterByte counter) baseIv

def toInt (length : Nat) : Int := (length : Int).bmod (2 ^ 32)

/-- `EVP_EncryptUpdate` consumes as many bytes as the converted length says, and fails if
that is negative. -/
def pqcAes256gcmEncrypt (gcm : AesGcm) (works : Bool) (key iv plaintext : Bytes) :
    Option (Bytes × Bytes) :=
  if works = false ∨ toInt plaintext.length < 0 then none
  else some (gcm.encrypt key iv (plaintext.take (toInt plaintext.length).toNat))

def pqcAes256gcmDecrypt (gcm : AesGcm) (works : Bool) (key iv ciphertext tag : Bytes) :
    Option Bytes :=
  if works = false ∨ toInt ciphertext.length < 0 then none
  else gcm.decrypt key iv (ciphertext.take (toInt ciphertext.length).toNat) tag

def lengthBytes (ctLen : Nat) : Bytes :=
  [UInt8.ofNat (ctLen / 2 ^ 24), UInt8.ofNat (ctLen / 2 ^ 16), UInt8.ofNat (ctLen / 2 ^ 8),
    UInt8.ofNat ctLen]

def packFrame (ciphertext tag : Bytes) : Bytes :=
  lengthBytes ciphertext.length ++ ciphertext ++ tag

def pqcEncryptData (gcm : AesGcm) (calls : StreamCalls) (state : StreamState) (input : Bytes) :
    StreamState × Option Bytes :=
  if input = [] ∨ calls.digestUpdate = false then (state, none)
  else
    let chunkIv := makeChunkIv state.aesIv state.chunkCounter
    let next := (state.digest input).advance
    if calls.allocates = false then (next, none)
    else
      match pqcAes256gcmEncrypt gcm calls.cipher state.aesKey chunkIv.toList input with
      | none => (next, none)
      | some (ciphertext, tag) =>
        if calls.allocatesOutput = false then (next, none)
        else (next, some (packFrame ciphertext tag))

def readLength (byte0 byte1 byte2 byte3 : UInt8) : Nat :=
  2 ^ 24 * byte0.toNat + 2 ^ 16 * byte1.toNat + 2 ^ 8 * byte2.toNat + byte3.toNat

/-- The length field, the ciphertext and the tag of an input, if its length fits. -/
def parseFrame (input : Bytes) : Option (Bytes × Bytes) :=
  match input with
  | byte0 :: byte1 :: byte2 :: byte3 :: body =>
    let ctLen := readLength byte0 byte1 byte2 byte3
    if body.length = ctLen + pqcAesTagLen then some (body.take ctLen, body.drop ctLen) else none
  | _ => none

def pqcDecryptData (gcm : AesGcm) (calls : StreamCalls) (state : StreamState) (input : Bytes) :
    StreamState × Option Bytes :=
  match parseFrame input with
  | none => (state, none)
  | some (ciphertext, tag) =>
    let chunkIv := makeChunkIv state.aesIv state.chunkCounter
    let next := state.advance
    if calls.allocates = false then (next, none)
    else
      match pqcAes256gcmDecrypt gcm calls.cipher state.aesKey chunkIv.toList ciphertext tag with
      | none => (next, none)
      | some plaintext =>
        if calls.digestUpdate = false then (next, none)
        else (next.digest plaintext, some plaintext)

/-- Returns 0 on every state there is. -/
def pqcDecryptFinish : Option StreamState → Int
  | none => -1
  | some _ => 0

def initialState (aesKey : Bytes) (baseIv : Vector UInt8 pqcAesIvLen) : StreamState :=
  ⟨aesKey, baseIv, 0, []⟩

def callEach (call : StreamState → Bytes → StreamState × Option Bytes) :
    StreamState → List Bytes → Option (StreamState × List Bytes)
  | state, [] => some (state, [])
  | state, input :: rest =>
    match call state input with
    | (_, none) => none
    | (next, some output) =>
      (callEach call next rest).map fun (final, outputs) => (final, output :: outputs)

def encryptStream (gcm : AesGcm) (state : StreamState) (chunks : List Bytes) :
    Option (List Bytes) :=
  (callEach (pqcEncryptData gcm allSucceed) state chunks).map Prod.snd

def decryptStream (gcm : AesGcm) (state : StreamState) (inputs : List Bytes) :
    Option (List Bytes) :=
  match callEach (pqcDecryptData gcm allSucceed) state inputs with
  | none => none
  | some (final, plaintexts) => if pqcDecryptFinish (some final) = 0 then some plaintexts else none

theorem byte_at_xor_counter (counter : UInt64) (iv : Vector UInt8 pqcAesIvLen) (index : Fin 8)
    {place : Nat} (bound : place < pqcAesIvLen) :
    byteAt (xorCounterByte counter iv index) place =
      if place = pqcAesIvLen - 1 - index then byteAt iv place ^^^ counterByte counter index
      else byteAt iv place := by
  rw [byte_at_eq _ _ bound, byte_at_eq _ _ bound]
  simp only [xorCounterByte, Vector.getElem_set, eq_comm]
  split_ifs with same
  · simp [same]
  · rfl

theorem byte_at_xor_counters (counter : UInt64) (iv : Vector UInt8 pqcAesIvLen)
    {rounds : List (Fin 8)} (distinct : rounds.Nodup) {index : Fin 8} :
    byteAt (rounds.foldl (xorCounterByte counter) iv) (pqcAesIvLen - 1 - index) =
      if rounds.contains index then
        byteAt iv (pqcAesIvLen - 1 - index) ^^^ counterByte counter index
      else byteAt iv (pqcAesIvLen - 1 - index) := by
  induction rounds generalizing iv with
  | nil => simp
  | cons round rest ih =>
    obtain ⟨fresh, others⟩ := nodup_cons.mp distinct
    have bound : pqcAesIvLen - 1 - index < pqcAesIvLen := by rw [pqcAesIvLen]; omega
    rw [foldl_cons, ih _ others, byte_at_xor_counter _ _ _ bound]
    by_cases same : index = round
    · subst same
      simp [fresh]
    · have apart : pqcAesIvLen - 1 - index ≠ pqcAesIvLen - 1 - round := by
        rw [pqcAesIvLen]
        omega
      simp [same, apart]

variable (baseIv : Vector UInt8 pqcAesIvLen)

theorem make_chunk_iv_byte (counter : UInt64) (index : Fin 8) :
    byteAt (makeChunkIv baseIv counter) (pqcAesIvLen - 1 - index) =
      byteAt baseIv (pqcAesIvLen - 1 - index) ^^^ counterByte counter index := by
  rw [makeChunkIv, byte_at_xor_counters _ _ (nodup_finRange 8), if_pos (by simp)]

theorem counter_byte_injective {left right : UInt64}
    (same : ∀ index : Fin 8, counterByte left index = counterByte right index) :
    left = right := by
  apply UInt64.toNat_inj.mp
  have bound : (256 : Nat) ^ 8 = 2 ^ 64 := by decide
  apply eq_of_bytes (by rw [bound]; exact left.toNat_lt) (by rw [bound]; exact right.toNat_lt)
  intro index inCounter
  have byte := congrArg UInt8.toNat (same ⟨index, inCounter⟩)
  simpa only [counterByte, UInt8.toNat_ofNat'] using byte

def positionIv (baseIv : Vector UInt8 pqcAesIvLen) (position : Nat) : Bytes :=
  (makeChunkIv baseIv (UInt64.ofNat position)).toList

theorem position_iv_eq_iff (left right : Nat) :
    positionIv baseIv left = positionIv baseIv right ↔ left ≡ right [MOD 2 ^ 64] := by
  have counters : UInt64.ofNat left = UInt64.ofNat right ↔ left ≡ right [MOD 2 ^ 64] := by
    rw [← UInt64.toNat_inj, UInt64.toNat_ofNat', UInt64.toNat_ofNat', Nat.ModEq]
  rw [← counters]
  constructor
  · intro same
    apply counter_byte_injective
    intro index
    have vectors := Vector.toList_inj.mp same
    have byte := congrArg (fun iv => byteAt iv (pqcAesIvLen - 1 - index)) vectors
    simpa only [make_chunk_iv_byte, UInt8.xor_right_inj] using byte
  · intro same
    rw [positionIv, positionIv, same]

theorem take_to_int {data : Bytes} (short : data.length < 2 ^ 32)
    (valid : ¬ toInt data.length < 0) : data.take (toInt data.length).toNat = data := by
  apply take_of_length_le
  unfold toInt at valid ⊢
  have whole : (data.length : Int) % (2 ^ 32 : Nat) = data.length := by omega
  rw [Int.bmod_def] at valid ⊢
  split_ifs at valid with half
  · omega
  · omega

theorem read_length_bytes {length : Nat} (short : length < 2 ^ 32) :
    readLength (UInt8.ofNat (length / 2 ^ 24)) (UInt8.ofNat (length / 2 ^ 16))
      (UInt8.ofNat (length / 2 ^ 8)) (UInt8.ofNat length) = length := by
  simp only [readLength, UInt8.toNat_ofNat']
  omega

theorem length_bytes_read (byte0 byte1 byte2 byte3 : UInt8) :
    lengthBytes (readLength byte0 byte1 byte2 byte3) = [byte0, byte1, byte2, byte3] ∧
      readLength byte0 byte1 byte2 byte3 < 2 ^ 32 := by
  have bound0 := byte0.toNat_lt
  have bound1 := byte1.toNat_lt
  have bound2 := byte2.toNat_lt
  have bound3 := byte3.toNat_lt
  simp only [lengthBytes, readLength, cons.injEq, ← UInt8.toNat_inj, UInt8.toNat_ofNat', and_true]
  omega

variable {ciphertext input : Bytes}

theorem parse_pack_frame (short : ciphertext.length < 2 ^ 32) (tagged : tag.length = pqcAesTagLen) :
    parseFrame (packFrame ciphertext tag) = some (ciphertext, tag) := by
  simp only [packFrame, lengthBytes, cons_append, nil_append, parseFrame, read_length_bytes short,
    length_append, tagged, if_true, take_left, drop_left]

theorem parse_frame_packed (parsed : parseFrame input = some (ciphertext, tag)) :
    packFrame ciphertext tag = input ∧ ciphertext.length < 2 ^ 32 := by
  unfold parseFrame at parsed
  split at parsed
  · rename_i byte0 byte1 byte2 byte3 body
    obtain ⟨encoded, short⟩ := length_bytes_read byte0 byte1 byte2 byte3
    simp only [ite_none_right_eq_some] at parsed
    obtain ⟨fits, rfl, rfl⟩ := parsed
    rw [packFrame, length_take_of_le (by omega), encoded]
    refine ⟨?_, short⟩
    rw [append_assoc, take_append_drop]
    rfl
  · simp at parsed

def sealAt (gcm : AesGcm) (aesKey : Bytes) (baseIv : Vector UInt8 pqcAesIvLen) (position : Nat)
    (chunk : Bytes) : Option Bytes :=
  if chunk = [] then none
  else (pqcAes256gcmEncrypt gcm true aesKey (positionIv baseIv position) chunk).map
    fun (ciphertext, tag) => packFrame ciphertext tag

def openAt (gcm : AesGcm) (aesKey : Bytes) (baseIv : Vector UInt8 pqcAesIvLen) (position : Nat)
    (input : Bytes) : Option Bytes :=
  match parseFrame input with
  | none => none
  | some (ciphertext, tag) =>
    pqcAes256gcmDecrypt gcm true aesKey (positionIv baseIv position) ciphertext tag

section Positions

variable {gcm : AesGcm} {aesKey : Bytes} {baseIv : Vector UInt8 pqcAesIvLen}

/-- A state that has seen as many chunks as its position says. -/
structure StreamAt (aesKey : Bytes) (baseIv : Vector UInt8 pqcAesIvLen) (position : Nat)
    (state : StreamState) : Prop where
  aesKey : state.aesKey = aesKey
  aesIv : state.aesIv = baseIv
  chunkCounter : state.chunkCounter = UInt64.ofNat position

variable {position index : Nat} {state : StreamState} {calls : StreamCalls} {frame : Bytes}

theorem StreamAt.chunk_iv (located : StreamAt aesKey baseIv position state) :
    (makeChunkIv state.aesIv state.chunkCounter).toList = positionIv baseIv position := by
  rw [located.aesIv, located.chunkCounter, positionIv]

theorem StreamAt.advance (located : StreamAt aesKey baseIv position state) :
    StreamAt aesKey baseIv (position + 1) state.advance := by
  refine ⟨located.aesKey, located.aesIv, ?_⟩
  rw [StreamState.advance, located.chunkCounter, UInt64.ofNat_add]
  rfl

theorem StreamAt.digest (located : StreamAt aesKey baseIv position state) (data : Bytes) :
    StreamAt aesKey baseIv position (state.digest data) :=
  ⟨located.aesKey, located.aesIv, located.chunkCounter⟩

def Follows (aesKey : Bytes) (baseIv : Vector UInt8 pqcAesIvLen)
    (call : StreamState → Bytes → StreamState × Option Bytes)
    (step : Nat → Bytes → Option Bytes) : Prop :=
  ∀ position state input, StreamAt aesKey baseIv position state →
    (call state input).2 = step position input ∧
      ∀ output, (call state input).2 = some output →
        StreamAt aesKey baseIv (position + 1) (call state input).1

theorem call_each_at_positions {call : StreamState → Bytes → StreamState × Option Bytes}
    {step : Nat → Bytes → Option Bytes} (follows : Follows aesKey baseIv call step)
    (located : StreamAt aesKey baseIv position state) (inputs : List Bytes) :
    (callEach call state inputs).map Prod.snd = atPositions step position inputs := by
  induction inputs generalizing position state with
  | nil => rfl
  | cons input rest ih =>
    obtain ⟨result, moves⟩ := follows position state input located
    rcases called : call state input with ⟨next, output⟩
    simp only [called] at moves
    cases output with
    | none => simp [callEach, called, atPositions, ← result]
    | some output =>
      simp only [callEach, called, atPositions, ← result, ← ih (moves output rfl), Option.map_map]
      rfl

theorem encrypt_follows (succeed : calls.Succeed) :
    Follows aesKey baseIv (pqcEncryptData gcm calls) (sealAt gcm aesKey baseIv) := by
  intro position state input located
  by_cases empty : input = []
  · simp [pqcEncryptData, sealAt, empty]
  · simp only [pqcEncryptData, sealAt, empty, succeed.digestUpdate, succeed.allocates,
      succeed.cipher, succeed.allocatesOutput, located.chunk_iv, located.aesKey]
    cases pqcAes256gcmEncrypt gcm true aesKey (positionIv baseIv position) input with
    | none => exact ⟨rfl, fun _ => nofun⟩
    | some pair => exact ⟨rfl, fun _ _ => (located.digest input).advance⟩

theorem decrypt_follows (succeed : calls.Succeed) :
    Follows aesKey baseIv (pqcDecryptData gcm calls) (openAt gcm aesKey baseIv) := by
  intro position state input located
  unfold pqcDecryptData openAt
  cases parseFrame input with
  | none => exact ⟨rfl, fun _ => nofun⟩
  | some pair =>
    simp only [succeed.digestUpdate, succeed.allocates, succeed.cipher, located.chunk_iv,
      located.aesKey]
    cases pqcAes256gcmDecrypt gcm true aesKey (positionIv baseIv position) pair.1 pair.2 with
    | none => exact ⟨rfl, fun _ => nofun⟩
    | some plaintext => exact ⟨rfl, fun _ _ => located.advance.digest plaintext⟩

theorem initial_at : StreamAt aesKey baseIv 0 (initialState aesKey baseIv) := ⟨rfl, rfl, rfl⟩

theorem encrypt_stream_positions (chunks : List Bytes) :
    encryptStream gcm (initialState aesKey baseIv) chunks =
      atPositions (sealAt gcm aesKey baseIv) 0 chunks :=
  call_each_at_positions (encrypt_follows all_succeed) initial_at chunks

theorem decrypt_stream_positions (inputs : List Bytes) :
    decryptStream gcm (initialState aesKey baseIv) inputs =
      atPositions (openAt gcm aesKey baseIv) 0 inputs := by
  rw [← call_each_at_positions (decrypt_follows all_succeed) initial_at inputs, decryptStream]
  cases callEach (pqcDecryptData gcm allSucceed) (initialState aesKey baseIv) inputs with
  | none => rfl
  | some pair => rfl

/-- A chunk that fits the length field is sealed whole. -/
theorem seal_at_returns (short : chunk.length < 2 ^ 32)
    (made : sealAt gcm aesKey baseIv position chunk = some frame) :
    frame = packFrame (gcm.encrypt aesKey (positionIv baseIv position) chunk).1
        (gcm.encrypt aesKey (positionIv baseIv position) chunk).2 ∧
      ¬ toInt chunk.length < 0 := by
  unfold sealAt pqcAes256gcmEncrypt at made
  split_ifs at made with empty invalid
  · simp at made
  · rw [not_or] at invalid
    rw [take_to_int short invalid.2, map_some, some.injEq] at made
    exact ⟨made.symm, invalid.2⟩

theorem open_packed (short : ciphertext.length < 2 ^ 32) (valid : ¬ toInt ciphertext.length < 0)
    (tagged : tag.length = pqcAesTagLen) :
    openAt gcm aesKey baseIv position (packFrame ciphertext tag) =
      gcm.decrypt aesKey (positionIv baseIv position) ciphertext tag := by
  unfold openAt
  rw [parse_pack_frame short tagged]
  change pqcAes256gcmDecrypt gcm true aesKey (positionIv baseIv position) ciphertext tag = _
  rw [pqcAes256gcmDecrypt, if_neg (by simp [valid]), take_to_int short valid]

theorem open_at_returns {plaintext : Bytes}
    (opened : openAt gcm aesKey baseIv position input = some plaintext) :
    ∃ ciphertext tag, parseFrame input = some (ciphertext, tag) ∧
      gcm.decrypt aesKey (positionIv baseIv position) ciphertext tag = some plaintext := by
  unfold openAt at opened
  cases parsed : parseFrame input with
  | none => simp [parsed] at opened
  | some pair =>
    obtain ⟨ciphertext, tag⟩ := pair
    have short := (parse_frame_packed parsed).2
    rw [parsed] at opened
    change pqcAes256gcmDecrypt gcm true aesKey _ ciphertext tag = some plaintext at opened
    rw [pqcAes256gcmDecrypt, ite_none_left_eq_some, not_or] at opened
    obtain ⟨⟨-, valid⟩, decrypted⟩ := opened
    rw [take_to_int short valid] at decrypted
    exact ⟨ciphertext, tag, rfl, decrypted⟩

theorem sealed_opens (short : chunk.length < 2 ^ 32)
    (made : sealAt gcm aesKey baseIv position chunk = some frame)
    (sharing : positionIv baseIv position = positionIv baseIv index) :
    openAt gcm aesKey baseIv index frame = some chunk := by
  obtain ⟨rfl, valid⟩ := seal_at_returns short made
  have length := gcm.cipherLength aesKey (positionIv baseIv position) chunk
  rw [open_packed (by omega) (by rwa [length]) (gcm.tagLength ..), ← sharing]
  exact gcm.decryptEncrypt aesKey (positionIv baseIv position) chunk

def NoForgery (gcm : AesGcm) (aesKey : Bytes) (baseIv : Vector UInt8 pqcAesIvLen)
    (chunks inputs : List Bytes) : Prop :=
  ∀ index input ciphertext tag, inputs[index]? = some input →
    parseFrame input = some (ciphertext, tag) →
    gcm.Unforged aesKey
      (fun iv chunk => ∃ position, chunks[position]? = some chunk ∧
        positionIv baseIv position = iv)
      (positionIv baseIv index) ciphertext tag

section

variable {chunks frames : List Bytes} (short : ∀ chunk ∈ chunks, chunk.length < 2 ^ 32)
  (written : atPositions (sealAt gcm aesKey baseIv) 0 chunks = some frames)

include short written

theorem opened_is_frame {inputs : List Bytes} (unforged : NoForgery gcm aesKey baseIv chunks inputs)
    (found : inputs[index]? = some input) (opens : (openAt gcm aesKey baseIv index input).isSome) :
    ∃ position, position ≡ index [MOD 2 ^ 64] ∧ frames[position]? = some input := by
  obtain ⟨plaintext, opened⟩ := isSome_iff_exists.mp opens
  obtain ⟨ciphertext, tag, parsed, decrypted⟩ := open_at_returns opened
  obtain ⟨chunk, ⟨position, present, sharing⟩, encrypted⟩ :=
    unforged index input ciphertext tag found parsed (isSome_iff_exists.mpr ⟨plaintext, decrypted⟩)
  obtain ⟨frame, framed, made⟩ := at_positions_get written present
  rw [zero_add] at made
  refine ⟨position, (position_iv_eq_iff baseIv position index).mp sharing, ?_⟩
  rw [framed, (seal_at_returns (short chunk (mem_of_getElem? present)) made).1, sharing, encrypted,
    (parse_frame_packed parsed).1]

theorem frame_opens (sharing : position ≡ index [MOD 2 ^ 64])
    (framed : frames[position]? = some frame) : (openAt gcm aesKey baseIv index frame).isSome := by
  have bound : position < chunks.length := by
    rw [← at_positions_length written]
    exact (List.getElem?_eq_some_iff.mp framed).1
  obtain ⟨other, sameFrame, made⟩ := at_positions_get written (List.getElem?_eq_getElem bound)
  rw [framed] at sameFrame
  rw [zero_add, ← sameFrame] at made
  rw [sealed_opens (short _ (getElem_mem bound)) made
    ((position_iv_eq_iff baseIv position index).mpr sharing)]
  rfl

end

end Positions

/-- A stream decrypts to its chunks. Otherwise the reader accepts what puts each frame where its
vector is used. -/
theorem stream_accepted_iff {gcm : AesGcm} {aesKey : Bytes} {baseIv : Vector UInt8 pqcAesIvLen}
    {chunks frames : List Bytes} (short : ∀ chunk ∈ chunks, chunk.length < 2 ^ 32)
    (encrypted : encryptStream gcm (initialState aesKey baseIv) chunks = some frames) :
    decryptStream gcm (initialState aesKey baseIv) frames = some chunks ∧
      ∀ inputs, NoForgery gcm aesKey baseIv chunks inputs →
        (decryptStream gcm (initialState aesKey baseIv) inputs = none ↔
          ¬ Placed (fun position index => position ≡ index [MOD 2 ^ 64]) frames inputs) ∧
        (frames.length ≤ 2 ^ 64 → inputs.length ≤ 2 ^ 64 →
          (decryptStream gcm (initialState aesKey baseIv) inputs = none ↔
            ¬ inputs <+: frames)) := by
  rw [encrypt_stream_positions] at encrypted
  simp only [decrypt_stream_positions]
  refine ⟨opens_sealed ?_ encrypted, ?_⟩
  · intro position chunk member frame made
    exact sealed_opens (short chunk member) made rfl
  · intro inputs unforged
    have accepted : (atPositions (openAt gcm aesKey baseIv) 0 inputs).isSome ↔
        Placed (fun position index => position ≡ index [MOD 2 ^ 64]) frames inputs := by
      apply accepted_iff_placed
      · intro position index frame sharing framed
        exact frame_opens short encrypted sharing framed
      · intro index input found opens
        exact opened_is_frame short encrypted unforged found opens
    rw [← not_isSome_iff_eq_none, accepted]
    refine ⟨Iff.rfl, ?_⟩
    intro framesShort inputsShort
    rw [placed_iff_initial framesShort inputsShort]

def sampleKey : Bytes := [7]

def sampleStart : StreamState := initialState sampleKey (Vector.replicate pqcAesIvLen 0)

def sampleFrame (chunk counter : UInt8) : Bytes :=
  [0, 0, 0, 1, chunk] ++ List.replicate 11 0 ++ [counter, 7, 0, 0, 0]

theorem sample_encrypted : encryptStream (transparent 16) sampleStart [[1], [2]] =
    some [sampleFrame 1 0, sampleFrame 2 1] := by
  decide +kernel

theorem sample_no_forgery : NoForgery (transparent 16) sampleKey (Vector.replicate pqcAesIvLen 0)
    [[1], [2]] [sampleFrame 2 1] := by
  intro index input ciphertext tag found parsed decrypts
  obtain ⟨bound, rfl⟩ := List.getElem?_eq_some_iff.mp found
  obtain rfl : index = 0 := by simpa using bound
  obtain ⟨rfl, rfl⟩ : [2] = ciphertext ∧ List.replicate 11 0 ++ [1, 7, 0, 0, 0] = tag := by
    have computed : parseFrame (sampleFrame 2 1) =
      some ([2], List.replicate 11 0 ++ [1, 7, 0, 0, 0]) := by decide +kernel
    simpa using computed.symm.trans parsed
  exact absurd decrypts (by decide +kernel)

/-- Without its first frame the stream is refused. -/
theorem sample_stream_without_first :
    decryptStream (transparent 16) sampleStart [sampleFrame 1 0, sampleFrame 2 1] =
        some [[1], [2]] ∧
      decryptStream (transparent 16) sampleStart [sampleFrame 2 1] = none := by
  obtain ⟨whole, others⟩ := stream_accepted_iff (by decide) sample_encrypted
  refine ⟨whole, ((others _ sample_no_forgery).2 (by decide) (by decide)).mpr (by decide)⟩

/-- Without its last frame it is accepted. -/
theorem truncated_stream_accepted :
    encryptStream (transparent 16) sampleStart [[1], [2]] =
        some [sampleFrame 1 0, sampleFrame 2 1] ∧
      decryptStream (transparent 16) sampleStart [sampleFrame 1 0] = some [[1]] := by
  decide +kernel

theorem advance_moves (state : StreamState) :
    state.advance.chunkCounter ≠ state.chunkCounter := by
  simp [StreamState.advance]

/-- A call that fails before it takes its vector keeps the state. A later failure has moved the
counter. -/
theorem failed_chunk_state (gcm : AesGcm) (calls : StreamCalls) (state : StreamState)
    (input : Bytes) :
    ((pqcEncryptData gcm calls state input).2 = none →
      if input = [] ∨ calls.digestUpdate = false then
        (pqcEncryptData gcm calls state input).1 = state
      else (pqcEncryptData gcm calls state input).1 = (state.digest input).advance ∧
        (pqcEncryptData gcm calls state input).1.chunkCounter ≠ state.chunkCounter) ∧
    ((pqcDecryptData gcm calls state input).2 = none →
      if parseFrame input = none then (pqcDecryptData gcm calls state input).1 = state
      else (pqcDecryptData gcm calls state input).1 = state.advance ∧
        (pqcDecryptData gcm calls state input).1.chunkCounter ≠ state.chunkCounter) := by
  constructor
  · intro failed
    split_ifs with early
    · rw [pqcEncryptData, if_pos early]
    · have moved : (pqcEncryptData gcm calls state input).1 = (state.digest input).advance := by
        rw [pqcEncryptData, if_neg early]
        dsimp only
        split
        · rfl
        · split
          · rfl
          · split <;> rfl
      rw [moved]
      exact ⟨rfl, advance_moves (state.digest input)⟩
  · intro failed
    split_ifs with malformed
    · rw [pqcDecryptData, malformed]
    · obtain ⟨⟨ciphertext, tag⟩, parsed⟩ := ne_none_iff_exists'.mp malformed
      have moved : (pqcDecryptData gcm calls state input).1 = state.advance := by
        revert failed
        rw [pqcDecryptData, parsed]
        dsimp only
        split
        · exact fun _ => rfl
        · split
          · exact fun _ => rfl
          · split
            · exact fun _ => rfl
            · exact nofun
      rw [moved]
      exact ⟨rfl, advance_moves state⟩

/-- A chunk encrypted again after the buffer could not be allocated is refused by the peer. -/
theorem retried_chunk_refused :
    (pqcEncryptData (transparent 16) { allSucceed with allocates := false } sampleStart [1]).2 =
        none ∧
      (pqcEncryptData (transparent 16) allSucceed
        (pqcEncryptData (transparent 16) { allSucceed with allocates := false } sampleStart [1]).1
        [1]).2 = some (sampleFrame 1 1) ∧
      decryptStream (transparent 16) sampleStart [sampleFrame 1 1] = none := by
  decide +kernel

end FortressQL.Dump.ChunkStream
