import FortressQL.Wal.RecordImages

/-!
# Block references in WAL records

A record is cut into parts, one for each block reference, whose headers come first and whose data
follow.
-/

namespace FortressQL.Wal.RecordParts

open List Elog Lib.ByteStrings Lib.Fields Lib.LittleEndian Storage.BlockAddress Wal.RecordAssemble
open Wal.RecordDecode Wal.RecordFormat Wal.RecordImages BlockImage

section Parts

structure BlockPart where
  blockId : Nat
  regbuf : RegisteredBuffer
  image : Option BlockImage
  hasData : Bool
  sameRel : Bool

def BlockPart.header (part : BlockPart) : Bytes :=
  blockHeader part.blockId part.regbuf part.image part.hasData part.sameRel

def BlockPart.datas (part : BlockPart) : List Bytes :=
  blockDatas part.regbuf part.image part.hasData

def BlockPart.flags (part : BlockPart) : UInt8 :=
  forkFlags part.regbuf.forkno (willInit part.regbuf) part.image.isSome part.hasData part.sameRel

def BlockPart.dataLen (part : BlockPart) : Nat := if part.hasData then part.regbuf.rdataLen else 0

def BlockPart.decoded (part : BlockPart) : DecodedBkpBlock :=
  { rlocator := part.regbuf.rlocator
    forknum := forkByte part.regbuf.forkno
    blkno := part.regbuf.block
    flags := part.flags
    hasImage := part.image.isSome
    applyImage := part.image.elim false fun image => hasBit image.bimgInfo bkpimageApply
    bkpImage := part.image.elim [] fun image => image.rdatas.flatten
    holeOffset := part.image.elim 0 BlockImage.holeOffset
    holeLength := part.image.elim 0 BlockImage.holeLength
    bimgLen := part.image.elim 0 BlockImage.length
    bimgInfo := part.image.elim 0 BlockImage.bimgInfo
    hasData := part.hasData
    data := if part.hasData then part.regbuf.rdata.flatten else []
    dataLen := part.dataLen }

def BlockPart.announced (part : BlockPart) : DecodedBkpBlock :=
  { part.decoded with bkpImage := [], data := [] }

structure BlockPart.Sound (compressors : Compressors) (prev : Option RelFileLocator)
    (part : BlockPart) : Prop where
  idBound : part.blockId ≤ xlrMaxBlockId
  image : ∀ image ∈ part.image, ∃ apply method,
    ImageOf compressors part.regbuf apply image method
  data : part.hasData = true → 0 < part.regbuf.rdataLen
  sameRel : part.sameRel = true → prev = some part.regbuf.rlocator

variable {compressors : Compressors} {prev : Option RelFileLocator} {part : BlockPart}

theorem part_data_length (sound : part.Sound compressors prev) :
    part.datas.flatten.length = part.image.elim 0 length + part.dataLen := by
  have attached : (if part.hasData then part.regbuf.rdata else []).flatten.length =
      part.dataLen := by
    unfold BlockPart.dataLen
    split_ifs
    · rfl
    · rfl
  rw [BlockPart.datas, blockDatas, flatten_append, length_append, attached]
  cases held : part.image with
  | none => rfl
  | some image =>
    obtain ⟨apply, method, imageOf⟩ := sound.image image held
    simp [imageOf.dataLength]

theorem copy_image_part (sound : part.Sound compressors prev) (readRecPtr dataLen : Nat)
    (rest : Bytes) (remaining : Nat) :
    copyImage readRecPtr dataLen
        { ptr := part.image.elim [] imageHeader ++ rest
          remaining := (part.image.elim [] imageHeader).length + remaining } part.image.isSome =
      .ok ({ bimgLen := part.image.elim 0 length
             holeOffset := part.image.elim 0 holeOffset
             holeLength := part.image.elim 0 holeLength
             bimgInfo := part.image.elim 0 bimgInfo },
        { ptr := rest, remaining := remaining }) := by
  cases held : part.image with
  | none => simp [copyImage]
  | some image =>
    obtain ⟨apply, method, imageOf⟩ := sound.image image held
    exact copy_image_header_sound imageOf.toImageSound readRecPtr dataLen rest remaining

theorem check_data_length_part (sound : part.Sound compressors prev) (readRecPtr : Nat) :
    checkDataLength readRecPtr part.hasData part.dataLen = .ok () := by
  unfold checkDataLength BlockPart.dataLen
  rw [demand_holds, ok_then, demand_holds]
  · rintro ⟨without, length⟩
    simp [without] at length
  · rintro ⟨attached, empty⟩
    have filled := sound.data attached
    simp only [attached, if_true] at empty
    omega

def BlockPart.fields (part : BlockPart) : Bytes :=
  part.flags :: (encodeLe 2 part.dataLen ++ (part.image.elim [] imageHeader ++
    ((if part.sameRel then [] else encodeRelFileLocator part.regbuf.rlocator) ++
      encodeLe 4 part.regbuf.block.toNat)))

theorem part_header_fields (part : BlockPart) :
    part.header = UInt8.ofNat part.blockId :: part.fields := rfl

variable {decoding : Decoding} {regbuf : RegisteredBuffer} {image : Option BlockImage}
  {blockId : Nat} {slots : List (Option RegisteredBuffer)} {parts : List BlockPart}

section

variable (sound : part.Sound compressors prev) (locator : decoding.rlocator = prev)
  (order : ∀ highest ∈ maxBlockId decoding, highest < part.blockId) (readRecPtr : Nat)
  (rest : Bytes) (remaining : Nat)

include sound locator order

theorem decode_block_header_part :
    decodeBlockHeader readRecPtr decoding
        { ptr := part.fields ++ rest, remaining := part.fields.length + remaining }
        part.blockId =
      .ok { (decoding.addData part.dataLen).addData (part.image.elim 0 length) with
        cursor := { ptr := rest, remaining := remaining }
        rlocator := some part.regbuf.rlocator
        blocks := decoding.blocks ++ [(part.blockId, part.announced)] } := by
  obtain ⟨fork, image, data, -, sameRel⟩ := fork_flags_read part.regbuf.forkno
    (willInit part.regbuf) part.image.isSome part.hasData part.sameRel
  have dataFits : part.dataLen < 256 ^ 2 := by
    have fits : part.regbuf.rdataLen ≤ 65535 := part.regbuf.dataFits
    unfold BlockPart.dataLen
    split_ifs <;> omega
  have blockFits : part.regbuf.block.toNat < 256 ^ 4 := part.regbuf.block.toNat_lt
  have locatorRead := copy_locator_append readRecPtr decoding.rlocator
    part.regbuf.rlocator sameRel (fun same => locator.trans (sound.sameRel same))
  have size : part.fields.length + remaining = 1 + (2 + ((part.image.elim [] imageHeader).length +
        ((if part.sameRel then [] else encodeRelFileLocator part.regbuf.rlocator).length +
          (4 + remaining)))) := by
    simp only [BlockPart.fields, length_cons, length_append, encode_le_length]
    omega
  have imageRead := copy_image_part sound readRecPtr part.dataLen
  have applied : (part.image.isSome && hasBit (part.image.elim 0 bimgInfo)
      bkpimageApply) = part.image.elim false fun image => hasBit image.bimgInfo bkpimageApply := by
    cases part.image <;> rfl
  rw [size]
  unfold decodeBlockHeader checkBlockOrder
  rw [demand_holds order]
  simp only [BlockPart.fields, BlockPart.flags, cons_append, append_assoc, ok_then,
    copy_byte_append, copy_number_append readRecPtr dataFits, data, image, fork,
    check_data_length_part sound, imageRead, locatorRead, copy_number_append readRecPtr blockFits]
  simp [BlockPart.announced, BlockPart.decoded, BlockPart.flags, applied]

theorem decode_fragment_part (cursor : decoding.cursor =
      { ptr := part.header ++ rest, remaining := part.header.length + remaining }) :
    decodeFragment readRecPtr decoding =
      .ok ({ (decoding.addData part.dataLen).addData (part.image.elim 0 length) with
        cursor := { ptr := rest, remaining := remaining }
        rlocator := some part.regbuf.rlocator
        blocks := decoding.blocks ++ [(part.blockId, part.announced)] }, false) := by
  have bound : part.blockId ≤ 32 := sound.idBound
  have small : (UInt8.ofNat part.blockId).toNat = part.blockId := by
    rw [UInt8.toNat_ofNat']
    omega
  have notReserved : ∀ reserved : UInt8, 32 < reserved.toNat →
      UInt8.ofNat part.blockId ≠ reserved := by
    rintro reserved high rfl
    omega
  have size : part.header.length + remaining = 1 + (part.fields.length + remaining) := by
    rw [part_header_fields, length_cons]
    omega
  rw [decodeFragment, cursor, size, part_header_fields, cons_append, copy_byte_append, ok_then]
  dsimp only
  rw [if_neg (notReserved _ (by decide)), if_neg (notReserved _ (by decide)),
    if_neg (notReserved _ (by decide)), if_neg (notReserved _ (by decide)), small,
    if_pos sound.idBound, decode_block_header_part sound locator order readRecPtr rest remaining]
  rfl

end

def partOf (env : AssembleEnv) (blockId : Nat) (prev : Option RelFileLocator)
    (regbuf : RegisteredBuffer) (image : Option BlockImage) : BlockPart :=
  { blockId := blockId
    regbuf := regbuf
    image := image
    hasData := needsData env regbuf
    sameRel := decide (prev = some regbuf.rlocator) }

inductive Parts (env : AssembleEnv) (info : UInt8) :
    Nat → Option RelFileLocator → List (Option RegisteredBuffer) → List BlockPart → Prop where
  | done (blockId : Nat) (prev : Option RelFileLocator) : Parts env info blockId prev [] []
  | unused {blockId : Nat} {prev : Option RelFileLocator}
      {slots : List (Option RegisteredBuffer)} {parts : List BlockPart}
      (rest : Parts env info (blockId + 1) prev slots parts) :
      Parts env info blockId prev (none :: slots) parts
  | block {blockId : Nat} {prev : Option RelFileLocator} {regbuf : RegisteredBuffer}
      {image : Option BlockImage} {slots : List (Option RegisteredBuffer)} {parts : List BlockPart}
      (assembled : assembleImage env info regbuf = .ok image)
      (rest : Parts env info (blockId + 1) (some regbuf.rlocator) slots parts) :
      Parts env info blockId prev (some regbuf :: slots)
        (partOf env blockId prev regbuf image :: parts)

variable {env : AssembleEnv} {info : UInt8}

theorem assemble_image_of (assembled : assembleImage env info regbuf = .ok image) :
    image.isSome = includeImage env info regbuf ∧ ∀ held ∈ image, ∃ method,
      ImageOf env.compressors regbuf (needsBackup env regbuf) held method := by
  unfold assembleImage at assembled
  split_ifs at assembled with included
  · cases made : blockImage env.compressors env.walCompression regbuf (needsBackup env regbuf) with
    | error report => simp [made, Except.map] at assembled
    | ok held =>
      simp only [made, Except.map, Except.ok.injEq] at assembled
      subst assembled
      refine ⟨included.symm, ?_⟩
      rintro _ ⟨⟩
      exact block_image_of made
  · cases assembled
    exact ⟨by simpa using included, fun _ => nofun⟩

theorem part_of_sound (prev : Option RelFileLocator) (bound : blockId ≤ xlrMaxBlockId)
    (assembled : assembleImage env info regbuf = .ok image) :
    (partOf env blockId prev regbuf image).Sound env.compressors prev := by
  have images := (assemble_image_of assembled).2
  refine ⟨bound, ?_, ?_, ?_⟩
  · intro held member
    obtain ⟨method, imageOf⟩ := images held member
    exact ⟨needsBackup env regbuf, method, imageOf⟩
  · intro attached
    by_contra empty
    have none : regbuf.rdataLen = 0 := Nat.eq_zero_of_not_pos empty
    simp [partOf, needsData, none] at attached
  · intro same
    exact of_decide_eq_true same

theorem insertion_slot_bound (insertion : Insertion) :
    0 + insertion.registeredBuffers.length ≤ xlrMaxBlockId + 1 := by
  rw [zero_add]
  exact le_trans insertion.buffersFit insertion.spaceBound

theorem assemble_blocks_parts {assembly final : Assembly}
    (bound : blockId + slots.length ≤ xlrMaxBlockId + 1)
    (assembled : assembleBlocks env info blockId slots assembly = .ok final) :
    ∃ parts, Parts env info blockId assembly.prevLocator slots parts ∧
      final.scratch = assembly.scratch ++ parts.flatMap BlockPart.header ∧
      final.datas = assembly.datas ++ parts.flatMap BlockPart.datas ∧
      final.totalLen = assembly.totalLen + (parts.flatMap BlockPart.datas).flatten.length := by
  induction slots generalizing blockId assembly with
  | nil =>
    cases assembled
    exact ⟨[], .done blockId _, by simp⟩
  | cons slot slots ih =>
    rw [length_cons] at bound
    cases slot with
    | none =>
      obtain ⟨parts, cut, written⟩ := ih (by omega) assembled
      exact ⟨parts, .unused cut, written⟩
    | some regbuf =>
      simp only [assembleBlocks, assembleBlock, sequence_returns, Except.ok.injEq] at assembled
      obtain ⟨-, ⟨image, made, rfl⟩, rest⟩ := assembled
      obtain ⟨parts, cut, scratch, datas, totalLen⟩ := ih (by omega) rest
      refine ⟨partOf env blockId assembly.prevLocator regbuf image :: parts,
        .block made cut, ?_, ?_, ?_⟩
      · rw [scratch]
        simp [BlockPart.header, partOf]
      · rw [datas]
        simp [BlockPart.datas, partOf]
      · have sound := part_of_sound assembly.prevLocator
          (show blockId ≤ xlrMaxBlockId by omega) made
        have length := part_data_length sound
        rw [totalLen, flatMap_cons, flatten_append, length_append, length]
        simp only [add_assoc]
        rfl

def readPart (decoding : Decoding) (part : BlockPart) (cursor : Cursor) : Decoding :=
  { decoding with
    cursor := cursor
    datatotal := decoding.datatotal + part.datas.flatten.length
    rlocator := some part.regbuf.rlocator
    blocks := decoding.blocks ++ [(part.blockId, part.announced)] }

theorem decode_headers_round (sound : part.Sound compressors prev) (readRecPtr rounds : Nat)
    (rest : Bytes) (remaining : Nat) (cursor : decoding.cursor =
      { ptr := part.header ++ rest, remaining := part.header.length + remaining })
    (locator : decoding.rlocator = prev)
    (order : ∀ highest ∈ maxBlockId decoding, highest < part.blockId)
    (room : decoding.datatotal ≤ remaining)
    (small : decoding.datatotal + part.datas.flatten.length < uint32Range) :
    decodeHeaders readRecPtr (rounds + 1) decoding = decodeHeaders readRecPtr rounds
      (readPart decoding part { ptr := rest, remaining := remaining }) := by
  have length := part_data_length sound
  have more : decoding.cursor.remaining > decoding.datatotal := by
    rw [cursor, part_header_fields, length_cons]
    dsimp only
    omega
  have total : ((decoding.datatotal + part.dataLen) % uint32Range +
      part.image.elim 0 BlockImage.length) % uint32Range =
      decoding.datatotal + part.datas.flatten.length := by
    have first : (decoding.datatotal + part.dataLen) % uint32Range =
        decoding.datatotal + part.dataLen := Nat.mod_eq_of_lt (by omega)
    rw [Nat.mod_eq_of_lt (by omega)]
    omega
  rw [decodeHeaders, if_pos more,
    decode_fragment_part sound locator order readRecPtr rest remaining cursor]
  simp [Decoding.addData, total, readPart]

theorem decode_headers_parts (cut : Parts env info blockId prev slots parts)
    (bound : blockId + slots.length ≤ xlrMaxBlockId + 1) (readRecPtr : Nat) (decoding : Decoding)
    (rest : Bytes) {remaining rounds : Nat} (cursor : decoding.cursor =
      { ptr := parts.flatMap BlockPart.header ++ rest
        remaining := (parts.flatMap BlockPart.header).length + remaining })
    (locator : decoding.rlocator = prev)
    (order : ∀ highest ∈ maxBlockId decoding, highest < blockId)
    (room : decoding.datatotal + (parts.flatMap BlockPart.datas).flatten.length ≤ remaining)
    (small : remaining < uint32Range) (enough : decoding.cursor.remaining ≤ rounds) :
    ∃ left locator, remaining ≤ left ∧
      decodeHeaders readRecPtr rounds decoding = decodeHeaders readRecPtr left
        { decoding with
          cursor := { ptr := rest, remaining := remaining }
          datatotal := decoding.datatotal + (parts.flatMap BlockPart.datas).flatten.length
          rlocator := locator
          blocks := decoding.blocks ++ parts.map fun part => (part.blockId, part.announced) } := by
  induction cut generalizing rounds decoding with
  | done blockId prev =>
    refine ⟨rounds, decoding.rlocator, ?_, ?_⟩
    · rw [cursor] at enough
      exact le_trans (Nat.le_add_left _ _) enough
    · obtain ⟨found, datatotal, rlocator, blocks, origin, xid, length⟩ := decoding
      subst cursor
      simp
  | unused cut ih =>
    rw [length_cons] at bound
    exact ih (by omega) decoding cursor locator (fun highest member => Nat.lt_succ_of_lt
      (order highest member)) room enough
  | @block blockId prev regbuf image slots parts made cut ih =>
    rw [length_cons] at bound
    have sound := part_of_sound prev (show blockId ≤ xlrMaxBlockId by omega) made
    rw [flatMap_cons, append_assoc, length_append, add_assoc] at cursor
    rw [flatMap_cons, flatten_append, length_append] at room
    have nonempty : 0 < (partOf env blockId prev regbuf image).header.length := by
      rw [part_header_fields, length_cons]
      omega
    rw [cursor] at enough
    dsimp only at enough
    obtain ⟨fewer, rfl⟩ : ∃ fewer, rounds = fewer + 1 :=
      Nat.exists_eq_succ_of_ne_zero (by omega)
    have round := decode_headers_round sound readRecPtr fewer _ _ cursor locator order
      (by omega) (by omega)
    have next : ∀ highest ∈ maxBlockId (readPart decoding (partOf env blockId prev regbuf image)
        { ptr := parts.flatMap BlockPart.header ++ rest
          remaining := (parts.flatMap BlockPart.header).length + remaining }),
        highest < blockId + 1 := by
      simp [maxBlockId, readPart, partOf]
    obtain ⟨left, last, enough', same⟩ := ih (by omega) _ rfl rfl next
      (by simp only [readPart]; omega) (show _ ≤ fewer by simp only [readPart]; omega)
    refine ⟨left, last, enough', round.trans (same.trans ?_)⟩
    simp [readPart, add_assoc]

theorem fill_block_part (sound : part.Sound compressors prev) (tail : Bytes) :
    fillBlock (part.datas.flatten ++ tail) part.announced = (part.decoded, tail) := by
  have attached : part.hasData = true → part.dataLen = part.regbuf.rdata.flatten.length := by
    intro has
    simp [BlockPart.dataLen, has, RegisteredBuffer.rdataLen]
  simp only [fillBlock, BlockPart.datas, blockDatas, BlockPart.announced, BlockPart.decoded]
  obtain held | ⟨image, held⟩ := Option.eq_none_or_eq_some part.image
  · cases Bool.eq_false_or_eq_true part.hasData with
    | inl has => simp [held, has, attached has]
    | inr has => simp [held, has]
  · obtain ⟨apply, method, imageOf⟩ := sound.image image held
    have imageLength := imageOf.dataLength
    cases Bool.eq_false_or_eq_true part.hasData with
    | inl has => simp [held, has, ← imageLength, attached has]
    | inr has => simp [held, has, ← imageLength]

theorem fill_blocks_parts (cut : Parts env info blockId prev slots parts)
    (bound : blockId + slots.length ≤ xlrMaxBlockId + 1) (tail : Bytes) :
    fillBlocks ((parts.flatMap BlockPart.datas).flatten ++ tail)
        (parts.map fun part => (part.blockId, part.announced)) =
      (parts.map fun part => (part.blockId, part.decoded), tail) := by
  induction cut with
  | done blockId prev => rfl
  | unused cut ih =>
    rw [length_cons] at bound
    exact ih (by omega)
  | @block blockId prev regbuf image slots parts made cut ih =>
    rw [length_cons] at bound
    have sound := part_of_sound prev (show blockId ≤ xlrMaxBlockId by omega) made
    rw [flatMap_cons, flatten_append, append_assoc, map_cons, fillBlocks, fill_block_part sound]
    dsimp only
    rw [ih (by omega)]
    rfl

/-- The buffer with an id among slots that are numbered from `blockId` on. -/
def slotOf (blockId : Nat) (slots : List (Option RegisteredBuffer)) (id : Nat) :
    Option RegisteredBuffer :=
  if id < blockId then none else slots.getD (id - blockId) none

theorem slot_of_cons (blockId : Nat) (slot : Option RegisteredBuffer)
    (slots : List (Option RegisteredBuffer)) (id : Nat) :
    slotOf blockId (slot :: slots) id =
      if id = blockId then slot else slotOf (blockId + 1) slots id := by
  unfold slotOf
  rcases lt_trichotomy id blockId with below | rfl | above
  · rw [if_pos below, if_neg (by omega), if_pos (by omega)]
  · simp
  · obtain ⟨distance, rfl⟩ := Nat.exists_eq_add_of_lt above
    rw [if_neg (by omega), if_neg (by omega), if_neg (by omega),
      show blockId + distance + 1 - blockId = distance + 1 by omega,
      show blockId + distance + 1 - (blockId + 1) = distance by omega, getD_cons_succ]

theorem parts_lookup (cut : Parts env info blockId prev slots parts) (id : Nat) :
    match slotOf blockId slots id with
    | none => (parts.map fun part => (part.blockId, part.decoded)).lookup id = none
    | some regbuf => ∃ before image, assembleImage env info regbuf = .ok image ∧
        (parts.map fun part => (part.blockId, part.decoded)).lookup id =
          some (partOf env id before regbuf image).decoded := by
  induction cut with
  | done blockId prev => simp [slotOf]
  | @unused blockId prev slots parts cut ih =>
    rw [slot_of_cons]
    split_ifs with same
    · subst same
      simpa [slotOf] using ih
    · exact ih
  | @block blockId prev regbuf image slots parts made cut ih =>
    rw [slot_of_cons, map_cons, lookup_cons]
    split_ifs with same
    · subst same
      refine ⟨prev, image, made, ?_⟩
      simp [partOf]
    · have other : (id == (partOf env blockId prev regbuf image).blockId) = false := by
        simpa [partOf] using same
      rw [other]
      exact ih

end Parts

end FortressQL.Wal.RecordParts
