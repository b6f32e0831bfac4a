import FortressQL.Wal.RecordParts

/-!
# What is assembled is what is decoded

`DecodeXLogRecord` undoes `XLogRecordAssemble`, and every page image restores the registered page.
-/

namespace FortressQL.Wal.RecordRoundTrip

open List Elog Lib.ByteStrings Lib.LittleEndian Storage.BlockAddress Storage.BufPage
open Wal.RecordAssemble Wal.RecordDecode Wal.RecordFormat Wal.RecordImages Wal.RecordParts BlockPart

section Tail

variable (readRecPtr : Nat) (decoding : Decoding) {remaining rounds : Nat}

theorem decode_fragment_origin (origin : RepOriginId) (rest : Bytes) (cursor : decoding.cursor =
      { ptr := xlrBlockIdOrigin :: (encodeLe 2 origin.toNat ++ rest)
        remaining := 1 + (2 + remaining) }) :
    decodeFragment readRecPtr decoding =
      .ok ({ decoding with
        cursor := { ptr := rest, remaining := remaining }
        recordOrigin := origin }, false) := by
  have fits : origin.toNat < 256 ^ 2 := origin.toNat_lt
  rw [decodeFragment, cursor, copy_byte_append]
  simp [xlrBlockIdOrigin, xlrBlockIdDataShort, xlrBlockIdDataLong,
    copy_number_append readRecPtr fits]

theorem decode_fragment_xid (xid : TransactionId) (rest : Bytes) (cursor : decoding.cursor =
      { ptr := xlrBlockIdToplevelXid :: (encodeLe 4 xid.toNat ++ rest)
        remaining := 1 + (4 + remaining) }) :
    decodeFragment readRecPtr decoding =
      .ok ({ decoding with
        cursor := { ptr := rest, remaining := remaining }
        toplevelXid := xid }, false) := by
  have fits : xid.toNat < 256 ^ 4 := xid.toNat_lt
  rw [decodeFragment, cursor, copy_byte_append]
  simp [xlrBlockIdToplevelXid, xlrBlockIdOrigin, xlrBlockIdDataShort, xlrBlockIdDataLong,
    copy_number_append readRecPtr fits]

variable {length : Nat}

theorem decode_fragment_main (some : 0 < length) (fits : length ≤ uint32Max) (rest : Bytes)
    (cursor : decoding.cursor =
      { ptr := mainDataHeader length ++ rest
        remaining := (mainDataHeader length).length + remaining }) :
    decodeFragment readRecPtr decoding =
      .ok ({ decoding.addData length with
        cursor := { ptr := rest, remaining := remaining }
        mainDataLen := length }, true) := by
  unfold mainDataHeader at cursor
  rw [if_neg (ne_of_gt some)] at cursor
  split_ifs at cursor with long
  · have numberFits : length < 256 ^ 4 := Nat.lt_succ_of_le fits
    rw [length_cons, encode_le_length, cons_append,
      show 4 + 1 + remaining = 1 + (4 + remaining) by omega] at cursor
    rw [decodeFragment, cursor, copy_byte_append]
    simp [xlrBlockIdDataShort, xlrBlockIdDataLong, copy_number_append readRecPtr numberFits]
  · have numberFits : length < 256 ^ 1 := by omega
    have number := copy_number_append readRecPtr numberFits rest remaining
    rw [show [xlrBlockIdDataShort, UInt8.ofNat length].length + remaining =
      1 + (1 + remaining) by simp; omega] at cursor
    rw [decodeFragment, cursor, cons_append, copy_byte_append, ok_then]
    simp only [if_true]
    rw [show [UInt8.ofNat length] = encodeLe 1 length from rfl, number, ok_then]

def includedXid (env : AssembleEnv) : TransactionId :=
  if env.subxactTopXidLogPending then env.topTransactionId else invalidTransactionId

section Optional

variable (room : decoding.datatotal ≤ remaining) (enough : decoding.cursor.remaining ≤ rounds)

include room enough

theorem decode_headers_read {next : Decoding} {ptr : Bytes} {size : Nat}
    (cursor : decoding.cursor = { ptr := ptr, remaining := 1 + (size + remaining) })
    (read : decodeFragment readRecPtr decoding = .ok (next, false)) :
    ∃ left, remaining ≤ left ∧
      decodeHeaders readRecPtr rounds decoding = decodeHeaders readRecPtr left next := by
  have size : decoding.cursor.remaining = 1 + (size + remaining) := by rw [cursor]
  obtain ⟨left, rfl⟩ : ∃ left, rounds = left + 1 := Nat.exists_eq_succ_of_ne_zero (by omega)
  refine ⟨left, by omega, ?_⟩
  rw [decodeHeaders, if_pos (by omega), read]
  rfl

theorem decode_headers_origin (origin : RepOriginId) (rest : Bytes) (cursor : decoding.cursor =
      { ptr := originHeader origin ++ rest, remaining := (originHeader origin).length + remaining })
    (unset : decoding.recordOrigin = invalidRepOriginId) :
    ∃ left, remaining ≤ left ∧ decodeHeaders readRecPtr rounds decoding =
      decodeHeaders readRecPtr left
        { decoding with
          cursor := { ptr := rest, remaining := remaining }
          recordOrigin := origin } := by
  unfold originHeader at cursor
  split_ifs at cursor with none
  · obtain ⟨found, datatotal, rlocator, blocks, recordOrigin, xid, length⟩ := decoding
    subst cursor unset none
    refine ⟨rounds, by simpa using enough, by simp⟩
  · rw [length_cons, encode_le_length,
      show 2 + 1 + remaining = 1 + (2 + remaining) by omega] at cursor
    exact decode_headers_read readRecPtr decoding room enough cursor
      (decode_fragment_origin readRecPtr decoding origin rest cursor)

theorem decode_headers_xid (env : AssembleEnv) (rest : Bytes) (cursor : decoding.cursor =
      { ptr := toplevelXidHeader env ++ rest
        remaining := (toplevelXidHeader env).length + remaining })
    (unset : decoding.toplevelXid = invalidTransactionId) :
    ∃ left, remaining ≤ left ∧ decodeHeaders readRecPtr rounds decoding =
      decodeHeaders readRecPtr left
        { decoding with
          cursor := { ptr := rest, remaining := remaining }
          toplevelXid := includedXid env } := by
  unfold toplevelXidHeader at cursor
  unfold includedXid
  split_ifs at cursor ⊢ with pending
  · rw [length_cons, encode_le_length,
      show 4 + 1 + remaining = 1 + (4 + remaining) by omega] at cursor
    exact decode_headers_read readRecPtr decoding room enough cursor
      (decode_fragment_xid readRecPtr decoding env.topTransactionId rest cursor)
  · obtain ⟨found, datatotal, rlocator, blocks, recordOrigin, xid, length⟩ := decoding
    subst cursor unset
    refine ⟨rounds, by simpa using enough, by simp⟩

end Optional

theorem decode_headers_main (fits : length ≤ uint32Max) (rest : Bytes) (cursor : decoding.cursor =
      { ptr := mainDataHeader length ++ rest
        remaining := (mainDataHeader length).length + remaining })
    (unset : decoding.mainDataLen = 0) (exact : decoding.datatotal + length = remaining)
    (small : remaining < uint32Range) (enough : decoding.cursor.remaining ≤ rounds) :
    decodeHeaders readRecPtr rounds decoding =
      .ok { decoding with
        cursor := { ptr := rest, remaining := remaining }
        datatotal := decoding.datatotal + length
        mainDataLen := length } := by
  rw [cursor] at enough
  dsimp only at enough
  by_cases none : length = 0
  · subst none
    rw [mainDataHeader, if_pos rfl, length_nil, zero_add] at cursor
    obtain ⟨found, datatotal, rlocator, blocks, recordOrigin, xid, mainDataLen⟩ := decoding
    dsimp only at exact
    subst cursor unset
    have finished : ¬ remaining > datatotal := by omega
    cases rounds with
    | zero => rfl
    | succ rounds => simp [decodeHeaders, finished]
  · have header : 0 < (mainDataHeader length).length := by
      unfold mainDataHeader
      split_ifs <;> simp
    have more : decoding.cursor.remaining > decoding.datatotal := by
      rw [cursor]
      dsimp only
      omega
    obtain ⟨-, rfl⟩ : ∃ left, rounds = left + 1 := Nat.exists_eq_succ_of_ne_zero (by omega)
    have total : (decoding.datatotal + length) % uint32Range = decoding.datatotal + length :=
      Nat.mod_eq_of_lt (by omega)
    rw [decodeHeaders, if_pos more,
      decode_fragment_main readRecPtr decoding (pos_of_ne_zero none) fits rest cursor]
    simp [Decoding.addData, total]

theorem decode_headers_tail (env : AssembleEnv) (origin : RepOriginId) (fits : length ≤ uint32Max)
    (data : Bytes) (cursor : decoding.cursor =
      { ptr := originHeader origin ++ (toplevelXidHeader env ++ (mainDataHeader length ++ data))
        remaining := (originHeader origin).length + ((toplevelXidHeader env).length +
          ((mainDataHeader length).length + data.length)) })
    (originUnset : decoding.recordOrigin = invalidRepOriginId)
    (xidUnset : decoding.toplevelXid = invalidTransactionId)
    (lengthUnset : decoding.mainDataLen = 0) (exact : decoding.datatotal + length = data.length)
    (small : data.length < uint32Range) (enough : decoding.cursor.remaining ≤ rounds) :
    decodeHeaders readRecPtr rounds decoding =
      .ok { decoding with
        cursor := { ptr := data, remaining := data.length }
        datatotal := decoding.datatotal + length
        recordOrigin := origin
        toplevelXid := includedXid env
        mainDataLen := length } := by
  obtain ⟨rounds, enough, originRead⟩ := decode_headers_origin readRecPtr decoding (by omega) enough
    origin _ cursor originUnset
  obtain ⟨rounds, enough, xidRead⟩ := decode_headers_xid readRecPtr
    { decoding with
      cursor :=
        { ptr := toplevelXidHeader env ++ (mainDataHeader length ++ data)
          remaining := (toplevelXidHeader env).length +
            ((mainDataHeader length).length + data.length) }
      recordOrigin := origin }
    (by dsimp only; omega) enough env _ rfl xidUnset
  rw [originRead, xidRead]
  exact decode_headers_main readRecPtr _ fits data rfl lengthUnset exact small enough

end Tail

section RoundTrip

/-- A block reference comes back with the page that redo restores from it. -/
structure BlockRestored (env : AssembleEnv) (info : UInt8) (readRecPtr : Nat)
    (decoded : DecodedXLogRecord) (blockId : Nat) (regbuf : RegisteredBuffer)
    (block : DecodedBkpBlock) : Prop where
  rlocator : block.rlocator = regbuf.rlocator
  forknum : block.forknum = forkByte regbuf.forkno
  blkno : block.blkno = regbuf.block
  willInit : hasBit block.flags bkpblockWillInit = willInit regbuf
  hasData : block.hasData = needsData env regbuf
  data : block.data = if needsData env regbuf then regbuf.rdata.flatten else []
  hasImage : block.hasImage = includeImage env info regbuf
  applyImage : block.applyImage = needsBackup env regbuf
  image : includeImage env info regbuf = true →
    restoreBlockImage env.compressors readRecPtr decoded blockId =
      .ok (zeroedPage regbuf).toList

variable {env : AssembleEnv} {info : UInt8}

theorem part_restored (inverts : DecompressionInverts env.compressors) {regbuf : RegisteredBuffer}
    {image : Option BlockImage} (assembled : assembleImage env info regbuf = .ok image)
    (readRecPtr blockId : Nat) (before : Option RelFileLocator) {decoded : DecodedXLogRecord}
    (found : decoded.block blockId = some (partOf env blockId before regbuf image).decoded) :
    BlockRestored env info readRecPtr decoded blockId regbuf
      (partOf env blockId before regbuf image).decoded := by
  obtain ⟨included, images⟩ := assemble_image_of assembled
  obtain ⟨-, -, -, init, -⟩ := fork_flags_read regbuf.forkno (willInit regbuf) image.isSome
    (needsData env regbuf) (decide (before = some regbuf.rlocator))
  refine ⟨rfl, rfl, rfl, init, rfl, rfl, included, ?_, ?_⟩
  · cases image with
    | none =>
      have unneeded : needsBackup env regbuf = false := by
        have excluded : includeImage env info regbuf = false := included.symm
        simp only [includeImage, Bool.or_eq_false_iff] at excluded
        exact excluded.1
      rw [unneeded]
      rfl
    | some held =>
      obtain ⟨method, imageOf⟩ := images held rfl
      obtain ⟨-, applied, -⟩ := bimg_info_read (held.holeLength != 0) (needsBackup env regbuf)
        method
      rw [← imageOf.info] at applied
      exact applied
  · intro wanted
    cases image with
    | none => exact absurd (included.trans wanted) Bool.false_ne_true
    | some held =>
      obtain ⟨method, imageOf⟩ := images held rfl
      have unpacked := decompress_image_of inverts imageOf readRecPtr blockId
        (show (partOf env blockId before regbuf (some held)).decoded.bimgInfo = held.bimgInfo
          from rfl) rfl rfl
      have hole := imageOf.pageHole
      have filled := refill_without_hole regbuf
      rw [← hole] at filled
      rw [restoreBlockImage, found]
      dsimp only
      rw [unpacked]
      exact congrArg Except.ok filled

def fragmentHeaders (env : AssembleEnv) (parts : List BlockPart) (origin : RepOriginId)
    (mainLength : Nat) : Bytes :=
  parts.flatMap BlockPart.header ++
    (originHeader origin ++ (toplevelXidHeader env ++ mainDataHeader mainLength))

variable {slots : List (Option RegisteredBuffer)} {parts : List BlockPart} {header : XLogRecord}
  {insertion : Insertion} {record : AssembledRecord}

section

variable {main : Bytes} (cut : Parts env info 0 none slots parts)
  (bound : 0 + slots.length ≤ xlrMaxBlockId + 1) (readRecPtr : Nat) (origin : RepOriginId)
  (mainFits : main.length ≤ uint32Max)

include cut bound readRecPtr origin mainFits

theorem decode_headers_record {remaining : Nat} {data : Bytes}
    (joined : (parts.flatMap BlockPart.datas).flatten ++ main = data)
    (size : remaining = (fragmentHeaders env parts origin main.length).length + data.length)
    (small : remaining < uint32Range) :
    ∃ locator, decodeHeaders readRecPtr remaining
        { cursor := { ptr := fragmentHeaders env parts origin main.length ++ data, remaining }
          datatotal := 0
          rlocator := none
          blocks := []
          recordOrigin := invalidRepOriginId
          toplevelXid := invalidTransactionId
          mainDataLen := 0 } =
      .ok { cursor := { ptr := data, remaining := data.length }
            datatotal := data.length
            rlocator := locator
            blocks := parts.map fun part => (part.blockId, part.announced)
            recordOrigin := origin
            toplevelXid := includedXid env
            mainDataLen := main.length } := by
  have datas : data.length = (parts.flatMap BlockPart.datas).flatten.length + main.length := by
    rw [← joined, length_append]
  have headers : fragmentHeaders env parts origin main.length ++ data =
      parts.flatMap BlockPart.header ++ (originHeader origin ++ (toplevelXidHeader env ++
        (mainDataHeader main.length ++ data))) := by
    simp [fragmentHeaders]
  have length : remaining = (parts.flatMap BlockPart.header).length +
      ((originHeader origin).length + ((toplevelXidHeader env).length +
        ((mainDataHeader main.length).length + data.length))) := by
    rw [size]
    simp [fragmentHeaders, add_assoc]
  obtain ⟨rounds, locator, enough, partsRead⟩ := decode_headers_parts cut bound readRecPtr
    ⟨⟨fragmentHeaders env parts origin main.length ++ data, remaining⟩, 0, none, [],
      invalidRepOriginId, invalidTransactionId, 0⟩ _
    (by rw [headers, length]) rfl (by simp [maxBlockId]) (by dsimp only; omega) (by omega) le_rfl
  rw [partsRead, decode_headers_tail readRecPtr _ env origin mainFits data rfl rfl rfl rfl
    (by simpa using datas.symm) (by omega) enough]
  simp [datas]

theorem decode_record_parts (prevFits : header.xlPrev < 256 ^ 8)
    (lengthFits : header.xlTotLen ≤ xlogRecordMaxSize)
    (length : header.xlTotLen = sizeOfXLogRecord +
      ((fragmentHeaders env parts origin main.length).length +
        ((parts.flatMap datas).flatten ++ main).length)) :
    decodeXLogRecord readRecPtr (encodeXLogRecord header ++
        (fragmentHeaders env parts origin main.length ++
          ((parts.flatMap datas).flatten ++ main))) = .ok
        { header := header
          recordOrigin := origin
          toplevelXid := includedXid env
          mainData := main
          mainDataLen := main.length
          blocks := parts.map fun part => (part.blockId, part.decoded) } := by
  have maximum : xlogRecordMaxSize = 1069547520 := rfl
  have range : uint32Range = 4294967296 := rfl
  have remaining : (header.xlTotLen + uint32Range - sizeOfXLogRecord) % uint32Range =
      (fragmentHeaders env parts origin main.length).length +
        ((parts.flatMap datas).flatten ++ main).length := by
    rw [range]
    omega
  obtain ⟨locator, read⟩ := decode_headers_record cut bound readRecPtr origin mainFits rfl remaining
    (by rw [remaining]; omega)
  rw [decodeXLogRecord, parse_encode_xlog_record _ (by omega) prevFits,
    drop_left' (encode_xlog_record_length header)]
  rw [read, ok_then, demand_holds rfl]
  rw [fill_blocks_parts cut bound main]
  simp

end

theorem record_assemble_returns {rmid callerInfo : UInt8}
    (assembled : xlogRecordAssemble env insertion rmid callerInfo = .ok record) :
    ∃ parts, Parts env (assembledInfo env rmid callerInfo) 0 none insertion.registeredBuffers
        parts ∧
      insertion.mainrdata.flatten.length ≤ uint32Max ∧ record.header.xlPrev = 0 ∧
      record.header.xlTotLen ≤ xlogRecordMaxSize ∧
      record.header.xlTotLen = sizeOfXLogRecord +
        ((fragmentHeaders env parts (includedOrigin env insertion)
            insertion.mainrdata.flatten.length).length +
          ((parts.flatMap datas).flatten ++ insertion.mainrdata.flatten).length) ∧
      record.chain.flatten = encodeXLogRecord record.header ++
        (fragmentHeaders env parts (includedOrigin env insertion)
            insertion.mainrdata.flatten.length ++
          ((parts.flatMap datas).flatten ++ insertion.mainrdata.flatten)) := by
  simp only [xlogRecordAssemble, sequence_returns, ensure_returns, Except.ok.injEq] at assembled
  obtain ⟨blocks, made, -, mainFits, -, sizeFits, rfl⟩ := assembled
  obtain ⟨parts, cut, scratch, datas, totalLen⟩ :=
    assemble_blocks_parts (insertion_slot_bound insertion) made
  rw [nil_append] at scratch datas
  have pieces : (if insertion.mainrdata.flatten.length > 0 then insertion.mainrdata
      else []).flatten = insertion.mainrdata.flatten := by
    split_ifs with filled
    · rfl
    · exact (length_eq_zero_iff.mp (Nat.eq_zero_of_not_pos filled)).symm
  refine ⟨parts, cut, mainFits, rfl, sizeFits, ?_, ?_⟩
  · simp only [scratch, totalLen, fragmentHeaders, length_append]
    omega
  · simp only [AssembledRecord.chain, flatten_cons, flatten_append, pieces, scratch, datas,
      fragmentHeaders, append_assoc]

/-- The content of a record decodes behind any header that has its length. -/
theorem assembled_content_decodes {rmid callerInfo : UInt8}
    (inverts : DecompressionInverts env.compressors)
    (assembled : xlogRecordAssemble env insertion rmid callerInfo = .ok record)
    (prevFits : header.xlPrev < 256 ^ 8) (sameLength : header.xlTotLen = record.header.xlTotLen)
    (readRecPtr : Nat) :
    ∃ decoded, decodeXLogRecord readRecPtr
          (encodeXLogRecord header ++ (record.scratch ++ record.datas.flatten)) = .ok decoded ∧
      decoded.header = header ∧
      decoded.recordOrigin = includedOrigin env insertion ∧
      decoded.toplevelXid = includedXid env ∧
      decoded.mainData = insertion.mainrdata.flatten ∧
      ∀ blockId,
        match insertion.registeredBuffers.getD blockId none with
        | none => decoded.block blockId = none
        | some regbuf => ∃ block, decoded.block blockId = some block ∧
            BlockRestored env (assembledInfo env rmid callerInfo) readRecPtr decoded blockId regbuf
              block := by
  obtain ⟨parts, cut, mainFits, -, lengthFits, length, bytes⟩ := record_assemble_returns assembled
  rw [← sameLength] at lengthFits length
  have content := decode_record_parts cut (insertion_slot_bound insertion) readRecPtr
    (includedOrigin env insertion) mainFits prevFits lengthFits length
  rw [AssembledRecord.chain, flatten_cons, append_assoc] at bytes
  rw [← append_cancel_left bytes] at content
  refine ⟨_, content, rfl, rfl, rfl, rfl, ?_⟩
  intro blockId
  have found := parts_lookup cut blockId
  have slot : slotOf 0 insertion.registeredBuffers blockId =
      insertion.registeredBuffers.getD blockId none := by
    simp [slotOf]
  rw [slot] at found
  cases held : insertion.registeredBuffers.getD blockId none with
  | none =>
    rw [held] at found
    exact found
  | some regbuf =>
    rw [held] at found
    obtain ⟨before, image, made, looked⟩ := found
    exact ⟨_, looked, part_restored inverts made readRecPtr blockId before looked⟩

/-- A record decodes to what was registered. -/
theorem assembled_record_decodes (env : AssembleEnv) (insertion : Insertion)
    (rmid callerInfo : UInt8) (record : AssembledRecord) (readRecPtr : Nat)
    (inverts : DecompressionInverts env.compressors)
    (assembled : xlogRecordAssemble env insertion rmid callerInfo = .ok record) :
    ∃ decoded, decodeXLogRecord readRecPtr record.chain.flatten = .ok decoded ∧
      decoded.header = record.header ∧
      decoded.recordOrigin = includedOrigin env insertion ∧
      decoded.toplevelXid = includedXid env ∧
      decoded.mainData = insertion.mainrdata.flatten ∧
      ∀ blockId,
        match insertion.registeredBuffers.getD blockId none with
        | none => decoded.block blockId = none
        | some regbuf => ∃ block, decoded.block blockId = some block ∧
            BlockRestored env (assembledInfo env rmid callerInfo) readRecPtr decoded blockId regbuf
              block := by
  obtain ⟨_, _, _, prev, _⟩ := record_assemble_returns assembled
  exact assembled_content_decodes inverts assembled (by rw [prev]; decide) rfl readRecPtr

end RoundTrip

/-- A session with an origin and a pending top-level transaction id. The compressor takes nothing
but zeros, and is not asked. -/
def sampleEnv : AssembleEnv :=
  { walConsistencyChecking := fun _ => false
    redoRecPtr := 0
    doPageWrites := true
    walCompression := none
    compressors :=
      { useLz4 := false
        useZstd := false
        compress := fun _ source =>
          if source = List.replicate source.length 0 then some [] else none
        decompress := fun _ _ size => some (List.replicate size 0) }
    replOriginSessionOrigin := 7
    subxactTopXidLogPending := true
    topTransactionId := 740
    currentTransactionId := 741
    crcByte := fun crc byte => crc ^^^ byte.toUInt32 }

theorem sample_decompression_inverts : DecompressionInverts sampleEnv.compressors := by
  intro method source dest packed
  simp only [sampleEnv, Option.ite_none_right_eq_some] at packed
  obtain ⟨zeros, -⟩ := packed
  exact congrArg some zeros.symm

def sampleBuffer (flags : UInt8) (block : BlockNumber) (data : Bytes) (fits : data.length ≤ 65535) :
    RegisteredBuffer :=
  { flags := flags
    rlocator := { spcOid := 1663, dbOid := 5, relNumber := 16384 }
    forkno := .mainForknum
    block := block
    page := zeroPage
    rdata := [data]
    dataFits := by simpa [uint16Max] using fits }

def sampleInsertion : Insertion :=
  { registeredBuffers :=
      [some (sampleBuffer regbufForceImage 0 [] (by decide)), none,
        some (sampleBuffer regbufNoImage 3 [9, 9] (by decide))]
    maxRegisteredBuffers := 5
    spaceBound := by decide
    buffersFit := by decide
    mainrdata := [[1, 2], [3]]
    curinsertFlags := xlogIncludeOrigin }

theorem sample_record_assembled :
    (xlogRecordAssemble sampleEnv sampleInsertion 10 0).isOk = true := by
  decide +kernel

theorem sample_record_decodes :
    ∃ record decoded, xlogRecordAssemble sampleEnv sampleInsertion 10 0 = .ok record ∧
      decodeXLogRecord 0 record.chain.flatten = .ok decoded ∧ decoded.mainData = [1, 2, 3] := by
  have assembled := sample_record_assembled
  cases made : xlogRecordAssemble sampleEnv sampleInsertion 10 0 with
  | error report =>
    rw [made] at assembled
    cases assembled
  | ok record =>
    obtain ⟨decoded, read, -, -, -, main, -⟩ := assembled_record_decodes sampleEnv
      sampleInsertion 10 0 record 0 sample_decompression_inverts made
    exact ⟨record, decoded, rfl, read, main⟩

end FortressQL.Wal.RecordRoundTrip
