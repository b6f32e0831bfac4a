import FortressQL.Lib.LittleEndian
import FortressQL.Wal.BytePositions

/-!
# The headers of WAL pages

`xlog_internal.h`: the short header of every page and the further fields of a first page.
`AdvanceXLInsertBuffer` fills them in.
-/

namespace FortressQL.Wal.PageHeaders

open Lib.PagedStream Layout
open List Lib.ByteStrings Lib.ByteMemory Lib.LittleEndian Wal.BytePositions Wal.Segments

abbrev TimeLineID := UInt32

def xlogPageMagic : UInt16 := 0xD116

def xlpFirstIsContrecord : UInt16 := 0x0001

def xlpLongHeader : UInt16 := 0x0002

def xlpBkpRemovable : UInt16 := 0x0004

def xlpFirstIsOverwriteContrecord : UInt16 := 0x0008

def xlpAllFlags : UInt16 := 0x000F

def hasFlag (info flag : UInt16) : Bool := info &&& flag != 0

structure XLogPageHeader where
  xlpMagic : UInt16
  xlpInfo : UInt16
  xlpTli : TimeLineID
  xlpPageaddr : Nat
  xlpRemLen : Nat

structure XLogLongFields where
  xlpSysid : UInt64
  xlpSegSize : Nat
  xlpXlogBlcksz : Nat
  deriving DecidableEq

/-- The bytes of the header; four bytes of padding follow the last field. -/
def encodeXLogPageHeader (header : XLogPageHeader) : Bytes :=
  encodeLe 2 header.xlpMagic.toNat ++ (encodeLe 2 header.xlpInfo.toNat ++
    (encodeLe 4 header.xlpTli.toNat ++ (encodeLe 8 header.xlpPageaddr ++
      (encodeLe 4 header.xlpRemLen ++ [0, 0, 0, 0]))))

def parseXLogPageHeader (bytes : Bytes) : XLogPageHeader :=
  { xlpMagic := UInt16.ofNat (decodeLe (bytes.take 2))
    xlpInfo := UInt16.ofNat (decodeLe ((bytes.drop 2).take 2))
    xlpTli := UInt32.ofNat (decodeLe ((bytes.drop 4).take 4))
    xlpPageaddr := decodeLe ((bytes.drop 8).take 8)
    xlpRemLen := decodeLe ((bytes.drop 16).take 4) }

def encodeLongFields (fields : XLogLongFields) : Bytes :=
  encodeLe 8 fields.xlpSysid.toNat ++
    (encodeLe 4 fields.xlpSegSize ++ encodeLe 4 fields.xlpXlogBlcksz)

def parseLongFields (bytes : Bytes) : XLogLongFields :=
  { xlpSysid := UInt64.ofNat (decodeLe ((bytes.drop 24).take 8))
    xlpSegSize := decodeLe ((bytes.drop 32).take 4)
    xlpXlogBlcksz := decodeLe ((bytes.drop 36).take 4) }

def xlogPageHeaderSize (header : XLogPageHeader) : Nat :=
  if hasFlag header.xlpInfo xlpLongHeader then sizeOfXLogLongPHD else sizeOfXLogShortPHD

@[simp]
theorem encode_page_header_length (header : XLogPageHeader) :
    (encodeXLogPageHeader header).length = sizeOfXLogShortPHD := by
  simp [encodeXLogPageHeader, sizeOfXLogShortPHD]

theorem parse_encode_page_header (header : XLogPageHeader) (rest : Bytes) :
    parseXLogPageHeader (encodeXLogPageHeader header ++ rest) =
      { header with
        xlpPageaddr := header.xlpPageaddr % 256 ^ 8
        xlpRemLen := header.xlpRemLen % 256 ^ 4 } := by
  have magicFits : header.xlpMagic.toNat < 256 ^ 2 := header.xlpMagic.toNat_lt
  have infoFits : header.xlpInfo.toNat < 256 ^ 2 := header.xlpInfo.toNat_lt
  have tliFits : header.xlpTli.toNat < 256 ^ 4 := header.xlpTli.toNat_lt
  simp [parseXLogPageHeader, encodeXLogPageHeader, drop_append, decode_encode_le_mod]

theorem parse_page_header_take (bytes : Bytes) {count : Nat} (enough : 24 ≤ count) :
    parseXLogPageHeader (bytes.take count) = parseXLogPageHeader bytes := by
  simp [parseXLogPageHeader, drop_take, take_take, min_eq_left (show 2 ≤ count by omega),
    min_eq_left (show 2 ≤ count - 2 by omega), min_eq_left (show 4 ≤ count - 4 by omega),
    min_eq_left (show 8 ≤ count - 8 by omega), min_eq_left (show 4 ≤ count - 16 by omega)]

theorem parse_long_fields_take (bytes : Bytes) {count : Nat} (enough : 40 ≤ count) :
    parseLongFields (bytes.take count) = parseLongFields bytes := by
  simp [parseLongFields, drop_take, take_take, min_eq_left (show 8 ≤ count - 24 by omega),
    min_eq_left (show 4 ≤ count - 32 by omega), min_eq_left (show 4 ≤ count - 36 by omega)]

theorem parse_encode_long_fields {head : Bytes} (length : head.length = 24)
    {fields : XLogLongFields} (sizeFits : fields.xlpSegSize < 256 ^ 4)
    (blockFits : fields.xlpXlogBlcksz < 256 ^ 4) (rest : Bytes) :
    parseLongFields (head ++ (encodeLongFields fields ++ rest)) = fields := by
  have sysidFits : fields.xlpSysid.toNat < 256 ^ 8 := fields.xlpSysid.toNat_lt
  have behind : head.drop 32 = [] ∧ head.drop 36 = [] :=
    ⟨drop_eq_nil_of_le (by omega), drop_eq_nil_of_le (by omega)⟩
  simp [parseLongFields, encodeLongFields, drop_append, length, behind, decode_encode_le sysidFits,
    decode_encode_le sizeFits, decode_encode_le blockFits]

section Pages

structure LogIdentity where
  size : WalSegmentSize
  systemIdentifier : UInt64
  insertTimeLineID : TimeLineID

instance : CoeOut LogIdentity Layout := ⟨fun log => walLayout log.size⟩

variable (log : LogIdentity)

def LogIdentity.longFields : XLogLongFields :=
  { xlpSysid := log.systemIdentifier
    xlpSegSize := log.size.bytes
    xlpXlogBlcksz := xlogBlcksz }

def newPageInfo (removable firstOfSegment : Bool) : UInt16 :=
  let info := if removable then xlpBkpRemovable else 0
  if firstOfSegment then info ||| xlpLongHeader else info

def newPageHeader (runningBackups newPageBeginPtr : Nat) : XLogPageHeader :=
  { xlpMagic := xlogPageMagic
    xlpInfo := newPageInfo (runningBackups = 0) (xlogSegmentOffset newPageBeginPtr log.size = 0)
    xlpTli := log.insertTimeLineID
    xlpPageaddr := newPageBeginPtr
    xlpRemLen := 0 }

def newPage (runningBackups newPageBeginPtr : Nat) : Bytes :=
  let header := encodeXLogPageHeader (newPageHeader log runningBackups newPageBeginPtr)
  if xlogSegmentOffset newPageBeginPtr log.size = 0 then
    header ++ (encodeLongFields log.longFields ++
      List.replicate (xlogBlcksz - sizeOfXLogLongPHD) 0)
  else header ++ List.replicate (xlogBlcksz - sizeOfXLogShortPHD) 0

/-- `xlp_rem_len` and `XLP_FIRST_IS_CONTRECORD` of the page that continues a record. -/
def markContrecord (memory : Memory) (pagehdr remLen : Nat) : Memory :=
  let header := parseXLogPageHeader (load memory pagehdr sizeOfXLogShortPHD)
  store memory pagehdr (encodeXLogPageHeader
    { header with
      xlpRemLen := remLen
      xlpInfo := header.xlpInfo ||| xlpFirstIsContrecord })

/-- The header of a page is what the page's place in the log asks for. -/
structure ValidHeader (page : Nat) (bytes : Bytes) : Prop where
  magic : (parseXLogPageHeader bytes).xlpMagic = xlogPageMagic
  flags : (parseXLogPageHeader bytes).xlpInfo &&& ~~~xlpAllFlags = 0
  long : hasFlag (parseXLogPageHeader bytes).xlpInfo xlpLongHeader =
    decide (page % log.size.pages = 0)
  pageaddr : (parseXLogPageHeader bytes).xlpPageaddr = page * xlogBlcksz % 256 ^ 8
  fields : page % log.size.pages = 0 → parseLongFields bytes = log.longFields

def headerBytes (memory : Memory) (page : Nat) : Bytes :=
  load memory (page * xlogBlcksz) ((walLayout log.size).header page)

def headerAt (memory : Memory) (page : Nat) : XLogPageHeader :=
  parseXLogPageHeader (headerBytes log memory page)

structure FreshPage (memory : Memory) (page : Nat) : Prop where
  valid : ValidHeader log page (headerBytes log memory page)
  tli : (headerAt log memory page).xlpTli = log.insertTimeLineID
  first : hasFlag (headerAt log memory page).xlpInfo xlpFirstIsContrecord = false
  overwritten : hasFlag (headerAt log memory page).xlpInfo xlpFirstIsOverwriteContrecord = false

structure ContinuationPage (memory : Memory) (page remLen : Nat) : Prop where
  valid : ValidHeader log page (headerBytes log memory page)
  tli : (headerAt log memory page).xlpTli = log.insertTimeLineID
  first : hasFlag (headerAt log memory page).xlpInfo xlpFirstIsContrecord = true
  overwritten : hasFlag (headerAt log memory page).xlpInfo xlpFirstIsOverwriteContrecord = false
  remLen : (headerAt log memory page).xlpRemLen = remLen

variable {log} {page : Nat} {memory memory' : Memory}

theorem ValidHeader.size {bytes : Bytes} (valid : ValidHeader log page bytes) :
    xlogPageHeaderSize (parseXLogPageHeader bytes) = header log page := by
  rw [xlogPageHeaderSize, valid.long, wal_header]
  simp [sizeOfXLogLongPHD, sizeOfXLogShortPHD]

theorem header_bytes_congr (same : ∀ location, page * xlogBlcksz ≤ location →
      location < page * xlogBlcksz + header log page →
        memory' location = memory location) :
    headerBytes log memory' page = headerBytes log memory page :=
  load_congr same

theorem FreshPage.congr (fresh : FreshPage log memory page)
    (same : headerBytes log memory' page = headerBytes log memory page) :
    FreshPage log memory' page := by
  obtain ⟨valid, tli, first, overwritten⟩ := fresh
  unfold headerAt at tli first overwritten
  rw [← same] at valid tli first overwritten
  exact ⟨valid, tli, first, overwritten⟩

theorem ContinuationPage.congr {remLen : Nat} (continued : ContinuationPage log memory page remLen)
    (same : headerBytes log memory' page = headerBytes log memory page) :
    ContinuationPage log memory' page remLen := by
  obtain ⟨valid, tli, first, overwritten, remaining⟩ := continued
  unfold headerAt at tli first overwritten remaining
  rw [← same] at valid tli first overwritten remaining
  exact ⟨valid, tli, first, overwritten, remaining⟩

theorem first_of_segment (size : WalSegmentSize) (page : Nat) :
    xlogSegmentOffset (page * xlogBlcksz) size = 0 ↔ page % size.pages = 0 := by
  rw [page_segment_offset]
  simp [xlogBlcksz]

theorem new_page_length (runningBackups newPageBeginPtr : Nat) :
    (newPage log runningBackups newPageBeginPtr).length = xlogBlcksz := by
  unfold newPage
  split_ifs
  · simp only [encodeLongFields, length_append, encode_page_header_length, encode_le_length,
      length_replicate]
    rfl
  · simp only [length_append, encode_page_header_length, length_replicate]
    rfl

theorem new_page_info_flags (removable firstOfSegment : Bool) :
    newPageInfo removable firstOfSegment &&& ~~~xlpAllFlags = 0 ∧
      hasFlag (newPageInfo removable firstOfSegment) xlpLongHeader = firstOfSegment ∧
      hasFlag (newPageInfo removable firstOfSegment) xlpFirstIsContrecord = false ∧
      hasFlag (newPageInfo removable firstOfSegment) xlpFirstIsOverwriteContrecord = false := by
  cases removable <;> cases firstOfSegment <;> decide

theorem fresh_new_page (memory : Memory) (runningBackups page : Nat) :
    FreshPage log (store memory (page * xlogBlcksz)
      (newPage log runningBackups (page * xlogBlcksz))) page := by
  obtain ⟨flags, long, first, overwritten⟩ :=
    new_page_info_flags (runningBackups = 0) (page % log.size.pages = 0)
  have segment := first_of_segment log.size page
  have sizeFits : log.longFields.xlpSegSize < 256 ^ 4 :=
    lt_of_le_of_lt log.size.valid.2.2 (by decide)
  have blockFits : xlogBlcksz < 256 ^ 4 := by decide
  have whole : headerBytes log (store memory (page * xlogBlcksz)
      (newPage log runningBackups (page * xlogBlcksz))) page =
      (newPage log runningBackups (page * xlogBlcksz)).take (header log page) := by
    have stored := load_store memory (page * xlogBlcksz)
    have inside : header log page ≤ (newPage log runningBackups (page * xlogBlcksz)).length := by
      rw [new_page_length]
      exact le_of_lt (room log page)
    rw [headerBytes, ← take_load _ _ inside, stored]
  have parsed : parseXLogPageHeader (headerBytes log (store memory (page * xlogBlcksz)
      (newPage log runningBackups (page * xlogBlcksz))) page) =
      { newPageHeader log runningBackups (page * xlogBlcksz) with
        xlpPageaddr := page * xlogBlcksz % 256 ^ 8 } := by
    have enough : 24 ≤ header log page := by
      rw [wal_header]
      split_ifs <;> omega
    rw [whole, parse_page_header_take _ enough, newPage]
    split_ifs <;> rw [parse_encode_page_header] <;> simp [newPageHeader]
  have info : (parseXLogPageHeader (headerBytes log (store memory (page * xlogBlcksz)
      (newPage log runningBackups (page * xlogBlcksz))) page)).xlpInfo =
      newPageInfo (runningBackups = 0) (page % log.size.pages = 0) := by
    rw [parsed]
    simp [newPageHeader, segment]
  refine ⟨⟨?_, ?_, ?_, ?_, ?_⟩, ?_, ?_, ?_⟩
  · rw [parsed]
    rfl
  · rw [info, flags]
  · rw [info, long]
  · rw [parsed]
  · intro start
    rw [whole, wal_header, if_pos start, newPage, if_pos (segment.mpr start)]
    exact parse_encode_long_fields (encode_page_header_length _) sizeFits blockFits _
  · rw [headerAt, parsed]
    rfl
  · rw [headerAt, info, first]
  · rw [headerAt, info, overwritten]

theorem info_or_and (info bit flag : UInt16) :
    (info ||| bit) &&& flag = info &&& flag ||| bit &&& flag := by
  apply UInt16.toBitVec_inj.mp
  simp [BitVec.and_or_distrib_right]

theorem contrecord_flag_set (info : UInt16) :
    hasFlag (info ||| xlpFirstIsContrecord) xlpFirstIsContrecord = true := by
  rw [hasFlag, info_or_and, bne_iff_ne, Ne, UInt16.or_eq_zero_iff]
  exact fun none => absurd none.2 (by decide)

theorem contrecord_flag_apart (info flag : UInt16) (apart : xlpFirstIsContrecord &&& flag = 0) :
    (info ||| xlpFirstIsContrecord) &&& flag = info &&& flag := by
  rw [info_or_and, apart, UInt16.or_zero]

theorem continuation_marked {remLen : Nat} (fresh : FreshPage log memory page)
    (fits : remLen < 256 ^ 4) :
    ContinuationPage log (markContrecord memory (page * xlogBlcksz) remLen) page remLen := by
  obtain ⟨valid, tli, -, overwritten⟩ := fresh
  have enough : 24 ≤ header log page := by
    rw [wal_header]
    split_ifs <;> omega
  have old : parseXLogPageHeader (load memory (page * xlogBlcksz) sizeOfXLogShortPHD) =
      headerAt log memory page := by
    rw [headerAt, headerBytes, sizeOfXLogShortPHD, ← take_load memory _ enough,
      parse_page_header_take _ (le_refl 24)]
  obtain ⟨more, split⟩ := Nat.exists_eq_add_of_le enough
  -- the long fields lie behind what the mark rewrites
  have bytes : headerBytes log (markContrecord memory (page * xlogBlcksz) remLen) page =
      encodeXLogPageHeader { headerAt log memory page with
        xlpRemLen := remLen
        xlpInfo := (headerAt log memory page).xlpInfo ||| xlpFirstIsContrecord } ++
      load memory (page * xlogBlcksz + 24) more := by
    rw [headerBytes, split, load_append, markContrecord, old]
    congr 1
    · exact load_store memory _ _
    · exact load_store_apart memory (Or.inr (le_of_eq (by
        rw [encode_page_header_length, sizeOfXLogShortPHD])))
  have parsed := parse_encode_page_header
    { headerAt log memory page with
      xlpRemLen := remLen
      xlpInfo := (headerAt log memory page).xlpInfo ||| xlpFirstIsContrecord }
    (load memory (page * xlogBlcksz + 24) more)
  rw [← bytes] at parsed
  rw [Nat.mod_eq_of_lt fits] at parsed
  refine ⟨⟨?_, ?_, ?_, ?_, ?_⟩, ?_, ?_, ?_, ?_⟩
  · rw [parsed]
    exact valid.magic
  · rw [parsed, contrecord_flag_apart _ _ (by decide)]
    exact valid.flags
  · rw [parsed, hasFlag, contrecord_flag_apart _ _ (by decide)]
    exact valid.long
  · have kept : (headerAt log memory page).xlpPageaddr = page * xlogBlcksz % 256 ^ 8 :=
      valid.pageaddr
    rw [parsed]
    rw [kept, Nat.mod_mod]
  · intro start
    have stamped := valid.fields start
    rw [headerBytes, split, load_append] at stamped
    rw [← stamped, bytes]
    simp [parseLongFields, drop_append, sizeOfXLogShortPHD, drop_eq_nil_of_le]
  · rw [headerAt, parsed]
    exact tli
  · rw [headerAt, parsed]
    exact contrecord_flag_set _
  · rw [headerAt, parsed, hasFlag, contrecord_flag_apart _ _ (by decide)]
    exact overwritten
  · rw [headerAt, parsed]

end Pages

end FortressQL.Wal.PageHeaders
