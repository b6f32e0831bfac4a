import FortressQL.Wal.RecordCopy
import FortressQL.Wal.RecordDecode

/-!
# The log behind a run of insertions

The invariant of the insertion state, and what a run leaves in the log: the records one after
another, with pages fit for a reader.
-/

namespace FortressQL.Wal.InsertedLog

open List Elog Lib.ByteStrings Lib.ByteMemory Lib.PagedStream Layout
open Storage.BufPage (maxalign)
open Wal.BytePositions Wal.PageHeaders Wal.RecordAssemble Wal.RecordCopy Wal.RecordDecode
open Wal.RecordFormat Wal.RecordInsert Wal.Segments

variable {page first second later bound used startPos endPos page' used' : Nat}
  {buffers : WalBuffers} {reservation : Reservation}

def segmentStart (log : LogIdentity) (page : Nat) : Nat := page / log.size.pages * log.size.pages

def nextSegment (log : LogIdentity) (page : Nat) : Nat :=
  (page / log.size.pages + 1) * log.size.pages

/-- A page that a reader accepts. Timelines do not go back, and behind the origin are that of the
insertion. -/
structure Legible (log : LogIdentity) (origin : Nat) (memory : Memory) (page : Nat) : Prop where
  valid : ValidHeader log page (headerBytes log memory page)
  notLater : (headerAt log memory page).xlpTli ≤ log.insertTimeLineID
  current : origin < page → (headerAt log memory page).xlpTli = log.insertTimeLineID
  earlier : page < origin → (headerAt log memory page).xlpTli ≤ (headerAt log memory origin).xlpTli

/-- The state between two insertions, with the place of the next record. -/
structure Ready (log : LogIdentity) (origin : Nat) (insert : WalInsert) (page used : Nat) :
    Prop where
  position : insert.position.currBytePos = (walLayout log.size).base page + used
  inside : used < (walLayout log.size).capacity page
  aligned : insert.position.currBytePos % 8 = 0
  prev : insert.position.prevBytePos < insert.position.currBytePos
  ahead : Ahead log insert.buffers (if used = 0 then page else page + 1)
  opened : 0 < used → Legible log origin insert.buffers.memory page
  segment : segmentStart log page < page ∨ 0 < used →
    Legible log origin insert.buffers.memory (segmentStart log page)
  behind : origin ≤ page

structure StartPage (log : LogIdentity) (origin : Nat) (memory : Memory) (page used : Nat) :
    Prop where
  inside : used < (walLayout log.size).capacity page
  opened : Legible log origin memory page
  unmarked : used = 0 →
    hasFlag (headerAt log memory page).xlpInfo xlpFirstIsContrecord = false
  segment : Legible log origin memory (segmentStart log page)
  behind : origin ≤ page

structure RecordAt (log : LogIdentity) (origin : Nat) (memory : Memory) (page used : Nat)
    (bytes : Bytes) : Prop extends StartPage log origin memory page used where
  holds : (walLayout log.size).Holds memory ((walLayout log.size).base page + used) bytes
  continued : ∀ later, page < later →
    (walLayout log.size).base later < (walLayout log.size).base page + used + bytes.length →
      ContinuationPage log memory later
        ((walLayout log.size).base page + used + bytes.length - (walLayout log.size).base later)

section Pages

variable {log : LogIdentity} {origin : Nat} {memory memory' : Memory}

theorem Legible.congr (legible : Legible log origin memory page)
    (same : headerBytes log memory' page = headerBytes log memory page)
    (sameOrigin : page < origin → headerBytes log memory' origin = headerBytes log memory origin) :
    Legible log origin memory' page := by
  have header : headerAt log memory' page = headerAt log memory page := by
    rw [headerAt, same, headerAt]
  refine ⟨?_, ?_, ?_, ?_⟩
  · rw [same]
    exact legible.valid
  · rw [header]
    exact legible.notLater
  · rw [header]
    exact legible.current
  · intro before
    have originHeader : headerAt log memory' origin = headerAt log memory origin := by
      rw [headerAt, sameOrigin before, headerAt]
    rw [header, originHeader]
    exact legible.earlier before

theorem fresh_legible (fresh : FreshPage log memory page) (behind : origin ≤ page) :
    Legible log origin memory page :=
  ⟨fresh.valid, fresh.tli ▸ UInt32.le_refl _, fun _ => fresh.tli,
    fun before => absurd before (by omega)⟩

theorem continuation_legible {remLen : Nat} (continued : ContinuationPage log memory page remLen)
    (behind : origin ≤ page) : Legible log origin memory page :=
  ⟨continued.valid, continued.tli ▸ UInt32.le_refl _, fun _ => continued.tli,
    fun before => absurd before (by omega)⟩

theorem segment_start_le (page : Nat) : segmentStart log page ≤ page :=
  Nat.div_mul_le_self page log.size.pages

theorem segment_start_mono (ordered : first ≤ second) :
    segmentStart log first ≤ segmentStart log second :=
  Nat.mul_le_mul_right _ (Nat.div_le_div_right ordered)

theorem segment_start_first (page : Nat) : segmentStart log page % log.size.pages = 0 :=
  Nat.mul_mod_left _ _

theorem segment_start_eq (low : segmentStart log later ≤ page) (high : page ≤ later) :
    segmentStart log later = segmentStart log page := by
  have positive := segment_pages_pos log.size
  have split := Nat.div_add_mod later log.size.pages
  have below := Nat.mod_lt later positive
  unfold segmentStart at *
  congr 1
  symm
  apply Nat.div_eq_of_lt_le
  · exact low
  · rw [add_mul, mul_comm (later / log.size.pages)]
    omega

theorem header_bytes_below (below : page * xlogBlcksz + header log page ≤ bound)
    (same : ∀ location < bound, memory' location = memory location) :
    headerBytes log memory' page = headerBytes log memory page :=
  header_bytes_congr fun location _ high => same location (by omega)

theorem header_end_le (log : LogIdentity) (ordered : first ≤ second) :
    first * xlogBlcksz + header log first ≤ second * xlogBlcksz + header log second := by
  rcases eq_or_lt_of_le ordered with rfl | before
  · exact le_rfl
  · exact (header_before log before).trans (Nat.le_add_right _ _)

theorem Legible.below (legible : Legible log origin memory page)
    (below : page * xlogBlcksz + header log page ≤ bound)
    (originBelow : page < origin → origin * xlogBlcksz + header log origin ≤ bound)
    (same : ∀ location < bound, memory' location = memory location) :
    Legible log origin memory' page :=
  legible.congr (header_bytes_below below same) fun before =>
    header_bytes_below (originBelow before) same

/-- The headers that matter to a record lie before it. -/
theorem StartPage.frame (start : StartPage log origin memory page used)
    (same : ∀ location < address log page used,
      memory' location = memory location) : StartPage log origin memory' page used := by
  have below : ∀ other ≤ page, other * xlogBlcksz + header log other ≤ address log page used := by
    intro other low
    exact le_trans (header_end_le log low) (Nat.le_add_right _ _)
  have originBelow := below origin start.behind
  refine ⟨start.inside, ?_, ?_, ?_, start.behind⟩
  · exact Legible.below start.opened (below page le_rfl) (fun _ => originBelow) same
  · intro first
    have unmarked := start.unmarked first
    rwa [headerAt, ← header_bytes_below (below page le_rfl) same] at unmarked
  · exact Legible.below start.segment (below _ (segment_start_le page)) (fun _ => originBelow) same

/-- A record stays what it is when the log goes on behind it. -/
theorem RecordAt.frame {bytes : Bytes} (record : RecordAt log origin memory page used bytes)
    (filled : 0 < bytes.length) (same : ∀ location < boundary log
      (base log page + used + bytes.length), memory' location = memory location) :
    RecordAt log origin memory' page used bytes := by
  have start := physical_lt_boundary log
    (show base log page + used < base log page + used + bytes.length by omega)
  rw [physical_at _ record.inside] at start
  refine ⟨record.toStartPage.frame fun location early => same location (by omega),
    record.holds.frame same, ?_⟩
  intro later behind inside
  apply (record.continued later behind inside).congr
  have laterStart := physical_lt_boundary log inside
  have onPage := physical_at (walLayout log.size) (capacity_pos log later)
  rw [add_zero, wal_address] at onPage
  exact header_bytes_below (by omega) same

end Pages

section Reserving

variable {log : LogIdentity}

/-- Up to the end of the segment, for a position that is not at its start. -/
def segmentEnd (size : WalSegmentSize) (position : Nat) : Nat :=
  position + (size.bytes - 1) - xlogSegmentOffset (position + (size.bytes - 1)) size

theorem next_segment_bytes (log : LogIdentity) (page : Nat) :
    nextSegment log page * xlogBlcksz = (page / log.size.pages + 1) * log.size.bytes := by
  rw [nextSegment, segment_bytes_pages, mul_comm xlogBlcksz, mul_assoc]

theorem next_segment_behind (log : LogIdentity) (page : Nat) : page < nextSegment log page := by
  have split := Nat.div_add_mod page log.size.pages
  have below := Nat.mod_lt page (segment_pages_pos log.size)
  rw [nextSegment, add_mul, mul_comm]
  omega

section

variable (filled : 0 < used) (inside : used ≤ Layout.capacity log page)

include filled inside

theorem record_end_segment :
    page / log.size.pages * log.size.bytes < address log page used ∧
      address log page used ≤ (page / log.size.pages + 1) * log.size.bytes := by
  have room := page_room log page
  have start := segment_start log.size page
  have behind := next_segment_behind log page
  have further := next_page_le xlogBlcksz behind
  rw [next_segment_bytes] at further
  rw [wal_address]
  constructor <;> omega

theorem segment_end_record :
    segmentEnd log.size (address log page used) = nextSegment log page * xlogBlcksz := by
  obtain ⟨low, high⟩ := record_end_segment filled inside
  generalize address log page used = position at *
  rw [segmentEnd, segment_offset_eq_mod, next_segment_bytes]
  have quotient : (position + (log.size.bytes - 1)) / log.size.bytes =
      page / log.size.pages + 1 := by
    rw [add_mul] at high
    apply Nat.div_eq_of_lt_le
    · rw [add_mul]
      omega
    · rw [add_mul, add_mul]
      omega
  have split := Nat.div_add_mod (position + (log.size.bytes - 1)) log.size.bytes
  rw [quotient, mul_comm] at split
  omega

theorem record_ends_segment (complete : address log page used % log.size.bytes = 0) :
    address log page used = nextSegment log page * xlogBlcksz := by
  obtain ⟨low, high⟩ := record_end_segment filled inside
  have split := Nat.div_add_mod (address log page used) log.size.bytes
  rw [complete, mul_comm] at split
  rw [← split] at low high
  have above := Nat.lt_of_mul_lt_mul_right low
  have under := Nat.le_of_mul_le_mul_right high (segment_size_pos log.size)
  have quotient : address log page used / log.size.bytes =
      page / log.size.pages + 1 := by omega
  rw [next_segment_bytes, ← quotient]
  exact split.symm

end

/-- `ReserveXLogSwitch` takes the rest of the segment in which the record ends. -/
theorem reserve_switch_returns {insert : InsertPosition}
    (started : xlogSegmentOffset (xlogBytePosToEndRecPtr log.size insert.currBytePos) log.size ≠ 0)
    (filled : 0 < used) (inside : used ≤ capacity log page)
    (position : base log page + used =
      insert.currBytePos + maxalign sizeOfXLogRecord) :
    reserveXLogSwitch log.size insert = some
        ({ currBytePos := base log (nextSegment log page)
           prevBytePos := insert.currBytePos },
          { startPos := physical log insert.currBytePos
            endPos := nextSegment log page * xlogBlcksz
            prevPtr := physical log insert.prevBytePos }) := by
  obtain ⟨low, high⟩ := record_end_segment filled inside
  have positive := segment_size_pos log.size
  have ends : xlogBytePosToEndRecPtr log.size (insert.currBytePos + maxalign sizeOfXLogRecord) =
      address log page used := by
    rw [← position, end_rec_ptr_boundary, boundary_at _ filled inside]
  have segment := next_segment_bytes log page
  have segmentBase : xlogRecPtrToBytePos log.size (nextSegment log page * xlogBlcksz) =
      base log (nextSegment log page) := by
    have back := byte_pos_end_rec_ptr log.size (base log (nextSegment log page))
    rwa [end_rec_ptr_boundary, boundary_start] at back
  have offset := segment_offset_eq_mod (address log page used) log.size
  have below := Nat.mod_lt (address log page used) positive
  have split := Nat.div_add_mod (address log page used) log.size.bytes
  rw [reserveXLogSwitch, if_neg started]
  dsimp only
  rw [ends, offset, rec_ptr_physical, rec_ptr_physical]
  by_cases complete : address log page used % log.size.bytes = 0
  · -- the record ends with the segment
    have whole : ¬ (log.size.bytes - 0 ≠ log.size.bytes) := by omega
    have endPos := record_ends_segment filled inside complete
    have base : insert.currBytePos + maxalign sizeOfXLogRecord =
        base log (nextSegment log page) := by
      have back := byte_pos_end_rec_ptr log.size (insert.currBytePos + maxalign sizeOfXLogRecord)
      rw [ends, endPos, segmentBase] at back
      exact back.symm
    rw [complete, if_neg whole, if_neg whole, endPos, base]
  · have short : log.size.bytes - address log page used % log.size.bytes ≠
        log.size.bytes := by omega
    have endPos : address log page used +
        (log.size.bytes - address log page used % log.size.bytes) =
          nextSegment log page * xlogBlcksz := by
      have quotient : address log page used / log.size.bytes =
          page / log.size.pages := by
        apply Nat.div_eq_of_lt_le (le_of_lt low)
        apply lt_of_le_of_ne high
        intro same
        rw [same, Nat.mul_mod_left] at complete
        exact complete rfl
      rw [quotient, mul_comm] at split
      rw [segment, add_mul]
      omega
    simp [short, endPos, segmentBase]

end Reserving

section Records

variable (log : LogIdentity) (crcByte : UInt32 → UInt8 → UInt32)

structure ValidRecord (record : AssembledRecord) : Prop where
  length : record.header.xlTotLen = sizeOfXLogRecord + (recordBody record).length
  maximum : record.header.xlTotLen ≤ xlogRecordMaxSize
  switch : isXLogSwitch record.header = true → recordBody record = []
  rmgr : rmgrIdIsValid record.header.xlRmid = true
  crc : record.header.xlCrc = (recordBody record).foldl crcByte initCrc32c
  decodes : ∀ (lsn : Nat) (header : XLogRecord), header.xlTotLen = record.header.xlTotLen →
    header.xlPrev < 256 ^ 8 →
      ∃ decoded, decodeXLogRecord lsn (encodeXLogRecord header ++ recordBody record) =
        .ok decoded

/-- The place and the content of an inserted record: it starts at `start`, links back to
`before`, and the log goes on at `next`. -/
structure Entry (before start : Nat) (inserted : InsertedRecord) (next : Nat) : Prop where
  startPos : inserted.reservation.startPos = (walLayout log.size).physical start
  endPos : inserted.reservation.endPos = (walLayout log.size).boundary next
  ends : (walLayout log.size).boundary next =
    if isXLogSwitch inserted.header then
      segmentEnd log.size ((walLayout log.size).boundary
        (start + maxalign inserted.header.xlTotLen))
    else (walLayout log.size).boundary (start + maxalign inserted.header.xlTotLen)
  link : inserted.header.xlPrev = (walLayout log.size).physical before
  ordered : before < start
  goesOn : start + inserted.bytes.length ≤ next
  aligned : start % 8 = 0
  length : inserted.header.xlTotLen = inserted.bytes.length
  maximum : inserted.header.xlTotLen ≤ xlogRecordMaxSize
  rmgr : rmgrIdIsValid inserted.header.xlRmid = true
  crc : inserted.header.xlCrc = finCrc32c
    (((encodeXLogRecord inserted.header).take crcOffset).foldl crcByte
      (inserted.body.foldl crcByte initCrc32c))
  decodes : inserted.header.xlPrev < 256 ^ 8 → ∀ lsn, ∃ decoded,
    decodeXLogRecord lsn inserted.bytes = .ok decoded

variable {crcByte}

abbrev finishedBytes (crcByte : UInt32 → UInt8 → UInt32) (record : AssembledRecord)
    (prevPtr : Nat) : Bytes :=
  encodeXLogRecord (finishRecord crcByte record prevPtr).header ++ recordBody record

abbrev finishedInsert (crcByte : UInt32 → UInt8 → UInt32) (record : AssembledRecord)
    (reservation : Reservation) : InsertedRecord :=
  { header := (finishRecord crcByte record reservation.prevPtr).header
    body := recordBody record
    reservation := reservation }

theorem crc_covered_bytes (header : XLogRecord) (crc : UInt32) :
    (encodeXLogRecord { header with xlCrc := crc }).take crcOffset =
      (encodeXLogRecord header).take crcOffset := by
  simp [encodeXLogRecord, crcOffset, take_append]

theorem finished_entry {record : AssembledRecord} (valid : ValidRecord crcByte record)
    (reservation : Reservation) {before start : Nat} (next : Nat)
    (startPos : reservation.startPos = physical log start)
    (prevPtr : reservation.prevPtr = physical log before)
    (endPos : reservation.endPos = boundary log next)
    (ends : boundary log next =
      if isXLogSwitch record.header then
        segmentEnd log.size (boundary log
          (start + maxalign record.header.xlTotLen))
      else boundary log (start + maxalign record.header.xlTotLen))
    (ordered : before < start) (goesOn : start + record.header.xlTotLen ≤ next)
    (aligned : start % 8 = 0) :
    Entry log crcByte before start (finishedInsert crcByte record reservation) next := by
  have length : record.header.xlTotLen =
      (finishedBytes crcByte record reservation.prevPtr).length := by
    rw [length_append, encode_xlog_record_length, valid.length]
  constructor
  · exact startPos
  · exact endPos
  · exact ends
  · exact prevPtr
  · exact ordered
  · exact le_trans (le_of_eq (congrArg (start + ·) length.symm)) goesOn
  · exact aligned
  · exact length
  · exact valid.maximum
  · exact valid.rmgr
  · have covered := crc_covered_bytes { record.header with xlPrev := reservation.prevPtr }
    simp [finishRecord, finishHeader, covered, ← valid.crc]
  · intro fits lsn
    exact valid.decodes lsn _ rfl fits

end Records

section Insertion

variable {log : LogIdentity} {crcByte : UInt32 → UInt8 → UInt32} {origin : Nat} {insert : WalInsert}
  {page used : Nat}

abbrev openedBuffers (log : LogIdentity) (runningBackups : Nat) (insert : WalInsert)
    (page used : Nat) : WalBuffers :=
  getXLogBuffer log runningBackups ((walLayout log.size).address page used) insert.buffers

theorem start_page_opened (ready : Ready log origin insert page used) (runningBackups : Nat) :
    StartPage log origin (openedBuffers log runningBackups insert page used).memory page used ∧
      Ahead log (openedBuffers log runningBackups insert page used) (page + 1) ∧
      ∀ location < boundary log insert.position.currBytePos,
        (openedBuffers log runningBackups insert page used).memory location =
          insert.buffers.memory location := by
  have room := page_room log page
  have inside := ready.inside
  have position := ready.position
  have behind := ready.behind
  rcases Nat.eq_zero_or_pos used with none | filled
  · -- the first record of a page
    subst none
    have ahead := ready.ahead
    rw [if_pos rfl] at ahead
    obtain ⟨opened, covered, same⟩ := open_page runningBackups ahead
      (show page * xlogBlcksz ≤ address log page 0 by rw [wal_address]; omega)
      (by
        rw [wal_address, Nat.succ_mul]
        omega)
    have boundary : boundary log insert.position.currBytePos =
        page * xlogBlcksz := by
      rw [position, add_zero, boundary_start]
      rfl
    have fresh := opened.fresh page le_rfl (by
      rw [Nat.succ_mul] at covered
      omega)
    refine ⟨⟨inside, fresh_legible fresh behind, fun _ => fresh.first, ?_, behind⟩,
      ⟨opened.pages, covered, fun later low => opened.fresh later (by omega)⟩, ?_⟩
    · by_cases first : segmentStart log page = page
      · rw [first]
        exact fresh_legible fresh behind
      · have before : segmentStart log page < page :=
          lt_of_le_of_ne (segment_start_le page) first
        have legible := ready.segment (.inl before)
        rcases eq_or_lt_of_le behind with here | further
        · -- the origin's page is the one that was just opened
          have header := header_bytes_below (header_before log before) same
          have same : headerAt log (openedBuffers log runningBackups insert page 0).memory
              (segmentStart log page) = headerAt log insert.buffers.memory
              (segmentStart log page) := by
            rw [headerAt, header, headerAt]
          refine ⟨header ▸ legible.valid, same ▸ legible.notLater, fun late => ?_, fun _ => ?_⟩
          · omega
          · rw [here, fresh.tli, same]
            exact legible.notLater
        · exact legible.congr (header_bytes_below (header_before log before) same) fun _ =>
            header_bytes_below (header_before log further) same
    · rw [boundary]
      exact same
  · have ahead := ready.ahead
    rw [if_neg (ne_of_gt filled)] at ahead
    have covered := ahead.covered
    rw [openedBuffers, get_buffer_open runningBackups (by
      rw [wal_address]
      rw [Nat.succ_mul] at covered
      omega)]
    exact ⟨⟨inside, ready.opened filled, fun none => absurd none (ne_of_gt filled),
      ready.segment (.inr filled), behind⟩, ahead, fun _ _ => rfl⟩

def startCopying (log : LogIdentity) (runningBackups startPos : Nat) (buffers : WalBuffers) :
    Copying :=
  { buffers := getXLogBuffer log runningBackups startPos buffers
    currPos := startPos
    freespace := insertFreespace startPos
    written := 0
    free := insertFreespace.eq_1 _ }

theorem ready_place (ready : Ready log origin insert page used) :
    physical log insert.position.currBytePos = address log page used := by
  rw [ready.position, physical_at _ ready.inside]

theorem copy_record (ready : Ready log origin insert page used) (runningBackups : Nat)
    {first : Bytes} (filled : first ≠ []) (rest : List Bytes)
    (fits : (first :: rest).flatten.length < 256 ^ 4) :
    ∃ page' used', 0 < used' ∧
      CopyAt log (openedBuffers log runningBackups insert page used).memory
        insert.position.currBytePos (first :: rest).flatten.length page
        ((first :: rest).foldl (copyData log runningBackups (first :: rest).flatten.length)
          (startCopying log runningBackups (address log page used)
            insert.buffers)) (first :: rest).flatten page' used' := by
  obtain ⟨-, ahead, -⟩ := start_page_opened ready runningBackups
  have started : CopyAt log (openedBuffers log runningBackups insert page used).memory
      insert.position.currBytePos (first :: rest).flatten.length page
      (startCopying log runningBackups (address log page used) insert.buffers)
      [] page used :=
    { currPos := rfl
      inside := le_of_lt ready.inside
      position := ready.position.symm
      written := rfl
      behind := le_refl _
      started := le_of_eq (ready_place ready)
      ahead := ahead
      frame := fun _ _ => rfl
      holds := holds_nil _ _
      continued := fun later low high => absurd high (by omega) }
  obtain ⟨middle, there, some, copied⟩ := copy_data_at runningBackups fits first started
    (.inr filled)
  exact copy_chain_at runningBackups fits rest some copied

variable {memory₀ : Memory} {copying : Copying} {bytes : Bytes}

section

variable (state : CopyAt log memory₀ (Layout.base log page + used) bytes.length page copying bytes
    page' used')
  (filled : 0 < used') (start : StartPage log origin memory₀ page used)

include state filled start

theorem copied_record : RecordAt log origin copying.buffers.memory page used bytes := by
  have place := physical_at (walLayout log.size) start.inside
  refine ⟨start.frame fun location early => state.frame location (by omega), state.holds, ?_⟩
  intro later behind inside
  have position := state.position
  have last := state.inside
  have reached : later ≤ page' := page_le_of_base log
    (show base log later ≤ base log page' + (used' - 1) by omega)
    (by omega)
  exact state.continued later behind reached

theorem copied_pages_legible (low : segmentStart log page ≤ later) (high : later ≤ page')
    (reached : later % log.size.pages = 0 ∨ page ≤ later) :
    Legible log origin copying.buffers.memory later := by
  have record := copied_record state filled start
  have behind := start.behind
  rcases lt_trichotomy later page with before | rfl | after
  · have first : later % log.size.pages = 0 := reached.resolve_right (by omega)
    have same : segmentStart log page = later := by
      have whole : segmentStart log later = later := Nat.div_mul_cancel
        (Nat.dvd_of_mod_eq_zero first)
      rw [← whole]
      exact segment_start_eq low (le_of_lt before)
    rw [← same]
    exact record.segment
  · exact record.opened
  · exact continuation_legible (state.continued later after high) (by omega)

theorem ready_behind_record (some : 0 < bytes.length)
    (aligned : (base log page + used) % 8 = 0) :
    boundary log (base log page + used + maxalign bytes.length) =
        maxalign copying.currPos ∧
      ∃ nextPage nextUsed, Ready log origin
        { position :=
            { currBytePos := base log page + used + maxalign bytes.length
              prevBytePos := base log page + used }
          buffers := copying.buffers } nextPage nextUsed := by
  obtain ⟨address, fits⟩ := maxalign_address log state.inside
  have position := state.position
  have pageAligned := base_aligned log page'
  have next : base log page + used + maxalign bytes.length =
      base log page' + maxalign used' := by
    unfold maxalign
    omega
  have nextFilled : 0 < maxalign used' := by
    unfold maxalign
    omega
  have nextAligned : (base log page' + maxalign used') % 8 = 0 := by
    unfold maxalign
    omega
  have further : base log page + used < base log page + used + maxalign bytes.length := by
    unfold maxalign
    omega
  have behind := state.behind
  have originBehind := start.behind
  -- the segment's first page was passed by the record or lies before it
  have segment : ∀ later, segmentStart log later ≤ page' → page' ≤ later →
      Legible log origin copying.buffers.memory (segmentStart log later) := by
    intro later low high
    exact copied_pages_legible state filled start (segment_start_mono (by omega)) low
      (.inl (segment_start_first later))
  refine ⟨?_, ?_⟩
  · rw [next, state.currPos, address, boundary_at _ nextFilled fits]
  · rcases eq_or_lt_of_le fits with full | within
    · refine ⟨page' + 1, 0, ?_, capacity_pos _ _, ?_, further, ?_, ?_, ?_, by omega⟩
      · dsimp only
        rw [next, full, base, add_zero]
      · dsimp only
        rw [next, nextAligned]
      · exact state.ahead
      · exact fun none => absurd none (lt_irrefl 0)
      · intro split
        exact segment (page' + 1) (by omega) (Nat.le_succ page')
    · refine ⟨page', maxalign used', next, within, ?_, further, ?_, ?_, ?_, by omega⟩
      · dsimp only
        rw [next, nextAligned]
      · rw [if_neg (ne_of_gt nextFilled)]
        exact state.ahead
      · intro _
        exact copied_pages_legible state filled start
          (le_trans (segment_start_le page) behind) le_rfl (.inr behind)
      · intro _
        exact segment page' (segment_start_le page') le_rfl

end

theorem copy_switch_ends (runningBackups : Nat) {start total : Nat}
    (state : CopyAt log memory₀ start total page copying bytes page' used') (filled : 0 < used') :
    ∃ buffers,
      (if true = true ∧ xlogSegmentOffset copying.currPos log.size ≠ 0 then
        zeroHeaders log runningBackups (nextSegment log page' * xlogBlcksz)
          (copying.currPos + copying.freespace) copying.buffers
      else (maxalign copying.currPos, copying.buffers)) =
        (nextSegment log page' * xlogBlcksz, buffers) ∧
      Ahead log buffers (nextSegment log page') ∧
      ∀ location < (page' + 1) * xlogBlcksz,
        buffers.memory location = copying.buffers.memory location := by
  have behind := next_segment_behind log page'
  have room := page_room log page'
  have inside := state.inside
  have pageEnd : copying.currPos + copying.freespace = (page' + 1) * xlogBlcksz := by
    rw [state.freespace, state.currPos, wal_address, Nat.succ_mul]
    omega
  by_cases complete : xlogSegmentOffset copying.currPos log.size = 0
  · rw [if_neg (fun both => both.2 complete)]
    rw [segment_offset_eq_mod, state.currPos] at complete
    have ends := record_ends_segment filled inside complete
    have last : nextSegment log page' = page' + 1 := by
      have reached : nextSegment log page' * xlogBlcksz ≤ (page' + 1) * xlogBlcksz := by
        rw [← ends, ← pageEnd, state.currPos]
        exact Nat.le_add_right _ _
      have bound := Nat.le_of_mul_le_mul_right reached (by decide)
      omega
    refine ⟨copying.buffers, ?_, ?_, fun _ _ => rfl⟩
    · rw [state.currPos, ends]
      unfold maxalign xlogBlcksz
      rw [Prod.mk.injEq]
      exact ⟨by omega, rfl⟩
    · rw [last]
      exact state.ahead
  · rw [if_pos ⟨rfl, complete⟩, pageEnd]
    obtain ⟨ends, ahead, same⟩ := zero_headers_at runningBackups state.ahead
      (show page' + 1 ≤ nextSegment log page' by omega)
    exact ⟨_, Prod.ext ends rfl, ahead, same⟩

theorem ready_behind_switch
    (state : CopyAt log memory₀ (base log page + used) bytes.length page copying
      bytes page' used') (start : StartPage log origin memory₀ page used)
    (some : 0 < bytes.length) (ahead : Ahead log buffers (nextSegment log page')) :
    Ready log origin
      { position :=
          { currBytePos := base log (nextSegment log page')
            prevBytePos := base log page + used }
        buffers := buffers } (nextSegment log page') 0 := by
  have behind := next_segment_behind log page'
  have later := base_le log (behind)
  have position := state.position
  have inside := state.inside
  have passed := state.behind
  have originBehind := start.behind
  rw [base] at later
  refine ⟨rfl, capacity_pos _ _, base_aligned log _, ?_, ahead, ?_, ?_, ?_⟩
  · dsimp only
    omega
  · exact fun none => absurd none (lt_irrefl 0)
  · intro split
    have whole : segmentStart log (nextSegment log page') = nextSegment log page' := by
      rw [segmentStart, nextSegment, Nat.mul_div_cancel _ (segment_pages_pos log.size)]
    omega
  · omega

structure Inserts (log : LogIdentity) (crcByte : UInt32 → UInt8 → UInt32) (origin : Nat)
    (insert next : WalInsert) (page used : Nat) (inserted : InsertedRecord) : Prop where
  ready : ∃ nextPage nextUsed, Ready log origin next nextPage nextUsed
  frame : ∀ location < (walLayout log.size).boundary insert.position.currBytePos,
    next.buffers.memory location = insert.buffers.memory location
  record : RecordAt log origin next.buffers.memory page used inserted.bytes
  entry : Entry log crcByte insert.position.prevBytePos insert.position.currBytePos inserted
    next.position.currBytePos
  linked : next.position.prevBytePos = insert.position.currBytePos

theorem chain_flatten (record : AssembledRecord) :
    record.chain.flatten = encodeXLogRecord record.header ++ recordBody record := by
  simp [AssembledRecord.chain, recordBody]

variable {record : AssembledRecord}

theorem finished_length (valid : ValidRecord crcByte record) (prevPtr : Nat) :
    (finishedBytes crcByte record prevPtr).length = record.header.xlTotLen := by
  rw [length_append, encode_xlog_record_length, valid.length]

theorem record_copied (ready : Ready log origin insert page used) (runningBackups : Nat)
    (valid : ValidRecord crcByte record) (prevPtr : Nat) :
    ∃ page' used', 0 < used' ∧
      CopyAt log (openedBuffers log runningBackups insert page used).memory
        (base log page + used) (finishedBytes crcByte record prevPtr).length page
        ((finishRecord crcByte record prevPtr).chain.foldl
          (copyData log runningBackups record.header.xlTotLen)
          (startCopying log runningBackups (address log page used) insert.buffers))
        (finishedBytes crcByte record prevPtr) page' used' := by
  have total := finished_length valid prevPtr
  have range : xlogRecordMaxSize < 256 ^ 4 := by decide
  have maximum := valid.maximum
  have header : encodeXLogRecord (finishRecord crcByte record prevPtr).header ++
      record.scratch ≠ [] := by
    intro none
    have short := congrArg List.length none
    exact absurd short (by simp [sizeOfXLogRecord])
  have flat : ((encodeXLogRecord (finishRecord crcByte record prevPtr).header ++
      record.scratch) :: record.datas).flatten =
        finishedBytes crcByte record prevPtr :=
    chain_flatten (finishRecord crcByte record prevPtr)
  obtain ⟨page', used', filled, copied⟩ := copy_record ready runningBackups header record.datas (by
    rw [flat]
    omega)
  rw [flat, total, ready.position] at copied
  rw [total]
  exact ⟨page', used', filled, copied⟩

theorem copy_normal_returns (runningBackups writeLen : Nat) (rdata : List Bytes)
    (buffers : WalBuffers) (ends : maxalign (rdata.foldl (copyData log runningBackups writeLen)
      (startCopying log runningBackups startPos buffers)).currPos = endPos) :
    copyXLogRecordToWAL log runningBackups writeLen false rdata startPos endPos buffers =
      .ok (rdata.foldl (copyData log runningBackups writeLen)
        (startCopying log runningBackups startPos buffers)).buffers := by
  unfold startCopying at *
  rw [copyXLogRecordToWAL]
  dsimp only
  rw [if_neg (fun both => Bool.false_ne_true both.1), ensure_holds ends]
  rfl

theorem copy_switch_returns (runningBackups writeLen : Nat) (rdata : List Bytes)
    (buffers buffers' : WalBuffers) (copied : rdata.foldl (copyData log runningBackups writeLen)
      (startCopying log runningBackups startPos buffers) = copying)
    (ends : (if true = true ∧ xlogSegmentOffset copying.currPos log.size ≠ 0 then
        zeroHeaders log runningBackups endPos (copying.currPos + copying.freespace) copying.buffers
      else (maxalign copying.currPos, copying.buffers)) = (endPos, buffers')) :
    copyXLogRecordToWAL log runningBackups writeLen true rdata startPos endPos buffers =
      .ok buffers' := by
  subst copied
  unfold startCopying at *
  rw [copyXLogRecordToWAL]
  dsimp only
  rw [ends]
  rw [ensure_holds rfl]
  rfl

theorem xlog_insert_record_copied {call : InsertCall} {position : InsertPosition}
    (reserved : reserve log insert.position call.record.header = some (position, reservation))
    (copied : copyXLogRecordToWAL log call.runningBackups
      (finishRecord crcByte call.record reservation.prevPtr).header.xlTotLen
      (isXLogSwitch call.record.header)
      (finishRecord crcByte call.record reservation.prevPtr).chain reservation.startPos
      reservation.endPos insert.buffers = .ok buffers) :
    xlogInsertRecord log crcByte insert call = .ok ({ position := position, buffers := buffers },
        some
          (finishedInsert crcByte call.record reservation)) := by
  rw [xlogInsertRecord, reserved]
  dsimp only
  rw [show isXLogSwitch (finishRecord crcByte call.record reservation.prevPtr).header =
    isXLogSwitch call.record.header from rfl, copied]
  rfl

section Step

variable {call : InsertCall} {position' : InsertPosition}

theorem inserts_copied (ready : Ready log origin insert page used)
    (copied : CopyAt log (openedBuffers log call.runningBackups insert page used).memory
      (base log page + used)
      (finishedBytes crcByte call.record reservation.prevPtr).length page copying
      (finishedBytes crcByte call.record reservation.prevPtr) page' used') (filled : 0 < used')
    (same : ∀ location < copying.currPos, buffers.memory location = copying.buffers.memory location)
    (readyNext : ∃ nextPage nextUsed,
      Ready log origin { position := position', buffers := buffers } nextPage nextUsed)
    (entry : Entry log crcByte insert.position.prevBytePos insert.position.currBytePos
      (finishedInsert crcByte call.record reservation) position'.currBytePos)
    (linked : position'.prevBytePos = insert.position.currBytePos) :
    Inserts log crcByte origin insert { position := position', buffers := buffers } page used
      (finishedInsert crcByte call.record reservation) := by
  obtain ⟨startPage, -, openedFrame⟩ := start_page_opened ready call.runningBackups
  have started := copied.started
  have ends := copied.boundary_le
  have bounded := boundary_le_physical log insert.position.currBytePos
  rw [ready.position] at bounded
  refine ⟨readyNext, ?_, ?_, entry, linked⟩
  · intro location early
    rw [ready.position] at early openedFrame
    exact (same location (by omega)).trans
      ((copied.frame location (by omega)).trans (openedFrame location early))
  · have some : 0 < (finishedBytes crcByte call.record reservation.prevPtr).length := by
      rw [length_append, encode_xlog_record_length]
      exact Nat.add_pos_left (by decide) _
    exact (copied_record copied filled startPage).frame some fun location early =>
      same location (by omega)

theorem insert_normal_returns (ready : Ready log origin insert page used)
    (valid : ValidRecord crcByte call.record) (normal : isXLogSwitch call.record.header = false) :
    ∃ next inserted,
      xlogInsertRecord log crcByte insert call = .ok (next, some inserted) ∧
        Inserts log crcByte origin insert next page used inserted := by
  have reserved : reserve log insert.position call.record.header = some
      ({ currBytePos := insert.position.currBytePos + maxalign call.record.header.xlTotLen
         prevBytePos := insert.position.currBytePos },
        { startPos := address log page used
          endPos := boundary log
            (insert.position.currBytePos + maxalign call.record.header.xlTotLen)
          prevPtr := physical log insert.position.prevBytePos }) := by
    rw [reserve, normal, if_neg Bool.false_ne_true, reserveXLogInsertLocation, rec_ptr_physical,
      rec_ptr_physical, end_rec_ptr_boundary, ready_place ready]
  generalize prevPtrIs : physical log insert.position.prevBytePos = prevPtr at *
  obtain ⟨startPage, -, -⟩ := start_page_opened ready call.runningBackups
  obtain ⟨page', used', filled, copied⟩ := record_copied ready call.runningBackups valid prevPtr
  have total := finished_length valid prevPtr
  have fixed : sizeOfXLogRecord = 24 := rfl
  have length := valid.length
  have aligned := ready.aligned
  rw [ready.position] at aligned
  obtain ⟨ends, readyNext⟩ := ready_behind_record copied filled startPage (by omega) aligned
  rw [total, ← ready.position] at ends readyNext
  have copies := copy_normal_returns call.runningBackups call.record.header.xlTotLen
    (finishRecord crcByte call.record prevPtr).chain insert.buffers ends.symm
  have entry := finished_entry log valid
    { startPos := address log page used
      endPos := boundary log (insert.position.currBytePos + maxalign call.record.header.xlTotLen)
      prevPtr := prevPtr }
    (insert.position.currBytePos + maxalign call.record.header.xlTotLen)
    (ready_place ready).symm prevPtrIs.symm rfl (by rw [normal, if_neg Bool.false_ne_true])
    ready.prev (by unfold maxalign; omega) ready.aligned
  exact ⟨_, _, xlog_insert_record_copied reserved (by rw [normal]; exact copies),
    inserts_copied ready copied filled (fun _ _ => rfl) readyNext entry rfl⟩

theorem insert_switch_returns (ready : Ready log origin insert page used)
    (valid : ValidRecord crcByte call.record) (switch : isXLogSwitch call.record.header = true)
    (started : xlogSegmentOffset
      (xlogBytePosToEndRecPtr log.size insert.position.currBytePos) log.size ≠ 0) :
    ∃ next inserted,
      xlogInsertRecord log crcByte insert call = .ok (next, some inserted) ∧
        Inserts log crcByte origin insert next page used inserted := by
  have alone : call.record.header.xlTotLen = 24 := by
    rw [valid.length, valid.switch switch]
    rfl
  generalize prevPtrIs : physical log insert.position.prevBytePos = prevPtr
  obtain ⟨startPage, -, -⟩ := start_page_opened ready call.runningBackups
  obtain ⟨page', used', filled, copied⟩ := record_copied ready call.runningBackups valid prevPtr
  have total := (finished_length valid prevPtr).trans alone
  have position := copied.position
  rw [total, ← ready.position] at position
  have reserved : reserve log insert.position call.record.header = some
      ({ currBytePos := base log (nextSegment log page')
         prevBytePos := insert.position.currBytePos },
        { startPos := address log page used
          endPos := nextSegment log page' * xlogBlcksz
          prevPtr := prevPtr }) := by
    rw [reserve, if_pos switch, reserve_switch_returns started filled copied.inside position,
      ready_place ready, prevPtrIs]
  have ends : boundary log (insert.position.currBytePos + maxalign 24) =
      address log page' used' := by
    rw [show maxalign 24 = 24 from rfl, ← position, boundary_at _ filled copied.inside]
  obtain ⟨buffers, fills, ahead, same⟩ := copy_switch_ends call.runningBackups copied filled
  have copies := copy_switch_returns call.runningBackups call.record.header.xlTotLen
    (finishRecord crcByte call.record prevPtr).chain insert.buffers buffers rfl fills
  have readyNext := ready_behind_switch copied startPage (by omega) ahead
  rw [← ready.position] at readyNext
  have further := base_le log (next_segment_behind log page')
  rw [base] at further
  have inside := copied.inside
  have segmentStarts : boundary log
      (base log (nextSegment log page')) = nextSegment log page' * xlogBlcksz :=
    boundary_start _ _
  have entry := finished_entry log valid
    { startPos := address log page used
      endPos := nextSegment log page' * xlogBlcksz
      prevPtr := prevPtr }
    (base log (nextSegment log page')) (ready_place ready).symm prevPtrIs.symm
    segmentStarts.symm
    (by rw [switch, if_pos rfl, alone, ends, segment_end_record filled copied.inside,
          segmentStarts])
    ready.prev (by omega) ready.aligned
  have pageEnd : ∀ location, location < address log page' used' →
      location < (page' + 1) * xlogBlcksz := by
    intro location early
    have room := page_room log page'
    rw [wal_address] at early
    rw [Nat.succ_mul]
    omega
  have currPos := copied.currPos
  exact ⟨_, _, xlog_insert_record_copied reserved (by rw [switch]; exact copies),
    inserts_copied ready copied filled
      (fun location early => same location (pageEnd location (by rwa [currPos] at early)))
      ⟨_, _, readyNext⟩ entry rfl⟩

/-- An insertion returns; a switch at the start of a segment inserts nothing. -/
theorem xlog_insert_record_returns (ready : Ready log origin insert page used)
    (valid : ValidRecord crcByte call.record) :
    xlogInsertRecord log crcByte insert call = .ok (insert, none) ∨
      ∃ next inserted,
        xlogInsertRecord log crcByte insert call = .ok (next, some inserted) ∧
          Inserts log crcByte origin insert next page used inserted := by
  cases switch : isXLogSwitch call.record.header with
  | false => exact .inr (insert_normal_returns ready valid switch)
  | true =>
    by_cases started : xlogSegmentOffset
        (xlogBytePosToEndRecPtr log.size insert.position.currBytePos) log.size = 0
    · left
      rw [xlogInsertRecord, reserve, if_pos switch, reserveXLogSwitch, if_pos started]
    · exact .inr (insert_switch_returns ready valid switch started)

end Step

end Insertion

section Runs

variable (log : LogIdentity) (crcByte : UInt32 → UInt8 → UInt32) (origin : Nat) (memory : Memory)

/-- The log holds the records one after another, from one position to another. -/
inductive Logged : Nat → Nat → List InsertedRecord → Nat → Prop
  | nil (before start : Nat) : Logged before start [] start
  | cons {before start page used next final : Nat} {inserted : InsertedRecord}
      {rest : List InsertedRecord}
      (position : start = (walLayout log.size).base page + used)
      (record : RecordAt log origin memory page used inserted.bytes)
      (entry : Entry log crcByte before start inserted next)
      (others : Logged start next rest final) :
      Logged before start (inserted :: rest) final

variable {log crcByte origin}

theorem insert_records_returns {insert : WalInsert} (ready : Ready log origin insert page used)
    (calls : List InsertCall) (valid : ∀ call ∈ calls, ValidRecord crcByte call.record) :
    ∃ final inserted, insertRecords log crcByte insert calls = .ok (final, inserted) ∧
      (∀ location < boundary log insert.position.currBytePos,
        final.buffers.memory location = insert.buffers.memory location) ∧
      Logged log crcByte origin final.buffers.memory insert.position.prevBytePos
        insert.position.currBytePos inserted final.position.currBytePos := by
  induction calls generalizing insert page used with
  | nil => exact ⟨insert, [], rfl, fun _ _ => rfl, .nil _ _⟩
  | cons call calls ih =>
    have validRest : ∀ other ∈ calls, ValidRecord crcByte other.record :=
      fun other member => valid other (mem_cons_of_mem _ member)
    rcases xlog_insert_record_returns ready (valid call mem_cons_self) with
      skipped | ⟨next, inserted, returned, step⟩
    · obtain ⟨final, others, ran, frame, logged⟩ := ih ready validRest
      refine ⟨final, others, ?_, frame, logged⟩
      rw [insertRecords, skipped, ok_then]
      dsimp only
      rw [ran]
      rfl
    · obtain ⟨nextPage, nextUsed, nextReady⟩ := step.ready
      obtain ⟨final, others, ran, frame, logged⟩ := ih nextReady validRest
      have goesOn := step.entry.goesOn
      have some : 0 < inserted.bytes.length := by
        rw [InsertedRecord.bytes, length_append, encode_xlog_record_length]
        exact Nat.add_pos_left (by decide) _
      have bound := boundary_le log goesOn
      have early := boundary_le log
        (show insert.position.currBytePos ≤ next.position.currBytePos by omega)
      refine ⟨final, inserted :: others, ?_, ?_, ?_⟩
      · rw [insertRecords, returned, ok_then]
        dsimp only
        rw [ran]
        rfl
      · intro location before
        exact (frame location (by omega)).trans (step.frame location before)
      · rw [step.linked] at logged
        rw [ready.position] at bound
        refine .cons ready.position (step.record.frame some ?_) step.entry logged
        intro location before
        exact frame location (by omega)

end Runs

end FortressQL.Wal.InsertedLog
