import FortressQL.Wal.RecordReassembly
import FortressQL.Wal.RecordRoundTrip

/-!
# What is inserted is what is read

A reader that starts at the first record of a run of insertions gets the records back, each with
the position that was reserved for it.
-/

namespace FortressQL.Wal.StreamRoundTrip

open Option
open List Elog Lib.ByteMemory Lib.PagedStream Layout
open Storage.BufPage (maxalign)
open Wal.BytePositions Wal.InsertedLog Wal.PageHeaders Wal.PageReading Wal.RecordAssemble
open Wal.RecordCopy Wal.RecordDecode Wal.RecordFormat Wal.RecordInsert Wal.RecordParts
open Wal.RecordReader Wal.RecordReassembly Wal.RecordRoundTrip Wal.Segments

variable {before start next page used : Nat} {inserted : InsertedRecord} {state : XLogReaderState}
  {log : LogIdentity} {crcByte : UInt32 → UInt8 → UInt32} {origin : Nat} {memory : Memory}
  {readUpto : Nat}

theorem first_page_available (inside : used < capacity log page) {length : Nat} (some' : 0 < length)
    (flushed : boundary log (base log page + used + length) ≤ readUpto) :
    header log page + used + min length (capacity log page - used) ≤ available readUpto page := by
  rw [add_assoc]
  apply available_of_boundary (by omega) (by omega)
  refine le_trans (boundary_le log ?_) flushed
  omega

theorem address_offset (inside : used < capacity log page) :
    address log page used % xlogBlcksz = header log page + used := by
  have room := page_room log page
  rw [wal_address, add_assoc, Nat.mul_add_mod_self_right, Nat.mod_eq_of_lt (by omega)]

theorem cached_from_start (atPage : AtPage log memory readUpto state page)
    (enough : header log page + used ≤ available readUpto page) :
    state.readBuf.drop (header log page + used) =
      load memory (address log page used) (available readUpto page - (header log page + used)) := by
  obtain ⟨rest, split⟩ := Nat.exists_eq_add_of_le enough
  rw [atPage.readBuf, split, drop_load, Nat.add_sub_cancel_left, wal_address, add_assoc]

theorem record_start_returns (start : StartPage log origin memory page used)
    (atPage : AtPage log memory readUpto state page)
    (enough : Layout.header log page ≤ available readUpto page) {recPtr : Nat}
    (asked : used = 0 ∧ recPtr = page * xlogBlcksz ∨
      recPtr = Layout.address log page used) :
    recordStart state recPtr = .ok (Layout.address log page used) := by
  have parsed := parse_loaded_header log memory enough
  rw [← atPage.readBuf] at parsed
  have size : xlogPageHeaderSize (headerAt log memory page) = Layout.header log page :=
    start.opened.valid.size
  have header := header_room log page
  have unmarked : ∀ off, off = Layout.header log page + used →
      ¬ (hasFlag (headerAt log memory page).xlpInfo xlpFirstIsContrecord = true ∧
        off = Layout.header log page) := by
    rintro off rfl ⟨marked, first⟩
    rw [start.unmarked (by omega)] at marked
    exact Bool.false_ne_true marked
  rw [recordStart, parsed, size]
  dsimp only
  rcases asked with ⟨rfl, rfl⟩ | rfl
  · rw [Nat.mul_mod_left, demand_holds (.inl rfl), ok_then, if_pos rfl, if_pos rfl,
      demand_holds (unmarked (Layout.header log page) rfl), ok_then, wal_address,
      add_zero]
  · rw [address_offset start.inside, demand_holds (.inr (Nat.le_add_right _ _)), ok_then,
      if_neg (by omega), if_neg (by omega), demand_holds (unmarked _ rfl), ok_then]

/-- The length is there in any case, since records are aligned. -/
theorem check_start_returns (record : RecordAt log origin memory page used inserted.bytes)
    (position : start = Layout.base log page + used)
    (entry : Entry log crcByte before start inserted next)
    (limit : Layout.physical log start < 256 ^ 8)
    (expects : state.decodeRecPtr = 0 ∨ state.decodeRecPtr = Layout.physical log before)
    (atPage : AtPage log memory readUpto state page)
    (enough : Layout.header log page + used +
        min inserted.bytes.length (Layout.capacity log page - used) ≤ available readUpto page) :
    ∃ gotheader, checkStart state (Layout.address log page used)
        (state.decodeRecPtr == 0) = .ok (inserted.bytes.length, gotheader) := by
  have minimum := bytes_length_pos inserted
  have room := page_room log page
  have header := header_room log page
  have inside := record.inside
  have place := Layout.physical_of log position inside
  have pieces : ∀ count, count ≤ inserted.bytes.length →
      count ≤ Layout.capacity log page - used →
      ∃ rest, state.readBuf.drop (Layout.header log page + used) =
        inserted.bytes.take count ++ rest := by
    intro count inRecord onPage
    rw [cached_from_start atPage (by omega)]
    obtain ⟨rest, split⟩ := Nat.exists_eq_add_of_le (show count ≤ available readUpto page -
      (Layout.header log page + used) by omega)
    rw [split, load_append, load_first_piece record (by omega) inRecord]
    exact ⟨_, rfl⟩
  rw [checkStart, address_offset inside]
  by_cases complete : Layout.header log page + used ≤ xlogBlcksz - sizeOfXLogRecord
  · obtain ⟨rest, found⟩ := pieces sizeOfXLogRecord minimum (by omega)
    have head : inserted.bytes.take sizeOfXLogRecord = encodeXLogRecord inserted.header :=
      take_left' (encode_xlog_record_length _)
    have checked := valid_record_header entry expects
    rw [place] at checked
    refine ⟨true, ?_⟩
    rw [if_pos complete, found, head, parse_record_start entry limit, checked, ok_then,
      entry.length]
  · have alignedBase := base_aligned log page
    have alignedStart := entry.aligned
    have block : xlogBlcksz = 8192 := rfl
    obtain ⟨rest, found⟩ := pieces 4 (by omega) (by omega)
    have length : (parseXLogRecord (inserted.bytes.take 4 ++ rest)).xlTotLen =
        inserted.bytes.length := by
      have whole := parse_record_start entry limit inserted.body
      have agree : (parseXLogRecord (inserted.bytes.take 4 ++ rest)).xlTotLen =
          (parseXLogRecord inserted.bytes).xlTotLen := by
        rw [parseXLogRecord, parseXLogRecord, take_left' (length_take_of_le (by omega))]
      rw [agree, ← entry.length]
      exact congrArg XLogRecord.xlTotLen whole
    refine ⟨false, ?_⟩
    rw [if_neg complete, found, length, demand_holds minimum, ok_then]

def Cached (log : LogIdentity) (origin : Nat) (memory : Memory) (readUpto : Nat)
    (state : XLogReaderState) (position : Nat) : Prop :=
  ∃ last, origin ≤ last ∧ (walLayout log.size).base last ≤ position ∧
    AtPage log memory readUpto state last ∧ Legible log origin memory last

def behindRecord (log : LogIdentity) (start next : Nat) (state : XLogReaderState) :
    XLogReaderState :=
  { state with
    decodeRecPtr := (walLayout log.size).physical start
    nextRecPtr := (walLayout log.size).boundary next }

def placedRecord (log : LogIdentity) (start next : Nat) (decoded : DecodedXLogRecord) :
    ReadRecord :=
  { lsn := (walLayout log.size).physical start
    nextLsn := (walLayout log.size).boundary next
    decoded := decoded }

section

variable (record : RecordAt log origin memory page used inserted.bytes)
  (position : start = Layout.base log page + used)
  (entry : Entry log crcByte before start inserted next)

include record position entry

theorem read_on_page_returns (limit : physical log start < 256 ^ 8)
    (configured : Configured log state) (atPage : AtPage log memory readUpto state page)
    (onPage : used + inserted.bytes.length ≤ capacity log page)
    (enough : header log page + used + inserted.bytes.length ≤ available readUpto page) :
    ∃ decoded, decodeXLogRecord state.readRecPtr inserted.bytes = .ok decoded ∧
      readOnPage crcByte (readLocalXLogPage memory readUpto)
          (address log page used) inserted.bytes.length state (page * xlogBlcksz) =
        .ok (.done (behindRecord log start next state) (placedRecord log start next decoded)) := by
  have place := physical_of log position record.inside
  obtain ⟨decoded, decodes, finish⟩ := finish_read_returns entry limit configured
  have taken : (state.readBuf.drop (header log page + used)).take
      inserted.bytes.length = inserted.bytes := by
    rw [cached_from_start atPage (by omega), take_load _ _ (by omega),
      load_first_piece record onPage le_rfl, take_length]
  have ends : address log page used + maxalign inserted.bytes.length =
      boundary log (start + maxalign inserted.header.xlTotLen) := by
    have alignedBase := base_aligned log page
    have alignedStart := entry.aligned
    have minimum := bytes_length_pos inserted
    have fixed : sizeOfXLogRecord = 24 := rfl
    have fits := (maxalign_address log onPage).2
    rw [entry.length, position, add_assoc, boundary_at, wal_address, wal_address, add_assoc]
    · unfold maxalign
      omega
    · unfold maxalign at fits ⊢
      omega
  refine ⟨decoded, decodes, ?_⟩
  rw [readOnPage, address_offset record.inside,
    read_page_cached configured atPage (le_trans (min_le_left _ _) enough), ok_then, taken,
    ends, ← place, finish]
  rfl

theorem read_spanning_returns (flushed : boundary log (start + inserted.bytes.length) ≤ readUpto)
    (limit : readUpto < 256 ^ 8)
    (expects : state.decodeRecPtr = 0 ∨ state.decodeRecPtr = physical log before)
    (configured : Configured log state) (atPage : AtPage log memory readUpto state page)
    (spans : capacity log page - used < inserted.bytes.length)
    (whole : available readUpto page = xlogBlcksz) (gotheader : Bool) :
    ∃ final decoded, decodeXLogRecord state.readRecPtr inserted.bytes = .ok decoded ∧
      readSpanning crcByte (readLocalXLogPage memory readUpto)
          (address log page used) inserted.bytes.length
          (state.decodeRecPtr == 0) state (page * xlogBlcksz) gotheader =
        .ok (.done (behindRecord log start next final) (placedRecord log start next decoded)) ∧
      Configured log final ∧ final.readRecPtr = state.readRecPtr ∧
      Cached log origin memory readUpto final (start + inserted.bytes.length) := by
  have inside := record.inside
  have room := page_room log page
  have behind := record.behind
  have place := physical_of log position inside
  have pageEnd : base log (page + 1) =
      base log page + capacity log page := rfl
  have recordLimit : physical log start < 256 ^ 8 := by
    have further := physical_lt_boundary log (show start < start + inserted.bytes.length by omega)
    omega
  have len : xlogBlcksz - (header log page + used) =
      capacity log page - used := by omega
  have taken : (state.readBuf.drop (header log page + used)).take
      (capacity log page - used) =
        inserted.bytes.take (capacity log page - used) := by
    rw [cached_from_start atPage (by omega), take_load _ _ (by omega),
      load_first_piece record (by omega) (le_of_lt spans)]
  obtain ⟨final, last, put, further, done⟩ := reassemble_returns record position entry flushed
    limit expects inserted.bytes.length (le_refl page)
    (show ReassemblyAt log origin memory readUpto state start inserted.bytes
        { state := state
          targetPagePtr := page * xlogBlcksz
          readRecordBuf := inserted.bytes.take (capacity log page - used)
          gotlen := capacity log page - used
          gotheader := gotheader } page from
      ⟨atPage, configured, ⟨rfl, rfl⟩, rfl, rfl, show _ = start + (_ - used) by omega,
        record.opened⟩) spans (Nat.le_add_left _ _)
  obtain ⟨decoded, decodes, finish⟩ := finish_read_returns entry recordLimit done.configured
  rw [done.same.readRecPtr] at decodes
  have parsed : parseXLogPageHeader final.state.readBuf = headerAt log memory last := by
    rw [done.atPage.readBuf]
    apply parse_loaded_header
    have there := available_of_boundary (by omega) (capacity_pos log last)
      (le_trans (boundary_le log (done.filled)) flushed)
    omega
  have ends : last * xlogBlcksz + header log last +
      maxalign (start + inserted.bytes.length - base log last) =
        boundary log (start + maxalign inserted.header.xlTotLen) := by
    have alignedBase := base_aligned log last
    have alignedStart := entry.aligned
    have filled := done.filled
    have lastEnd : base log (last + 1) =
      base log last + capacity log last := rfl
    have fits := (maxalign_address log (show start + inserted.bytes.length -
      base log last ≤ capacity log last by
        have within := done.inside
        omega)).2
    have sum : start + maxalign inserted.header.xlTotLen = base log last +
        maxalign (start + inserted.bytes.length - base log last) := by
      rw [entry.length]
      unfold maxalign
      omega
    rw [sum, boundary_at _ _ fits, wal_address]
    unfold maxalign
    omega
  refine ⟨final.state, decoded, decodes, ?_, done.configured, done.same.readRecPtr, last,
    by omega, le_of_lt done.filled, done.atPage,
    continuation_legible done.continued (by omega)⟩
  have size : xlogPageHeaderSize (headerAt log memory last) =
      header log last := done.continued.valid.size
  rw [readSpanning, address_offset inside, len, taken, ← place, put, ok_then]
  simp only [parsed, size, done.continued.remLen, done.targetPagePtr, done.readRecordBuf]
  rw [ends, finish]
  rfl

end

/-- The reader between two records: the next one starts at `start`, and the last one read, if
there was one, at `before`. -/
structure ReaderAt (log : LogIdentity) (origin : Nat) (memory : Memory) (readUpto : Nat)
    (before start : Nat) (state : XLogReaderState) : Prop where
  configured : Configured log state
  asked : state.nextRecPtr = (walLayout log.size).boundary start ∨
    state.nextRecPtr = (walLayout log.size).physical start
  expects : state.decodeRecPtr = 0 ∨ state.decodeRecPtr = (walLayout log.size).physical before
  comes : Fresh state ∨ Cached log origin memory readUpto state start

section

variable (reader : ReaderAt log origin memory readUpto before start state)
  (position : start = Layout.base log page + used)

include reader position

theorem asked_page (inside : used < capacity log page) :
    (used = 0 ∧ state.nextRecPtr = page * xlogBlcksz ∨
        state.nextRecPtr = address log page used) ∧
      state.nextRecPtr - state.nextRecPtr % xlogBlcksz = page * xlogBlcksz ∧
      state.nextRecPtr % xlogBlcksz ≤ header log page + used := by
  have place := physical_of log position inside
  have onPage : state.nextRecPtr = address log page used →
      state.nextRecPtr - state.nextRecPtr % xlogBlcksz = page * xlogBlcksz ∧
        state.nextRecPtr % xlogBlcksz ≤ header log page + used := by
    intro asked
    rw [asked, address_offset inside, wal_address]
    omega
  rcases reader.asked with asked | asked
  · rcases Nat.eq_zero_or_pos used with rfl | filled
    · rw [position, add_zero, boundary_start] at asked
      change state.nextRecPtr = page * xlogBlcksz at asked
      rw [asked, Nat.mul_mod_left]
      omega
    · rw [position, boundary_at _ filled (le_of_lt inside)] at asked
      exact ⟨.inr asked, onPage asked⟩
  · rw [place] at asked
    exact ⟨.inr asked, onPage asked⟩

theorem decode_next_returns (record : RecordAt log origin memory page used inserted.bytes)
    (entry : Entry log crcByte before start inserted next)
    (flushed : boundary log (start + inserted.bytes.length) ≤ readUpto)
    (limit : readUpto < 256 ^ 8) :
    ∃ state' decoded, decodeXLogRecord state.readRecPtr inserted.bytes = .ok decoded ∧
      xlogDecodeNextRecord crcByte (readLocalXLogPage memory readUpto) readUpto state =
        .ok (state', placedRecord log start next decoded) ∧
      ReaderAt log origin memory readUpto start next state' ∧
      state'.readRecPtr = state.readRecPtr := by
  have fixed : sizeOfXLogRecord = 24 := rfl
  have minimum := bytes_length_pos inserted
  have inside := record.inside
  have room := page_room log page
  have goesOn := entry.goesOn
  obtain ⟨asked, target, offset⟩ := asked_page reader position inside
  have recordLimit : physical log start < 256 ^ 8 := by
    have further := physical_lt_boundary log (show start < start + inserted.bytes.length by omega)
    omega
  have enough : header log page + used +
      min inserted.bytes.length (capacity log page - used) ≤ available readUpto page := by
    apply first_page_available inside (by omega)
    rw [← position]
    exact flushed
  have onPage : header log page < available readUpto page := by omega
  have comes : ComesTo log origin memory readUpto state page := by
    rcases reader.comes with fresh | ⟨last, originBehind, started, atPage, legible⟩
    · exact .fresh fresh
    · exact .earlier last (page_le_of_base _ (by rwa [← position]) inside) originBehind
        atPage legible
  obtain ⟨state₁, read, atPage, configured, same⟩ := read_page_returns reader.configured comes
    record.opened (fun _ _ => record.segment) record.behind limit onPage
    (Nat.lt_min.mpr ⟨by omega, by decide⟩)
    (show min (state.nextRecPtr % xlogBlcksz + sizeOfXLogRecord) xlogBlcksz ≤ _ by
      rcases le_total inserted.bytes.length (capacity log page - used) with
        short | long
      · rw [min_eq_left short] at enough
        exact le_trans (min_le_left _ _) (by omega)
      · rw [min_eq_right long] at enough
        exact le_trans (min_le_right _ _) (by omega))
  have started := record_start_returns record.toStartPage atPage (le_of_lt onPage) asked
  have expects := reader.expects
  rw [← same.decodeRecPtr] at expects
  obtain ⟨gotheader, checked⟩ := check_start_returns record position entry recordLimit expects
    atPage enough
  have attempted : ∃ final decoded, decodeXLogRecord state.readRecPtr inserted.bytes = .ok decoded ∧
      decodeAttempt crcByte (readLocalXLogPage memory readUpto) state state.nextRecPtr
          (state.decodeRecPtr == 0) =
        .ok (.done (behindRecord log start next final) (placedRecord log start next decoded)) ∧
      Configured log final ∧ final.readRecPtr = state.readRecPtr ∧
      Cached log origin memory readUpto final (start + inserted.bytes.length) := by
    rw [decodeAttempt]
    rw [target, read, ok_then, started, ok_then, ← same.decodeRecPtr, checked]
    dsimp only [RecordReader.failure]
    rw [ok_then]
    rw [ok_then]
    rw [address_offset inside, ← same.readRecPtr]
    by_cases spans : inserted.bytes.length > xlogBlcksz - (header log page + used)
    · rw [if_pos spans]
      apply read_spanning_returns record position entry flushed limit expects configured atPage
      · omega
      · rw [min_eq_right (by omega)] at enough
        have most : available readUpto page ≤ xlogBlcksz := min_le_left _ _
        omega
    · rw [if_neg spans]
      rw [min_eq_left (by omega)] at enough
      obtain ⟨decoded, decodes, returned⟩ := read_on_page_returns record position entry
        recordLimit configured atPage (by omega) enough
      refine ⟨state₁, decoded, decodes, ?_, configured, rfl, page, record.behind, by omega, atPage,
        record.opened⟩
      rw [returned]
  obtain ⟨final, decoded, decodes, attempt, finalConfigured, finalSame, last, behind, ended,
    finalPage, legible⟩ := attempted
  refine ⟨behindRecord log start next final, decoded, decodes, ?_, ?_, finalSame⟩
  · rw [xlogDecodeNextRecord, decodeAttempts, attempt]
    rfl
  · refine ⟨⟨finalConfigured.size, finalConfigured.sysid⟩, .inl rfl, .inr rfl, .inr
      ⟨last, behind, by omega, ?_, legible⟩⟩
    exact ⟨finalPage.wsSegno, finalPage.segoff, finalPage.readLen, finalPage.readBuf,
      finalPage.latestPagePtr, finalPage.latestPageTLI⟩

end

section Runs

variable {final : Nat} {inserted : List InsertedRecord}

structure Returned (readRecPtr : Nat) (inserted : InsertedRecord) (record : ReadRecord) : Prop where
  lsn : record.lsn = inserted.reservation.startPos
  nextLsn : record.nextLsn = inserted.reservation.endPos
  decoded : decodeXLogRecord readRecPtr inserted.bytes = .ok record.decoded

section

variable (logged : Logged log crcByte origin memory before start inserted final)

include logged

theorem logged_le : start ≤ final := by
  induction logged with
  | nil => exact le_rfl
  | cons position record entry others ih =>
    have goesOn := entry.goesOn
    omega

/-- Run: the reader returns the records of the log in their order. -/
theorem read_records_returns (reader : ReaderAt log origin memory readUpto before start state)
    (flushed : boundary log final ≤ readUpto) (limit : readUpto < 256 ^ 8) :
    ∃ state' records, readRecords crcByte (readLocalXLogPage memory readUpto) readUpto
          inserted.length state = .ok (state', records) ∧
      List.Forall₂ (Returned state.readRecPtr) inserted records ∧
      ∃ last, ReaderAt log origin memory readUpto last final state' := by
  induction logged generalizing state with
  | nil before start => exact ⟨state, [], rfl, .nil, before, reader⟩
  | @cons before start page used next final inserted rest position record entry others ih =>
    have goesOn := entry.goesOn
    have later := logged_le others
    obtain ⟨nextState, decoded, decodes, returned, nextReader, same⟩ := decode_next_returns reader
      position record entry
      (le_trans (boundary_le log (le_trans goesOn later)) flushed) limit
    obtain ⟨state', records, others, agree, last, finalReader⟩ := ih nextReader flushed
    rw [same] at agree
    refine ⟨state', placedRecord log start next decoded :: records, ?_,
      .cons ⟨entry.startPos.symm, entry.endPos.symm, decodes⟩ agree, last, finalReader⟩
    rw [length_cons, readRecords, returned, ok_then]
    dsimp only
    rw [others]
    rfl

end

def startBehind (log : LogIdentity) (endPos : Nat) : Nat :=
  if endPos % xlogBlcksz = 0 then endPos + skippedHeader log endPos else endPos

theorem physical_start_behind (position : Nat) :
    physical log position = startBehind log (boundary log position) := by
  obtain ⟨page, used, inside, rfl⟩ := located log position
  rw [physical_at _ inside, startBehind]
  rcases Nat.eq_zero_or_pos used with rfl | filled
  · rw [add_zero, boundary_start]
    change _ = if page * xlogBlcksz % xlogBlcksz = 0 then
      page * xlogBlcksz + skippedHeader log (page * xlogBlcksz) else page * xlogBlcksz
    rw [if_pos (Nat.mul_mod_left _ _), skipped_header, wal_address, add_zero]
  · have header := header_room log page
    rw [boundary_at _ filled (le_of_lt inside), address_offset inside, if_neg (by omega)]

section

variable (logged : Logged log crcByte origin memory before start inserted final)

include logged

theorem logged_first :
    ∀ first ∈ inserted.head?, first.reservation.startPos = physical log start := by
  intro first found
  cases logged with
  | nil => cases found
  | cons position record entry others =>
    cases found
    exact entry.startPos

theorem logged_chain :
    inserted.IsChain fun earlier later =>
      later.reservation.startPos = startBehind log earlier.reservation.endPos := by
  induction logged with
  | nil => exact .nil
  | cons position record entry others ih =>
    rw [isChain_cons]
    refine ⟨?_, ih⟩
    intro following found
    rw [logged_first others following found, entry.endPos, physical_start_behind]

end

theorem read_past_end (reader : ReaderAt log origin memory readUpto before start state)
    (ended : readUpto ≤ boundary log start) :
    ∃ failed, xlogDecodeNextRecord crcByte (readLocalXLogPage memory readUpto) readUpto state =
      .error failed := by
  obtain ⟨page, used, inside, position⟩ := located log start
  obtain ⟨-, target, -⟩ := asked_page reader position inside
  have behind : readUpto ≤ state.nextRecPtr := by
    rcases reader.asked with asked | asked
    · omega
    · have further := boundary_le_physical log start
      omega
  have within := Nat.mod_lt state.nextRecPtr (show 0 < xlogBlcksz by decide)
  have short := Nat.mod_le state.nextRecPtr xlogBlcksz
  have needed : state.nextRecPtr % xlogBlcksz <
      min (state.nextRecPtr % xlogBlcksz + sizeOfXLogRecord) xlogBlcksz :=
    Nat.lt_min.mpr ⟨Nat.lt_add_of_pos_right (by decide), within⟩
  have comes : Fresh state ∨ ∃ last, AtPage log memory readUpto state last := by
    rcases reader.comes with fresh | ⟨last, -, -, atPage, -⟩
    · exact .inl fresh
    · exact .inr ⟨last, atPage⟩
  have missing : readUpto < page * xlogBlcksz +
      min (state.nextRecPtr % xlogBlcksz + sizeOfXLogRecord) xlogBlcksz := by
    rw [← target]
    calc readUpto ≤ state.nextRecPtr := behind
      _ = state.nextRecPtr - state.nextRecPtr % xlogBlcksz + state.nextRecPtr % xlogBlcksz :=
          (Nat.sub_add_cancel short).symm
      _ < _ := Nat.add_lt_add_left needed _
  obtain ⟨message, failed⟩ := read_page_missing reader.configured comes
    (Nat.lt_of_le_of_lt (Nat.zero_le _) needed) (Nat.min_le_right _ _) missing
  refine ⟨{ errormsg := message, abortedRecPtr := 0, missingContrecPtr := 0 }, ?_⟩
  rw [xlogDecodeNextRecord, decodeAttempts, decodeAttempt]
  rw [target, failed]
  rfl

end Runs

theorem assembled_record_valid {env : AssembleEnv} {insertion : Insertion} {rmid info : UInt8}
    {record : AssembledRecord} (assembled : xlogRecordAssemble env insertion rmid info = .ok record)
    (rmgr : rmgrIdIsValid rmid = true)
    (switch : isXLogSwitch record.header = true → recordBody record = []) :
    ValidRecord env.crcByte record := by
  obtain ⟨parts, cut, mainFits, -, lengthFits, length, bytes⟩ := record_assemble_returns assembled
  rw [chain_flatten] at bytes
  have body := append_cancel_left bytes
  have filled : record.header.xlRmid = rmid ∧
      record.header.xlCrc = (recordBody record).foldl env.crcByte initCrc32c := by
    simp only [xlogRecordAssemble, sequence_returns, Except.ok.injEq] at assembled
    obtain ⟨-, -, -, -, -, -, rfl⟩ := assembled
    refine ⟨rfl, ?_⟩
    simp [recordBody, compCrc32c]
  refine ⟨?_, lengthFits, switch, ?_, filled.2, ?_⟩
  · simp [length, body]
  · rw [filled.1]
    exact rmgr
  · intro lsn header sameLength prevFits
    rw [body]
    exact ⟨_, decode_record_parts cut (insertion_slot_bound insertion) lsn _ mainFits prevFits
      (by rw [sameLength]; exact lengthFits) (by rw [sameLength]; exact length)⟩

/-- The next record has a place on a page, and the pages that are there carry their headers. -/
def ValidStart (log : LogIdentity) (insert : WalInsert) : Prop :=
  ∃ page used, Ready log page insert page used

def segmentInsert (log : LogIdentity) (segno : Nat) (memory : Memory) : WalInsert :=
  { position :=
      { currBytePos := (walLayout log.size).base (segno * log.size.pages), prevBytePos := 0 }
    buffers :=
      { initializedUpTo := segno * log.size.pages * xlogBlcksz, memory := memory } }

theorem segment_insert_valid (log : LogIdentity) {segno : Nat} (further : 0 < segno)
    (memory : Memory) : ValidStart log (segmentInsert log segno memory) := by
  have pages := segment_pages_pos log.size
  have start : segmentStart log (segno * log.size.pages) = segno * log.size.pages := by
    rw [segmentStart, Nat.mul_div_cancel _ pages]
  refine ⟨segno * log.size.pages, 0, rfl, Layout.capacity_pos log _,
    base_aligned log _, ?_, ⟨Nat.mul_mod_left _ _, le_refl _, ?_⟩,
    fun filled => absurd filled (lt_irrefl 0), ?_, le_refl _⟩
  · have first := Layout.base_le log
      (show 1 ≤ segno * log.size.pages from Nat.mul_pos further pages)
    have capacity := Layout.capacity_pos log 0
    have second : Layout.base log 1 = 0 + Layout.capacity log 0 := rfl
    show 0 < Layout.base log (segno * log.size.pages)
    omega
  · intro later behind opened
    have further := Nat.mul_le_mul_right xlogBlcksz behind
    exact absurd opened (not_lt.mpr further)
  · rintro (before | filled)
    · exact absurd before (by rw [start]; exact lt_irrefl _)
    · exact absurd filled (lt_irrefl 0)

def sampleLog : LogIdentity :=
  { size := smallestSegmentSize, systemIdentifier := 1, insertTimeLineID := 1 }

def switchEnv : AssembleEnv := { sampleEnv with subxactTopXidLogPending := false }

def emptyInsertion : Insertion :=
  { registeredBuffers := []
    maxRegisteredBuffers := 5
    spaceBound := sampleInsertion.spaceBound
    buffersFit := by decide
    mainrdata := []
    curinsertFlags := 0 }

theorem sample_record_length :
    (xlogRecordAssemble sampleEnv sampleInsertion 10 0).toOption.map
      (fun record => (record.header.xlTotLen, record.header.xlRmid)) = some (8264, 10) := by
  decide +kernel

theorem switch_record_assembled :
    (xlogRecordAssemble switchEnv emptyInsertion rmXlogId xlogSwitch).toOption.map
      (fun record => (isXLogSwitch record.header, recordBody record)) = some (true, []) := by
  decide +kernel

theorem insert_record_position {insert next : WalInsert} {call : InsertCall}
    {inserted : Option InsertedRecord}
    (returned : xlogInsertRecord log crcByte insert call = .ok (next, inserted)) :
    reserve log insert.position call.record.header =
      inserted.map fun record => (next.position, record.reservation) := by
  rw [xlogInsertRecord] at returned
  cases reserved : reserve log insert.position call.record.header with
  | none =>
    rw [reserved] at returned
    cases returned
    rfl
  | some result =>
    rw [reserved] at returned
    simp only [sequence_returns] at returned
    obtain ⟨buffers, -, made⟩ := returned
    cases made
    rfl

theorem sample_start :
    (segmentInsert sampleLog 1 fun _ => 0).position =
      { currBytePos := 1045488, prevBytePos := 0 } := by
  have base : (walLayout smallestSegmentSize).base 128 = 1045488 := by decide +kernel
  exact congrArg (fun position => InsertPosition.mk position 0) base

theorem sample_switch_reserved :
    (reserveXLogSwitch smallestSegmentSize
      { currBytePos := 1053752, prevBytePos := 1045488 }).map (fun result => result.1.currBytePos) =
        some 2090976 := by
  decide +kernel

theorem sample_positions {record switch : AssembledRecord} {final : WalInsert}
    {inserted : List InsertedRecord} (length : record.header.xlTotLen = 8264)
    (plain : isXLogSwitch record.header = false)
    (marked : isXLogSwitch switch.header = true)
    (ran : insertRecords sampleLog sampleEnv.crcByte (segmentInsert sampleLog 1 fun _ => 0)
        [{ record := record, runningBackups := 0 }, { record := switch, runningBackups := 0 }] =
      .ok (final, inserted)) : inserted.length = 2 ∧ final.position.currBytePos = 2090976 := by
  simp only [insertRecords, sequence_returns] at ran
  obtain ⟨⟨next, first⟩, inserts, ⟨_, _⟩, ⟨⟨last, second⟩, switches, ⟨_, _⟩, stops, tail⟩, made⟩ :=
    ran
  cases stops
  cases tail
  cases made
  have firstPlace := insert_record_position inserts
  have secondPlace := insert_record_position switches
  rw [reserve, plain, length, sample_start] at firstPlace
  rw [reserve, marked, if_pos rfl] at secondPlace
  cases first with
  | none => cases firstPlace
  | some first =>
    have moved : next.position = { currBytePos := 1053752, prevBytePos := 1045488 } :=
      (congrArg Prod.fst (some.inj firstPlace)).symm
    have reserved := sample_switch_reserved
    rw [← moved] at reserved
    change (reserveXLogSwitch sampleLog.size next.position).map _ = _ at reserved
    rw [secondPlace] at reserved
    cases second with
    | none => cases reserved
    | some second => exact ⟨rfl, some.inj reserved⟩

end FortressQL.Wal.StreamRoundTrip
