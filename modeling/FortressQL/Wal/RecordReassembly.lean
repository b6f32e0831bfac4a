import FortressQL.Wal.PageReading

/-!
# Putting a record together

The loop of `XLogDecodeNextRecord` over the pages of a record ends with the bytes that were
inserted.
-/

namespace FortressQL.Wal.RecordReassembly

open List Elog Lib.ByteStrings Lib.ByteMemory Lib.PagedStream Layout
open Storage.BufPage (maxalign)
open Wal.BytePositions Wal.InsertedLog Wal.PageHeaders Wal.PageReading Wal.RecordCopy
open Wal.RecordDecode Wal.RecordFormat Wal.RecordInsert Wal.RecordReader Wal.Segments

variable {count before start next page used : Nat} {state : XLogReaderState}
  {inserted : InsertedRecord} {log : LogIdentity} {crcByte : UInt32 → UInt8 → UInt32} {origin : Nat}
  {memory : Memory} {readUpto : Nat}

theorem bytes_length_pos (inserted : InsertedRecord) :
    sizeOfXLogRecord ≤ inserted.bytes.length := by
  rw [InsertedRecord.bytes, length_append]
  exact Nat.le_add_right _ _

section

variable (entry : Entry log crcByte before start inserted next)

include entry

theorem parse_record_start (limit : physical log start < 256 ^ 8) (rest : Bytes) :
    parseXLogRecord (encodeXLogRecord inserted.header ++ rest) = inserted.header := by
  have maximum : xlogRecordMaxSize < 256 ^ 4 := by decide
  have bound := entry.maximum
  have ordered := physical_lt log entry.ordered
  apply parse_encode_xlog_record
  · omega
  · rw [entry.link]
    omega

theorem valid_record_header {decodeRecPtr : Nat}
    (expects : decodeRecPtr = 0 ∨ decodeRecPtr = physical log before) :
    validXLogRecordHeader (physical log start) decodeRecPtr inserted.header
      (decodeRecPtr == 0) = .ok () := by
  have length : inserted.header.xlTotLen ≥ sizeOfXLogRecord := by
    rw [entry.length]
    exact bytes_length_pos inserted
  rw [validXLogRecordHeader, demand_holds length, demand_holds entry.rmgr]
  have positive : 0 < physical log before := by
    obtain ⟨page, used, inside, place⟩ := located log before
    have header := header_room log page
    rw [place, physical_at _ inside, wal_address]
    omega
  rcases expects with rfl | rfl
  · rw [if_pos (beq_self_eq_true 0)]
    apply demand_holds
    rw [entry.link]
    exact physical_lt log entry.ordered
  · rw [if_neg (by simp; omega)]
    exact demand_holds entry.link

theorem finish_read_returns (limit : physical log start < 256 ^ 8)
    (configured : Configured log state) :
    ∃ decoded, decodeXLogRecord state.readRecPtr inserted.bytes = .ok decoded ∧
      finishRead crcByte (physical log start) state inserted.bytes
          (boundary log (start + maxalign inserted.header.xlTotLen)) = .ok (.done
          { state with
            decodeRecPtr := physical log start
            nextRecPtr := boundary log next }
          { lsn := physical log start
            nextLsn := boundary log next
            decoded := decoded }) := by
  have parsed : parseXLogRecord inserted.bytes = inserted.header :=
    parse_record_start entry limit inserted.body
  have ordered := physical_lt log entry.ordered
  obtain ⟨decoded, decodes⟩ := entry.decodes (by rw [entry.link]; omega) state.readRecPtr
  have data : inserted.bytes.drop sizeOfXLogRecord = inserted.body :=
    drop_left' (encode_xlog_record_length _)
  have dataLength : inserted.header.xlTotLen - sizeOfXLogRecord = inserted.body.length := by
    rw [entry.length, InsertedRecord.bytes, length_append, encode_xlog_record_length]
    omega
  have head : inserted.bytes.take crcOffset =
      (encodeXLogRecord inserted.header).take crcOffset := by
    rw [InsertedRecord.bytes, take_append_of_le_length]
    rw [encode_xlog_record_length]
    decide
  have ends : nextRecPtr state.size inserted.header
      (boundary log (start + maxalign inserted.header.xlTotLen)) =
        boundary log next := by
    rw [entry.ends, configured.size]
    rfl
  refine ⟨decoded, decodes, ?_⟩
  rw [finishRead, validXLogRecord]
  rw [parsed, data, dataLength, take_length, head, demand_holds entry.crc, ends, decodes]
  rfl

end

theorem available_of_boundary {filled : Nat} (some' : 0 < filled)
    (inside : filled ≤ capacity log page)
    (flushed : boundary log (base log page + filled) ≤ readUpto) :
    header log page + filled ≤ available readUpto page := by
  have room := page_room log page
  rw [boundary_at _ some' inside, wal_address] at flushed
  unfold available
  omega

theorem load_first_piece (record : RecordAt log origin memory page used inserted.bytes)
    (onPage : used + count ≤ capacity log page) (inRecord : count ≤ inserted.bytes.length) :
    load memory (address log page used) count = inserted.bytes.take count := by
  have split := record.holds
  rw [← take_append_drop count inserted.bytes, holds_append] at split
  have length : (inserted.bytes.take count).length = count := length_take_of_le inRecord
  have loaded := split.1.load (by rwa [length])
  rwa [length] at loaded

theorem load_next_piece (record : RecordAt log origin memory page used inserted.bytes)
    {later gotlen : Nat} (reached : base log later = base log page + used + gotlen)
    (onPage : count ≤ capacity log later) (inRecord : gotlen + count ≤ inserted.bytes.length) :
    load memory (later * xlogBlcksz + header log later) count =
      (inserted.bytes.drop gotlen).take count := by
  have split := record.holds
  have got : (inserted.bytes.take gotlen).length = gotlen := length_take_of_le (by omega)
  rw [← take_append_drop gotlen inserted.bytes, holds_append, got, ← reached,
    ← take_append_drop count (inserted.bytes.drop gotlen), holds_append,
    ← add_zero (base log later)] at split
  have length : ((inserted.bytes.drop gotlen).take count).length = count := by
    rw [length_take, length_drop]
    omega
  have loaded := split.2.1.load (by rw [length]; omega)
  rwa [length, wal_address, add_zero] at loaded

section Reassembling

structure ReassemblyAt (log : LogIdentity) (origin : Nat) (memory : Memory) (readUpto : Nat)
    (state₀ : XLogReaderState) (start : Nat) (bytes : Bytes) (reassembly : Reassembly)
    (page : Nat) : Prop where
  atPage : AtPage log memory readUpto reassembly.state page
  configured : Configured log reassembly.state
  same : SameRecords state₀ reassembly.state
  targetPagePtr : reassembly.targetPagePtr = page * xlogBlcksz
  readRecordBuf : reassembly.readRecordBuf = bytes.take reassembly.gotlen
  reached : (walLayout log.size).base (page + 1) = start + reassembly.gotlen
  legible : Legible log origin memory page

def pieceLength (log : LogIdentity) (total : Nat) (reassembly : Reassembly) (page : Nat) : Nat :=
  min ((walLayout log.size).capacity (page + 1)) (total - reassembly.gotlen)

def pageAppended (state : XLogReaderState) (bytes : Bytes) (gotlen page : Nat) : Reassembly :=
  { state := state
    targetPagePtr := page * xlogBlcksz
    readRecordBuf := bytes.take gotlen
    gotlen := gotlen
    gotheader := true }

structure PageAppended (log : LogIdentity) (memory : Memory) (readUpto : Nat)
    (state₀ : XLogReaderState) (bytes : Bytes) (reassembly next : Reassembly) (page : Nat) :
    Prop where
  atPage : AtPage log memory readUpto next.state (page + 1)
  configured : Configured log next.state
  same : SameRecords state₀ next.state
  targetPagePtr : next.targetPagePtr = (page + 1) * xlogBlcksz
  readRecordBuf : next.readRecordBuf = bytes.take next.gotlen
  gotlen : next.gotlen = reassembly.gotlen + pieceLength log bytes.length reassembly page
  continued : ContinuationPage log memory (page + 1) (bytes.length - reassembly.gotlen)

variable {state₀ : XLogReaderState} {reassembly : Reassembly} {last : Nat}

section

variable (record : RecordAt log origin memory page used inserted.bytes)
  (position : start = Layout.base log page + used)
  (entry : Entry log crcByte before start inserted next)

include record position entry

theorem append_page_returns (limit : Layout.physical log start < 256 ^ 8)
    (expects : state₀.decodeRecPtr = 0 ∨ state₀.decodeRecPtr = Layout.physical log before)
    (loop : ReassemblyAt log origin memory readUpto state₀ start inserted.bytes reassembly last)
    (more : reassembly.gotlen < inserted.bytes.length)
    (atPage : AtPage log memory readUpto state (last + 1)) (configured : Configured log state)
    (same : SameRecords state₀ state)
    (continued : ContinuationPage log memory (last + 1) (inserted.bytes.length - reassembly.gotlen))
    {piece : Nat} (cut : piece = pieceLength log inserted.bytes.length reassembly last)
    (there : Layout.header log (last + 1) + piece ≤ available readUpto (last + 1)) :
    appendPage (readLocalXLogPage memory readUpto) (Layout.physical log start)
        inserted.bytes.length (state₀.decodeRecPtr == 0) reassembly state
        ((last + 1) * xlogBlcksz) =
      .ok (pageAppended state inserted.bytes (reassembly.gotlen + piece) (last + 1)) := by
  have fixed : sizeOfXLogRecord = 24 := rfl
  have minimum := bytes_length_pos inserted
  have room := page_room log (last + 1)
  have header := header_room log (last + 1)
  have reached := loop.reached
  have parsed := parse_loaded_header log memory
    (show Layout.header log (last + 1) ≤ available readUpto (last + 1) by omega)
  rw [← atPage.readBuf] at parsed
  have size : xlogPageHeaderSize (headerAt log memory (last + 1)) =
      Layout.header log (last + 1) := continued.valid.size
  have len : min (xlogBlcksz - Layout.header log (last + 1))
      (headerAt log memory (last + 1)).xlpRemLen = piece := by
    rw [continued.remLen, cut]
    congr 1
  have enough : min (inserted.bytes.length - reassembly.gotlen + sizeOfXLogShortPHD) xlogBlcksz ≤
      available readUpto (last + 1) := by
    have short : sizeOfXLogShortPHD = 24 := rfl
    rw [cut, pieceLength] at there
    rcases le_total (Layout.capacity log (last + 1))
      (inserted.bytes.length - reassembly.gotlen) with full | rest
    · rw [min_eq_left full] at there
      exact le_trans (min_le_right _ _) (by omega)
    · rw [min_eq_right rest] at there
      exact le_trans (min_le_left _ _) (by omega)
  have bounds : piece ≤ Layout.capacity log (last + 1) ∧
      reassembly.gotlen + piece ≤ inserted.bytes.length ∧ 24 ≤ reassembly.gotlen + piece := by
    have block : xlogBlcksz = 8192 := rfl
    rw [cut, pieceLength]
    omega
  have loaded : (state.readBuf.drop (Layout.header log (last + 1))).take piece =
      (inserted.bytes.drop reassembly.gotlen).take piece := by
    obtain ⟨rest, split⟩ := Nat.exists_eq_add_of_le
      (show Layout.header log (last + 1) ≤ available readUpto (last + 1) by omega)
    rw [atPage.readBuf, split, drop_load, take_load _ _ (by omega)]
    exact load_next_piece record (by omega) bounds.1 bounds.2.1
  have whole : reassembly.readRecordBuf ++
      (state.readBuf.drop (Layout.header log (last + 1))).take piece =
        inserted.bytes.take (reassembly.gotlen + piece) := by
    rw [loaded, loop.readRecordBuf, take_add]
  -- the header is complete with this page at the latest
  have checked : validXLogRecordHeader (Layout.physical log start) state.decodeRecPtr
      (parseXLogRecord (inserted.bytes.take (reassembly.gotlen + piece)))
      (state₀.decodeRecPtr == 0) = .ok () := by
    have split : inserted.bytes.take (reassembly.gotlen + piece) =
        encodeXLogRecord inserted.header ++
          inserted.body.take (reassembly.gotlen + piece - sizeOfXLogRecord) := by
      rw [InsertedRecord.bytes, take_append, encode_xlog_record_length,
        take_of_length_le (by rw [encode_xlog_record_length]; omega)]
    rw [split, parse_record_start entry limit, same.decodeRecPtr]
    exact valid_record_header entry expects
  rw [appendPage, read_page_cached configured atPage enough, ok_then]
  simp only [parsed, size, readMore, atPage.readLen]
  rw [if_neg (by omega), ok_then]
  simp only [parsed, len]
  rw [if_neg (by rw [atPage.readLen]; omega), ok_then, whole, checked]
  split_ifs <;> rfl

theorem reassemble_page_returns
    (flushed : Layout.boundary log (start + inserted.bytes.length) ≤ readUpto)
    (limit : readUpto < 256 ^ 8)
    (expects : state₀.decodeRecPtr = 0 ∨ state₀.decodeRecPtr = Layout.physical log before)
    (behind : page ≤ last)
    (loop : ReassemblyAt log origin memory readUpto state₀ start inserted.bytes reassembly last)
    (more : reassembly.gotlen < inserted.bytes.length) :
    ∃ following, reassemblePage (readLocalXLogPage memory readUpto)
          (Layout.physical log start) inserted.bytes.length (state₀.decodeRecPtr == 0)
          reassembly = .ok (.continued following) ∧
      PageAppended log memory readUpto state₀ inserted.bytes reassembly following last := by
  have originBehind := record.behind
  have reached := loop.reached
  have maximum := entry.maximum
  rw [entry.length] at maximum
  have range : xlogRecordMaxSize < uint32Range := by decide
  have continued := record.continued (last + 1) (by omega) (by omega)
  have remaining : Layout.base log page + used + inserted.bytes.length -
      Layout.base log (last + 1) = inserted.bytes.length - reassembly.gotlen := by omega
  rw [remaining] at continued
  have legible := continuation_legible continued (show origin ≤ last + 1 by omega)
  have capacity := Layout.capacity_pos log (last + 1)
  have header := header_room log (last + 1)
  obtain ⟨piece, cut⟩ : ∃ piece, piece = pieceLength log inserted.bytes.length reassembly last :=
    ⟨_, rfl⟩
  have bounds : 0 < piece ∧ piece ≤ Layout.capacity log (last + 1) ∧
      piece ≤ inserted.bytes.length - reassembly.gotlen := by
    rw [cut, pieceLength]
    omega
  have there : Layout.header log (last + 1) + piece ≤ available readUpto (last + 1) := by
    apply available_of_boundary bounds.1 bounds.2.1
    refine le_trans (Layout.boundary_le log ?_) flushed
    omega
  have recordLimit : Layout.physical log start < 256 ^ 8 := by
    have further := Layout.physical_lt_boundary log
      (show start < start + inserted.bytes.length by omega)
    omega
  obtain ⟨state, read, atPage, configured, same⟩ := read_page_returns loop.configured
    (ComesTo.earlier last (Nat.le_add_right last 1) (by omega) loop.atPage loop.legible) legible (by
      intro other inner
      exfalso
      apply other
      rw [loop.atPage.wsSegno, Nat.succ_div, if_neg, add_zero]
      rwa [Nat.dvd_iff_mod_eq_zero])
    (by omega) limit (by omega) (show 0 < sizeOfXLogShortPHD by decide)
    (by rw [sizeOfXLogShortPHD]; omega)
  have sameRecords : SameRecords state₀ state :=
    ⟨same.readRecPtr.trans loop.same.readRecPtr, same.decodeRecPtr.trans loop.same.decodeRecPtr⟩
  have parsed := parse_loaded_header log memory
    (show Layout.header log (last + 1) ≤ available readUpto (last + 1) by omega)
  rw [← atPage.readBuf] at parsed
  have agrees : (headerAt log memory (last + 1)).xlpRemLen ≠ 0 ∧ inserted.bytes.length =
      ((headerAt log memory (last + 1)).xlpRemLen + reassembly.gotlen) % uint32Range := by
    rw [continued.remLen, Nat.mod_eq_of_lt (by omega)]
    omega
  have appended := append_page_returns record position entry recordLimit expects loop more atPage
    configured sameRecords continued cut there
  refine ⟨pageAppended state inserted.bytes (reassembly.gotlen + piece) (last + 1), ?_, atPage,
    configured, sameRecords, rfl, rfl, by rw [← cut]; rfl, continued⟩
  rw [reassemblePage, loop.targetPagePtr, ← Nat.succ_mul, read, ok_then]
  dsimp only
  rw [parsed, continued.overwritten, demand_holds continued.first, demand_holds agrees, appended]
  rfl

end

/-- The loop is done: the record is there, and its last page in the cache. -/
structure Reassembled (log : LogIdentity) (memory : Memory) (readUpto : Nat)
    (state₀ : XLogReaderState) (start : Nat) (bytes : Bytes) (final : Reassembly) (page : Nat) :
    Prop where
  atPage : AtPage log memory readUpto final.state page
  configured : Configured log final.state
  same : SameRecords state₀ final.state
  targetPagePtr : final.targetPagePtr = page * xlogBlcksz
  readRecordBuf : final.readRecordBuf = bytes
  filled : (walLayout log.size).base page < start + bytes.length
  inside : start + bytes.length ≤ (walLayout log.size).base (page + 1)
  continued : ContinuationPage log memory page
    (start + bytes.length - (walLayout log.size).base page)

theorem reassemble_returns (record : RecordAt log origin memory page used inserted.bytes)
    (position : start = Layout.base log page + used)
    (entry : Entry log crcByte before start inserted next)
    (flushed : Layout.boundary log (start + inserted.bytes.length) ≤ readUpto)
    (limit : readUpto < 256 ^ 8)
    (expects : state₀.decodeRecPtr = 0 ∨ state₀.decodeRecPtr = Layout.physical log before)
    (rounds : Nat) (behind : page ≤ last)
    (loop : ReassemblyAt log origin memory readUpto state₀ start inserted.bytes reassembly last)
    (more : reassembly.gotlen < inserted.bytes.length)
    (enough : inserted.bytes.length ≤ reassembly.gotlen + rounds) :
    ∃ final last', reassemble (readLocalXLogPage memory readUpto)
          (Layout.physical log start) inserted.bytes.length (state₀.decodeRecPtr == 0)
          rounds reassembly = .ok (.continued final) ∧
      page < last' ∧
      Reassembled log memory readUpto state₀ start inserted.bytes final last' := by
  induction rounds generalizing reassembly last with
  | zero => omega
  | succ rounds ih =>
    obtain ⟨following, round, appended⟩ := reassemble_page_returns record position entry flushed
      limit expects behind loop more
    have reached := loop.reached
    have gotlen := appended.gotlen
    have capacity := Layout.capacity_pos log (last + 1)
    have pageEnd : Layout.base log (last + 1 + 1) =
        Layout.base log (last + 1) + Layout.capacity log (last + 1) := rfl
    unfold pieceLength at gotlen
    by_cases again : following.gotlen < inserted.bytes.length
    · have originBehind := record.behind
      obtain ⟨final, last', rest, further, done⟩ := ih (by omega)
        ⟨appended.atPage, appended.configured, appended.same, appended.targetPagePtr,
          appended.readRecordBuf, by omega,
          continuation_legible appended.continued (by omega)⟩ again (by omega)
      refine ⟨final, last', ?_, further, done⟩
      rw [reassemble, round]
      exact (if_pos again).trans rest
    · have complete : following.gotlen = inserted.bytes.length := by omega
      refine ⟨following, last + 1, ?_, by omega, ?_⟩
      · rw [reassemble, round]
        exact if_neg again
      · refine ⟨appended.atPage, appended.configured, appended.same, appended.targetPagePtr, ?_,
          by omega, by omega, ?_⟩
        · rw [appended.readRecordBuf, complete, take_length]
        · rw [show start + inserted.bytes.length - Layout.base log (last + 1) =
            inserted.bytes.length - reassembly.gotlen by omega]
          exact appended.continued

end Reassembling

end FortressQL.Wal.RecordReassembly
