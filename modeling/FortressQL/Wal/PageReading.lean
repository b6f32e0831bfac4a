import FortressQL.Wal.InsertedLog
import FortressQL.Wal.RecordReader

/-!
# Reading the pages of the log

The reader comes from page to page. A page that carries the right header is read and stays in the
cache, as much of it as is flushed, and the timelines of the pages never go back.
-/

namespace FortressQL.Wal.PageReading

open Lib.PagedStream Layout
open Elog Lib.ByteMemory Wal.BytePositions Wal.InsertedLog Wal.PageHeaders Wal.RecordCopy
open Wal.RecordDecode Wal.RecordReader Wal.Segments

variable {page length first second origin : Nat} {log : LogIdentity}

def available (readUpto page : Nat) : Nat := min xlogBlcksz (readUpto - page * xlogBlcksz)

structure Configured (log : LogIdentity) (state : XLogReaderState) : Prop where
  size : state.size = log.size
  sysid : state.systemIdentifier = 0 ∨ state.systemIdentifier = log.systemIdentifier

structure AtPage (log : LogIdentity) (memory : Memory) (readUpto : Nat) (state : XLogReaderState)
    (page : Nat) : Prop where
  wsSegno : state.wsSegno = page / log.size.pages
  segoff : state.segoff = page % log.size.pages * xlogBlcksz
  readLen : state.readLen = available readUpto page
  readBuf : state.readBuf = load memory (page * xlogBlcksz) (available readUpto page)
  latestPagePtr : state.latestPagePtr = page * xlogBlcksz
  latestPageTLI : state.latestPageTLI = (headerAt log memory page).xlpTli

structure Fresh (state : XLogReaderState) : Prop where
  readLen : state.readLen = 0
  latestPageTLI : state.latestPageTLI = 0

inductive ComesTo (log : LogIdentity) (origin : Nat) (memory : Memory) (readUpto : Nat)
    (state : XLogReaderState) (page : Nat) : Prop
  | fresh (fresh : Fresh state)
  | earlier (last : Nat) (ordered : last ≤ page) (behind : origin ≤ last)
      (atPage : AtPage log memory readUpto state last)
      (legible : Legible log origin memory last)

structure SameRecords (state state' : XLogReaderState) : Prop where
  readRecPtr : state'.readRecPtr = state.readRecPtr
  decodeRecPtr : state'.decodeRecPtr = state.decodeRecPtr

section Headers

variable {memory : Memory}

theorem header_bytes_take (enough : header log page ≤ length) :
    (load memory (page * xlogBlcksz) length).take (header log page) = headerBytes log memory page :=
  take_load memory _ enough

theorem parse_loaded_header (log : LogIdentity) (memory : Memory)
    (enough : header log page ≤ length) :
    parseXLogPageHeader (load memory (page * xlogBlcksz) length) = headerAt log memory page := by
  rw [headerAt, ← header_bytes_take enough, parse_page_header_take _ (header_room log page).1]

theorem validate_page_header (length : Nat) (state : XLogReaderState)
    (configured : Configured log state) (legible : Legible log origin memory page)
    (fits : page * xlogBlcksz < 256 ^ 8) (enough : header log page ≤ length)
    (follows : state.latestPagePtr < page * xlogBlcksz →
      state.latestPageTLI ≤ (headerAt log memory page).xlpTli) :
    xlogReaderValidatePageHeader state (page * xlogBlcksz)
        (load memory (page * xlogBlcksz) length) =
      .ok { state with
        latestPagePtr := page * xlogBlcksz
        latestPageTLI := (headerAt log memory page).xlpTli } := by
  have valid := legible.valid
  have parsed := parse_loaded_header log memory enough
  have kind : validateHeaderKind state (page * xlogBlcksz)
      (load memory (page * xlogBlcksz) length) = .ok () := by
    simp only [validateHeaderKind, parsed]
    have long : hasFlag (headerAt log memory page).xlpInfo xlpLongHeader =
        decide (page % log.size.pages = 0) := valid.long
    rw [long]
    by_cases first : page % log.size.pages = 0
    · have fields : parseLongFields (load memory (page * xlogBlcksz) length) =
          log.longFields := by
        have whole := valid.fields first
        rwa [← header_bytes_take enough, wal_header, if_pos first,
          parse_long_fields_take _ (le_refl 40)] at whole
      have system : ¬ (state.systemIdentifier ≠ 0 ∧
          log.longFields.xlpSysid ≠ state.systemIdentifier) := by
        rintro ⟨known, different⟩
        exact different (configured.sysid.resolve_left known).symm
      have segmentSize : log.longFields.xlpSegSize = state.size.bytes := by
        rw [configured.size]
        rfl
      rw [if_pos (decide_eq_true first), fields, demand_holds system, ok_then,
        demand_holds segmentSize, ok_then,
        demand_holds (show log.longFields.xlpXlogBlcksz = xlogBlcksz from rfl)]
    · have offset : xlogSegmentOffset (page * xlogBlcksz) state.size ≠ 0 := by
        rw [configured.size, Ne, first_of_segment]
        exact first
      rw [if_neg (by rw [decide_eq_false first]; exact Bool.false_ne_true), demand_holds offset]
  have pageaddr : (headerAt log memory page).xlpPageaddr = page * xlogBlcksz := by
    rw [← Nat.mod_eq_of_lt fits]
    exact valid.pageaddr
  have sequence : ¬ (page * xlogBlcksz > state.latestPagePtr ∧
      (headerAt log memory page).xlpTli < state.latestPageTLI) := by
    rintro ⟨further, earlier⟩
    exact UInt32.not_lt.mpr (follows further) earlier
  rw [xlogReaderValidatePageHeader, kind]
  simp only [parsed]
  rw [demand_holds (show (headerAt log memory page).xlpMagic = xlogPageMagic from valid.magic),
    demand_holds (show (headerAt log memory page).xlpInfo &&& ~~~xlpAllFlags = 0 from valid.flags),
    demand_holds pageaddr, demand_holds sequence]
  rfl

end Headers

section Pages

variable {memory : Memory} {readUpto : Nat} {state : XLogReaderState} {reqLen : Nat}

theorem page_read_returns (memory : Memory) (some' : 0 < reqLen)
    (there : reqLen ≤ available readUpto page) :
    pageReadOrFail (readLocalXLogPage memory readUpto) (page * xlogBlcksz) reqLen =
      .ok (load memory (page * xlogBlcksz) (available readUpto page)) := by
  unfold available at there ⊢
  rw [pageReadOrFail, readLocalXLogPage]
  by_cases whole : page * xlogBlcksz + xlogBlcksz ≤ readUpto
  · rw [if_pos whole, min_eq_left (by omega)]
  · rw [if_neg whole, if_neg (by omega), min_eq_right (by omega)]

theorem legible_tli_le (earlier : Legible log origin memory first)
    (later : Legible log origin memory second) (ordered : first ≤ second)
    (behind : origin ≤ second) :
    (headerAt log memory first).xlpTli ≤ (headerAt log memory second).xlpTli := by
  rcases eq_or_lt_of_le behind with rfl | further
  · rcases eq_or_lt_of_le ordered with rfl | before
    · exact UInt32.le_refl _
    · exact earlier.earlier before
  · rw [later.current further]
    exact earlier.notLater

theorem same_page_offset (configured : Configured log state) (page : Nat) :
    page * xlogBlcksz / state.size.bytes = page / log.size.pages ∧
      xlogSegmentOffset (page * xlogBlcksz) state.size = page % log.size.pages * xlogBlcksz := by
  rw [configured.size, page_segment_offset, position_segment, Nat.mul_div_cancel _ (by decide)]
  exact ⟨rfl, rfl⟩

theorem read_page_cached (configured : Configured log state)
    (atPage : AtPage log memory readUpto state page) (there : reqLen ≤ available readUpto page) :
    readPageInternal (readLocalXLogPage memory readUpto) state (page * xlogBlcksz) reqLen =
      .ok state := by
  obtain ⟨segno, segoff⟩ := same_page_offset configured page
  rw [readPageInternal]
  rw [if_pos]
  rw [segno, segoff, atPage.wsSegno, atPage.segoff, atPage.readLen]
  exact ⟨rfl, rfl, there⟩

theorem page_of_segment (log : LogIdentity)
    (segno : first / log.size.pages = second / log.size.pages)
    (segoff : first % log.size.pages * xlogBlcksz = second % log.size.pages * xlogBlcksz) :
    first = second := by
  have offset := Nat.eq_of_mul_eq_mul_right (by decide) segoff
  rw [← Nat.div_add_mod first log.size.pages, ← Nat.div_add_mod second log.size.pages, segno,
    offset]

theorem segment_start_behind {last : Nat} (ordered : last ≤ page)
    (other : page / log.size.pages ≠ last / log.size.pages) :
    last < segmentStart log page := by
  have further : last / log.size.pages < page / log.size.pages :=
    lt_of_le_of_ne (Nat.div_le_div_right ordered) (Ne.symm other)
  have bound := Nat.mul_le_mul_right log.size.pages
    (show last / log.size.pages + 1 ≤ _ from further)
  have split := Nat.div_add_mod last log.size.pages
  have below := Nat.mod_lt last (segment_pages_pos log.size)
  rw [add_mul, mul_comm (last / log.size.pages)] at bound
  unfold segmentStart
  omega

section

variable (configured : Configured log state) (comes : ComesTo log origin memory readUpto state page)
  (legible : Legible log origin memory page)
  (segment : page / log.size.pages ≠ state.wsSegno → page % log.size.pages ≠ 0 →
    Legible log origin memory (segmentStart log page))
  (behind : origin ≤ page)

include configured comes legible segment behind

theorem check_segment_returns (fits : page * xlogBlcksz < 256 ^ 8)
    (flushed : page * xlogBlcksz ≤ readUpto) :
    ∃ latestPagePtr latestPageTLI,
      checkSegment (readLocalXLogPage memory readUpto) state (page * xlogBlcksz) =
          .ok { state with latestPagePtr := latestPagePtr, latestPageTLI := latestPageTLI } ∧
        (latestPagePtr < page * xlogBlcksz →
          latestPageTLI ≤ (headerAt log memory page).xlpTli) := by
  obtain ⟨segno, segoff⟩ := same_page_offset configured page
  have block : 0 < xlogBlcksz := by decide
  rw [checkSegment]
  simp only [segno, segoff]
  split_ifs with other
  · have inner : page % log.size.pages ≠ 0 := fun first => other.2 (by rw [first, Nat.zero_mul])
    have startLegible := segment other.1 inner
    have start : page * xlogBlcksz - page % log.size.pages * xlogBlcksz =
        segmentStart log page * xlogBlcksz := by
      rw [← Nat.sub_mul]
      congr 1
      have split := Nat.div_add_mod page log.size.pages
      rw [segmentStart, Nat.mul_comm]
      omega
    have before : segmentStart log page < page := by
      have split := Nat.div_add_mod page log.size.pages
      rw [segmentStart, Nat.mul_comm]
      omega
    have whole : available readUpto (segmentStart log page) = xlogBlcksz := by
      have further := next_page_le xlogBlcksz before
      rw [available, Nat.min_eq_left (by omega)]
    have room := page_room log (segmentStart log page)
    have follows : state.latestPagePtr < segmentStart log page * xlogBlcksz →
        state.latestPageTLI ≤ (headerAt log memory (segmentStart log page)).xlpTli := by
      intro _
      cases comes with
      | fresh fresh =>
        rw [fresh.latestPageTLI]
        exact UInt32.le_iff_toNat_le.mpr (Nat.zero_le _)
      | earlier last ordered originBehind atPage lastLegible =>
        have passed := segment_start_behind ordered (by rw [← atPage.wsSegno]; exact other.1)
        rw [atPage.latestPageTLI]
        exact legible_tli_le lastLegible startLegible (Nat.le_of_lt passed) (by omega)
    refine ⟨segmentStart log page * xlogBlcksz,
      (headerAt log memory (segmentStart log page)).xlpTli, ?_, ?_⟩
    · rw [start, page_read_returns memory block (Nat.le_of_eq whole.symm)]
      exact validate_page_header _ state configured startLegible (by omega) (by omega) follows
    · intro _
      exact legible_tli_le startLegible legible (Nat.le_of_lt before) behind
  · refine ⟨state.latestPagePtr, state.latestPageTLI, rfl, ?_⟩
    intro further
    cases comes with
    | fresh fresh =>
      rw [fresh.latestPageTLI]
      exact UInt32.le_iff_toNat_le.mpr (Nat.zero_le _)
    | earlier last ordered originBehind atPage lastLegible =>
      rw [atPage.latestPageTLI]
      exact legible_tli_le lastLegible legible ordered behind

theorem read_page_returns (limit : readUpto < 256 ^ 8)
    (enough : Layout.header log page < available readUpto page) (some' : 0 < reqLen)
    (there : reqLen ≤ available readUpto page) :
    ∃ state',
      readPageInternal (readLocalXLogPage memory readUpto) state (page * xlogBlcksz) reqLen =
        .ok state' ∧
      AtPage log memory readUpto state' page ∧ Configured log state' ∧
        SameRecords state state' := by
  have flushed : page * xlogBlcksz < readUpto := by
    unfold available at enough
    omega
  have header := header_room log page
  have cached : ∀ last, AtPage log memory readUpto state last → last = page →
      ∃ state', readPageInternal (readLocalXLogPage memory readUpto) state (page * xlogBlcksz)
          reqLen = .ok state' ∧
        AtPage log memory readUpto state' page ∧ Configured log state' ∧
        SameRecords state state' := by
    rintro last atPage rfl
    exact ⟨state, read_page_cached configured atPage there, atPage, configured, rfl, rfl⟩
  obtain ⟨segno, segoff⟩ := same_page_offset configured page
  by_cases hit : page / log.size.pages = state.wsSegno ∧
      page % log.size.pages * xlogBlcksz = state.segoff ∧ reqLen ≤ state.readLen
  · cases comes with
    | fresh fresh =>
      have none := hit.2.2
      rw [fresh.readLen] at none
      omega
    | earlier last _ _ atPage _ =>
      apply cached last atPage
      apply page_of_segment log
      · rw [← atPage.wsSegno, hit.1]
      · rw [← atPage.segoff, hit.2.1]
  · obtain ⟨latestPagePtr, latestPageTLI, checked, follows⟩ :=
      check_segment_returns configured comes legible segment behind (by omega) (by omega)
    have read := page_read_returns memory (by omega)
      (show max reqLen sizeOfXLogShortPHD ≤ available readUpto page by
        unfold sizeOfXLogShortPHD
        omega)
    have parsed := parse_loaded_header log memory (le_of_lt enough)
    have size : xlogPageHeaderSize (headerAt log memory page) = Layout.header log page :=
      legible.valid.size
    have validated := validate_page_header (available readUpto page)
      { state with latestPagePtr := latestPagePtr, latestPageTLI := latestPageTLI }
      ⟨configured.size, configured.sysid⟩ legible (by omega) (le_of_lt enough) follows
    refine ⟨{ state with
        wsSegno := page / log.size.pages
        segoff := page % log.size.pages * xlogBlcksz
        readLen := available readUpto page
        readBuf := load memory (page * xlogBlcksz) (available readUpto page)
        latestPagePtr := page * xlogBlcksz
        latestPageTLI := (headerAt log memory page).xlpTli }, ?_, ⟨rfl, rfl, rfl, rfl, rfl, rfl⟩,
      ⟨configured.size, configured.sysid⟩, rfl, rfl⟩
    rw [readPageInternal]
    simp only [segno, segoff]
    rw [if_neg hit, checked, ok_then, read, ok_then,
      demand_holds (by rw [load_length]; unfold sizeOfXLogShortPHD; omega), ok_then, parsed,
      load_length, if_neg (by omega), ok_then, validated, ok_then, load_length]

end

theorem read_page_missing (configured : Configured log state)
    (comes : Fresh state ∨ ∃ last, AtPage log memory readUpto state last) (some' : 0 < reqLen)
    (most : reqLen ≤ xlogBlcksz) (missing : readUpto < page * xlogBlcksz + reqLen) :
    ∃ message, readPageInternal (readLocalXLogPage memory readUpto) state (page * xlogBlcksz)
      reqLen = .error message := by
  obtain ⟨segno, segoff⟩ := same_page_offset configured page
  have uncached : ¬ (page / log.size.pages = state.wsSegno ∧
      page % log.size.pages * xlogBlcksz = state.segoff ∧ reqLen ≤ state.readLen) := by
    rintro ⟨sameSegment, sameOffset, there⟩
    rcases comes with fresh | ⟨last, atPage⟩
    · rw [fresh.readLen] at there
      omega
    · rw [atPage.wsSegno] at sameSegment
      rw [atPage.segoff] at sameOffset
      rw [atPage.readLen, ← page_of_segment log sameSegment sameOffset, available] at there
      omega
  have fails : pageReadOrFail (readLocalXLogPage memory readUpto) (page * xlogBlcksz)
      (max reqLen sizeOfXLogShortPHD) = .error "" := by
    rw [pageReadOrFail, readLocalXLogPage, if_neg (by omega), if_pos]
    exact lt_of_lt_of_le missing (Nat.add_le_add_left (le_max_left _ _) _)
  rw [readPageInternal]
  simp only [segno, segoff]
  rw [if_neg uncached]
  cases checked : checkSegment (readLocalXLogPage memory readUpto) state (page * xlogBlcksz) with
  | error message => exact ⟨message, rfl⟩
  | ok state =>
    refine ⟨"", ?_⟩
    rw [fails]
    rfl

end Pages

end FortressQL.Wal.PageReading
