import FortressQL.Lib.PagedStream
import FortressQL.Wal.Segments

/-!
# Usable byte positions

`xlog.c`: the insertion position counts the bytes that records can use. The conversions to
`XLogRecPtr`s are the addresses of a paged stream.
-/

namespace FortressQL.Wal.BytePositions

open Lib.PagedStream Layout Wal.Segments

def sizeOfXLogShortPHD : Nat := 24

def sizeOfXLogLongPHD : Nat := 40

def usableBytesInPage : Nat := xlogBlcksz - sizeOfXLogShortPHD

def usableBytesInSegment (size : WalSegmentSize) : Nat :=
  size.bytes / xlogBlcksz * usableBytesInPage - (sizeOfXLogLongPHD - sizeOfXLogShortPHD)

def xlogSegNoOffsetToRecPtr (segno offset : Nat) (size : WalSegmentSize) : Nat :=
  segno * size.bytes + offset

/-- `seg_offset` of the byte behind so many usable bytes of a segment. -/
def startOffset (bytesleft : Nat) : Nat :=
  if bytesleft < xlogBlcksz - sizeOfXLogLongPHD then bytesleft + sizeOfXLogLongPHD
  else
    let bytesleft := bytesleft - (xlogBlcksz - sizeOfXLogLongPHD)
    let fullpages := bytesleft / usableBytesInPage
    let bytesleft := bytesleft % usableBytesInPage
    xlogBlcksz + (fullpages * xlogBlcksz + bytesleft + sizeOfXLogShortPHD)

/-- The same for the end of a record: a position between two pages is before the header. -/
def endOffset (bytesleft : Nat) : Nat :=
  if bytesleft < xlogBlcksz - sizeOfXLogLongPHD then
    if bytesleft = 0 then 0 else bytesleft + sizeOfXLogLongPHD
  else
    let bytesleft := bytesleft - (xlogBlcksz - sizeOfXLogLongPHD)
    let fullpages := bytesleft / usableBytesInPage
    let bytesleft := bytesleft % usableBytesInPage
    if bytesleft = 0 then xlogBlcksz + (fullpages * xlogBlcksz + bytesleft)
    else xlogBlcksz + (fullpages * xlogBlcksz + bytesleft + sizeOfXLogShortPHD)

def xlogBytePosToRecPtr (size : WalSegmentSize) (bytepos : Nat) : Nat :=
  xlogSegNoOffsetToRecPtr (bytepos / usableBytesInSegment size)
    (startOffset (bytepos % usableBytesInSegment size)) size

def xlogBytePosToEndRecPtr (size : WalSegmentSize) (bytepos : Nat) : Nat :=
  xlogSegNoOffsetToRecPtr (bytepos / usableBytesInSegment size)
    (endOffset (bytepos % usableBytesInSegment size)) size

def xlogRecPtrToBytePos (size : WalSegmentSize) (ptr : Nat) : Nat :=
  let fullsegs := ptr / size.bytes
  let fullpages := xlogSegmentOffset ptr size / xlogBlcksz
  let offset := ptr % xlogBlcksz
  if fullpages = 0 then
    fullsegs * usableBytesInSegment size + (if offset > 0 then offset - sizeOfXLogLongPHD else 0)
  else
    fullsegs * usableBytesInSegment size + (xlogBlcksz - sizeOfXLogLongPHD) +
      (fullpages - 1) * usableBytesInPage + (if offset > 0 then offset - sizeOfXLogShortPHD else 0)

def walLayout (size : WalSegmentSize) : Layout where
  pageSize := xlogBlcksz
  header page := if page % size.pages = 0 then sizeOfXLogLongPHD else sizeOfXLogShortPHD
  room page := by
    split_ifs <;> decide

section Layout

variable (size : WalSegmentSize)

theorem wal_page_size : (walLayout size).pageSize = 8192 := rfl

variable (page : Nat)

theorem wal_header : (walLayout size).header page = if page % size.pages = 0 then 40 else 24 := rfl

theorem wal_capacity :
    (walLayout size).capacity page = if page % size.pages = 0 then 8152 else 8168 := by
  rw [capacity, wal_header]
  split_ifs <;> rfl

def segmentBase (page : Nat) : Nat := if page = 0 then 0 else 8152 + (page - 1) * 8168

theorem segment_base_pages : segmentBase size.pages = usableBytesInSegment size := by
  have positive := segment_pages_pos size
  rw [segmentBase, if_neg (by omega)]
  change _ = size.pages * 8168 - 16
  omega

theorem segment_base_step :
    segmentBase page + (if page = 0 then 8152 else 8168) = segmentBase (page + 1) := by
  unfold segmentBase
  split_ifs <;> omega

theorem wal_base :
    (walLayout size).base page =
      page / size.pages * usableBytesInSegment size + segmentBase (page % size.pages) := by
  have positive := segment_pages_pos size
  induction page with
  | zero => simp [base, segmentBase]
  | succ page ih =>
    have below := Nat.mod_lt page positive
    have step := segment_base_step (page % size.pages)
    rw [base, ih, wal_capacity, add_assoc, step]
    have split := Nat.div_add_mod page size.pages
    by_cases last : page % size.pages + 1 = size.pages
    · -- the next page starts a segment
      have turned : page + 1 = size.pages * (page / size.pages + 1) := by
        rw [mul_add]
        omega
      rw [turned, Nat.mul_div_cancel_left _ positive, last, segment_base_pages, add_mul]
      simp [segmentBase]
    · have within : page + 1 = page % size.pages + 1 + size.pages * (page / size.pages) := by
        omega
      have small : page % size.pages + 1 < size.pages := by omega
      rw [within, Nat.add_mul_div_left _ _ positive, Nat.add_mul_mod_self_left,
        Nat.mod_eq_of_lt small, Nat.div_eq_of_lt small, zero_add]

theorem position_split {page used : Nat} (inside : used < (walLayout size).capacity page) :
    ((walLayout size).base page + used) / usableBytesInSegment size = page / size.pages ∧
      ((walLayout size).base page + used) % usableBytesInSegment size =
        segmentBase (page % size.pages) + used := by
  have below := Nat.mod_lt page (segment_pages_pos size)
  have step := segment_base_step (page % size.pages)
  have whole := segment_base_pages size
  have fits : segmentBase (page % size.pages) + used < usableBytesInSegment size := by
    rw [wal_capacity] at inside
    have rest : segmentBase (page % size.pages + 1) ≤ segmentBase size.pages := by
      unfold segmentBase
      split_ifs <;> omega
    omega
  have positive : 0 < usableBytesInSegment size := by omega
  rw [wal_base, add_assoc, add_comm, Nat.add_mul_div_right _ _ positive,
    Nat.add_mul_mod_self_right, Nat.div_eq_of_lt fits, Nat.mod_eq_of_lt fits, zero_add]
  exact ⟨rfl, rfl⟩

theorem segment_start :
    page / size.pages * size.bytes + page % size.pages * xlogBlcksz = page * xlogBlcksz := by
  rw [segment_bytes_pages, ← mul_assoc, Nat.mul_right_comm, ← add_mul,
    mul_comm (page / size.pages), Nat.div_add_mod]

theorem rec_ptr_physical (bytepos : Nat) :
    xlogBytePosToRecPtr size bytepos = (walLayout size).physical bytepos := by
  obtain ⟨page, used, inside, rfl⟩ := (walLayout size).located bytepos
  obtain ⟨segs, left⟩ := position_split size inside
  have start := segment_start size page
  rw [physical_at _ inside, address, wal_header, wal_page_size]
  rw [wal_capacity] at inside
  have block : xlogBlcksz = 8192 := rfl
  simp only [xlogBytePosToRecPtr, segs, left, xlogSegNoOffsetToRecPtr, startOffset,
    sizeOfXLogLongPHD, sizeOfXLogShortPHD, usableBytesInPage, segmentBase, block] at start ⊢
  split_ifs at inside ⊢ <;> omega

theorem end_rec_ptr_boundary (bytepos : Nat) :
    xlogBytePosToEndRecPtr size bytepos = (walLayout size).boundary bytepos := by
  obtain ⟨page, used, inside, rfl⟩ := (walLayout size).located bytepos
  obtain ⟨segs, left⟩ := position_split size inside
  have start := segment_start size page
  have block : xlogBlcksz = 8192 := rfl
  rw [boundary, locate_at _ inside, physical_at _ inside, address, wal_header, wal_page_size]
  rw [wal_capacity] at inside
  simp only [xlogBytePosToEndRecPtr, segs, left, xlogSegNoOffsetToRecPtr, endOffset,
    sizeOfXLogLongPHD, sizeOfXLogShortPHD, usableBytesInPage, segmentBase, block] at start ⊢
  split_ifs at inside ⊢ <;> omega

theorem address_split {offset : Nat} (inside : offset < xlogBlcksz) :
    (page * xlogBlcksz + offset) / size.bytes = page / size.pages ∧
      xlogSegmentOffset (page * xlogBlcksz + offset) size / xlogBlcksz = page % size.pages ∧
      (page * xlogBlcksz + offset) % xlogBlcksz = offset := by
  have block : 0 < xlogBlcksz := by decide
  have number : (page * xlogBlcksz + offset) / xlogBlcksz = page := by
    rw [add_comm, Nat.add_mul_div_right _ _ block, Nat.div_eq_of_lt inside, zero_add]
  refine ⟨?_, ?_, ?_⟩
  · rw [position_segment, number]
  · rw [segment_offset_eq_mod, segment_bytes_pages, Nat.mod_mul_right_div_self, number]
  · rw [add_comm, Nat.add_mul_mod_self_right, Nat.mod_eq_of_lt inside]

theorem byte_pos_address {page used : Nat} (inside : used < (walLayout size).capacity page) :
    xlogRecPtrToBytePos size ((walLayout size).address page used) =
      (walLayout size).base page + used := by
  have block : xlogBlcksz = 8192 := rfl
  rw [wal_capacity] at inside
  have fits : (walLayout size).header page + used < xlogBlcksz := by
    rw [wal_header]
    split_ifs at inside ⊢ <;> omega
  obtain ⟨segs, pages, offset⟩ := address_split size page fits
  rw [address, add_assoc, wal_page_size, ← block]
  simp only [xlogRecPtrToBytePos, segs, pages, offset]
  rw [wal_base, wal_header]
  simp only [segmentBase, usableBytesInPage, sizeOfXLogLongPHD, sizeOfXLogShortPHD, block]
  split_ifs at ⊢ <;> omega

theorem byte_pos_rec_ptr (bytepos : Nat) :
    xlogRecPtrToBytePos size (xlogBytePosToRecPtr size bytepos) = bytepos := by
  obtain ⟨page, used, inside, rfl⟩ := (walLayout size).located bytepos
  rw [rec_ptr_physical, physical_at _ inside, byte_pos_address size inside]

theorem byte_pos_end_rec_ptr (bytepos : Nat) :
    xlogRecPtrToBytePos size (xlogBytePosToEndRecPtr size bytepos) = bytepos := by
  obtain ⟨page, used, inside, rfl⟩ := (walLayout size).located bytepos
  rw [end_rec_ptr_boundary]
  rcases Nat.eq_zero_or_pos used with rfl | filled
  · obtain ⟨segs, pages, -⟩ := address_split size page (show 0 < xlogBlcksz by decide)
    rw [add_zero] at segs pages
    rw [add_zero, boundary_start]
    change xlogRecPtrToBytePos size (page * xlogBlcksz) = _
    simp only [xlogRecPtrToBytePos, segs, pages]
    rw [wal_base]
    simp only [segmentBase, usableBytesInPage, sizeOfXLogLongPHD, sizeOfXLogShortPHD,
      show xlogBlcksz = 8192 from rfl]
    split_ifs <;> omega
  · rw [boundary_at _ filled (le_of_lt inside), byte_pos_address size inside]

/-- `XLogSegNoOffsetToRecPtr` of the `uint32` offset, with its `uint64` result. -/
def recPtrWord (segno offset : Nat) : Nat :=
  xlogSegNoOffsetToRecPtr segno (offset % 2 ^ 32) size % 2 ^ 64

/-- The counts on the way back are small: `xlogRecPtrToBytePos` needs no such variant. -/
def xlogBytePosToRecPtr64 (bytepos : Nat) : Nat :=
  recPtrWord size (bytepos / usableBytesInSegment size)
    (startOffset (bytepos % usableBytesInSegment size))

def xlogBytePosToEndRecPtr64 (bytepos : Nat) : Nat :=
  recPtrWord size (bytepos / usableBytesInSegment size)
    (endOffset (bytepos % usableBytesInSegment size))

/-- A position that the segments below the last `XLogRecPtr` can hold. -/
structure UsablePosition where
  bytepos : Nat
  inside : bytepos < 2 ^ 64 / size.bytes * usableBytesInSegment size

variable {size} (position : UsablePosition size)

theorem segment_words {offset : Nat} (inside : offset < size.bytes) :
    recPtrWord size (position.bytepos / usableBytesInSegment size) offset =
      xlogSegNoOffsetToRecPtr (position.bytepos / usableBytesInSegment size) offset size := by
  have large : size.bytes ≤ 2 ^ 30 := size.valid.2.2
  have segs :=
    Nat.div_lt_of_lt_mul (Nat.mul_comm .. ▸ position.inside)
  have whole := Nat.mul_le_mul_right size.bytes (Nat.succ_le_of_lt segs)
  rw [Nat.succ_mul] at whole
  have limit := Nat.div_mul_le_self (2 ^ 64) size.bytes
  rw [recPtrWord, Nat.mod_eq_of_lt (show offset < 2 ^ 32 by omega), xlogSegNoOffsetToRecPtr,
    Nat.mod_eq_of_lt (by omega)]

theorem rec_ptr_words :
    xlogBytePosToRecPtr64 size position.bytepos = (walLayout size).physical position.bytepos ∧
      xlogBytePosToEndRecPtr64 size position.bytepos =
        (walLayout size).boundary position.bytepos := by
  have pages := segment_pages_pos size
  have bytes : size.bytes = 8192 * size.pages := segment_bytes_pages size
  have usable : usableBytesInSegment size = size.pages * 8168 - 16 := rfl
  have left := Nat.mod_lt position.bytepos (show 0 < usableBytesInSegment size by omega)
  have block : xlogBlcksz = 8192 := rfl
  rw [← rec_ptr_physical, ← end_rec_ptr_boundary]
  constructor
  · apply segment_words position
    simp only [startOffset, sizeOfXLogLongPHD, sizeOfXLogShortPHD, usableBytesInPage, block]
    split_ifs <;> omega
  · apply segment_words position
    simp only [endOffset, sizeOfXLogLongPHD, sizeOfXLogShortPHD, usableBytesInPage, block]
    split_ifs <;> omega

/-- Both conversions of a usable position are inverted, increasing and apart only at the start of a
page, by its header. -/
theorem byte_position_arithmetic {size : WalSegmentSize} (position : UsablePosition size) :
    let start := xlogBytePosToRecPtr64 size position.bytepos
    let ends := xlogBytePosToEndRecPtr64 size position.bytepos
    xlogRecPtrToBytePos size start = position.bytepos ∧
      xlogRecPtrToBytePos size ends = position.bytepos ∧
      (∀ later : UsablePosition size, position.bytepos < later.bytepos →
        start < xlogBytePosToRecPtr64 size later.bytepos ∧
          ends < xlogBytePosToEndRecPtr64 size later.bytepos) ∧
      (walLayout size).header (start / xlogBlcksz) ≤ start % xlogBlcksz ∧
      (start ≠ ends ↔ ∃ page, position.bytepos = (walLayout size).base page) ∧
      ∀ page, position.bytepos = (walLayout size).base page →
        start = ends + (walLayout size).header page := by
  obtain ⟨page, used, inside, split⟩ := (walLayout size).located position.bytepos
  obtain ⟨start, ends⟩ := rec_ptr_words position
  have atStart : ∀ page, position.bytepos = (walLayout size).base page →
      (walLayout size).physical position.bytepos =
        (walLayout size).boundary position.bytepos + (walLayout size).header page := by
    intro first starts
    rw [starts, boundary_start, ← add_zero (base _ first),
      physical_at _ (capacity_pos _ _), address, add_zero]
  dsimp only
  rw [start, ends]
  refine ⟨?_, ?_, ?_, ?_, ⟨?_, ?_⟩, atStart⟩
  · rw [← rec_ptr_physical, byte_pos_rec_ptr]
  · rw [← end_rec_ptr_boundary, byte_pos_end_rec_ptr]
  · intro later ordered
    obtain ⟨laterStart, laterEnds⟩ := rec_ptr_words later
    rw [laterStart, laterEnds]
    exact ⟨physical_lt _ ordered, lt_of_le_of_lt (boundary_le_physical _ _)
      (physical_lt_boundary _ ordered)⟩
  · have room := (walLayout size).header_capacity page
    rw [physical_of _ split inside, address, add_assoc, wal_page_size] at *
    simp only [xlogBlcksz]
    rw [show (page * 8192 + ((walLayout size).header page + used)) / 8192 = page by omega]
    omega
  · intro apart
    refine ⟨page, ?_⟩
    by_contra notStart
    apply apart
    rw [physical_of _ split inside, split, boundary_at _ (by omega) (le_of_lt inside)]
  · rintro ⟨first, starts⟩
    have header : 0 < (walLayout size).header first := by
      rw [wal_header]
      split_ifs <;> decide
    rw [atStart first starts]
    omega

/-- The end of a record that fills the first page, and the record behind it. -/
theorem second_page_position :
    let size := smallestSegmentSize
    xlogBytePosToRecPtr64 size 8152 = 8216 ∧ xlogBytePosToEndRecPtr64 size 8152 = 8192 ∧
      xlogRecPtrToBytePos size 8216 = 8152 ∧ xlogRecPtrToBytePos size 8192 = 8152 := by
  obtain ⟨started, ended, -⟩ :=
    byte_position_arithmetic (⟨8152, by decide⟩ : UsablePosition smallestSegmentSize)
  exact ⟨rfl, rfl, started, ended⟩

end Layout

end FortressQL.Wal.BytePositions
