import Mathlib.Data.Nat.Bitwise
import Mathlib.Data.List.Range
import Mathlib.Tactic.Ring

/-!
# WAL segments

Positions in the write-ahead log, the segment files and their names (`xlog_internal.h`). Positions
stay far below the limit of `uint64`.
-/

namespace FortressQL.Wal.Segments

def xlogBlcksz : Nat := 8192

def walSegMinSize : Nat := 1024 * 1024

def walSegMaxSize : Nat := 1024 * 1024 * 1024

def IsPowerOf2 (x : Nat) : Prop := x > 0 ∧ x &&& (x - 1) = 0

def IsValidWalSegSize (size : Nat) : Prop :=
  IsPowerOf2 size ∧ size ≥ walSegMinSize ∧ size ≤ walSegMaxSize

instance (size : Nat) : Decidable (IsValidWalSegSize size) := by
  unfold IsValidWalSegSize IsPowerOf2
  infer_instance

/-- `wal_segment_size`, which `initdb` and the control file check. -/
structure WalSegmentSize where
  bytes : Nat
  valid : IsValidWalSegSize bytes

def defaultSegmentSize : WalSegmentSize := ⟨16 * 1024 * 1024, by decide⟩

def smallestSegmentSize : WalSegmentSize := ⟨walSegMinSize, by decide⟩

def xlogSegmentsPerXLogId (size : WalSegmentSize) : Nat := 0x100000000 / size.bytes

def xlogSegmentOffset (xlogptr : Nat) (size : WalSegmentSize) : Nat :=
  xlogptr &&& (size.bytes - 1)

def xlByteToPrevSeg (xlrp : Nat) (size : WalSegmentSize) : Nat :=
  (xlrp - 1) / size.bytes

def XLByteInPrevSeg (xlrp : Nat) (logSegNo : Nat) (size : WalSegmentSize) : Prop :=
  (xlrp - 1) / size.bytes = logSegNo

instance (xlrp : Nat) (logSegNo : Nat) (size : WalSegmentSize) :
    Decidable (XLByteInPrevSeg xlrp logSegNo size) :=
  inferInstanceAs (Decidable (_ = _))

def hex8 (value : Nat) : String :=
  let digits := (Nat.toDigits 16 (value % 2 ^ 32)).map Char.toUpper
  String.ofList (List.replicate (8 - digits.length) '0' ++ digits)

def xlogFileName (tli : Nat) (logSegNo : Nat) (size : WalSegmentSize) : String :=
  hex8 tli ++ hex8 (logSegNo / xlogSegmentsPerXLogId size) ++
    hex8 (logSegNo % xlogSegmentsPerXLogId size)

def xlogFilePath (tli : Nat) (logSegNo : Nat) (size : WalSegmentSize) : String :=
  "pg_wal/" ++ xlogFileName tli logSegNo size

example : xlogFilePath 1 1 defaultSegmentSize = "pg_wal/000000010000000000000001" := by
  decide +kernel

variable (size : WalSegmentSize)

theorem segment_size_power : ∃ exponent, size.bytes = 2 ^ exponent := by
  obtain ⟨⟨positive, bits⟩, -⟩ := size.valid
  exact (Nat.and_sub_one_eq_zero_iff_isPowerOfTwo (by omega)).mp bits

theorem segment_size_large : 2 ^ 20 ≤ size.bytes :=
  size.valid.2.1

theorem segment_size_pos : 0 < size.bytes :=
  size.valid.1.1

theorem blcksz_dvd_segment_size : xlogBlcksz ∣ size.bytes := by
  obtain ⟨exponent, power⟩ := segment_size_power size
  have large := segment_size_large size
  rw [power] at large ⊢
  have enough : 20 ≤ exponent := (Nat.pow_le_pow_iff_right (by decide)).mp large
  exact pow_dvd_pow 2 (show 13 ≤ exponent by omega)

theorem segment_offset_eq_mod (xlogptr : Nat) (size : WalSegmentSize) :
    xlogSegmentOffset xlogptr size = xlogptr % size.bytes := by
  obtain ⟨exponent, power⟩ := segment_size_power size
  rw [xlogSegmentOffset, power]
  exact Nat.and_two_pow_sub_one_eq_mod xlogptr exponent

def WalSegmentSize.pages (size : WalSegmentSize) : Nat := size.bytes / xlogBlcksz

theorem segment_bytes_pages : size.bytes = xlogBlcksz * size.pages :=
  (Nat.mul_div_cancel' (blcksz_dvd_segment_size size)).symm

theorem segment_pages_pos : 0 < size.pages := by
  have positive := segment_size_pos size
  rw [segment_bytes_pages size] at positive
  exact Nat.pos_of_mul_pos_left positive

theorem position_segment (position : Nat) :
    position / size.bytes = position / xlogBlcksz / size.pages := by
  rw [segment_bytes_pages, Nat.div_div_eq_div_mul]

variable (page : Nat)

theorem page_of_end : (page * xlogBlcksz + xlogBlcksz - 1) / xlogBlcksz = page := by
  simp only [xlogBlcksz]
  omega

theorem prev_seg_of_page :
    xlByteToPrevSeg (page * xlogBlcksz + xlogBlcksz) size = page / size.pages := by
  rw [xlByteToPrevSeg, position_segment, page_of_end]

theorem page_segment_offset :
    xlogSegmentOffset (page * xlogBlcksz) size = page % size.pages * xlogBlcksz := by
  rw [segment_offset_eq_mod, segment_bytes_pages, mul_comm xlogBlcksz, Nat.mul_mod_mul_right]

def segmentsFinished (size : WalSegmentSize) (start stop : Nat) : List Nat :=
  List.range' (start / size.bytes) (stop / size.bytes - start / size.bytes)

variable {size : WalSegmentSize} {start stop : Nat}

theorem segments_finished_none (same : start / size.bytes = stop / size.bytes) :
    segmentsFinished size start stop = [] := by
  simp [segmentsFinished, same]

theorem segments_finished_one (next : stop / size.bytes = start / size.bytes + 1) :
    segmentsFinished size start stop = [start / size.bytes] := by
  simp [segmentsFinished, next]

theorem segments_finished_within (size : WalSegmentSize)
    (same : start / xlogBlcksz = stop / xlogBlcksz) : segmentsFinished size start stop = [] := by
  apply segments_finished_none
  rw [position_segment, position_segment, same]

theorem segments_finished_page (size : WalSegmentSize) {page : Nat}
    (inPage : start / xlogBlcksz = page) :
    segmentsFinished size start (page * xlogBlcksz + xlogBlcksz) =
      if size.pages ≤ page % size.pages + 1 then [page / size.pages] else [] := by
  have positive := segment_pages_pos size
  have below := Nat.mod_lt page positive
  have split := Nat.div_add_mod page size.pages
  have endPage : (page * xlogBlcksz + xlogBlcksz) / xlogBlcksz = page + 1 := by
    simp only [xlogBlcksz]
    omega
  have startSegment : start / size.bytes = page / size.pages := by
    rw [position_segment, inPage]
  have endSegment : (page * xlogBlcksz + xlogBlcksz) / size.bytes = (page + 1) / size.pages := by
    rw [position_segment, endPage]
  split_ifs with last
  · have next : (page + 1) / size.pages = page / size.pages + 1 := by
      apply Nat.div_eq_of_lt_le
      · rw [add_mul, mul_comm]
        omega
      · rw [add_mul, add_mul, mul_comm]
        omega
    rw [segments_finished_one (by rw [startSegment, endSegment, next]), startSegment]
  · apply segments_finished_none
    rw [startSegment, endSegment]
    symm
    apply Nat.div_eq_of_lt_le
    · rw [mul_comm]
      omega
    · rw [add_mul, mul_comm]
      omega

theorem segments_finished_append (size : WalSegmentSize) {middle : Nat} (first : start ≤ middle)
    (second : middle ≤ stop) :
    segmentsFinished size start stop =
      segmentsFinished size start middle ++ segmentsFinished size middle stop := by
  have low : start / size.bytes ≤ middle / size.bytes := Nat.div_le_div_right first
  have high : middle / size.bytes ≤ stop / size.bytes := Nat.div_le_div_right second
  have meets : start / size.bytes + (middle / size.bytes - start / size.bytes) =
      middle / size.bytes := by omega
  have total : stop / size.bytes - start / size.bytes = (middle / size.bytes - start / size.bytes) +
        (stop / size.bytes - middle / size.bytes) := by omega
  simp only [segmentsFinished, total]
  rw [← List.range'_append_1, meets]

theorem segments_finished_bounds {segno : Nat}
    (finished : segno ∈ segmentsFinished size start stop) :
    start / size.bytes ≤ segno ∧ segno < stop / size.bytes := by
  have bounds := List.mem_range'_1.mp finished
  omega

theorem segments_finished_increasing (size : WalSegmentSize) (start stop : Nat) :
    (segmentsFinished size start stop).Pairwise (· < ·) :=
  List.pairwise_lt_range'

end FortressQL.Wal.Segments
