import FortressQL.Lib.ByteStrings

/-!
# Disk pages

The page header of `bufpage.h`, the page checksum of `checksum_impl.h` and its verification in
`bufpage.c`. A page is one `BLCKSZ` buffer.
-/

namespace FortressQL.Storage.BufPage

open Lib.ByteStrings

abbrev blcksz : Nat := 8192

abbrev Page := Vector UInt8 blcksz

abbrev BlockNumber := UInt32

/-- The settings the page routines read: `DataChecksumsEnabled()`,
`ignore_checksum_failure` and `zero_damaged_pages`. -/
structure PageSettings where
  dataChecksumsEnabled : Bool
  ignoreChecksumFailure : Bool
  zeroDamagedPages : Bool

/-- Offset of `pd_checksum`; `pd_lsn` occupies the eight bytes before it. -/
def pdChecksumOffset : Nat := 8

def pdChecksum (page : Page) : Nat := word16 page 8

def pdFlags (page : Page) : Nat := word16 page 10

def pdLower (page : Page) : Nat := word16 page 12

def pdUpper (page : Page) : Nat := word16 page 14

def pdSpecial (page : Page) : Nat := word16 page 16

def pdValidFlagBits : Nat := 7

def zeroPage : Page := Vector.replicate blcksz 0

def pageIsNew (page : Page) : Bool := pdUpper page == 0

def setPdChecksum (page : Page) (checksum : Nat) : Page :=
  setWord16 page pdChecksumOffset checksum

/-- `PageSetLSN`: the high half of the WAL position comes first. -/
def pageSetLsn (page : Page) (lsn : UInt64) : Page :=
  let xlogid := lsn.toNat / 4294967296
  let xrecoff := lsn.toNat % 4294967296
  setWord16 (setWord16 (setWord16 (setWord16 page 0 xlogid) 2 (xlogid / 65536))
    4 xrecoff) 6 (xrecoff / 65536)

def pageGetLsn (page : Page) : Nat := (word32 page 0).toNat * 4294967296 + (word32 page 4).toNat

/-- Byte equality outside `pd_checksum`. -/
def SameUpToChecksum (left right : Page) : Prop :=
  ∀ index < blcksz, index ≠ 8 → index ≠ 9 → byteAt left index = byteAt right index

variable (page : Page)

theorem same_up_to_checksum_refl : SameUpToChecksum page page :=
  fun _ _ _ _ => rfl

variable {left right : Page}

theorem same_up_to_checksum_symm (same : SameUpToChecksum left right) :
    SameUpToChecksum right left :=
  fun index bound first second => (same index bound first second).symm

theorem same_up_to_checksum_trans {first second third : Page}
    (left : SameUpToChecksum first second) (right : SameUpToChecksum second third) :
    SameUpToChecksum first third := by
  intro index bound notLow notHigh
  rw [left index bound notLow notHigh, right index bound notLow notHigh]

theorem set_pd_checksum_same (checksum : Nat) :
    SameUpToChecksum (setPdChecksum page checksum) page := by
  intro index _ first second
  exact byte_at_set_word16_other page 8 checksum index first second

theorem pd_upper_same (same : SameUpToChecksum left right) : pdUpper left = pdUpper right :=
  word16_congr (same 14 (by decide) (by decide) (by decide))
    (same 15 (by decide) (by decide) (by decide))

theorem page_is_new_same (same : SameUpToChecksum left right) :
    pageIsNew left = pageIsNew right := by
  rw [pageIsNew, pageIsNew, pd_upper_same same]

theorem byte_at_zero_page (index : Nat) : byteAt zeroPage index = 0 := by
  unfold byteAt zeroPage
  split_ifs <;> simp

def checksumBaseOffsets : List UInt32 :=
  [0x5B1F36E9, 0xB8525960, 0x02AB50AA, 0x1DE66D2A,
   0x79FF467A, 0x9BB9F8A3, 0x217E7CD2, 0x83E13D2C,
   0xF8D4474F, 0xE39EB970, 0x42C6AE16, 0x993216FA,
   0x7B093B5D, 0x98DAFF3C, 0xF718902A, 0x0B1C9CDB,
   0xE58F764B, 0x187636BC, 0x5D7B3BB1, 0xE73DE7DE,
   0x92BEC979, 0xCCA6C0B2, 0x304A0979, 0x85AA43D4,
   0x783125BB, 0x6CA8EAA2, 0xE407EAC6, 0x4B5CFC3E,
   0x9FBF8C76, 0x15CA20BE, 0xF2CA9FD3, 0x959BD756]

def fnvPrime : UInt32 := 16777619

def checksumComp (checksum value : UInt32) : UInt32 :=
  let tmp := checksum ^^^ value
  (tmp * fnvPrime) ^^^ (tmp >>> 17)

def checksumRow (page : Page) (sums : List UInt32) (row : Nat) : List UInt32 :=
  sums.mapIdx fun column sum => checksumComp sum (word32 page (4 * (32 * row + column)))

/-- `pg_checksum_block`: all rows, two rounds of zeroes, then the xor fold. -/
def pgChecksumBlock (page : Page) : UInt32 :=
  let sums := (List.range (blcksz / (4 * 32))).foldl (checksumRow page) checksumBaseOffsets
  let mixed := (List.range 2).foldl (fun sums _ => sums.map (checksumComp · 0)) sums
  mixed.foldl (· ^^^ ·) 0

/-- `pg_checksum_page`: the stored checksum is zeroed for the calculation. -/
def pgChecksumPage (page : Page) (blkno : BlockNumber) : Nat :=
  ((pgChecksumBlock (setPdChecksum page 0)) ^^^ blkno).toNat % 65535 + 1

theorem pg_checksum_page_set (checksum : Nat) (blkno : BlockNumber) :
    pgChecksumPage (setPdChecksum page checksum) blkno = pgChecksumPage page blkno := by
  simp [pgChecksumPage, setPdChecksum, set_word16_set_word16]

/-- The checksum does not depend on the field it is stored in. -/
theorem pg_checksum_page_same (same : SameUpToChecksum left right) (blkno : BlockNumber) :
    pgChecksumPage left blkno = pgChecksumPage right blkno := by
  have cleared : setPdChecksum left 0 = setPdChecksum right 0 := by
    apply vector_ext_byte_at
    intro index bound
    by_cases field : index = 8 ∨ index = 9
    · rw [byte_at_eq _ _ bound, byte_at_eq _ _ bound]
      rcases field with rfl | rfl <;> simp [setPdChecksum, setWord16, pdChecksumOffset]
    · exact byte_at_set_word16_congr 8 0 (same index bound (by omega) (by omega))
  rw [pgChecksumPage, pgChecksumPage, cleared]

theorem pg_checksum_page_lt (blkno : BlockNumber) : pgChecksumPage page blkno < 65536 := by
  unfold pgChecksumPage
  omega

/-- `PageSetChecksumCopy`: uninitialised pages and clusters without checksums are
passed through. -/
def pageSetChecksumCopy (settings : PageSettings) (page : Page) (blkno : BlockNumber) : Page :=
  if pageIsNew page || !settings.dataChecksumsEnabled then page
  else setPdChecksum page (pgChecksumPage page blkno)

/-- `PageSetChecksumInplace` leaves the same image in the caller's own buffer. -/
def pageSetChecksumInplace (settings : PageSettings) (page : Page) (blkno : BlockNumber) : Page :=
  pageSetChecksumCopy settings page blkno

variable (settings : PageSettings) (page : Page)

theorem page_set_checksum_copy_same (blkno : BlockNumber) :
    SameUpToChecksum (pageSetChecksumCopy settings page blkno) page := by
  unfold pageSetChecksumCopy
  split_ifs
  · exact same_up_to_checksum_refl page
  · exact set_pd_checksum_same page _

theorem page_set_checksum_copy_new (blkno : BlockNumber) (fresh : pageIsNew page = true) :
    pageSetChecksumCopy settings page blkno = page := by
  simp [pageSetChecksumCopy, fresh]

def maxalign (length : Nat) : Nat := (length + 7) / 8 * 8

def headerSane (page : Page) : Bool :=
  pdFlags page &&& (0xFFFF - pdValidFlagBits) == 0 &&
    decide (pdLower page ≤ pdUpper page) && decide (pdUpper page ≤ pdSpecial page) &&
    decide (pdSpecial page ≤ blcksz) && pdSpecial page == maxalign (pdSpecial page)

def allZeroes (page : Page) : Bool := page.toList.all (· == 0)

/-- `PageIsVerifiedExtended`. The log and statistics flags only decide what is
reported, so they do not appear. -/
def pageIsVerifiedExtended (settings : PageSettings) (page : Page) (blkno : BlockNumber) : Bool :=
  let checksumFailure := !pageIsNew page && settings.dataChecksumsEnabled &&
    pgChecksumPage page blkno != pdChecksum page
  let sane := !pageIsNew page && headerSane page
  (sane && !checksumFailure) || allZeroes page ||
    (checksumFailure && sane && settings.ignoreChecksumFailure)

theorem all_zeroes_iff : allZeroes page = true ↔ page = zeroPage := by
  simp only [allZeroes, List.all_eq_true, beq_iff_eq]
  constructor
  · intro zeroes
    apply Vector.ext
    intro index bound
    rw [zeroes page[index] (by simp), zeroPage, Vector.getElem_replicate]
  · rintro rfl byte member
    simpa [zeroPage] using member

theorem zero_page_is_new : pageIsNew zeroPage = true := by
  simp [pageIsNew, pdUpper, word16, byte_at_zero_page]

theorem zero_page_verified (blkno : BlockNumber) :
    pageIsVerifiedExtended settings zeroPage blkno = true := by
  simp [pageIsVerifiedExtended, (all_zeroes_iff zeroPage).mpr rfl]

theorem new_page_verified_iff (blkno : BlockNumber) (fresh : pageIsNew page = true) :
    pageIsVerifiedExtended settings page blkno = true ↔ page = zeroPage := by
  rw [← all_zeroes_iff]
  simp [pageIsVerifiedExtended, fresh]

theorem initialised_page_ne_zero (initialised : pageIsNew page = false) : page ≠ zeroPage := by
  rintro rfl
  cases initialised

theorem initialised_page_verified_iff (blkno : BlockNumber) (initialised : pageIsNew page = false) :
    pageIsVerifiedExtended settings page blkno = true ↔
      headerSane page = true ∧ (settings.dataChecksumsEnabled = false ∨
        settings.ignoreChecksumFailure = true ∨ pgChecksumPage page blkno = pdChecksum page) := by
  have notZero : allZeroes page = false := by
    rw [Bool.eq_false_iff, Ne, all_zeroes_iff]
    exact initialised_page_ne_zero page initialised
  by_cases right : pgChecksumPage page blkno = pdChecksum page
  · simp [pageIsVerifiedExtended, initialised, notZero, right]
  · cases enabled : settings.dataChecksumsEnabled <;>
      simp [pageIsVerifiedExtended, initialised, notZero, right, enabled]

theorem checksummed_page_verified_iff (blkno : BlockNumber) (initialised : pageIsNew page = false) :
    pageIsVerifiedExtended settings (pageSetChecksumCopy settings page blkno) blkno = true ↔
      headerSane (pageSetChecksumCopy settings page blkno) = true := by
  have stillInitialised : pageIsNew (pageSetChecksumCopy settings page blkno) = false := by
    rw [page_is_new_same (page_set_checksum_copy_same settings page blkno), initialised]
  rw [initialised_page_verified_iff settings _ blkno stillInitialised, and_iff_left_iff_imp]
  intro _
  cases enabled : settings.dataChecksumsEnabled with
  | false => exact .inl rfl
  | true =>
    have stored : pageSetChecksumCopy settings page blkno =
        setPdChecksum page (pgChecksumPage page blkno) := by
      simp [pageSetChecksumCopy, initialised, enabled]
    rw [stored, pg_checksum_page_set]
    exact .inr (.inr (word16_set_word16 page 8 _ (by decide) (pg_checksum_page_lt page blkno)).symm)

theorem header_sane_congr
    (same : ∀ index, 10 ≤ index → index < 18 → byteAt left index = byteAt right index) :
    headerSane left = headerSane right := by
  have field (offset : Nat) (above : 10 ≤ offset) (below : offset + 1 < 18) :
      word16 left offset = word16 right offset :=
    word16_congr (same offset above (by omega)) (same (offset + 1) (by omega) below)
  simp only [headerSane, pdFlags, pdLower, pdUpper, pdSpecial,
    field 10 (by decide) (by decide), field 12 (by decide) (by decide),
    field 14 (by decide) (by decide), field 16 (by decide) (by decide)]
  rfl

theorem header_sane_same (same : SameUpToChecksum left right) :
    headerSane left = headerSane right := by
  apply header_sane_congr
  intro index above below
  have page : blcksz = 8192 := rfl
  exact same index (by omega) (by omega) (by omega)

theorem unchecked_page_verified_iff (blkno : BlockNumber)
    (unchecked : settings.dataChecksumsEnabled = false) (initialised : pageIsNew page = false) :
    pageIsVerifiedExtended settings page blkno = true ↔ headerSane page = true := by
  have decided := checksummed_page_verified_iff settings page blkno initialised
  have unchanged : pageSetChecksumCopy settings page blkno = page := by
    simp [pageSetChecksumCopy, unchecked]
  rwa [unchanged] at decided

def pageInit (specialSize : Nat) : Page :=
  let upper := blcksz - maxalign specialSize
  setWord16 (setWord16 (setWord16 (setWord16 zeroPage 12 24) 14 upper) 16 upper) 18
    (blcksz ||| 4)

theorem word16_zero_page (offset : Nat) : word16 zeroPage offset = 0 := by
  simp [word16, byte_at_zero_page]

theorem page_init_sane (specialSize : Nat) (room : 24 + maxalign specialSize < blcksz) :
    headerSane (pageInit specialSize) = true ∧ pageIsNew (pageInit specialSize) = false := by
  have aligned : maxalign specialSize % 8 = 0 := by
    unfold maxalign
    omega
  have flags : pdFlags (pageInit specialSize) = 0 := by
    simp (disch := decide) only [pdFlags, pageInit, word16_set_word16_apart, word16_zero_page]
  have lower : pdLower (pageInit specialSize) = 24 := by
    simp (disch := decide) only [pdLower, pageInit, word16_set_word16_apart, word16_set_word16]
  have small : blcksz - maxalign specialSize < 65536 := (Nat.sub_le _ _).trans_lt (by decide)
  have upper : pdUpper (pageInit specialSize) = blcksz - maxalign specialSize := by
    simp (disch := first | exact small | decide) only [pdUpper, pageInit,
      word16_set_word16_apart, word16_set_word16]
  have special : pdSpecial (pageInit specialSize) = blcksz - maxalign specialSize := by
    simp (disch := first | exact small | decide) only [pdSpecial, pageInit,
      word16_set_word16_apart, word16_set_word16]
  have pageSize : blcksz = 8192 := rfl
  have alignedSpecial : maxalign (blcksz - maxalign specialSize) =
      blcksz - maxalign specialSize := by
    rw [maxalign]
    omega
  constructor
  · simp only [headerSane, flags, special, alignedSpecial]
    simp only [Nat.zero_and, beq_self_eq_true, Bool.true_and, Bool.and_true, Bool.and_eq_true,
      decide_eq_true_eq]
    omega
  · rw [pageIsNew, beq_eq_false_iff_ne]
    omega

theorem page_init_verified (specialSize : Nat) (room : 24 + maxalign specialSize < blcksz)
    (blkno : BlockNumber) :
    pageIsVerifiedExtended settings
      (pageSetChecksumCopy settings (pageInit specialSize) blkno) blkno = true := by
  obtain ⟨sane, initialised⟩ := page_init_sane specialSize room
  rw [checksummed_page_verified_iff settings _ blkno initialised,
    header_sane_same (page_set_checksum_copy_same settings _ blkno)]
  exact sane

end FortressQL.Storage.BufPage
