import FortressQL.Wal.RecordInsert

/-!
# What the copy leaves in the log

The loops of `CopyXLogRecordToWAL` put the bytes of a record into the usable bytes of the log and
mark every page that continues it.
-/

namespace FortressQL.Wal.RecordCopy

open List Lib.ByteStrings Lib.ByteMemory Lib.PagedStream Layout
open Storage.BufPage (maxalign)
open Wal.BytePositions Wal.PageHeaders Wal.RecordInsert Wal.Segments

variable {page used ptr : Nat} {buffers : WalBuffers} {log : LogIdentity}

section Layout

variable (log : LogIdentity)

theorem header_room (page : Nat) :
    24 ≤ header log page ∧ header log page ≤ 40 ∧
      header log page % 8 = 0 := by
  rw [wal_header]
  split_ifs <;> decide

theorem page_room (page : Nat) :
    header log page + capacity log page = xlogBlcksz :=
  header_capacity log page

theorem header_before {first second : Nat} (before : first < second) :
    first * xlogBlcksz + header log first ≤ second * xlogBlcksz := by
  have room := page_room log first
  have further := next_page_le xlogBlcksz before
  omega

theorem wal_address (page used : Nat) :
    address log page used = page * xlogBlcksz + header log page + used := rfl

theorem base_aligned (page : Nat) : base log page % 8 = 0 := by
  induction page with
  | zero => rfl
  | succ page ih =>
    rw [base, wal_capacity]
    split_ifs <;> omega

theorem insert_freespace_address (inside : used ≤ capacity log page) :
    insertFreespace (address log page used) = capacity log page - used := by
  have room := page_room log page
  have header := header_room log page
  rw [wal_address]
  unfold insertFreespace xlogBlcksz at *
  split_ifs <;> omega

theorem skipped_header (page : Nat) :
    skippedHeader log (page * xlogBlcksz) = header log page := by
  rw [skippedHeader]
  simp only [first_of_segment]
  rfl

theorem maxalign_address (inside : used ≤ capacity log page) :
    maxalign (address log page used) = address log page (maxalign used) ∧
      maxalign used ≤ capacity log page := by
  have room := page_room log page
  have header := header_room log page
  rw [wal_address, wal_address]
  unfold maxalign xlogBlcksz at *
  omega

end Layout

section Opening

variable (runningBackups : Nat)

theorem get_buffer_open (opened : ptr < buffers.initializedUpTo) :
    getXLogBuffer log runningBackups ptr buffers = buffers := by
  rw [getXLogBuffer, advanceXLInsertBuffer, if_neg (by omega)]

theorem get_buffer_next (next : buffers.initializedUpTo ≤ ptr)
    (near : ptr < buffers.initializedUpTo + xlogBlcksz) :
    getXLogBuffer log runningBackups ptr buffers = initializePage log runningBackups buffers := by
  rw [getXLogBuffer, advanceXLInsertBuffer, if_pos next]
  exact get_buffer_open runningBackups near

/-- Pages are opened one after another, and those ahead are as they were made. -/
structure Ahead (log : LogIdentity) (buffers : WalBuffers) (page : Nat) : Prop where
  pages : buffers.initializedUpTo % xlogBlcksz = 0
  covered : page * xlogBlcksz ≤ buffers.initializedUpTo
  fresh : ∀ later, page ≤ later → later * xlogBlcksz < buffers.initializedUpTo →
    FreshPage log buffers.memory later

theorem open_page (ahead : Ahead log buffers page) (low : page * xlogBlcksz ≤ ptr)
    (high : ptr < (page + 1) * xlogBlcksz) :
    Ahead log (getXLogBuffer log runningBackups ptr buffers) page ∧
      (page + 1) * xlogBlcksz ≤ (getXLogBuffer log runningBackups ptr buffers).initializedUpTo ∧
      ∀ location < page * xlogBlcksz,
        (getXLogBuffer log runningBackups ptr buffers).memory location =
          buffers.memory location := by
  obtain ⟨pages, covered, fresh⟩ := ahead
  by_cases opened : page * xlogBlcksz < buffers.initializedUpTo
  · have further : (page + 1) * xlogBlcksz ≤ buffers.initializedUpTo := by
      rw [show xlogBlcksz = 8192 from rfl] at pages opened ⊢
      omega
    rw [get_buffer_open runningBackups (by omega)]
    exact ⟨⟨pages, covered, fresh⟩, further, fun _ _ => rfl⟩
  · have here : buffers.initializedUpTo = page * xlogBlcksz := by omega
    rw [Nat.succ_mul] at high ⊢
    rw [get_buffer_next runningBackups (by omega) (by omega)]
    refine ⟨⟨?_, ?_, ?_⟩, ?_, ?_⟩
    · dsimp only [initializePage]
      rw [here, ← Nat.succ_mul, Nat.mul_mod_left]
    · dsimp only [initializePage]
      omega
    · intro later low' inside
      dsimp only [initializePage] at inside ⊢
      have below : later < page + 1 :=
        Nat.lt_of_mul_lt_mul_right (show later * xlogBlcksz < (page + 1) * xlogBlcksz by
          rw [Nat.succ_mul]
          omega)
      have same : later = page := by omega
      rw [here, same]
      exact fresh_new_page _ _ _
    · dsimp only [initializePage]
      omega
    · intro location before
      exact store_outside _ (.inl (by omega))

end Opening

section Copy

variable {memory₀ : Memory} {start total firstPage : Nat}

/-- The headers of all pages lie outside of the part that records use. -/
theorem header_bytes_store (memory : Memory) {piece : Bytes}
    (fits : used + piece.length ≤ capacity log page) (other : Nat) :
    headerBytes log (store memory (address log page used) piece) other =
      headerBytes log memory other := by
  have room := page_room log page
  have otherRoom := page_room log other
  apply load_store_apart
  rw [wal_address]
  rcases lt_trichotomy other page with before | rfl | behind
  · have apart := next_page_le xlogBlcksz before
    omega
  · omega
  · have apart := next_page_le xlogBlcksz behind
    omega

structure CopyAt (log : LogIdentity) (memory₀ : Memory) (start total firstPage : Nat)
    (copying : Copying) (done : Bytes) (page used : Nat) : Prop where
  currPos : copying.currPos = (walLayout log.size).address page used
  inside : used ≤ (walLayout log.size).capacity page
  position : (walLayout log.size).base page + used = start + done.length
  written : copying.written = done.length
  behind : firstPage ≤ page
  started : (walLayout log.size).physical start ≤ copying.currPos
  ahead : Ahead log copying.buffers (page + 1)
  frame : ∀ location < (walLayout log.size).physical start,
    copying.buffers.memory location = memory₀ location
  holds : (walLayout log.size).Holds copying.buffers.memory start done
  continued : ∀ later, firstPage < later → later ≤ page →
    ContinuationPage log copying.buffers.memory later
      (start + total - (walLayout log.size).base later)

variable {copying : Copying} {done : Bytes}

section

variable (state : CopyAt log memory₀ start total firstPage copying done page used)

include state

theorem CopyAt.freespace : copying.freespace = capacity log page - used := by
  rw [copying.free, state.currPos, insert_freespace_address log state.inside]

theorem CopyAt.boundary_le :
    boundary log (start + done.length) ≤ copying.currPos := by
  rw [← state.position, state.currPos]
  rcases Nat.eq_zero_or_pos used with rfl | filled
  · rw [add_zero, boundary_start, wal_address]
    change page * xlogBlcksz ≤ _
    omega
  · rw [boundary_at _ filled state.inside]

theorem copy_piece_at (piece : Bytes) (fits : piece.length ≤ copying.freespace) :
    CopyAt log memory₀ start total firstPage (copyPiece copying piece fits) (done ++ piece)
      page (used + piece.length) := by
  have room : used + piece.length ≤ capacity log page := by
    have free := state.freespace
    have inside := state.inside
    omega
  have headers := header_bytes_store copying.buffers.memory room
  rw [← state.currPos] at headers
  have position := state.position
  have started := state.started
  constructor
  · dsimp only [copyPiece]
    rw [state.currPos, wal_address, wal_address, add_assoc]
  · exact room
  · rw [length_append]
    omega
  · dsimp only [copyPiece]
    rw [state.written, length_append]
  · exact state.behind
  · exact le_trans started (Nat.le_add_right _ _)
  · refine ⟨state.ahead.pages, state.ahead.covered, ?_⟩
    intro later low inside
    exact (state.ahead.fresh later low inside).congr (headers later)
  · intro location before
    rw [← state.frame location before]
    exact store_outside _ (.inl (by omega))
  · apply holds_append.mpr
    constructor
    · apply state.holds.frame
      intro location before
      have ends := state.boundary_le
      exact store_outside _ (.inl (by omega))
    · rw [← position]
      dsimp only [copyPiece]
      rw [state.currPos]
      exact holds_store _ room
  · intro later low high
    exact (state.continued later low high).congr (headers later)

end

theorem mark_outside {memory : Memory} {remLen location : Nat}
    (outside : location < ptr ∨ ptr + 24 ≤ location) :
    markContrecord memory ptr remLen location = memory location := by
  apply store_outside
  rwa [encode_page_header_length]

theorem turn_page_at (runningBackups : Nat)
    (state : CopyAt log memory₀ start total firstPage copying done page
      (capacity log page)) (fits : total < 256 ^ 4) :
    CopyAt log memory₀ start total firstPage
      (turnPage log runningBackups total copying) done (page + 1) 0 := by
  have nextBase : base log (page + 1) = start + done.length := state.position
  have pageEnd : copying.currPos = (page + 1) * xlogBlcksz := by
    rw [state.currPos, address_capacity]
    rfl
  have behind := state.behind
  obtain ⟨ahead, covered, same⟩ := open_page runningBackups state.ahead
    (Nat.le_refl _) (by rw [xlogBlcksz]; omega)
  have fresh := ahead.fresh (page + 1) (Nat.le_refl _) (by
    rw [xlogBlcksz] at covered
    rw [xlogBlcksz]
    omega)
  simp only [turnPage, pageEnd, skipped_header, state.written]
  generalize getXLogBuffer log runningBackups ((page + 1) * xlogBlcksz) copying.buffers =
    opened at *
  -- everything before the page is as it was, and the mark is on the page's header alone
  have before : ∀ location < (page + 1) * xlogBlcksz,
      markContrecord opened.memory ((page + 1) * xlogBlcksz) (total - done.length) location =
        copying.buffers.memory location := by
    intro location early
    rw [mark_outside (.inl early), same location early]
  have headersBefore : ∀ other ≤ page,
      headerBytes log (markContrecord opened.memory ((page + 1) * xlogBlcksz)
        (total - done.length)) other = headerBytes log copying.buffers.memory other := by
    intro other low
    apply header_bytes_congr
    intro location _ high
    apply before
    have further := header_before log (Nat.lt_add_one_iff.mpr low)
    omega
  have headersBehind : ∀ other, page + 1 < other →
      headerBytes log (markContrecord opened.memory ((page + 1) * xlogBlcksz)
        (total - done.length)) other = headerBytes log opened.memory other := by
    intro other high
    apply header_bytes_congr
    intro location low _
    apply mark_outside
    have further := next_page_le xlogBlcksz high
    have block : xlogBlcksz = 8192 := rfl
    omega
  have boundary := state.boundary_le
  have started := state.started
  rw [pageEnd] at started
  constructor
  · exact (Nat.add_zero _).symm
  · exact Nat.zero_le _
  · exact nextBase
  · rfl
  · omega
  · exact Nat.le_trans started (Nat.le_add_right _ _)
  · refine ⟨ahead.pages, covered, ?_⟩
    intro later low inside
    exact (ahead.fresh later (by omega) inside).congr (headersBehind later low)
  · intro location early
    exact (before location (by omega)).trans (state.frame location early)
  · apply state.holds.frame
    intro location early
    exact before location (by omega)
  · intro later low high
    by_cases new : later = page + 1
    · subst new
      have remaining : start + total - base log (page + 1) =
          total - done.length := by omega
      rw [remaining]
      exact continuation_marked fresh (by omega)
    · exact (state.continued later low (by omega)).congr (headersBefore later (by omega))

theorem copy_data_at (runningBackups : Nat) (fits : total < 256 ^ 4) (data : Bytes)
    (state : CopyAt log memory₀ start total firstPage copying done page used)
    (some : 0 < used ∨ data ≠ []) :
    ∃ page' used', 0 < used' ∧
      CopyAt log memory₀ start total firstPage
        (copyData log runningBackups total copying data) (done ++ data) page' used' := by
  induction copying, data using copyData.induct log runningBackups total generalizing done page
    used with
  | case1 copying data more ih =>
    have free := state.freespace
    have inside := state.inside
    have taken : (data.take copying.freespace).length = copying.freespace :=
      length_take_of_le (le_of_lt more)
    have filled := copy_piece_at state (data.take copying.freespace) (length_take_le _ _)
    have full : used + (data.take copying.freespace).length =
        capacity log page := by omega
    rw [full] at filled
    have turned := turn_page_at runningBackups filled fits
    obtain ⟨page', used', positive, final⟩ := ih turned
      (.inr (by
        rw [Ne, drop_eq_nil_iff]
        omega))
    refine ⟨page', used', positive, ?_⟩
    rw [copyData, dif_pos more]
    rwa [append_assoc, take_append_drop] at final
  | case2 copying data more =>
    refine ⟨page, used + data.length, ?_, ?_⟩
    · rcases some with positive | filled
      · omega
      · have length := length_pos_of_ne_nil filled
        omega
    · rw [copyData, dif_neg more]
      exact copy_piece_at state data (Nat.le_of_not_lt more)

theorem copy_chain_at (runningBackups : Nat) (fits : total < 256 ^ 4) (chain : List Bytes)
    (filled : 0 < used) (state : CopyAt log memory₀ start total firstPage copying done page used) :
    ∃ page' used', 0 < used' ∧
      CopyAt log memory₀ start total firstPage
        (chain.foldl (copyData log runningBackups total) copying) (done ++ chain.flatten)
        page' used' := by
  induction chain generalizing copying done page used with
  | nil => exact ⟨page, used, filled, by simpa using state⟩
  | cons data chain ih =>
    obtain ⟨page', used', filled', next⟩ := copy_data_at runningBackups fits
      data state (.inl filled)
    obtain ⟨page'', used'', filled'', final⟩ := ih filled' next
    refine ⟨page'', used'', filled'', ?_⟩
    rw [flatten_cons, ← append_assoc]
    exact final

theorem zero_headers_more (runningBackups : Nat) {endPos currPos : Nat} (more : currPos < endPos)
    (buffers : WalBuffers) :
    zeroHeaders log runningBackups endPos currPos buffers =
      zeroHeaders log runningBackups endPos (currPos + xlogBlcksz)
        { getXLogBuffer log runningBackups currPos buffers with
          memory := store (getXLogBuffer log runningBackups currPos buffers).memory currPos
            (replicate sizeOfXLogShortPHD 0) } := by
  conv_lhs => rw [zeroHeaders]
  rw [if_pos more]

theorem zero_headers_end (runningBackups endPos : Nat) (buffers : WalBuffers) :
    zeroHeaders log runningBackups endPos endPos buffers = (endPos, buffers) := by
  rw [zeroHeaders, if_neg (lt_irrefl _)]

/-- The rest of a segment: zeros up to its end, and nothing before. -/
theorem zero_headers_at (runningBackups : Nat) {last : Nat} (ahead : Ahead log buffers page)
    (ordered : page ≤ last) :
    (zeroHeaders log runningBackups (last * xlogBlcksz) (page * xlogBlcksz) buffers).1 =
        last * xlogBlcksz ∧
      Ahead log (zeroHeaders log runningBackups (last * xlogBlcksz) (page * xlogBlcksz) buffers).2
        last ∧
      ∀ location < page * xlogBlcksz,
        (zeroHeaders log runningBackups (last * xlogBlcksz) (page * xlogBlcksz)
          buffers).2.memory location = buffers.memory location := by
  have block : xlogBlcksz = 8192 := rfl
  obtain ⟨count, rfl⟩ := Nat.exists_eq_add_of_le ordered
  induction count generalizing page buffers with
  | zero =>
    rw [add_zero, zero_headers_end]
    exact ⟨rfl, ahead, fun _ _ => rfl⟩
  | succ count ih =>
    have more : page * xlogBlcksz < (page + (count + 1)) * xlogBlcksz :=
      Nat.mul_lt_mul_of_pos_right (by omega) (by decide)
    obtain ⟨openedAhead, covered, same⟩ := open_page runningBackups ahead le_rfl
      (Nat.mul_lt_mul_of_pos_right (Nat.lt_succ_self page) (by decide))
    rw [zero_headers_more runningBackups more]
    generalize getXLogBuffer log runningBackups (page * xlogBlcksz) buffers = opened at *
    rw [show page * xlogBlcksz + xlogBlcksz = (page + 1) * xlogBlcksz by rw [Nat.succ_mul],
      show page + (count + 1) = page + 1 + count by omega]
    have nextAhead : Ahead log { opened with
        memory := store opened.memory (page * xlogBlcksz)
          (replicate sizeOfXLogShortPHD 0) } (page + 1) := by
      refine ⟨openedAhead.pages, covered, ?_⟩
      intro later low inside
      apply (openedAhead.fresh later (by omega) inside).congr
      apply header_bytes_congr
      intro location after _
      apply store_outside
      rw [length_replicate, sizeOfXLogShortPHD]
      rw [block] at after ⊢
      omega
    obtain ⟨ends, finalAhead, finalSame⟩ := ih nextAhead (by omega)
    refine ⟨ends, finalAhead, ?_⟩
    intro location early
    rw [finalSame location (by rw [Nat.succ_mul]; omega)]
    exact (store_outside _ (.inl early)).trans (same location early)

end Copy

end FortressQL.Wal.RecordCopy
