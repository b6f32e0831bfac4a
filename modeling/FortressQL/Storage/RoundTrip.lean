import FortressQL.Storage.WritePaths

/-!
# Reading back what was written

`WaitReadBuffers` decides from the stored image whether to decrypt, the write paths decide from the
path. Where the two disagree the reader sees the keystream.
-/

namespace FortressQL.Storage.RoundTrip

open List hiding Vector
open Elog Lib.WriteLog Lib.XorStream Storage.BufPage Storage.BlockAddress Storage.BlockIo
open Storage.WritePaths Tde.KeyCache Tde.PageCrypt

section Reads

variable (server : Server) (files : RelationFiles) (operation : ReadBuffersOperation)

def readBlock (index : Nat) : Raises Page :=
  match smgrreadv server.settings files operation index 1 with
  | .error report => .error report
  | .ok pages => completeRead server operation index (pages.headD zeroPage)

theorem smgrreadv_ok (first count : Nat) (pages : List Page)
    (read : smgrreadv server.settings files operation first count = .ok pages) :
    pages.length = count ∧ ∀ offset < count,
      pages[offset]? = some ((files (operation.block (first + offset))).getD zeroPage) ∧
      smgrreadv server.settings files operation (first + offset) 1 =
        .ok [(files (operation.block (first + offset))).getD zeroPage] := by
  simp only [smgrreadv] at read
  split_ifs at read with readable
  cases read
  refine ⟨by simp, ?_⟩
  intro offset bound
  constructor
  · simp [bound]
  · have present : (files (operation.block (first + offset))).isSome = true ∨
        server.settings.zeroDamagedPages = true := by
      rcases Bool.or_eq_true_iff.mp readable with every | zeroing
      · apply Or.inl
        apply all_eq_true.mp every
        apply mem_map_of_mem
        simp only [mem_range'_1]
        omega
      · exact .inr zeroing
    simp only [smgrreadv, List.range'_one, map_cons, map_nil, all_cons, all_nil, Bool.and_true]
    rw [if_pos (Bool.or_eq_true_iff.mpr present)]

theorem complete_reads_ok (index : Nat) (stored results : List Page)
    (completed : completeReads server operation index stored = .ok results) :
    results.length = stored.length ∧ ∀ offset image page,
      stored[offset]? = some image → results[offset]? = some page →
        completeRead server operation (index + offset) image = .ok page := by
  induction stored generalizing index results with
  | nil =>
    cases completed
    exact ⟨rfl, by simp⟩
  | cons first rest ih =>
    unfold completeReads at completed
    split at completed
    case h_1 => cases completed
    case h_2 page single =>
      cases others : completeReads server operation (index + 1) rest with
      | error report => rw [others] at completed; cases completed
      | ok pages =>
        rw [others] at completed
        cases completed
        obtain ⟨lengths, each⟩ := ih (index + 1) pages others
        refine ⟨congrArg Nat.succ lengths, ?_⟩
        intro offset image result imageAt resultAt
        cases offset with
        | zero =>
          cases imageAt
          cases resultAt
          exact single
        | succ offset =>
          have later := each offset image result imageAt resultAt
          rwa [add_right_comm] at later

theorem read_group_ok (first count : Nat) (results : List Page)
    (read : readGroup server files operation first count = .ok results) :
    results.length = count ∧ ∀ offset page, results[offset]? = some page →
      readBlock server files operation (first + offset) = .ok page := by
  unfold readGroup at read
  split at read
  case h_1 => cases read
  case h_2 pages pagesRead =>
    obtain ⟨pagesLength, stored⟩ := smgrreadv_ok server files operation first count pages pagesRead
    obtain ⟨lengths, completed⟩ := complete_reads_ok server operation first pages results read
    refine ⟨lengths.trans pagesLength, ?_⟩
    intro offset page pageAt
    have bound : offset < count := by
      have inside := (List.getElem?_eq_some_iff.mp pageAt).1
      omega
    obtain ⟨imageAt, single⟩ := stored offset bound
    rw [readBlock, single]
    exact completed offset _ page imageAt pageAt

theorem read_loop_delivers (index : Nat) (buffers : List ReadBuffer) (results : List (Option Page))
    (finished : readLoop server files operation index buffers = .ok results) (offset : Nat)
    (page : Page) (delivered : results[offset]? = some (some page)) :
    readBlock server files operation (index + offset) = .ok page := by
  induction index, buffers using readLoop.induct server files operation
    generalizing results offset with
  | case1 index =>
    rw [readLoop] at finished
    cases finished
    simp at delivered
  | case2 index buffer rest startable report failed =>
    rw [readLoop, if_pos startable, failed] at finished
    cases finished
  -- The offset lies in the group that was read here, or in what the loop reads behind it.
  | case3 index buffer rest startable pages read ih =>
    rw [readLoop, if_pos startable, read] at finished
    obtain ⟨pagesLength, each⟩ := read_group_ok server files operation index _ pages read
    cases others : readLoop server files operation (index + ioBuffersLen rest)
        (rest.dropWhile ReadBuffer.canStartIONowait) with
    | error report => simp [others, Except.map] at finished
    | ok later =>
      simp only [others, Except.map, Except.ok.injEq] at finished
      subst finished
      rcases lt_or_ge offset pages.length with here | beyond
      · rw [getElem?_append_left (by simpa using here), getElem?_map,
          Option.map_eq_some_iff] at delivered
        obtain ⟨found, foundAt, same⟩ := delivered
        cases same
        exact each offset page foundAt
      · rw [getElem?_append_right (by simpa using beyond), length_map] at delivered
        have remaining := ih later others (offset - pages.length) delivered
        rwa [← pagesLength, add_assoc, Nat.add_sub_cancel' beyond] at remaining
  -- A buffer that another backend completes delivers nothing.
  | case4 index buffer rest busy ih =>
    rw [readLoop, if_neg busy] at finished
    cases others : readLoop server files operation (index + 1) rest with
    | error report => simp [others, Except.map] at finished
    | ok later =>
      simp only [others, Except.map, Except.ok.injEq] at finished
      subst finished
      cases offset with
      | zero => simp at delivered
      | succ offset =>
        have tail := ih later others offset (by simpa using delivered)
        rwa [add_right_comm] at tail

end Reads

def readOne (block : FileBlock) (zeroOnError : Bool) : ReadBuffersOperation :=
  { backend := block.backend
    locator := block.tag.relFileLocator
    forknum := block.tag.forkNum
    blocknum := block.tag.blockNum
    buffers := [{ canStartIO := true, canStartIONowait := true }]
    zeroOnError := zeroOnError }

theorem read_one_block (block : FileBlock) (zeroOnError : Bool) :
    (readOne block zeroOnError).block 0 = block := by
  simp [ReadBuffersOperation.block, ReadBuffersOperation.tag, readOne, initBufferTag,
    BufferTag.relFileLocator]

theorem read_one_tag (block : FileBlock) (zeroOnError : Bool) :
    (readOne block zeroOnError).tag 0 = block.tag :=
  congrArg FileBlock.tag (read_one_block block zeroOnError)

theorem wait_read_one (server : Server) (files : RelationFiles) (block : FileBlock)
    (zeroOnError : Bool) (stored : Page) (present : files block = some stored) :
    waitReadBuffers server files (readOne block zeroOnError) =
      (completeRead server (readOne block zeroOnError) 0 stored).map fun page => [some page] := by
  have single : readGroup server files (readOne block zeroOnError) 0 (ioBuffersLen []) =
      (completeRead server (readOne block zeroOnError) 0 stored).map fun page => [page] := by
    simp only [readGroup, smgrreadv, ioBuffersLen, takeWhile_nil, length_nil, zero_add,
      List.range'_one, map_cons, read_one_block, present, all_cons]
    cases completed : completeRead server (readOne block zeroOnError) 0 stored with
    | error report => simp [completeReads, completed, Except.map]
    | ok page => simp [completeReads, completed, Except.map]
  change readLoop server files (readOne block zeroOnError) 0 [_] = _
  rw [readLoop, single]
  cases completeRead server (readOne block zeroOnError) 0 stored with
  | error report => rfl
  | ok page => simp [Except.map, readLoop]

theorem wait_read_delivers {server : Server} {files : RelationFiles}
    {operation : ReadBuffersOperation} {index : Nat} {block : FileBlock} {stored page : Page}
    {results : List (Option Page)} (present : files block = some stored)
    (covers : operation.block index = block)
    (finished : waitReadBuffers server files operation = .ok results)
    (delivered : results[index]? = some (some page)) :
    completeRead server operation index stored = .ok page := by
  have alone := read_loop_delivers server files operation 0 _ results finished index page delivered
  simpa only [readBlock, smgrreadv, zero_add, List.range'_one, map_cons, map_nil, covers,
    present, all_cons, all_nil, Option.isSome_some, Bool.true_and, Bool.true_or, if_true,
    Option.getD_some, headD_cons] using alone

def withZeroDamagedPages (server : Server) (zeroDamagedPages : Bool) : Server :=
  { server with settings := { server.settings with zeroDamagedPages := zeroDamagedPages } }

/-- Reading the block alone returns the image, up to the checksum field, and no read that covers it
returns anything else. -/
structure ReadsBack (server : Server) (files : RelationFiles) (block : FileBlock)
    (image : Page) : Prop where
  returns : ∀ zeroDamagedPages zeroOnError, ∃ page,
    waitReadBuffers (withZeroDamagedPages server zeroDamagedPages) files
      (readOne block zeroOnError) =
      .ok [some page]
  faithful : ∀ zeroDamagedPages operation index results page,
    operation.block index = block →
    waitReadBuffers (withZeroDamagedPages server zeroDamagedPages) files operation = .ok results →
    results[index]? = some (some page) → SameUpToChecksum page image

section

variable (server : Server) (operation : ReadBuffersOperation) (index : Nat) (stored page : Page)

include server operation index stored page

theorem complete_read_decrypted
    (decrypted : decryptRead server (operation.tag index) stored = .ok page)
    (verified : pageIsVerifiedExtended server.settings page (operation.tag index).blockNum =
      true) : completeRead server operation index stored = .ok page := by
  simp [completeRead, decrypted, verified]

theorem complete_read_rejected
    (decrypted : decryptRead server (operation.tag index) stored = .ok page)
    (rejected : pageIsVerifiedExtended server.settings page (operation.tag index).blockNum = false)
    (unzeroed : (operation.zeroOnError || server.settings.zeroDamagedPages) = false) :
    completeRead server operation index stored = .error (invalidPage operation index) := by
  simp [completeRead, decrypted, rejected, unzeroed]

theorem complete_read_cases (completed : completeRead server operation index stored = .ok page) :
    (decryptRead server (operation.tag index) stored = .ok page ∧
        pageIsVerifiedExtended server.settings page (operation.tag index).blockNum = true) ∨
      page = zeroPage ∧ (operation.zeroOnError || server.settings.zeroDamagedPages) = true := by
  cases decrypted : decryptRead server (operation.tag index) stored with
  | error report => simp [completeRead, decrypted] at completed
  | ok plain =>
    simp only [completeRead, decrypted] at completed
    split_ifs at completed with verified zeroing
    · obtain rfl := Except.ok.inj completed
      exact .inl ⟨rfl, verified⟩
    · exact .inr ⟨(Except.ok.inj completed).symm, zeroing⟩

end

theorem wait_read_one_verified {server : Server} {files : RelationFiles} {block : FileBlock}
    {stored page : Page} (present : files block = some stored)
    (decrypted : decryptRead server block.tag stored = .ok page)
    (verified : pageIsVerifiedExtended server.settings page block.tag.blockNum = true)
    (zeroOnError : Bool) :
    waitReadBuffers server files (readOne block zeroOnError) = .ok [some page] := by
  rw [← read_one_tag block zeroOnError] at decrypted verified
  rw [wait_read_one server files block zeroOnError stored present,
    complete_read_decrypted server _ 0 stored page decrypted verified]
  rfl

/-- What decides the read of a stored block: the page after the decryption step has to
pass verification and be the image. -/
theorem reads_back_iff (server : Server) (files : RelationFiles) (block : FileBlock)
    (stored image : Page) (present : files block = some stored) :
    ReadsBack server files block image ↔ ∃ page, decryptRead server block.tag stored = .ok page ∧
        pageIsVerifiedExtended server.settings page block.tag.blockNum = true ∧
        SameUpToChecksum page image := by
  constructor
  -- With `zero_damaged_pages` off, what is delivered has passed verification.
  · intro reads
    obtain ⟨page, delivered⟩ := reads.returns false false
    have same := reads.faithful false (readOne block false) 0 _ page
      (read_one_block block false) delivered rfl
    rw [wait_read_one _ files block false stored present] at delivered
    cases completed : completeRead (withZeroDamagedPages server false) (readOne block false) 0
        stored with
    | error report => rw [completed] at delivered; cases delivered
    | ok plain =>
      rw [completed] at delivered
      cases delivered
      obtain ⟨decrypted, verified⟩ :=
        (complete_read_cases _ _ 0 stored page completed).resolve_right
          fun zeroed => Bool.false_ne_true zeroed.2
      rw [read_one_tag] at decrypted verified
      exact ⟨page, decrypted, verified, same⟩
  · intro found
    obtain ⟨page, decrypted, verified, same⟩ := found
    -- Neither the decryption step nor verification looks at `zero_damaged_pages`.
    have decryptedAny (zeroDamagedPages : Bool) : decryptRead
        (withZeroDamagedPages server zeroDamagedPages) block.tag stored = .ok page := decrypted
    have verifiedAny (zeroDamagedPages : Bool) : pageIsVerifiedExtended
        (withZeroDamagedPages server zeroDamagedPages).settings page block.tag.blockNum = true :=
      verified
    constructor
    · intro zeroDamagedPages zeroOnError
      exact ⟨page, wait_read_one_verified present (decryptedAny zeroDamagedPages)
        (verifiedAny zeroDamagedPages) zeroOnError⟩
    · intro zeroDamagedPages operation index results delivered covers finished deliveredAt
      have tagAt : operation.tag index = block.tag := congrArg FileBlock.tag covers
      have alone := wait_read_delivers present covers finished deliveredAt
      rw [complete_read_decrypted _ operation index stored page
        (by rw [tagAt]; exact decryptedAny zeroDamagedPages)
        (by rw [tagAt]; exact verifiedAny zeroDamagedPages)] at alone
      exact Except.ok.inj alone ▸ same

section Keyed

variable (server : Server) (cache : TdeKeyCache) (entry : TdeKeyEntry)

theorem decrypt_read_keyed (tag : BufferTag) (stored : Page) (enabled : server.tdeEnabled = true)
    (attached : server.shmem = some cache) (cached : cache.find tag.spcOid = some entry) :
    decryptRead server tag stored = .ok (if pageIsNew stored then stored
        else xorFrom tdePageHeaderSize (pageKeystream server.cipher entry.key tag) stored) := by
  unfold decryptRead
  rw [enabled, attached]
  cases fresh : pageIsNew stored with
  | true => rfl
  | false =>
    simp [tdeKeycacheLookup, cached, tde_decrypt_page_cached server.cipher cached]

/-- The writer encrypted exactly if the reader will decrypt. -/
def PathsAgree (handed : HandedImage) : Prop :=
  handed.path = .flushBuffer ↔ pageIsNew handed.image = false

def SilentBlock (tag : BufferTag) : Prop :=
  Silent blcksz tdePageHeaderSize (pageKeystream server.cipher entry.key tag)

theorem silent_block_unchanged (tag : BufferTag) (page : Page)
    (silent : SilentBlock server entry tag) :
    xorFrom tdePageHeaderSize (pageKeystream server.cipher entry.key tag) page = page :=
  (xor_from_eq_self_iff tdePageHeaderSize (pageKeystream server.cipher entry.key tag) page).mpr
    silent

def checkedImage (handed : HandedImage) : Page :=
  pageSetChecksumCopy server.settings handed.image handed.block.tag.blockNum

theorem page_is_new_checked (handed : HandedImage) :
    pageIsNew (checkedImage server handed) = pageIsNew handed.image :=
  page_is_new_same (page_set_checksum_copy_same server.settings handed.image _)

section

variable (handed : HandedImage) (enabled : server.tdeEnabled = true)
  (attached : server.shmem = some cache) (cached : cache.find handed.block.tag.spcOid = some entry)

include handed enabled attached cached

open Classical in
theorem decrypt_read_stored :
    decryptRead server handed.block.tag (storedImage server cache handed) =
      .ok (if PathsAgree handed then checkedImage server handed
        else xorFrom tdePageHeaderSize (pageKeystream server.cipher entry.key handed.block.tag)
          (checkedImage server handed)) := by
  have newness := page_is_new_checked server handed
  unfold checkedImage at *
  rw [decrypt_read_keyed server cache entry _ _ enabled attached cached]
  by_cases flushed : handed.path = .flushBuffer
  · rw [stored_image_flush server cache handed entry flushed cached, page_is_new_xor_from]
    cases fresh : pageIsNew handed.image <;>
      simp [PathsAgree, flushed, newness, fresh, xor_from_xor_from]
  · rw [stored_image_plain server cache handed flushed]
    cases fresh : pageIsNew handed.image <;> simp [PathsAgree, flushed, newness, fresh]

theorem stored_image_reads_back_iff {files : RelationFiles}
    (present : files handed.block = some (storedImage server cache handed)) :
    ReadsBack server files handed.block handed.image ↔
      pageIsVerifiedExtended server.settings (checkedImage server handed)
          handed.block.tag.blockNum = true ∧
        (PathsAgree handed ∨ SilentBlock server entry handed.block.tag) := by
  have checkedSame := page_set_checksum_copy_same server.settings handed.image
    handed.block.tag.blockNum
  rw [reads_back_iff server files handed.block _ handed.image present,
    decrypt_read_stored server cache entry handed enabled attached cached]
  by_cases agree : PathsAgree handed
  · rw [if_pos agree]
    constructor
    · intro found
      obtain ⟨page, decrypted, verified, -⟩ := found
      cases decrypted
      exact ⟨verified, .inl agree⟩
    · intro accepted
      exact ⟨checkedImage server handed, rfl, accepted.1, checkedSame⟩
  · rw [if_neg agree]
    constructor
    · intro found
      obtain ⟨page, decrypted, verified, same⟩ := found
      have pageEq := Except.ok.inj decrypted
      subst pageEq
      have silent : SilentBlock server entry handed.block.tag :=
        (xor_from_same_up_to_checksum_iff _ (checkedImage server handed)).mp
          (same_up_to_checksum_trans same (same_up_to_checksum_symm checkedSame))
      rw [silent_block_unchanged server entry _ _ silent] at verified
      exact ⟨verified, .inr silent⟩
    · intro accepted
      have silent := accepted.2.resolve_left agree
      rw [silent_block_unchanged server entry _ _ silent]
      exact ⟨checkedImage server handed, rfl, accepted.1, checkedSame⟩

end

theorem flushed_paths_agree_iff (block : FileBlock) (image : Page)
    (accepted : pageIsVerifiedExtended server.settings
      (pageSetChecksumCopy server.settings image block.tag.blockNum) block.tag.blockNum = true) :
    PathsAgree ⟨.flushBuffer, block, image⟩ ↔ image ≠ zeroPage := by
  constructor
  · intro agree
    exact initialised_page_ne_zero image (agree.mp rfl)
  · intro nonzero
    refine ⟨fun _ => ?_, fun _ => rfl⟩
    rw [← Bool.not_eq_true]
    intro fresh
    rw [page_set_checksum_copy_new _ _ _ fresh] at accepted
    exact nonzero ((new_page_verified_iff server.settings image _ fresh).mp accepted)

def sampleCipher : PageCipher where
  keystream _ _ _ := 1
  hkdfSha256 _ _ info := Vector.ofFn fun index => info.getD (index.val + 4) 0

def sampleEntry : TdeKeyEntry :=
  { spcOid := 1663, key := Vector.replicate tdeAesKeyLen 7, version := 1, active := true }

def sampleCache : TdeKeyCache where
  entries := [sampleEntry]
  bounded := by decide
  distinct := List.nodup_singleton _

def sampleServer : Server :=
  { settings :=
      { dataChecksumsEnabled := true, ignoreChecksumFailure := false, zeroDamagedPages := false }
    cipher := sampleCipher
    tdeEnabled := true
    shmem := some sampleCache }

def sampleTag : BufferTag :=
  { spcOid := 1663, dbOid := 5, relNumber := 16384, forkNum := .mainForknum, blockNum := 0 }

theorem sample_block_not_silent (tag : BufferTag) :
    ¬ SilentBlock sampleServer sampleEntry tag := by
  intro silent
  have first := silent 0 (by decide)
  cases first

/-- A block reads back as its last image exactly if that passes verification and came through
`FlushBuffer` initialised or through another path uninitialised (or the keystream is zero). -/
theorem last_image_reads_back_iff (files : RelationFiles) (ops : List WriteOp) (block : FileBlock)
    (handed : HandedImage) (enabled : server.tdeEnabled = true)
    (attached : server.shmem = some cache) (cached : cache.find block.tag.spcOid = some entry)
    (last : lastAt HandedImage.block (handedInRun ops) block = some handed) :
    ∃ written, runWrites server files ops = .ok written ∧
      (ReadsBack server written block handed.image ↔
        pageIsVerifiedExtended server.settings (checkedImage server handed)
            block.tag.blockNum = true ∧
          (PathsAgree handed ∨ SilentBlock server entry block.tag)) := by
  refine ⟨_, run_writes_replay server cache files ops enabled attached, ?_⟩
  have here := last_at_key HandedImage.block _ block handed last
  have present := replay_last HandedImage.block (storedImage server cache) files
    (handedInRun ops) block handed last
  subst here
  exact stored_image_reads_back_iff server cache entry handed enabled attached cached present

/-- A shared page that was written twice reads back. -/
theorem shared_page_reads_back :
    ∃ written, runWrites sampleServer (fun _ => none)
        [.flushBuffer sampleTag zeroPage, .flushBuffer sampleTag (pageInit 0)] = .ok written ∧
      ReadsBack sampleServer written { backend := none, tag := sampleTag } (pageInit 0) := by
  have room : 24 + maxalign 0 < blcksz := by decide
  obtain ⟨written, finished, decided⟩ := last_image_reads_back_iff sampleServer sampleCache
    sampleEntry (fun _ => none)
    [.flushBuffer sampleTag zeroPage, .flushBuffer sampleTag (pageInit 0)]
    { backend := none, tag := sampleTag }
    { path := .flushBuffer, block := { backend := none, tag := sampleTag }, image := pageInit 0 }
    rfl rfl rfl (by simp [lastAt, handedInRun, WriteOp.handed])
  refine ⟨written, finished, decided.mpr ⟨page_init_verified _ 0 room _, .inl ?_⟩⟩
  exact ⟨fun _ => (page_init_sane 0 room).2, fun _ => rfl⟩

/-- A page of a temporary relation, written out when its local buffer is reused, does not read back.
-/
theorem temporary_page_lost :
    ∃ written, runWrites sampleServer (fun _ => none)
        [.getLocalVictimBuffer 3
          { tag := sampleTag, page := pageInit 0, valid := true, dirty := true }] = .ok written ∧
      pageIsVerifiedExtended sampleServer.settings
        (pageSetChecksumCopy sampleServer.settings (pageInit 0) 0) 0 = true ∧
      ¬ ReadsBack sampleServer written { backend := some 3, tag := sampleTag } (pageInit 0) := by
  have room : 24 + maxalign 0 < blcksz := by decide
  let handed : HandedImage :=
    { path := .getLocalVictimBuffer, block := { backend := some 3, tag := sampleTag }
      image := pageInit 0 }
  refine ⟨_, run_writes_replay sampleServer sampleCache _ _ rfl rfl,
    page_init_verified _ 0 room _, ?_⟩
  intro reads
  have decided := (stored_image_reads_back_iff sampleServer sampleCache sampleEntry handed
    rfl rfl rfl (Function.update_self handed.block _ _)).mp reads
  rcases decided.2 with agree | silent
  · have path : WritePath.getLocalVictimBuffer = .flushBuffer :=
      agree.mpr (page_init_sane 0 room).2
    cases path
  · exact sample_block_not_silent sampleTag silent

/-- After `FlushBuffer` a read gives the image again exactly for images other than the all-zero page
(or on blocks with a zero keystream). -/
theorem flush_then_read_iff (files : RelationFiles) (tag : BufferTag) (image : Page)
    (enabled : server.tdeEnabled = true) (attached : server.shmem = some cache)
    (cached : cache.find tag.spcOid = some entry) :
    ∃ written stored, flushBuffer server files tag image = .ok written ∧
      written { backend := none, tag := tag } = some stored ∧
      ((pageIsVerifiedExtended server.settings
            (pageSetChecksumCopy server.settings image tag.blockNum) tag.blockNum = true →
          ∃ page, decryptRead server tag stored = .ok page ∧
            pageIsVerifiedExtended server.settings page tag.blockNum = true ∧
            SameUpToChecksum page image ∧
            ∀ zeroOnError, waitReadBuffers server written
              (readOne { backend := none, tag := tag } zeroOnError) = .ok [some page]) ↔
        image ≠ zeroPage ∨ SilentBlock server entry tag) := by
  let block : FileBlock := { backend := none, tag := tag }
  let handed : HandedImage := { path := .flushBuffer, block := block, image := image }
  let written := smgrwrite files block (storedImage server cache handed)
  have present : written block = some (storedImage server cache handed) :=
    Function.update_self block _ files
  refine ⟨written, storedImage server cache handed,
    flush_buffer_replay server cache files tag image enabled attached, present, ?_⟩
  have readsBack := stored_image_reads_back_iff server cache entry handed enabled attached cached
    present
  rw [reads_back_iff server written block _ image present] at readsBack
  constructor
  · intro roundTrip
    by_cases zero : image = zeroPage
    · have accepted : pageIsVerifiedExtended server.settings
          (pageSetChecksumCopy server.settings image tag.blockNum) tag.blockNum = true := by
        rw [zero]
        exact zero_page_verified server.settings tag.blockNum
      obtain ⟨page, decrypted, verified, same, -⟩ := roundTrip accepted
      exact (readsBack.mp ⟨page, decrypted, verified, same⟩).2.imp_left
        (flushed_paths_agree_iff server block image accepted).mp
    · exact .inl zero
  · intro condition accepted
    have agreeOrSilent := condition.imp_left
      (flushed_paths_agree_iff server block image accepted).mpr
    obtain ⟨page, decrypted, verified, same⟩ := readsBack.mpr ⟨accepted, agreeOrSilent⟩
    exact ⟨page, decrypted, verified, same, wait_read_one_verified present decrypted verified⟩

end Keyed

theorem initialised_page_flush_then_read :
    ∃ written, flushBuffer sampleServer (fun _ => none) sampleTag (pageInit 0) = .ok written ∧
      ∃ page, SameUpToChecksum page (pageInit 0) ∧
        waitReadBuffers sampleServer written (readOne { backend := none, tag := sampleTag } false) =
          .ok [some page] := by
  have room : 24 + maxalign 0 < blcksz := by decide
  obtain ⟨written, stored, flushed, -, decided⟩ := flush_then_read_iff sampleServer sampleCache
    sampleEntry (fun _ => none) sampleTag (pageInit 0) rfl rfl rfl
  have nonzero : pageInit 0 ≠ zeroPage :=
    initialised_page_ne_zero _ (page_init_sane 0 room).2
  obtain ⟨page, -, -, same, read⟩ :=
    decided.mpr (.inl nonzero) (page_init_verified _ 0 room _)
  exact ⟨written, flushed, page, same, read false⟩

/-- The all-zero page is accepted, but not after `FlushBuffer` has encrypted it. -/
theorem zero_page_flush_then_read :
    pageIsVerifiedExtended sampleServer.settings
        (pageSetChecksumCopy sampleServer.settings zeroPage 0) 0 = true ∧
      ∃ written, flushBuffer sampleServer (fun _ => none) sampleTag zeroPage = .ok written ∧
        waitReadBuffers sampleServer written
            (readOne { backend := none, tag := sampleTag } false) =
          .error (invalidPage (readOne { backend := none, tag := sampleTag } false) 0) := by
  let block : FileBlock := { backend := none, tag := sampleTag }
  let handed : HandedImage := { path := .flushBuffer, block := block, image := zeroPage }
  let encrypted := xorFrom tdePageHeaderSize
    (pageKeystream sampleCipher sampleEntry.key sampleTag) zeroPage
  refine ⟨by rw [page_set_checksum_copy_new _ _ _ zero_page_is_new]; exact zero_page_verified _ 0,
    _, flush_buffer_replay sampleServer sampleCache _ sampleTag zeroPage rfl rfl, ?_⟩
  have disagree : ¬ PathsAgree handed := by
    intro agree
    have initialised := agree.mp rfl
    cases initialised
  have decrypted := decrypt_read_stored sampleServer sampleCache sampleEntry handed rfl rfl rfl
  rw [if_neg disagree] at decrypted
  have fresh : pageIsNew encrypted = true := by
    rw [page_is_new_xor_from]
    exact zero_page_is_new
  have rejected : pageIsVerifiedExtended sampleServer.settings encrypted 0 = false := by
    rw [← Bool.not_eq_true, new_page_verified_iff _ _ _ fresh]
    intro unchanged
    exact sample_block_not_silent sampleTag ((xor_from_eq_self_iff _ _ zeroPage).mp unchanged)
  have tagAt : (readOne block false).tag 0 = sampleTag := read_one_tag block false
  have completed := complete_read_rejected sampleServer (readOne block false) 0
    (storedImage sampleServer sampleCache handed) encrypted
    (by rw [tagAt]; exact decrypted) (by rw [tagAt]; exact rejected) rfl
  refine (wait_read_one _ _ block false (storedImage sampleServer sampleCache handed)
    (Function.update_self block _ _)).trans ?_
  rw [completed]
  rfl

end FortressQL.Storage.RoundTrip
