import FortressQL.Storage.RelationCopy

/-!
# Reading a copied fork

What the bytes that `RelationCopyStorage` moves mean to a reader: they were written with the key and
the addresses of the source, and are read with those of the destination.
-/

namespace FortressQL.Storage.EncryptedCopy

open Option Lib.ByteStrings Lib.WriteLog Lib.XorStream Storage.BlockAddress Storage.BlockIo
open Storage.BufPage Storage.RelationCopy Storage.RoundTrip Storage.WritePaths Tde.KeyCache
open Tde.PageCrypt

variable {image : Page} {blkno : BlockNumber}

section Logged

variable (wal : Bool) (recptr : UInt64)

theorem byte_at_page_set_lsn (page : Page) (lsn : UInt64) {index : Nat} (beyond : 8 ≤ index) :
    byteAt (pageSetLsn page lsn) index = byteAt page index := by
  simp (disch := omega) only [pageSetLsn, byte_at_set_word16_other]

theorem byte_at_logged_page (page : Page) {index : Nat} (beyond : 8 ≤ index) :
    byteAt (loggedPage wal recptr page) index = byteAt page index := by
  unfold loggedPage
  split_ifs
  · exact byte_at_page_set_lsn page recptr beyond
  · rfl

theorem logged_page_is_new (page : Page) :
    pageIsNew (loggedPage wal recptr page) = pageIsNew page := by
  rw [pageIsNew, pageIsNew, pdUpper, pdUpper,
    word16_congr (byte_at_logged_page wal recptr page (by decide))
      (byte_at_logged_page wal recptr page (by decide))]

theorem logged_page_sane (page : Page) :
    headerSane (loggedPage wal recptr page) = headerSane page :=
  header_sane_congr fun _ above _ => byte_at_logged_page wal recptr page (by omega)

theorem logged_page_new {page : Page} (fresh : pageIsNew page = true) :
    loggedPage wal recptr page = page := by
  simp [loggedPage, fresh]

theorem logged_page_same {left right : Page} (same : SameUpToChecksum left right) :
    SameUpToChecksum (loggedPage wal recptr left) (loggedPage wal recptr right) := by
  unfold loggedPage
  rw [page_is_new_same same]
  split_ifs
  · intro index bound low high
    have bytes := same index bound low high
    iterate 4 apply byte_at_set_word16_congr
    exact bytes
  · exact same

/-- Neither the WAL position nor the keystream looks at what the other changes. -/
theorem logged_page_xor_from (stream : Nat → UInt8) (page : Page) :
    loggedPage wal recptr (xorFrom tdePageHeaderSize stream page) =
      xorFrom tdePageHeaderSize stream (loggedPage wal recptr page) := by
  unfold loggedPage
  rw [page_is_new_xor_from]
  split_ifs
  · have clear : 7 < tdePageHeaderSize := by decide
    simp (disch := omega) only [pageSetLsn, set_word16_xor_from]
  · rfl

end Logged

def SameKeystream (first second : Nat → UInt8) : Prop :=
  ∀ position, tdePageHeaderSize + position < blcksz → first position = second position

section Block

variable {settings : PageSettings} (wal : Bool) (recptr : UInt64)
  (srcStream dstStream : Nat → UInt8)

def encryptedPage (settings : PageSettings) (blkno : BlockNumber) (stream : Nat → UInt8)
    (image : Page) : Page :=
  xorFrom tdePageHeaderSize stream (pageSetChecksumCopy settings image blkno)

variable (stream : Nat → UInt8)

theorem encrypted_page_is_new :
    pageIsNew (encryptedPage settings blkno stream image) = pageIsNew image := by
  rw [encryptedPage, page_is_new_xor_from,
    page_is_new_same (page_set_checksum_copy_same settings image blkno)]

theorem encrypted_page_sane :
    headerSane (encryptedPage settings blkno stream image) = headerSane image := by
  rw [encryptedPage, header_sane_xor_from,
    header_sane_same (page_set_checksum_copy_same settings image blkno)]

theorem encrypted_page_checksum (initialised : pageIsNew image = false)
    (enabled : settings.dataChecksumsEnabled = true) :
    pdChecksum (encryptedPage settings blkno stream image) = pgChecksumPage image blkno := by
  have stored : pageSetChecksumCopy settings image blkno =
      setPdChecksum image (pgChecksumPage image blkno) := by
    simp [pageSetChecksumCopy, initialised, enabled]
  rw [encryptedPage, pd_checksum_xor_from, stored]
  exact word16_set_word16 image 8 _ (by decide) (pg_checksum_page_lt image blkno)

theorem encrypted_page_verified_iff (initialised : pageIsNew image = false)
    (sane : headerSane image = true) :
    pageIsVerifiedExtended settings (encryptedPage settings blkno stream image) blkno = true ↔
      settings.dataChecksumsEnabled = false ∨ settings.ignoreChecksumFailure = true ∨
        pgChecksumPage (encryptedPage settings blkno stream image) blkno =
          pgChecksumPage image blkno := by
  rw [initialised_page_verified_iff, encrypted_page_sane, sane]
  · cases enabled : settings.dataChecksumsEnabled with
    | false => simp
    | true => simp [encrypted_page_checksum stream initialised enabled]
  · rw [encrypted_page_is_new, initialised]

def copiedPlain (settings : PageSettings) (blkno : BlockNumber) (image : Page) : Page :=
  encryptedPage settings blkno dstStream
    (loggedPage wal recptr (encryptedPage settings blkno srcStream image))

theorem copied_plain_same_iff :
    SameUpToChecksum (copiedPlain wal recptr srcStream dstStream settings blkno image)
        (loggedPage wal recptr image) ↔
      SameKeystream srcStream dstStream := by
  let checked := pageSetChecksumCopy settings image blkno
  have clean :=
    logged_page_same wal recptr (page_set_checksum_copy_same settings image blkno)
  have twice : SameUpToChecksum (copiedPlain wal recptr srcStream dstStream settings blkno image)
      (xorFrom tdePageHeaderSize (fun position => srcStream position ^^^ dstStream position)
        (loggedPage wal recptr checked)) := by
    rw [← xor_from_compose, ← logged_page_xor_from]
    exact xor_from_same dstStream (page_set_checksum_copy_same settings _ blkno)
  rw [SameKeystream, ← silent_xor_iff,
    ← xor_from_same_up_to_checksum_iff _ (loggedPage wal recptr checked)]
  constructor
  · intro same
    exact same_up_to_checksum_trans (same_up_to_checksum_symm twice)
      (same_up_to_checksum_trans same (same_up_to_checksum_symm clean))
  · intro same
    exact same_up_to_checksum_trans twice (same_up_to_checksum_trans same clean)

theorem copied_plain_verified_iff (initialised : pageIsNew image = false)
    (sane : headerSane image = true) :
    pageIsVerifiedExtended settings
        (copiedPlain wal recptr srcStream dstStream settings blkno image) blkno = true ↔
      settings.dataChecksumsEnabled = false ∨ settings.ignoreChecksumFailure = true ∨
        pgChecksumPage (copiedPlain wal recptr srcStream dstStream settings blkno image) blkno =
          pgChecksumPage (loggedPage wal recptr (encryptedPage settings blkno srcStream image))
            blkno := by
  apply encrypted_page_verified_iff
  · rw [logged_page_is_new, encrypted_page_is_new, initialised]
  · rw [logged_page_sane, encrypted_page_sane, sane]

def ChecksumsAgree (settings : PageSettings) (blkno : BlockNumber) (stored image : Page) : Prop :=
  settings.dataChecksumsEnabled = false ∨ settings.ignoreChecksumFailure = true ∨
    pgChecksumPage stored blkno = pgChecksumPage image blkno ∧
      pgChecksumPage (loggedPage wal recptr image) blkno =
        pgChecksumPage (loggedPage wal recptr stored) blkno

theorem copied_block_iff (initialised : pageIsNew image = false) (sane : headerSane image = true) :
    (pageIsVerifiedExtended settings (encryptedPage settings blkno srcStream image) blkno = true ∧
      pageIsVerifiedExtended settings
        (copiedPlain wal recptr srcStream dstStream settings blkno image) blkno = true ∧
      SameUpToChecksum (copiedPlain wal recptr srcStream dstStream settings blkno image)
        (loggedPage wal recptr image)) ↔ SameKeystream srcStream dstStream ∧
      ChecksumsAgree wal recptr settings blkno (encryptedPage settings blkno srcStream image)
        image := by
  rw [encrypted_page_verified_iff srcStream initialised sane,
    copied_plain_verified_iff wal recptr srcStream dstStream initialised sane]
  have checksum (same : SameKeystream srcStream dstStream) :
      pgChecksumPage (copiedPlain wal recptr srcStream dstStream settings blkno image) blkno =
        pgChecksumPage (loggedPage wal recptr image) blkno :=
    pg_checksum_page_same ((copied_plain_same_iff wal recptr srcStream dstStream).mpr same) blkno
  rw [copied_plain_same_iff, ChecksumsAgree, or_and_left, or_and_left]
  constructor
  · rintro ⟨first, second, same⟩
    rw [checksum same] at second
    exact ⟨same, first, second⟩
  · rintro ⟨same, first, second⟩
    rw [← checksum same] at second
    exact ⟨first, second, same⟩

end Block

section Forks

variable {server : Server} {cache : TdeKeyCache} {srcEntry dstEntry : TdeKeyEntry}
  {calls : CopyCalls} {files : RelationFiles} {src dst : SmgrRelation} {forkNum : ForkNumber}
  {relpersistence : RelPersistence}

/-- The copy returns, and each block reads back as its source, with the WAL position of the copy. -/
def CopyReadsSame (server : Server) (calls : CopyCalls) (files : RelationFiles)
    (src dst : SmgrRelation) (forkNum : ForkNumber) (relpersistence : RelPersistence) : Prop :=
  ∃ after,
    relationCopyStorage server.settings calls files src dst forkNum relpersistence = .ok after ∧
      ∀ blkno < calls.srcBlocks, ∀ page, ReadsBack server files (src.block forkNum blkno) page →
        ReadsBack server after (dst.block forkNum blkno)
          (loggedPage (useWal calls forkNum relpersistence) (calls.recptrOf blkno.toNat) page)

def blockKeystream (server : Server) (entry : TdeKeyEntry) (smgr : SmgrRelation)
    (forkNum : ForkNumber) (blkno : BlockNumber) : Nat → UInt8 :=
  pageKeystream server.cipher entry.key (smgr.block forkNum blkno).tag

/-- The page is uninitialised, or both blocks have the same keystream and the page checksum does
not notice it. -/
def CopySafe (server : Server) (srcEntry dstEntry : TdeKeyEntry) (calls : CopyCalls)
    (src dst : SmgrRelation) (forkNum : ForkNumber) (relpersistence : RelPersistence)
    (blkno : BlockNumber) (stored image : Page) : Prop :=
  pageIsNew image = true ∨
    SameKeystream (blockKeystream server srcEntry src forkNum blkno)
        (blockKeystream server dstEntry dst forkNum blkno) ∧
      ChecksumsAgree (useWal calls forkNum relpersistence) (calls.recptrOf blkno.toNat)
        server.settings blkno stored image

theorem reads_back_decrypted {block : FileBlock} {stored plain : Page}
    (present : files block = some stored)
    (decrypted : decryptRead server block.tag stored = .ok plain) :
    ReadsBack server files block image ↔
      pageIsVerifiedExtended server.settings plain block.tag.blockNum = true ∧
        SameUpToChecksum plain image := by
  rw [reads_back_iff server files block stored image present, decrypted]
  constructor
  · rintro ⟨page, same, accepted⟩
    cases same
    exact accepted
  · intro accepted
    exact ⟨plain, rfl, accepted⟩

section

variable (enabled : server.tdeEnabled = true) (attached : server.shmem = some cache)

include enabled attached

theorem flushed_block_stored (srcCached : cache.find src.locator.spcOid = some srcEntry)
    {start : RelationFiles} {ops : List WriteOp} (written : runWrites server start ops = .ok files)
    (flushed : lastAt HandedImage.block (handedInRun ops) (src.block forkNum blkno) =
      some ⟨.flushBuffer, src.block forkNum blkno, image⟩) :
    files (src.block forkNum blkno) = some (encryptedPage server.settings blkno
      (blockKeystream server srcEntry src forkNum blkno) image) := by
  rw [run_writes_replay server cache start ops enabled attached] at written
  rw [← Except.ok.inj written]
  refine (replay_last HandedImage.block (storedImage server cache) start (handedInRun ops) _ _
    flushed).trans (congrArg some ?_)
  exact stored_image_flush server cache _ srcEntry rfl srcCached

theorem copied_block_decrypted (dstCached : cache.find dst.locator.spcOid = some dstEntry)
    {wal : Bool} {recptr : UInt64} {srcStream : Nat → UInt8}
    (initialised : pageIsNew image = false) :
    decryptRead server (dst.block forkNum blkno).tag (pageSetChecksumInplace server.settings
        (loggedPage wal recptr (encryptedPage server.settings blkno srcStream image)) blkno) =
      .ok (copiedPlain wal recptr srcStream (blockKeystream server dstEntry dst forkNum blkno)
        server.settings blkno image) := by
  rw [decrypt_read_keyed server cache dstEntry _ _ enabled attached dstCached,
    pageSetChecksumInplace, page_is_new_same (page_set_checksum_copy_same _ _ _),
    logged_page_is_new, encrypted_page_is_new, initialised]
  rfl

variable (srcCached : cache.find src.locator.spcOid = some srcEntry) {stored : Page}
  (present : files (src.block forkNum blkno) = some stored)
  (encrypted : stored = encryptedPage server.settings blkno
    (blockKeystream server srcEntry src forkNum blkno) image)
  (readable : ∃ page, ReadsBack server files (src.block forkNum blkno) page)

include srcCached present encrypted readable

theorem source_block_cases :
    (pageIsNew image = true ∧ stored = zeroPage ∧
      ∀ page, ReadsBack server files (src.block forkNum blkno) page →
        SameUpToChecksum zeroPage page) ∨
    pageIsNew image = false ∧ headerSane image = true ∧
      ∀ page, ReadsBack server files (src.block forkNum blkno) page ↔
        SameUpToChecksum image page := by
  obtain ⟨read, reads⟩ := readable
  have storedNew : pageIsNew stored = pageIsNew image := encrypted ▸ encrypted_page_is_new _
  have decrypted := decrypt_read_keyed server cache srcEntry (src.block forkNum blkno).tag stored
    enabled attached srcCached
  rw [storedNew] at decrypted
  cases fresh : pageIsNew image with
  | true =>
    rw [fresh] at decrypted
    have accepted := ((reads_back_decrypted present decrypted).mp reads).1
    have zero := (new_page_verified_iff server.settings _ _ (storedNew.trans fresh)).mp accepted
    refine .inl ⟨rfl, zero, fun page returned => ?_⟩
    rw [← zero]
    exact ((reads_back_decrypted present decrypted).mp returned).2
  | false =>
    rw [fresh, if_neg Bool.false_ne_true, encrypted, encryptedPage, blockKeystream,
      xor_from_xor_from] at decrypted
    rw [encrypted] at present
    have accepted := ((reads_back_decrypted present decrypted).mp reads).1
    have sane := (checksummed_page_verified_iff server.settings image blkno fresh).mp accepted
    have checkedSame := page_set_checksum_copy_same server.settings image blkno
    refine .inr ⟨rfl, (header_sane_same checkedSame).symm.trans sane, fun page => ?_⟩
    rw [reads_back_decrypted present decrypted, and_iff_right accepted]
    exact ⟨same_up_to_checksum_trans (same_up_to_checksum_symm checkedSame),
      same_up_to_checksum_trans checkedSame⟩

/-- Each block is decided alone, by what any store that holds its copy delivers. -/
theorem copied_fork_block_iff (dstCached : cache.find dst.locator.spcOid = some dstEntry)
    {after : RelationFiles}
    (copied : after (dst.block forkNum blkno) = some (pageSetChecksumInplace server.settings
      (loggedPage (useWal calls forkNum relpersistence) (calls.recptrOf blkno.toNat) stored)
        blkno)) :
    (pageIsVerifiedExtended server.settings stored blkno = true ∧
      ∀ page, ReadsBack server files (src.block forkNum blkno) page →
        ReadsBack server after (dst.block forkNum blkno)
          (loggedPage (useWal calls forkNum relpersistence) (calls.recptrOf blkno.toNat) page)) ↔
    CopySafe server srcEntry dstEntry calls src dst forkNum relpersistence blkno stored image := by
  rcases source_block_cases enabled attached srcCached present encrypted readable with
    ⟨fresh, rfl, reads⟩ | ⟨initialised, sane, reads⟩
  · refine iff_of_true ⟨zero_page_verified server.settings blkno, fun page returned => ?_⟩
      (.inl fresh)
    have same := reads page returned
    have pageFresh : pageIsNew page = true := (page_is_new_same same).symm.trans zero_page_is_new
    rw [logged_page_new _ _ zero_page_is_new] at copied
    have decrypted :
        decryptRead server (dst.block forkNum blkno).tag zeroPage = .ok zeroPage := by
      simp [decryptRead, zero_page_is_new]
    rw [logged_page_new _ _ pageFresh, reads_back_decrypted copied decrypted]
    exact ⟨zero_page_verified server.settings _, same⟩
  · subst encrypted
    rw [CopySafe, or_iff_right (by rw [initialised]; decide),
      ← copied_block_iff _ _ _ _ initialised sane]
    have delivered (page : Page) : ReadsBack server after (dst.block forkNum blkno) page ↔ _ :=
      reads_back_decrypted copied (copied_block_decrypted enabled attached dstCached initialised)
    refine and_congr_right fun _ => ⟨fun all => ?_, fun accepted page returned => ?_⟩
    · exact (delivered _).mp (all image ((reads image).mpr (same_up_to_checksum_refl image)))
    · refine (delivered _).mpr ⟨accepted.1, same_up_to_checksum_trans accepted.2 ?_⟩
      exact logged_page_same _ _ ((reads page).mp returned)

end

/-- A fork written through `FlushBuffer` and readable in every block survives the copy exactly if
each of its blocks is safe to copy. -/
theorem copy_reads_same_iff (enabled : server.tdeEnabled = true)
    (attached : server.shmem = some cache)
    (srcCached : cache.find src.locator.spcOid = some srcEntry)
    (dstCached : cache.find dst.locator.spcOid = some dstEntry) {start : RelationFiles}
    {ops : List WriteOp} {image : BlockNumber → Page}
    (written : runWrites server start ops = .ok files) (flushed : ∀ blkno < calls.srcBlocks,
      lastAt HandedImage.block (handedInRun ops) (src.block forkNum blkno) =
        some ⟨.flushBuffer, src.block forkNum blkno, image blkno⟩)
    (readable : ∀ blkno < calls.srcBlocks,
      ∃ page, ReadsBack server files (src.block forkNum blkno) page)
    (apart : src.locator ≠ dst.locator) :
    CopyReadsSame server calls files src dst forkNum relpersistence ↔
      ∀ blkno < calls.srcBlocks, CopySafe server srcEntry dstEntry calls src dst forkNum
        relpersistence blkno (storedBytes files src forkNum blkno) (image blkno) := by
  have flushedStored := fun blkno below =>
    flushed_block_stored enabled attached srcCached written (flushed blkno below)
  have stored : ∀ blkno < calls.srcBlocks,
      files (src.block forkNum blkno) = some (storedBytes files src forkNum blkno) := by
    intro blkno below
    rw [storedBytes, flushedStored blkno below, getD_some]
  have block := fun blkno below after => @copied_fork_block_iff _ blkno _ _ _ dstEntry calls _ _ dst
    _ relpersistence enabled attached srcCached _ (stored blkno below)
    (some.inj ((stored blkno below).symm.trans (flushedStored blkno below)))
    (readable blkno below) dstCached after
  obtain ⟨returns, leaves⟩ := relation_copy_storage_returns_iff server.settings calls
    relpersistence apart fun blkno below => isSome_of_eq_some (stored blkno below)
  constructor
  · rintro ⟨after, returned, reads⟩ blkno below
    refine (block blkno below after (leaves after returned blkno below)).mp ⟨?_, reads blkno below⟩
    exact returns.mp ⟨after, returned⟩ blkno below
  · intro safe
    obtain ⟨after, returned⟩ := returns.mpr fun blkno below =>
      ((block blkno below (fun _ => some _) rfl).mpr (safe blkno below)).1
    refine ⟨after, returned, fun blkno below => ?_⟩
    exact ((block blkno below after (leaves after returned blkno below)).mpr (safe blkno below)).2

end Forks

variable (cipher : PageCipher)

def uncheckedServer (cipher : PageCipher) : Server :=
  { settings :=
      { dataChecksumsEnabled := false, ignoreChecksumFailure := false, zeroDamagedPages := false }
    cipher := cipher
    tdeEnabled := true
    shmem := some sampleCache }

def relationCipher : PageCipher where
  keystream _ iv _ := byteAt iv 4
  hkdfSha256 _ _ info := Vector.ofFn fun index => info.getD (index.val + 4) 0

def sampleRelation (relNumber : RelFileNumber) : SmgrRelation :=
  { locator := { spcOid := 1663, dbOid := 5, relNumber := relNumber }, backend := none }

def sampleCopy : CopyCalls :=
  { xlogIsNeeded := false, srcBlocks := 1, dstBlocks := 0, recptr := fun _ => 0 }

def sampleFiles (cipher : PageCipher) : RelationFiles :=
  replayHanded (uncheckedServer cipher) sampleCache (fun _ => none)
    (WriteOp.flushBuffer ((sampleRelation 16384).block .mainForknum 0).tag (pageInit 0)).handed

theorem below_one (below : blkno < 1) : blkno = 0 := by
  have number := UInt32.lt_iff_toNat_lt.mp below
  apply UInt32.toNat_inj.mp
  simpa using number

theorem sample_written :
    runWrites (uncheckedServer cipher) (fun _ => none)
      [.flushBuffer ((sampleRelation 16384).block .mainForknum 0).tag (pageInit 0)] =
        .ok (sampleFiles cipher) := by
  rfl

theorem sample_flushed : ∀ blkno < sampleCopy.srcBlocks,
    lastAt HandedImage.block
        (handedInRun [.flushBuffer ((sampleRelation 16384).block .mainForknum 0).tag (pageInit 0)])
        ((sampleRelation 16384).block .mainForknum blkno) =
      some ⟨.flushBuffer, (sampleRelation 16384).block .mainForknum blkno, pageInit 0⟩ := by
  intro blkno below
  obtain rfl := below_one below
  simp [lastAt, handedInRun, WriteOp.handed, SmgrRelation.block, sampleRelation]

theorem sample_readable : ∀ blkno < sampleCopy.srcBlocks,
    ReadsBack (uncheckedServer cipher) (sampleFiles cipher)
      ((sampleRelation 16384).block .mainForknum blkno) (pageInit 0) := by
  intro blkno below
  obtain rfl := below_one below
  have room : 24 + maxalign 0 < blcksz := by decide
  let handed : HandedImage :=
    { path := .flushBuffer, block := (sampleRelation 16384).block .mainForknum 0
      image := pageInit 0 }
  refine (stored_image_reads_back_iff (uncheckedServer cipher) sampleCache sampleEntry handed
    rfl rfl rfl (Function.update_self handed.block _ _)).mpr ⟨page_init_verified _ 0 room _, ?_⟩
  exact .inl ⟨fun _ => (page_init_sane 0 room).2, fun _ => rfl⟩

theorem shared_keystream_copy_reads_same :
    CopyReadsSame (uncheckedServer sampleCipher) sampleCopy (sampleFiles sampleCipher)
      (sampleRelation 16384) (sampleRelation 16385) .mainForknum .permanent := by
  have cached : sampleCache.find 1663 = some sampleEntry := rfl
  refine (copy_reads_same_iff rfl rfl cached cached (sample_written sampleCipher) sample_flushed
    (fun blkno below => ⟨_, sample_readable sampleCipher blkno below⟩) (by decide)).mpr ?_
  intro blkno _
  exact .inr ⟨fun _ _ => rfl, .inl rfl⟩

theorem relation_keystreams_differ :
    ¬ SameKeystream
      (blockKeystream (uncheckedServer relationCipher) sampleEntry (sampleRelation 16384)
        .mainForknum 0)
      (blockKeystream (uncheckedServer relationCipher) sampleEntry (sampleRelation 16385)
        .mainForknum 0) := by
  intro same
  exact absurd (same 0 (by decide)) (by decide)

/-- A page copied to the next relation is delivered as something else, without an error. -/
theorem copied_page_garbled :
    ReadsBack (uncheckedServer relationCipher) (sampleFiles relationCipher)
        ((sampleRelation 16384).block .mainForknum 0) (pageInit 0) ∧
      ∃ after page, relationCopyStorage (uncheckedServer relationCipher).settings sampleCopy
          (sampleFiles relationCipher) (sampleRelation 16384) (sampleRelation 16385) .mainForknum
          .permanent = .ok after ∧
        waitReadBuffers (uncheckedServer relationCipher) after
          (readOne ((sampleRelation 16385).block .mainForknum 0) false) = .ok [some page] ∧
        ¬ SameUpToChecksum page (pageInit 0) := by
  let server := uncheckedServer relationCipher
  have room : 24 + maxalign 0 < blcksz := by decide
  obtain ⟨sane, initialised⟩ := page_init_sane 0 room
  have present :=
    flushed_block_stored rfl rfl rfl (sample_written relationCipher) (sample_flushed 0 (by decide))
  have source : storedBytes (sampleFiles relationCipher) (sampleRelation 16384) .mainForknum 0 =
      encryptedPage server.settings 0
        (blockKeystream server sampleEntry (sampleRelation 16384) .mainForknum 0) (pageInit 0) := by
    rw [storedBytes, present, getD_some]
  refine ⟨sample_readable relationCipher 0 (by decide), ?_⟩
  have everywhere : ∀ blkno < sampleCopy.srcBlocks, (sampleFiles relationCipher
      ((sampleRelation 16384).block .mainForknum blkno)).isSome := by
    intro blkno below
    rw [below_one below, present, isSome_some]
  have apart : (sampleRelation 16384).locator ≠ (sampleRelation 16385).locator := by decide
  obtain ⟨returns, leaves⟩ := relation_copy_storage_returns_iff server.settings sampleCopy
    .permanent apart everywhere
  obtain ⟨after, returned⟩ := returns.mpr fun blkno below => by
    rw [below_one below]
    exact (encrypted_page_verified_iff _ initialised sane).mpr (.inl rfl)
  have copied := leaves after returned 0 (by decide)
  refine ⟨after, _, returned, wait_read_one_verified copied (copied_block_decrypted rfl rfl rfl
    initialised) ?_ false, ?_⟩
  · exact (copied_plain_verified_iff _ _ _ _ initialised sane).mpr (.inl rfl)
  · intro same
    exact relation_keystreams_differ ((copied_plain_same_iff false 0 _ _).mp same)

end FortressQL.Storage.EncryptedCopy
