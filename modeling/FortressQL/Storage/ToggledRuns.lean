import FortressQL.Lib.Runs
import FortressQL.Storage.RoundTrip

/-!
# Toggling encryption while the server runs

Whether a block is encrypted is nowhere recorded: `FlushBuffer` goes by the setting and the cache
when it writes, `WaitReadBuffers` by those when it reads.
-/

namespace FortressQL.Storage.ToggledRuns

open Function Elog Lib.Runs Lib.XorStream Storage.BlockAddress Storage.BlockIo Storage.BufPage
open Storage.RoundTrip Tde.KeyCache Tde.PageCrypt

def pageKey (server : Server) (spcOid : Oid) : Raises (Option Key) :=
  if server.tdeEnabled then
    (tdeKeycacheLookup server.shmem spcOid).map (Option.map TdeKeyEntry.key)
  else .ok none

def blockStream (cipher : PageCipher) (tag : BufferTag) : Option Key → Nat → UInt8
  | none => fun _ => 0
  | some key => pageKeystream cipher key tag

def transform (cipher : PageCipher) (tag : BufferTag) (key : Option Key) (page : Page) : Page :=
  xorFrom tdePageHeaderSize (blockStream cipher tag key) page

structure LastFlush where
  image : Page
  key : Option Key

structure ToggleState where
  tdeEnabled : Bool
  shmem : Option TdeKeyCache
  files : RelationFiles
  lastFlush : BufferTag → Option LastFlush

inductive ToggleOp where
  | reload (tdeEnabled : Bool)
  | keycacheInsert (entry : TdeKeyEntry)
  | flushBuffer (tag : BufferTag) (bufBlock : Page)

section Machine

variable (settings : PageSettings) (cipher : PageCipher)

def ToggleState.server (state : ToggleState) : Server :=
  { settings := settings, cipher := cipher, tdeEnabled := state.tdeEnabled, shmem := state.shmem }

/-- `CreateOrAttachShmemStructs`: the key cache exists only if the setting was on at the
start. -/
def startState (tdeEnabled : Bool) (files : RelationFiles) : ToggleState :=
  { tdeEnabled := tdeEnabled
    shmem := if tdeEnabled then some .empty else none
    files := files
    lastFlush := fun _ => none }

/-- A call that raises changes nothing. -/
def toggleStep (state : ToggleState) : ToggleOp → ToggleState
  | .reload tdeEnabled => { state with tdeEnabled := tdeEnabled }
  | .keycacheInsert entry =>
    match tdeKeycacheInsert state.shmem entry with
    | .error _ => state
    | .ok shmem => { state with shmem := shmem }
  | .flushBuffer tag bufBlock =>
    match pageKey (state.server settings cipher) tag.spcOid,
        flushBuffer (state.server settings cipher) state.files tag bufBlock with
    | .ok key, .ok files =>
      { state with
        files := files
        lastFlush := Function.update state.lastFlush tag (some ⟨bufBlock, key⟩) }
    | _, _ => state

def toggleRun (tdeEnabled : Bool) (files : RelationFiles) (ops : List ToggleOp) : ToggleState :=
  run (toggleStep settings cipher) (startState tdeEnabled files) ops

end Machine

section Keys

variable (server : Server) (tag : BufferTag) (page : Page)

theorem transform_none (cipher : PageCipher) : transform cipher tag none page = page :=
  (xor_from_eq_self_iff tdePageHeaderSize _ page).mpr fun _ _ => rfl

theorem page_key_cases (spcOid : Oid) :
    (server.tdeEnabled = false ∧ pageKey server spcOid = .ok none) ∨
    (∃ report, server.tdeEnabled = true ∧
      tdeKeycacheLookup server.shmem spcOid = .error report ∧
      pageKey server spcOid = .error report) ∨
    (server.tdeEnabled = true ∧ tdeKeycacheLookup server.shmem spcOid = .ok none ∧
      pageKey server spcOid = .ok none) ∨
    ∃ cache entry, server.tdeEnabled = true ∧ server.shmem = some cache ∧
      cache.find spcOid = some entry ∧ pageKey server spcOid = .ok (some entry.key) := by
  cases enabled : server.tdeEnabled with
  | false => exact .inl ⟨rfl, by simp [pageKey, enabled]⟩
  | true =>
    cases attached : server.shmem with
    | none =>
      simp [pageKey, enabled, attached, tdeKeycacheLookup, Except.map]
    | some cache =>
      cases cached : cache.find spcOid with
      | none =>
        simp [pageKey, attached, tdeKeycacheLookup, cached, Except.map]
      | some entry =>
        simp [pageKey, enabled, attached, tdeKeycacheLookup, cached, Except.map]

theorem flush_image_key :
    flushImage server tag page = (pageKey server tag.spcOid).map fun key =>
      transform server.cipher tag key (pageSetChecksumCopy server.settings page tag.blockNum) := by
  rcases page_key_cases server tag.spcOid with
    ⟨disabled, applied⟩ | ⟨report, enabled, raised, applied⟩ | ⟨enabled, absent, applied⟩ |
    ⟨cache, entry, enabled, attached, cached, applied⟩
  · simp [flushImage, disabled, applied, Except.map, transform_none]
  · simp [flushImage, enabled, raised, applied, Except.map]
  · simp [flushImage, absent, applied, Except.map, transform_none]
  · simp [flushImage, enabled, attached, tdeKeycacheLookup, cached, applied, Except.map,
      tde_encrypt_page_cached server.cipher cached, transform, blockStream]

/-- The key the reader applies: none to a page that looks uninitialised. -/
def readerKey : Raises (Option Key) :=
  if pageIsNew page then .ok none else pageKey server tag.spcOid

theorem decrypt_read_key :
    decryptRead server tag page =
      (readerKey server tag page).map fun key => transform server.cipher tag key page := by
  cases fresh : pageIsNew page with
  | true => simp [decryptRead, readerKey, fresh, Except.map, transform_none]
  | false =>
    rcases page_key_cases server tag.spcOid with
      ⟨disabled, applied⟩ | ⟨report, enabled, raised, applied⟩ | ⟨enabled, absent, applied⟩ |
      ⟨cache, entry, enabled, attached, cached, applied⟩
    · simp [decryptRead, readerKey, disabled, applied, Except.map, transform_none]
    · simp [decryptRead, readerKey, fresh, enabled, raised, applied, Except.map]
    · simp [decryptRead, readerKey, absent, applied, Except.map, transform_none]
    · simp [decryptRead, readerKey, fresh, enabled, attached, tdeKeycacheLookup, cached, applied,
        Except.map, tde_decrypt_page_cached server.cipher cached, transform, blockStream]

end Keys

def sharedBlock (tag : BufferTag) : FileBlock := { backend := none, tag := tag }

section Runs

variable (settings : PageSettings) (cipher : PageCipher)

def storedPage (tag : BufferTag) (last : LastFlush) : Page :=
  transform cipher tag last.key (pageSetChecksumCopy settings last.image tag.blockNum)

/-- Every block holds what its last write left there. -/
def FilesKept (state : ToggleState) : Prop :=
  ∀ tag last, state.lastFlush tag = some last →
    state.files (sharedBlock tag) = some (storedPage settings cipher tag last)

theorem toggle_flush_cases (state : ToggleState) (tag : BufferTag) (bufBlock : Page) :
    toggleStep settings cipher state (.flushBuffer tag bufBlock) = state ∨
      ∃ key, pageKey (state.server settings cipher) tag.spcOid = .ok key ∧
        toggleStep settings cipher state (.flushBuffer tag bufBlock) =
          { state with
            files := smgrwrite state.files (sharedBlock tag)
              (storedPage settings cipher tag ⟨bufBlock, key⟩)
            lastFlush := Function.update state.lastFlush tag (some ⟨bufBlock, key⟩) } := by
  cases applied : pageKey (state.server settings cipher) tag.spcOid with
  | error report => exact .inl (by simp [toggleStep, applied])
  | ok key =>
    refine .inr ⟨key, rfl, ?_⟩
    simp only [toggleStep, applied, flushBuffer, flush_image_key]
    rfl

theorem toggle_step_files_kept (state : ToggleState) (op : ToggleOp)
    (kept : FilesKept settings cipher state) :
    FilesKept settings cipher (toggleStep settings cipher state op) := by
  cases op with
  | reload tdeEnabled => exact kept
  | keycacheInsert entry =>
    cases inserted : tdeKeycacheInsert state.shmem entry with
    | error report => simpa only [toggleStep, inserted] using kept
    | ok shmem =>
      simp only [toggleStep, inserted]
      exact kept
  | flushBuffer tag bufBlock =>
    rcases toggle_flush_cases settings cipher state tag bufBlock with same | ⟨key, -, written⟩
    · rw [same]
      exact kept
    · rw [written]
      intro other last recorded
      change Function.update state.lastFlush tag (some ⟨bufBlock, key⟩) other = _ at recorded
      by_cases here : other = tag
      · subst here
        rw [update_self] at recorded
        obtain rfl := Option.some.inj recorded
        exact update_self _ _ state.files
      · rw [update_of_ne here] at recorded
        have apart : sharedBlock other ≠ sharedBlock tag :=
          fun same => here (congrArg FileBlock.tag same)
        exact (update_of_ne apart _ state.files).trans (kept other last recorded)

theorem toggle_run_files_kept (tdeEnabled : Bool) (files : RelationFiles) (ops : List ToggleOp) :
    FilesKept settings cipher (toggleRun settings cipher tdeEnabled files ops) := by
  apply run_invariant_always
  · exact toggle_step_files_kept settings cipher
  · intro tag last recorded
    cases recorded

end Runs

section Reads

variable {server : Server} {files : RelationFiles} {tag : BufferTag} {last : LastFlush}

/-- Every read that returns delivers the image, or was allowed to replace it by zeroes and warned.
-/
def ReadsSafely (server : Server) (files : RelationFiles) (block : FileBlock) (image : Page) :
    Prop :=
  ∀ operation index results page, operation.block index = block →
    waitReadBuffers server files operation = .ok results → results[index]? = some (some page) →
      SameUpToChecksum page image ∨
        page = zeroPage ∧ (operation.zeroOnError || server.settings.zeroDamagedPages) = true

def SameStream (cipher : PageCipher) (tag : BufferTag) (first second : Option Key) : Prop :=
  ∀ position, tdePageHeaderSize + position < blcksz →
    blockStream cipher tag first position = blockStream cipher tag second position

/-- The key of the reader gives the keystream that the writer applied. The all-zero page needs
nothing. -/
def ReaderMatches (server : Server) (tag : BufferTag) (last : LastFlush) : Prop :=
  last.image = zeroPage ∨
    ∀ key, readerKey server tag last.image = .ok key → SameStream server.cipher tag last.key key

theorem stored_page_is_new (settings : PageSettings) (cipher : PageCipher) :
    pageIsNew (storedPage settings cipher tag last) = pageIsNew last.image := by
  rw [storedPage, transform, page_is_new_xor_from,
    page_is_new_same (page_set_checksum_copy_same settings last.image tag.blockNum)]

theorem stored_reader_key :
    readerKey server tag (storedPage server.settings server.cipher tag last) =
      readerKey server tag last.image := by
  simp [readerKey, stored_page_is_new]

theorem transform_stored_same_iff (settings : PageSettings) (cipher : PageCipher)
    (tag : BufferTag) (last : LastFlush) (key : Option Key) :
    SameUpToChecksum (transform cipher tag key (storedPage settings cipher tag last)) last.image ↔
      SameStream cipher tag last.key key := by
  have checked := page_set_checksum_copy_same settings last.image tag.blockNum
  rw [storedPage, transform, transform, xor_from_compose, SameStream, ← silent_xor_iff,
    ← xor_from_same_up_to_checksum_iff _ (pageSetChecksumCopy settings last.image tag.blockNum)]
  constructor
  · exact fun same => same_up_to_checksum_trans same (same_up_to_checksum_symm checked)
  · exact fun same => same_up_to_checksum_trans same checked

theorem stored_zero_page_delivered {page : Page} (zero : last.image = zeroPage)
    (decrypted : decryptRead server tag (storedPage server.settings server.cipher tag last) =
      .ok page) (verified : pageIsVerifiedExtended server.settings page tag.blockNum = true) :
    page = zeroPage := by
  have fresh : pageIsNew (storedPage server.settings server.cipher tag last) = true := by
    rw [stored_page_is_new, zero, zero_page_is_new]
  rw [decrypt_read_key, readerKey, if_pos fresh] at decrypted
  simp only [Except.map, transform_none, Except.ok.injEq] at decrypted
  subst decrypted
  exact (new_page_verified_iff server.settings _ tag.blockNum fresh).mp verified

theorem reader_matches_reads_safely
    (present : files (sharedBlock tag) = some (storedPage server.settings server.cipher tag last))
    (matching : ReaderMatches server tag last) :
    ReadsSafely server files (sharedBlock tag) last.image := by
  intro operation index results page covers finished delivered
  have tagAt : operation.tag index = tag := congrArg FileBlock.tag covers
  have completed := wait_read_delivers present covers finished delivered
  rcases complete_read_cases _ _ _ _ _ completed with ⟨decrypted, verified⟩ | zeroed
  · rw [tagAt] at decrypted verified
    apply Or.inl
    rcases matching with zero | undone
    · rw [stored_zero_page_delivered zero decrypted verified, zero]
      exact same_up_to_checksum_refl zeroPage
    · rw [decrypt_read_key, stored_reader_key] at decrypted
      cases applied : readerKey server tag last.image with
      | error report => simp [applied, Except.map] at decrypted
      | ok key =>
        rw [applied] at decrypted
        obtain rfl := Except.ok.inj decrypted
        exact (transform_stored_same_iff server.settings server.cipher tag last key).mpr
          (undone key applied)
  · exact .inr zeroed

theorem header_sane_transform (cipher : PageCipher) (key : Option Key) (page : Page) :
    headerSane (transform cipher tag key page) = headerSane page :=
  header_sane_xor_from _ page

theorem header_sane_stored (settings : PageSettings) (cipher : PageCipher) :
    headerSane (storedPage settings cipher tag last) = headerSane last.image := by
  rw [storedPage, header_sane_transform,
    header_sane_same (page_set_checksum_copy_same settings last.image tag.blockNum)]

theorem transform_stored_is_new (settings : PageSettings) (cipher : PageCipher) (key : Option Key) :
    pageIsNew (transform cipher tag key (storedPage settings cipher tag last)) =
      pageIsNew last.image := by
  rw [transform, page_is_new_xor_from, stored_page_is_new]

theorem unchecked_read_delivers {key : Option Key}
    (unchecked : server.settings.dataChecksumsEnabled = false)
    (initialised : pageIsNew last.image = false)
    (valid : pageIsVerifiedExtended server.settings last.image tag.blockNum = true)
    (applied : pageKey server tag.spcOid = .ok key)
    (present : files (sharedBlock tag) = some (storedPage server.settings server.cipher tag last))
    (zeroOnError : Bool) :
    waitReadBuffers server files (readOne (sharedBlock tag) zeroOnError) =
      .ok [some (transform server.cipher tag key
        (storedPage server.settings server.cipher tag last))] := by
  have stillInitialised : pageIsNew (transform server.cipher tag key
      (storedPage server.settings server.cipher tag last)) = false := by
    rw [transform_stored_is_new, initialised]
  apply wait_read_one_verified present
  · change decryptRead server tag _ = _
    rw [decrypt_read_key, stored_reader_key, readerKey, initialised, applied]
    rfl
  · rw [unchecked_page_verified_iff server.settings _ _ unchecked stillInitialised,
      header_sane_transform, header_sane_stored,
      ← unchecked_page_verified_iff server.settings _ tag.blockNum unchecked initialised]
    exact valid

theorem reads_safely_reader_matches (unchecked : server.settings.dataChecksumsEnabled = false)
    (valid : pageIsVerifiedExtended server.settings last.image tag.blockNum = true)
    (present : files (sharedBlock tag) = some (storedPage server.settings server.cipher tag last))
    (safe : ReadsSafely server files (sharedBlock tag) last.image) :
    ReaderMatches server tag last := by
  cases fresh : pageIsNew last.image with
  | true => exact .inl ((new_page_verified_iff server.settings _ _ fresh).mp valid)
  | false =>
    refine .inr fun key applied => ?_
    rw [readerKey, fresh] at applied
    have delivered := unchecked_read_delivers unchecked fresh valid applied present false
    rcases safe (readOne (sharedBlock tag) false) 0 _ _ (read_one_block _ false) delivered rfl
      with same | ⟨zero, -⟩
    · exact (transform_stored_same_iff server.settings server.cipher tag last key).mp same
    · apply absurd zero
      apply initialised_page_ne_zero
      rw [transform_stored_is_new, fresh]

end Reads

/-- After any run the reads of a block are safe if the reader has the keystream of the last write.
Without checksums nothing else saves them. -/
theorem toggled_reads_safe (settings : PageSettings) (cipher : PageCipher) (tdeEnabled : Bool)
    (files : RelationFiles) (ops : List ToggleOp) (tag : BufferTag) (last : LastFlush)
    (written : (toggleRun settings cipher tdeEnabled files ops).lastFlush tag = some last) :
    let state := toggleRun settings cipher tdeEnabled files ops
    let server := state.server settings cipher
    (ReaderMatches server tag last →
      ReadsSafely server state.files (sharedBlock tag) last.image) ∧
    (settings.dataChecksumsEnabled = false →
      pageIsVerifiedExtended settings last.image tag.blockNum = true →
      ReadsSafely server state.files (sharedBlock tag) last.image →
      ReaderMatches server tag last) := by
  intro state server
  have present :=
    toggle_run_files_kept settings cipher tdeEnabled files ops tag last written
  constructor
  · exact reader_matches_reads_safely present
  · intro unchecked valid
    exact reads_safely_reader_matches unchecked valid present

def uncheckedSettings : PageSettings :=
  { dataChecksumsEnabled := false, ignoreChecksumFailure := false, zeroDamagedPages := false }

def sampleRun (ops : List ToggleOp) : ToggleState :=
  toggleRun uncheckedSettings sampleCipher true (fun _ => none)
    (.keycacheInsert sampleEntry :: ops)

def sampleReader (ops : List ToggleOp) : Server :=
  (sampleRun ops).server uncheckedSettings sampleCipher

theorem sample_page_initialised : pageIsNew (pageInit 0) = false :=
  (page_init_sane 0 (by decide)).2

theorem sample_page_valid : pageIsVerifiedExtended uncheckedSettings (pageInit 0) 0 = true :=
  (unchecked_page_verified_iff _ _ 0 rfl sample_page_initialised).mpr
    (page_init_sane 0 (by decide)).1

theorem sample_stream_differs :
    ¬ SameStream sampleCipher sampleTag none (some sampleEntry.key) := by
  intro same
  exact absurd (same 0 (by decide)) (by decide)

/-- The setting stays on between the write and the read. -/
theorem unchanged_setting_reads_safely :
    ReadsSafely (sampleReader [.flushBuffer sampleTag (pageInit 0)])
      (sampleRun [.flushBuffer sampleTag (pageInit 0)]).files (sharedBlock sampleTag)
      (pageInit 0) := by
  have decided := toggled_reads_safe uncheckedSettings sampleCipher true (fun _ => none)
    [.keycacheInsert sampleEntry, .flushBuffer sampleTag (pageInit 0)] sampleTag
    ⟨pageInit 0, some sampleEntry.key⟩ rfl
  refine decided.1 (.inr fun key applied => ?_)
  rw [readerKey, sample_page_initialised] at applied
  obtain rfl : some sampleEntry.key = key := Except.ok.inj applied
  exact fun _ _ => rfl

theorem sample_page_lost (ops : List ToggleOp) {writeKey readKey : Option Key}
    (written : (sampleRun ops).lastFlush sampleTag = some ⟨pageInit 0, writeKey⟩)
    (applied : pageKey (sampleReader ops) sampleTag.spcOid = .ok readKey)
    (differs : ¬ SameStream sampleCipher sampleTag writeKey readKey) :
    ∃ page, waitReadBuffers (sampleReader ops) (sampleRun ops).files
        (readOne (sharedBlock sampleTag) false) = .ok [some page] ∧
      ¬ SameUpToChecksum page (pageInit 0) := by
  let last : LastFlush := ⟨pageInit 0, writeKey⟩
  have present :=
    toggle_run_files_kept uncheckedSettings sampleCipher true (fun _ => none)
      (.keycacheInsert sampleEntry :: ops) sampleTag last written
  have initialised : pageIsNew last.image = false := sample_page_initialised
  have valid : pageIsVerifiedExtended (sampleReader ops).settings last.image
    sampleTag.blockNum = true := sample_page_valid
  refine ⟨_, unchecked_read_delivers rfl initialised valid applied present false,
    fun same => differs ?_⟩
  exact (transform_stored_same_iff uncheckedSettings sampleCipher sampleTag last readKey).mp same

/-- Read under the other setting than it was written under, a page comes back garbled, as valid. -/
theorem toggled_setting_page_lost :
    (∃ page, waitReadBuffers
        (sampleReader [.reload false, .flushBuffer sampleTag (pageInit 0), .reload true])
        (sampleRun [.reload false, .flushBuffer sampleTag (pageInit 0), .reload true]).files
        (readOne (sharedBlock sampleTag) false) = .ok [some page] ∧
      ¬ SameUpToChecksum page (pageInit 0)) ∧
    ∃ page, waitReadBuffers
        (sampleReader [.flushBuffer sampleTag (pageInit 0), .reload false])
        (sampleRun [.flushBuffer sampleTag (pageInit 0), .reload false]).files
        (readOne (sharedBlock sampleTag) false) = .ok [some page] ∧
      ¬ SameUpToChecksum page (pageInit 0) := by
  constructor
  · exact sample_page_lost _ rfl rfl sample_stream_differs
  · apply sample_page_lost _ rfl rfl
    intro same
    exact sample_stream_differs fun position bound => (same position bound).symm

end FortressQL.Storage.ToggledRuns
