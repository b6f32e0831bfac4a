import FortressQL.Lib.Runs
import FortressQL.Tde.PageCrypt
import FortressQL.Wal.PageHeaders

/-!
# WAL page encryption

`tde_wal.c`. The keystream is xored into a page behind its header and a flag says so. Decryption
looks at the flag; encryption does not.
-/

namespace FortressQL.Tde.WalCrypt

open Elog Lib.ByteStrings Lib.LittleEndian Lib.Runs Lib.XorStream Tde.KeyCache Tde.PageCrypt
open Wal.BytePositions Wal.PageHeaders

def xlpEncrypted : UInt16 := 0x0010

variable {pageSize : Nat}

section Functions

def xlpInfo (page : Vector UInt8 pageSize) : UInt16 := UInt16.ofNat (word16 page 2)

def headerSize (page : Vector UInt8 pageSize) : Nat :=
  if hasFlag (xlpInfo page) xlpLongHeader then sizeOfXLogLongPHD else sizeOfXLogShortPHD

def isEncrypted (page : Vector UInt8 pageSize) : Bool := hasFlag (xlpInfo page) xlpEncrypted

def markInfo (flag : Bool) (info : UInt16) : UInt16 :=
  if flag then info ||| xlpEncrypted else info &&& ~~~xlpEncrypted

/-- `xlp_info |= XLP_ENCRYPTED`, or `xlp_info &= ~XLP_ENCRYPTED`. -/
def mark (flag : Bool) (page : Vector UInt8 pageSize) : Vector UInt8 pageSize :=
  setWord16 page 2 (markInfo flag (xlpInfo page)).toNat

def tdeDeriveWalIv (cipher : PageCipher) (walKey : Key) (segno : UInt64) (offset : UInt32) : Iv :=
  cipher.hkdfSha256 (ascii "FortressQL-TDE-WAL-IV-v1") walKey
    (encodeLe 8 segno.toNat ++ encodeWord32 offset)

def headerExceedsPage (hdrSize pageSize : Nat) : ErrorReport :=
  { elevel := .error
    errcode := .dataCorrupted
    errmsg := s!"TDE: WAL page header size {hdrSize} exceeds page size {pageSize}" }

def noWalEncryptionKey : ErrorReport :=
  { elevel := .error
    errcode := .internalError
    errmsg := "TDE: no WAL encryption key found"
    errhint := "Ensure TDE is configured and the master key is loaded." }

variable (cipher : PageCipher) (shmem : Option TdeKeyCache) (segno : UInt64) (offset : UInt32)

/-- `tde_wal_crypt`; the WAL has the key of tablespace 0. -/
def tdeWalCrypt (page : Vector UInt8 pageSize) : Raises (Vector UInt8 pageSize) := do
  ensure (¬ pageSize ≤ headerSize page) (headerExceedsPage (headerSize page) pageSize)
  let found ← tdeKeycacheLookup shmem 0
  match found with
  | none => .error noWalEncryptionKey
  | some entry =>
    return xorFrom (headerSize page)
      (cipher.keystream entry.key (tdeDeriveWalIv cipher entry.key segno offset)) page

def tdeEncryptWalPage (page : Vector UInt8 pageSize) : Raises (Vector UInt8 pageSize) := do
  let crypted ← tdeWalCrypt cipher shmem segno offset page
  return mark true crypted

def tdeDecryptWalPage (page : Vector UInt8 pageSize) : Raises (Vector UInt8 pageSize) :=
  if isEncrypted page then do
    let crypted ← tdeWalCrypt cipher shmem segno offset page
    return mark false crypted
  else .ok page

inductive WalCall where
  | encrypt
  | decrypt
  deriving DecidableEq

def callStep (page : Vector UInt8 pageSize) : WalCall → Raises (Vector UInt8 pageSize)
  | .encrypt => tdeEncryptWalPage cipher shmem segno offset page
  | .decrypt => tdeDecryptWalPage cipher shmem segno offset page

end Functions

/-- What a call does to the mark and to the presence of the keystream. -/
def turn (state : Bool × Bool) : WalCall → Bool × Bool
  | .encrypt => (true, !state.2)
  | .decrypt => if state.1 then (false, !state.2) else state

theorem mark_info_mark (flag earlier : Bool) (info : UInt16) :
    markInfo flag (markInfo earlier info) = markInfo flag info := by
  apply UInt16.toBitVec_inj.mp
  cases flag <;> cases earlier <;> simp [markInfo] <;> grind

theorem mark_info_flag (flag : Bool) (info : UInt16) :
    hasFlag (markInfo flag info) xlpEncrypted = flag := by
  cases flag with
  | false =>
    have cleared : info &&& ~~~xlpEncrypted &&& xlpEncrypted = 0 := by
      rw [UInt16.and_assoc]
      exact UInt16.and_zero
    simp [markInfo, hasFlag, cleared]
  | true =>
    have marked : (info ||| xlpEncrypted) &&& xlpEncrypted ≠ 0 := by
      rw [info_or_and, Ne, UInt16.or_eq_zero_iff]
      exact fun none => absurd none.2 (by decide)
    simp [markInfo, hasFlag, marked]

theorem mark_info_long (flag : Bool) (info : UInt16) :
    markInfo flag info &&& xlpLongHeader = info &&& xlpLongHeader := by
  cases flag with
  | false =>
    have kept : ~~~xlpEncrypted &&& xlpLongHeader = xlpLongHeader := by decide
    rw [markInfo, if_neg nofun, UInt16.and_assoc, kept]
  | true =>
    have apart : xlpEncrypted &&& xlpLongHeader = 0 := by decide
    rw [markInfo, if_pos rfl, info_or_and, apart, UInt16.or_zero]

theorem mark_info_self {info : UInt16} (unmarked : info &&& xlpEncrypted = 0) :
    markInfo false info = info := by
  have bits := congrArg UInt16.toBitVec unmarked
  apply UInt16.toBitVec_inj.mp
  ext index bound
  have bit := congrArg (fun value => value.getLsbD index) bits
  simp [markInfo] at bit ⊢
  grind

section Pages

theorem set_word16_self (buffer : Vector UInt8 pageSize) (offset : Nat) :
    setWord16 buffer offset (word16 buffer offset) = buffer := by
  apply vector_ext_byte_at
  intro index bound
  have low := (byteAt buffer offset).toNat_lt
  by_cases first : index = offset
  · subst first
    rw [byte_at_set_word16_low _ _ _ bound, word16]
    apply UInt8.toNat_inj.mp
    rw [UInt8.toNat_ofNat']
    omega
  by_cases second : index = offset + 1
  · subst second
    have high := (byteAt buffer (offset + 1)).toNat_lt
    rw [byte_at_eq _ _ bound, setWord16, Vector.getElem_ofFn, if_neg first, if_pos rfl, word16]
    apply UInt8.toNat_inj.mp
    rw [UInt8.toNat_ofNat']
    omega
  exact byte_at_set_word16_other _ _ _ _ first second

variable {page : Vector UInt8 pageSize}

theorem header_size_bounds (page : Vector UInt8 pageSize) : 3 < headerSize page := by
  unfold headerSize
  split_ifs <;> decide

theorem xlp_info_mark (room : 3 < pageSize) (flag : Bool) :
    xlpInfo (mark flag page) = markInfo flag (xlpInfo page) := by
  rw [xlpInfo, mark, word16_set_word16 _ _ _ room (UInt16.toNat_lt _), UInt16.ofNat_toNat]

theorem mark_mark (room : 3 < pageSize) (flag earlier : Bool) :
    mark flag (mark earlier page) = mark flag page := by
  rw [mark, xlp_info_mark room, mark_info_mark, mark, set_word16_set_word16]
  rfl

theorem is_encrypted_mark (room : 3 < pageSize) (flag : Bool) :
    isEncrypted (mark flag page) = flag := by
  rw [isEncrypted, xlp_info_mark room, mark_info_flag]

theorem header_size_mark (room : 3 < pageSize) (flag : Bool) :
    headerSize (mark flag page) = headerSize page := by
  rw [headerSize, hasFlag, xlp_info_mark room, mark_info_long]
  rfl

variable {clear : Nat} {stream : Nat → UInt8}

theorem xlp_info_xor (behind : 3 < clear) :
    xlpInfo (xorFrom clear stream page) = xlpInfo page := by
  rw [xlpInfo, xlpInfo, word16_congr (byte_at_xor_from_clear _ _ _ (by omega))
    (byte_at_xor_from_clear _ _ _ (by omega))]

theorem mark_xor (behind : 3 < clear) (flag : Bool) :
    mark flag (xorFrom clear stream page) = xorFrom clear stream (mark flag page) := by
  rw [mark, xlp_info_xor behind, set_word16_xor_from behind]
  rfl

theorem unmark_eq_self_iff (room : 3 < pageSize) :
    mark false page = page ↔ isEncrypted page = false := by
  constructor
  · intro same
    rw [← same, is_encrypted_mark room]
  · intro unmarked
    have info : markInfo false (xlpInfo page) = xlpInfo page := by
      apply mark_info_self
      simpa [isEncrypted, hasFlag] using unmarked
    have small : word16 page 2 < 65536 := by
      have low := (byteAt page 2).toNat_lt
      have high := (byteAt page (2 + 1)).toNat_lt
      rw [word16]
      omega
    rw [mark, info, xlpInfo, UInt16.toNat_ofNat', Nat.mod_eq_of_lt small, set_word16_self]

end Pages

/-- Mark and keystream go together until a marked page is encrypted. -/
theorem together_iff (calls : List WalCall) :
    (∀ before, before <+: calls →
        (run turn (false, false) before).1 = (run turn (false, false) before).2) ↔
      ∀ before, before ++ [.encrypt] <+: calls → (run turn (false, false) before).1 = false := by
  constructor
  · intro together before early
    have first := together before ((List.prefix_append _ _).trans early)
    have second := together _ early
    rw [run_append] at second
    generalize run turn (false, false) before = state at first second
    obtain ⟨flag, turned⟩ := state
    cases flag <;> cases turned <;> simp_all [run, turn]
  · intro never before
    induction before using List.reverseRecOn with
    | nil => exact fun _ => rfl
    | append_singleton init call ih =>
      intro early
      have earlier := ih ((List.prefix_append _ _).trans early)
      have unmarked := never init
      rw [run_append]
      generalize run turn (false, false) init = state at earlier unmarked
      obtain ⟨flag, turned⟩ := state
      cases call with
      | encrypt => simp_all [run, turn]
      | decrypt => cases flag <;> simp_all [run, turn]

section Protocol

variable (cipher : PageCipher) (cache : TdeKeyCache) (segno : UInt64) (offset : UInt32)
  {entry : TdeKeyEntry} {page : Vector UInt8 pageSize}

def walKeystream (entry : TdeKeyEntry) : Nat → UInt8 :=
  cipher.keystream entry.key (tdeDeriveWalIv cipher entry.key segno offset)

def crypted (entry : TdeKeyEntry) (page : Vector UInt8 pageSize) : Vector UInt8 pageSize :=
  xorFrom (headerSize page) (walKeystream cipher segno offset entry) page

/-- A round trip restores the page, and after every call the mark says whether the keystream is in
it. -/
def KeepsPage (entry : TdeKeyEntry) (page : Vector UInt8 pageSize) (calls : List WalCall) : Prop :=
  (∃ encrypted, tdeEncryptWalPage cipher (some cache) segno offset page = .ok encrypted ∧
    tdeDecryptWalPage cipher (some cache) segno offset encrypted = .ok page) ∧
  ∀ before, before <+: calls →
    ∃ after, runFallible (callStep cipher (some cache) segno offset) page before = .ok after ∧
      mark false after =
        mark false (if isEncrypted after then crypted cipher segno offset entry page else page)

/-- The page with or without the mark, and with or without the keystream. -/
def pageAt (entry : TdeKeyEntry) (page : Vector UInt8 pageSize) (state : Bool × Bool) :
    Vector UInt8 pageSize :=
  mark state.1 (if state.2 then crypted cipher segno offset entry page else page)

variable (cached : cache.find 0 = some entry) (large : headerSize page < pageSize)

include large

theorem page_has_info : 3 < pageSize := Nat.lt_trans (header_size_bounds page) large

theorem is_encrypted_page_at (state : Bool × Bool) :
    isEncrypted (pageAt cipher segno offset entry page state) = state.1 :=
  is_encrypted_mark (page_has_info large) _

theorem told_iff (state : Bool × Bool) :
    mark false (pageAt cipher segno offset entry page state) =
        mark false (if state.1 then crypted cipher segno offset entry page else page) ↔
      Silent pageSize (headerSize page) (walKeystream cipher segno offset entry) ∨
        state.1 = state.2 := by
  have silent : mark false (crypted cipher segno offset entry page) = mark false page ↔
      Silent pageSize (headerSize page) (walKeystream cipher segno offset entry) := by
    rw [crypted, mark_xor (header_size_bounds page), xor_from_eq_self_iff]
  rw [pageAt, mark_mark (page_has_info large)]
  obtain ⟨flag, turned⟩ := state
  cases flag <;> cases turned <;> simp [silent, @eq_comm _ (mark false page)]

include cached

theorem wal_crypt_returns {other : Vector UInt8 pageSize}
    (sized : headerSize other = headerSize page) :
    tdeWalCrypt cipher (some cache) segno offset other =
      .ok (xorFrom (headerSize page) (walKeystream cipher segno offset entry) other) := by
  simp only [tdeWalCrypt, sized, ensure_holds (not_le.mpr large), tdeKeycacheLookup, cached]
  rfl

theorem wal_crypt_page_at (state : Bool × Bool) :
    tdeWalCrypt cipher (some cache) segno offset (pageAt cipher segno offset entry page state) =
      .ok (pageAt cipher segno offset entry page (state.1, !state.2)) := by
  have behind := header_size_bounds page
  have sized : headerSize (pageAt cipher segno offset entry page state) = headerSize page := by
    rw [pageAt, header_size_mark (page_has_info large)]
    split_ifs
    · rw [headerSize, crypted, xlp_info_xor behind]
      rfl
    · rfl
  rw [wal_crypt_returns cipher cache segno offset cached large sized]
  apply congrArg Except.ok
  obtain ⟨flag, turned⟩ := state
  cases turned with
  | false => exact (mark_xor behind flag).symm
  | true =>
    simp only [pageAt, if_true]
    rw [crypted, ← mark_xor behind, xor_from_xor_from]
    rfl

theorem call_step_page_at (state : Bool × Bool) (call : WalCall) :
    callStep cipher (some cache) segno offset (pageAt cipher segno offset entry page state) call =
      .ok (pageAt cipher segno offset entry page (turn state call)) := by
  have crypts := wal_crypt_page_at cipher cache segno offset cached large state
  have room := page_has_info large
  cases call with
  | encrypt =>
    rw [callStep, tdeEncryptWalPage, crypts, ok_then, pageAt, mark_mark room]
    rfl
  | decrypt =>
    rw [callStep, tdeDecryptWalPage, is_encrypted_page_at cipher segno offset large, turn]
    split_ifs with marked
    · rw [crypts, ok_then, pageAt, mark_mark room]
      rfl
    · rfl

theorem run_page_at (state : Bool × Bool) (calls : List WalCall) :
    runFallible (callStep cipher (some cache) segno offset)
        (pageAt cipher segno offset entry page state) calls =
      .ok (pageAt cipher segno offset entry page (run turn state calls)) := by
  induction calls generalizing state with
  | nil => rfl
  | cons call rest ih =>
    rw [runFallible, call_step_page_at cipher cache segno offset cached large]
    exact ih (turn state call)

theorem round_trip_iff :
    (∃ encrypted, tdeEncryptWalPage cipher (some cache) segno offset page = .ok encrypted ∧
      tdeDecryptWalPage cipher (some cache) segno offset encrypted = .ok page) ↔
      isEncrypted page = false := by
  have encrypts : tdeEncryptWalPage cipher (some cache) segno offset page =
      .ok (pageAt cipher segno offset entry page (true, true)) := by
    rw [tdeEncryptWalPage, wal_crypt_returns cipher cache segno offset cached large rfl]
    rfl
  have decrypts := call_step_page_at cipher cache segno offset cached large (true, true) .decrypt
  rw [callStep] at decrypts
  simp only [encrypts, Except.ok.injEq, exists_eq_left', decrypts]
  exact unmark_eq_self_iff (page_has_info large)

theorem keeps_page_iff (calls : List WalCall) :
    KeepsPage cipher cache segno offset entry page calls ↔
      isEncrypted page = false ∧
        (Silent pageSize (headerSize page) (walKeystream cipher segno offset entry) ∨
          ∀ before, before ++ [.encrypt] <+: calls →
            ∃ middle, runFallible (callStep cipher (some cache) segno offset) page before =
              .ok middle ∧ isEncrypted middle = false) := by
  unfold KeepsPage
  rw [round_trip_iff cipher cache segno offset cached large]
  apply and_congr_right
  intro unmarked
  have start : pageAt cipher segno offset entry page (false, false) = page :=
    (unmark_eq_self_iff (page_has_info large)).mpr unmarked
  have ran := run_page_at cipher cache segno offset cached large (false, false)
  rw [start] at ran
  simp only [ran, Except.ok.injEq, exists_eq_left', is_encrypted_page_at cipher segno offset large,
    told_iff cipher segno offset large, ← together_iff]
  by_cases silent : Silent pageSize (headerSize page) (walKeystream cipher segno offset entry)
  · simp [silent]
  · simp [silent]

end Protocol

def sampleCipher : PageCipher :=
  { keystream := fun _ _ _ => 1, hkdfSha256 := fun _ _ _ => Vector.replicate 16 0 }

def sampleEntry : TdeKeyEntry := ⟨0, Vector.replicate 32 0, 1, true⟩

def sampleCache : TdeKeyCache := ⟨[sampleEntry], by decide, by decide⟩

theorem sample_page_kept :
    KeepsPage sampleCipher sampleCache 1 0 sampleEntry (Vector.replicate 25 0) [.encrypt] := by
  apply (keeps_page_iff sampleCipher sampleCache 1 0 rfl (by decide) _).mpr
  refine ⟨by decide, Or.inr ?_⟩
  intro before early
  obtain rfl : before = [] := by
    have short := early.length_le
    simpa using short
  exact ⟨_, rfl, by decide⟩

theorem second_encrypt_reveals :
    ∃ twice, runFallible (callStep sampleCipher (some sampleCache) 1 0) (Vector.replicate 25 0)
        [.encrypt, .encrypt] = .ok twice ∧
      isEncrypted twice = true ∧ byteAt twice 24 = 0 ∧
      byteAt (crypted sampleCipher 1 0 sampleEntry (Vector.replicate 25 0)) 24 = 1 :=
  ⟨_, rfl, by decide, by decide, by decide⟩

end FortressQL.Tde.WalCrypt
