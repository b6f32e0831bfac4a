import FortressQL.Elog
import FortressQL.Lib.XorStream
import FortressQL.Tde.KeyCache

/-!
# Page encryption

`tde_page.c` with the initialisation vector of `tde_keymanage.c`. The cipher xors a keystream fixed
by key and vector. Failures of OpenSSL are not represented.
-/

namespace FortressQL.Tde.PageCrypt

open Elog Lib.ByteStrings Lib.XorStream Storage.BufPage Storage.BlockAddress Tde.KeyCache

def tdePageHeaderSize : Nat := 24

abbrev tdeIvLen : Nat := 16

abbrev Iv := Vector UInt8 tdeIvLen

structure PageCipher where
  /-- AES-256-CTR: the byte at a position of the keystream. -/
  keystream : Key → Iv → Nat → UInt8
  /-- HKDF-SHA256 with a 16-byte output: salt, input key and info string. -/
  hkdfSha256 : Bytes → Key → Bytes → Iv

def tdePageHkdfLabel : Bytes := ascii "FortressQL-TDE-Page-IV-v1"

/-- The info string: the five address words, copied in the machine's byte order. -/
def pageIvInfo (tag : BufferTag) : Bytes :=
  encodeWord32 tag.spcOid ++ (encodeWord32 tag.dbOid ++ (encodeWord32 tag.relNumber ++
    (encodeWord32 tag.forkNum.code ++ encodeWord32 tag.blockNum)))

def tdeDerivePageIv (cipher : PageCipher) (tdek : Key) (tag : BufferTag) : Iv :=
  cipher.hkdfSha256 tdePageHkdfLabel tdek (pageIvInfo tag)

theorem page_iv_info_injective : Function.Injective pageIvInfo := by
  intro left right same
  obtain ⟨spc, same⟩ := List.append_inj same rfl
  obtain ⟨db, same⟩ := List.append_inj same rfl
  obtain ⟨rel, same⟩ := List.append_inj same rfl
  obtain ⟨fork, block⟩ := List.append_inj same rfl
  cases left
  cases right
  simp only [BufferTag.mk.injEq]
  exact ⟨encode_word32_injective spc, encode_word32_injective db, encode_word32_injective rel,
    fork_code_injective (encode_word32_injective fork), encode_word32_injective block⟩

def pageKeystream (cipher : PageCipher) (tdek : Key) (tag : BufferTag) : Nat → UInt8 :=
  cipher.keystream tdek (tdeDerivePageIv cipher tdek tag)

def pageTooSmall (pageSize : Nat) : ErrorReport :=
  { elevel := .error
    errcode := .dataCorrupted
    errmsg := s!"TDE: page size {pageSize} is too small for encryption" }

def noEncryptionKey (spcOid : Oid) : ErrorReport :=
  { elevel := .error
    errcode := .internalError
    errmsg := s!"TDE: no encryption key found for tablespace {spcOid}"
    errhint := "Ensure TDE is configured for this tablespace." }

def tdePageCrypt {pageSize : Nat} (cipher : PageCipher) (shmem : Option TdeKeyCache)
    (page : Vector UInt8 pageSize) (tag : BufferTag) : Raises (Vector UInt8 pageSize) :=
  if pageSize ≤ tdePageHeaderSize then .error (pageTooSmall pageSize)
  else
    match tdeKeycacheLookup shmem tag.spcOid with
    | .error report => .error report
    | .ok none => .error (noEncryptionKey tag.spcOid)
    | .ok (some entry) =>
      .ok (xorFrom tdePageHeaderSize (pageKeystream cipher entry.key tag) page)

def encryptionFailed (tag : BufferTag) : ErrorReport :=
  { elevel := .panic
    errcode := .internalError
    errmsg := s!"TDE: encryption failed for page (spc={tag.spcOid}, db={tag.dbOid}, " ++
      s!"rel={tag.relNumber}, blk={tag.blockNum}); refusing to write unencrypted data to disk"
    errhint := "Check OpenSSL status and TDE key availability." }

/-- `tde_encrypt_page`: any failure becomes a `PANIC`, so that no plain text is
written. -/
def tdeEncryptPage {pageSize : Nat} (cipher : PageCipher) (shmem : Option TdeKeyCache)
    (page : Vector UInt8 pageSize) (tag : BufferTag) : Raises (Vector UInt8 pageSize) :=
  match tdePageCrypt cipher shmem page tag with
  | .ok encrypted => .ok encrypted
  | .error _ => .error (encryptionFailed tag)

/-- `tde_decrypt_page`: a failure is only warned about and the page is returned as it
was read. -/
def tdeDecryptPage {pageSize : Nat} (cipher : PageCipher) (shmem : Option TdeKeyCache)
    (page : Vector UInt8 pageSize) (tag : BufferTag) : Vector UInt8 pageSize :=
  match tdePageCrypt cipher shmem page tag with
  | .ok decrypted => decrypted
  | .error _ => page

section Cached

variable (cipher : PageCipher) {cache : TdeKeyCache} {entry : TdeKeyEntry} {tag : BufferTag}

section

variable (cached : cache.find tag.spcOid = some entry) (page : Page)

include cached page

theorem tde_page_crypt_cached :
    tdePageCrypt cipher (some cache) page tag =
      .ok (xorFrom tdePageHeaderSize (pageKeystream cipher entry.key tag) page) := by
  have large : ¬ blcksz ≤ tdePageHeaderSize := by decide
  simp [tdePageCrypt, tdeKeycacheLookup, cached, if_neg large]

theorem tde_encrypt_page_cached :
    tdeEncryptPage cipher (some cache) page tag =
      .ok (xorFrom tdePageHeaderSize (pageKeystream cipher entry.key tag) page) := by
  rw [tdeEncryptPage, tde_page_crypt_cached cipher cached]

theorem tde_decrypt_page_cached :
    tdeDecryptPage cipher (some cache) page tag =
      xorFrom tdePageHeaderSize (pageKeystream cipher entry.key tag) page := by
  rw [tdeDecryptPage, tde_page_crypt_cached cipher cached]

end

end Cached

variable (stream : Nat → UInt8) (page : Page)

/-- The cipher does not change whether a page looks initialised. -/
theorem page_is_new_xor_from :
    pageIsNew (xorFrom tdePageHeaderSize stream page) = pageIsNew page := by
  have clear {index : Nat} (small : index < tdePageHeaderSize) :=
    byte_at_xor_from_clear tdePageHeaderSize stream page small
  rw [pageIsNew, pageIsNew, pdUpper, pdUpper, word16_congr (clear (by decide)) (clear (by decide))]

theorem header_sane_xor_from :
    headerSane (xorFrom tdePageHeaderSize stream page) = headerSane page := by
  apply header_sane_congr
  intro index _ below
  exact byte_at_xor_from_clear tdePageHeaderSize stream page (by unfold tdePageHeaderSize; omega)

theorem pd_checksum_xor_from :
    pdChecksum (xorFrom tdePageHeaderSize stream page) = pdChecksum page := by
  have clear {index : Nat} (small : index < tdePageHeaderSize) :=
    byte_at_xor_from_clear tdePageHeaderSize stream page small
  exact word16_congr (clear (by decide)) (clear (by decide))

theorem xor_from_same {left right : Page} (stream : Nat → UInt8)
    (same : SameUpToChecksum left right) :
    SameUpToChecksum (xorFrom tdePageHeaderSize stream left)
      (xorFrom tdePageHeaderSize stream right) := by
  intro index bound low high
  have bytes := same index bound low high
  rcases lt_or_ge index tdePageHeaderSize with clear | covered
  · rw [byte_at_xor_from_clear _ _ _ clear, byte_at_xor_from_clear _ _ _ clear, bytes]
  · rw [byte_at_xor_from_covered _ _ _ covered bound, byte_at_xor_from_covered _ _ _ covered bound,
      bytes]

theorem xor_from_same_up_to_checksum_iff :
    SameUpToChecksum (xorFrom tdePageHeaderSize stream page) page ↔
      Silent blcksz tdePageHeaderSize stream := by
  rw [← xor_from_eq_self_iff tdePageHeaderSize stream page]
  constructor
  · intro same
    apply vector_ext_byte_at
    intro index bound
    rcases lt_or_ge index tdePageHeaderSize with clear | covered
    · exact byte_at_xor_from_clear tdePageHeaderSize stream page clear
    · have beyond : 24 ≤ index := covered
      exact same index bound (by omega) (by omega)
  · intro same
    rw [same]
    exact same_up_to_checksum_refl page

end FortressQL.Tde.PageCrypt
