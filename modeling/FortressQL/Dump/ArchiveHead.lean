import FortressQL.Lib.LittleEndian

/-!
# The header of an archive

`WriteHead` and `ReadHead` of `pg_backup_archiver.c`. Builds with and without the post-quantum
fields write the same version, so a header is read back by a reader of the writer's build only.
-/

namespace FortressQL.Dump.ArchiveHead

open Option List Lib.ByteStrings Lib.LittleEndian

/-- Reads from the archive file, where `none` is a fatal error. -/
abbrev Reader := StateT Bytes Option

def readByte : Reader UInt8
  | [] => none
  | byte :: rest => some (byte, rest)

def readBuf (len : Nat) : Reader Bytes := fun input =>
  if input.length < len then none else some (input.take len, input.drop len)

def readIf {α : Type} (present : Bool) (read : Reader α) (otherwise : α) : Reader α :=
  if present then read else pure otherwise

def fatalUnless (holds : Bool) : Reader Unit := if holds then pure () else failure

def makeArchiveVersion (major minor rev : Int) : Int := (major * 256 + minor) * 256 + rev

def kVersSelf : Int := makeArchiveVersion 1 17 0

def kVersMax : Int := makeArchiveVersion 1 17 255

def writeInt (intSize : Nat) (i : Int32) : Bytes :=
  if i < 0 then 1 :: encodeLe intSize (-i).toUInt32.toNat
  else 0 :: encodeLe intSize i.toUInt32.toNat

def readInt (version : Int) (intSize : Nat) : Reader Int32 := do
  let sign ← readIf (makeArchiveVersion 1 0 0 < version) readByte 0
  let bytes ← readBuf intSize
  let res := (UInt32.ofNat (decodeLe bytes)).toInt32
  pure (if sign = 0 then res else -res)

def writeStr (intSize : Nat) : Option Bytes → Bytes
  | some c => writeInt intSize (Int32.ofNat c.length) ++ c
  | none => writeInt intSize (-1)

def readStr (version : Int) (intSize : Nat) : Reader (Option Bytes) := do
  let l ← readInt version intSize
  readIf (0 ≤ l) (some <$> readBuf l.toInt.toNat) none

structure Tm where
  sec : Int32
  min : Int32
  hour : Int32
  mday : Int32
  mon : Int32
  year : Int32
  isdst : Int32

def writeTm (intSize : Nat) (crtm : Tm) : Bytes :=
  writeInt intSize crtm.sec ++ writeInt intSize crtm.min ++ writeInt intSize crtm.hour ++
    writeInt intSize crtm.mday ++ writeInt intSize crtm.mon ++ writeInt intSize crtm.year ++
    writeInt intSize crtm.isdst

def readTm (version : Int) (intSize : Nat) : Reader Tm := do
  let sec ← readInt version intSize
  let min ← readInt version intSize
  let hour ← readInt version intSize
  let mday ← readInt version intSize
  let mon ← readInt version intSize
  let year ← readInt version intSize
  let isdst ← readInt version intSize
  pure ⟨sec, min, hour, mday, mon, year, isdst⟩

def createDateOf (mktime : Tm → Int) (crtm : Tm) : Int :=
  if mktime crtm = -1 then mktime { crtm with isdst := -1 } else mktime crtm

/-- The fields that an encrypted archive has besides its flag. -/
structure KemFields where
  kemAlgorithm : Option Bytes
  kemCtLen : Nat
  kemCiphertext : Option Bytes
  aesNonce : Bytes

/-- The fields of `ArchiveHandle` that the header holds. The names are those of the reader; the
writer takes them from its connection. -/
structure ArchiveHandle where
  version : Int
  intSize : Nat
  offSize : Nat
  format : UInt8
  algorithm : UInt8
  createDate : Int
  archdbname : Option Bytes
  archiveRemoteVersion : Option Bytes
  archiveDumpVersion : Option Bytes
  pqcEncrypted : Option KemFields
  pqcSigned : Option (Option Bytes)

def writeFlagged {α : Type} (write : α → Bytes) : Option α → Bytes
  | none => [0]
  | some fields => 1 :: write fields

def readFlagged {α : Type} (read : Reader α) : Reader (Option α) := do
  let flag ← readByte
  readIf (flag ≠ 0) (some <$> read) none

def writeKem (intSize : Nat) (kem : KemFields) : Bytes :=
  writeStr intSize kem.kemAlgorithm ++ writeInt intSize (Int32.ofNat kem.kemCtLen) ++
    (kem.kemCiphertext.getD []).take kem.kemCtLen ++ kem.aesNonce

/-- An `int` as a `size_t`. -/
def sizeOfInt (i : Int32) : Nat := (i.toInt % 2 ^ 64).toNat

def readKem (version : Int) (intSize : Nat) : Reader KemFields := do
  let kemAlgorithm ← readStr version intSize
  let len ← readInt version intSize
  let kemCiphertext ← readIf (0 < sizeOfInt len) (some <$> readBuf (sizeOfInt len)) none
  let aesNonce ← readBuf 12
  pure ⟨kemAlgorithm, sizeOfInt len, kemCiphertext, aesNonce⟩

def magic : Bytes := [80, 71, 68, 77, 80]

def writePqc (ah : ArchiveHandle) : Bytes :=
  writeFlagged (writeKem ah.intSize) ah.pqcEncrypted ++
    writeFlagged (writeStr ah.intSize) ah.pqcSigned

def writeHead (usePqc : Bool) (localtime : Int → Tm) (ah : ArchiveHandle) : Bytes :=
  magic ++ [UInt8.ofInt (ah.version / 2 ^ 16), UInt8.ofInt (ah.version / 2 ^ 8),
      UInt8.ofInt ah.version, UInt8.ofNat ah.intSize, UInt8.ofNat ah.offSize, ah.format,
      ah.algorithm] ++
    writeTm ah.intSize (localtime ah.createDate) ++ writeStr ah.intSize ah.archdbname ++
    writeStr ah.intSize ah.archiveRemoteVersion ++ writeStr ah.intSize ah.archiveDumpVersion ++
    if usePqc then writePqc ah else []

def readMagic : Reader Unit := do
  let tmpMag ← readBuf 5
  fatalUnless (tmpMag = magic)

def readVersion (readHeader : Bool) : Reader Int := do
  readIf (!readHeader) readMagic ()
  let vmaj ← readByte
  let vmin ← readByte
  let vrev ← readIf (1 < vmaj.toInt8 ∨ vmaj.toInt8 = 1 ∧ 0 < vmin.toInt8) readByte 0
  let version := makeArchiveVersion vmaj.toInt8.toInt vmin.toInt8.toInt vrev.toInt8.toInt
  fatalUnless (makeArchiveVersion 1 0 0 ≤ version ∧ version ≤ kVersMax)
  pure version

/-- Before version 1.15 the algorithm follows from the level, and gzip is 1. -/
def readAlgorithm (version : Int) (intSize : Nat) (ah : ArchiveHandle) : Reader UInt8 :=
  if makeArchiveVersion 1 15 0 ≤ version then readByte
  else if makeArchiveVersion 1 4 0 ≤ version then do
    let level ← readInt version intSize
    pure (if level = 0 then ah.algorithm else 1)
  else if makeArchiveVersion 1 2 0 ≤ version then do
    let level ← readByte
    pure (if level = 0 then ah.algorithm else 1)
  else pure 1

def readPqc (usePqc : Bool) (version : Int) (intSize : Nat) (ah : ArchiveHandle) :
    Reader (Option KemFields × Option (Option Bytes)) :=
  if usePqc ∧ makeArchiveVersion 1 17 0 ≤ version then do
    let pqcEncrypted ← readFlagged (readKem version intSize)
    let pqcSigned ← readFlagged (readStr version intSize)
    pure (pqcEncrypted, pqcSigned)
  else pure (ah.pqcEncrypted, ah.pqcSigned)

def readHead (usePqc readHeader : Bool) (mktime : Tm → Int) (ah : ArchiveHandle) :
    Reader ArchiveHandle := do
  let version ← readVersion readHeader
  let intByte ← readByte
  let intSize := intByte.toNat
  fatalUnless (intSize ≤ 32)
  let offByte ← readIf (makeArchiveVersion 1 7 0 ≤ version) readByte intByte
  let fmt ← readByte
  fatalUnless (ah.format = fmt)
  let algorithm ← readAlgorithm version intSize ah
  let dated := makeArchiveVersion 1 4 0 ≤ version
  let createDate ← readIf dated (createDateOf mktime <$> readTm version intSize) ah.createDate
  let archdbname ← readIf dated (readStr version intSize) ah.archdbname
  let named := makeArchiveVersion 1 10 0 ≤ version
  let archiveRemoteVersion ← readIf named (readStr version intSize) ah.archiveRemoteVersion
  let archiveDumpVersion ← readIf named (readStr version intSize) ah.archiveDumpVersion
  let (pqcEncrypted, pqcSigned) ← readPqc usePqc version intSize ah
  pure { ah with version, intSize, offSize := offByte.toNat, algorithm, createDate, archdbname,
                 archiveRemoteVersion, archiveDumpVersion, pqcEncrypted, pqcSigned }

def Reads {α : Type} (reader : Reader α) (bytes : Bytes) (value : α) : Prop :=
  ∀ rest, reader (bytes ++ rest) = some (value, rest)

section Reading

variable {α β : Type} {first : Reader α} {bytes : Bytes} {value : α}

theorem Reads.bind {next : α → Reader β} (reads : Reads first bytes value) (rest : Bytes) :
    (first >>= next) (bytes ++ rest) = next value rest := by
  change (first (bytes ++ rest)).bind (fun read => next read.1 read.2) = next value rest
  rw [reads rest]
  rfl

theorem Reads.map (reads : Reads first bytes value) (change : α → β) :
    Reads (change <$> first) bytes (change value) := by
  intro rest
  rw [map_eq_pure_bind, reads.bind]
  rfl

theorem read_byte_bind {next : UInt8 → Reader β} (byte : UInt8) (rest : Bytes) :
    (readByte >>= next) (byte :: rest) = next byte rest := rfl

theorem Reads.flagged {write : α → Bytes} {read : Reader α} {fields : Option α}
    (reads : ∀ found ∈ fields, Reads read (write found) found) :
    Reads (readFlagged read) (writeFlagged write fields) fields := by
  intro rest
  cases fields with
  | none => rfl
  | some found => exact (reads found rfl).map some rest

end Reading

theorem reads_buf {len : Nat} {bytes : Bytes} (length : bytes.length = len) :
    Reads (readBuf len) bytes bytes := by
  intro rest
  simp [readBuf, ← length]

theorem read_int_number (sign : UInt8) (i : Int32) (rest : Bytes) :
    readInt kVersSelf 4 (sign :: (encodeLe 4 i.toUInt32.toNat ++ rest)) =
      some (if sign = 0 then i else -i, rest) := by
  have bytes := reads_buf (encode_le_length 4 i.toUInt32.toNat)
  rw [readInt, readIf, if_pos (by decide), read_byte_bind]
  rw [bytes.bind, decode_encode_le i.toUInt32.toNat_lt, UInt32.ofNat_toNat]
  rfl

theorem reads_int (i : Int32) : Reads (readInt kVersSelf 4) (writeInt 4 i) i := by
  intro rest
  rw [writeInt]
  split
  · rw [cons_append, read_int_number, if_neg (by decide), Int32.neg_neg]
  · rw [cons_append, read_int_number, if_pos rfl]

def Counted (text : Option Bytes) : Prop := ∀ c ∈ text, c.length < 2 ^ 31

theorem reads_str {text : Option Bytes} (counted : Counted text) :
    Reads (readStr kVersSelf 4) (writeStr 4 text) text := by
  intro rest
  cases text with
  | none =>
    rfl
  | some c =>
    have length : (Int32.ofNat c.length).toInt = c.length :=
      Int32.toInt_ofNat_of_lt (counted c rfl)
    have counts : 0 ≤ Int32.ofNat c.length := by
      rw [Int32.le_iff_toInt_le, length]
      simp
    rw [writeStr, append_assoc, readStr, (reads_int _).bind, length, readIf,
      if_pos (decide_eq_true counts)]
    exact (reads_buf rfl).map some rest

theorem reads_tm (crtm : Tm) : Reads (readTm kVersSelf 4) (writeTm 4 crtm) crtm := by
  intro rest
  simp only [writeTm, append_assoc, readTm, (reads_int _).bind]
  rfl

/-- A handle as `_allocAH` sets it up. Its texts are counted in an `int`, and a ciphertext it has
is one of `kemCtLen` bytes. -/
structure Allocated (ah : ArchiveHandle) : Prop where
  version : ah.version = kVersSelf
  intSize : ah.intSize = 4
  offSize : ah.offSize = 8
  dbname : Counted ah.archdbname
  remoteVersion : Counted ah.archiveRemoteVersion
  dumpVersion : Counted ah.archiveDumpVersion
  signed : ∀ algorithm ∈ ah.pqcSigned, Counted algorithm
  kemAlgorithm : ∀ kem ∈ ah.pqcEncrypted, Counted kem.kemAlgorithm
  aesNonce : ∀ kem ∈ ah.pqcEncrypted, kem.aesNonce.length = 12
  kemCiphertext : ∀ kem ∈ ah.pqcEncrypted, ∀ ciphertext ∈ kem.kemCiphertext,
    ciphertext.length = kem.kemCtLen ∧ 0 < kem.kemCtLen

/-- The handle of a reader that expects the format of the archive. -/
structure Fresh (reader ah : ArchiveHandle) : Prop where
  format : reader.format = ah.format
  unencrypted : reader.pqcEncrypted = none
  unsigned : reader.pqcSigned = none

/-- The ciphertext is there, and its length is the same as an `int`. -/
def KemFields.Kept (kem : KemFields) : Prop :=
  sizeOfInt (Int32.ofNat kem.kemCtLen) = kem.kemCtLen ∧
    (0 < kem.kemCtLen → kem.kemCiphertext ≠ none)

section Heads

variable {localtime : Int → Tm} {mktime : Tm → Int} {ah reader : ArchiveHandle}

theorem read_head_written (allocated : Allocated ah) (fresh : Fresh reader ah)
    (writerPqc readerPqc : Bool) (rest : Bytes) :
    readHead readerPqc false mktime reader (writeHead writerPqc localtime ah ++ rest) =
      (readPqc readerPqc kVersSelf 4 reader ((if writerPqc then writePqc ah else []) ++ rest)).map
        fun (pqc, left) =>
          ({ ah with createDate := createDateOf mktime (localtime ah.createDate)
                     pqcEncrypted := pqc.1
                     pqcSigned := pqc.2 }, left) := by
  obtain ⟨version, intSize, offSize, format, algorithm, createDate, dbname, remote, dump, kem,
    signed⟩ := ah
  obtain ⟨rfl, rfl, rfl, countedName, countedRemote, countedDump, -⟩ := allocated
  obtain ⟨rfl, -⟩ := fresh
  simp only [writeHead, append_assoc]
  -- only the check of the format does not compute
  change (do
    fatalUnless (reader.format = reader.format)
    let algorithm ← readByte
    let createDate ← createDateOf mktime <$> readTm kVersSelf 4
    let archdbname ← readStr kVersSelf 4
    let archiveRemoteVersion ← readStr kVersSelf 4
    let archiveDumpVersion ← readStr kVersSelf 4
    let pqc ← readPqc readerPqc kVersSelf 4 reader
    pure { reader with version := kVersSelf, intSize := 4, offSize := 8, algorithm, createDate,
                       archdbname, archiveRemoteVersion, archiveDumpVersion,
                       pqcEncrypted := pqc.1, pqcSigned := pqc.2 })
    (algorithm :: (writeTm 4 _ ++ _)) = _
  simp only [fatalUnless, decide_true, if_true, pure_bind, read_byte_bind,
    ((reads_tm _).map _).bind, (reads_str countedName).bind, (reads_str countedRemote).bind,
    (reads_str countedDump).bind]
  exact (map_eq_bind ..).symm

theorem reads_kem {kem : KemFields} (counted : Counted kem.kemAlgorithm)
    (nonce : kem.aesNonce.length = 12)
    (sized : ∀ ciphertext ∈ kem.kemCiphertext, ciphertext.length = kem.kemCtLen ∧ 0 < kem.kemCtLen)
    (kept : kem.Kept) :
    Reads (readKem kVersSelf 4) (writeKem 4 kem) kem := by
  obtain ⟨algorithm, ctLen, ciphertext, aesNonce⟩ := kem
  obtain ⟨sameLen, present⟩ := kept
  intro rest
  dsimp only at *
  have ciphertextRead : Reads (readIf (0 < ctLen) (some <$> readBuf ctLen) none)
      ((ciphertext.getD []).take ctLen) ciphertext := by
    cases ciphertext with
    | none =>
      obtain rfl : ctLen = 0 := Nat.eq_zero_of_not_pos fun long => present long rfl
      exact fun _ => rfl
    | some bytes =>
      obtain ⟨length, long⟩ := sized bytes rfl
      rw [readIf, if_pos (decide_eq_true long), getD_some, ← length, take_length]
      exact (reads_buf rfl).map some
  simp only [writeKem, append_assoc, readKem, (reads_str counted).bind, (reads_int _).bind, sameLen,
    ciphertextRead.bind, (reads_buf nonce).bind]
  rfl

theorem bind_returns {α β : Type} {first : Reader α} {next : α → Reader β} {input : Bytes}
    {result : β × Bytes} (returned : (first >>= next) input = some result) :
    ∃ read, first input = some read ∧ next read.1 read.2 = some result :=
  bind_eq_some_iff.mp returned

theorem read_kem_returns {kem found : KemFields} {rest left : Bytes}
    (counted : Counted kem.kemAlgorithm)
    (returned : readKem kVersSelf 4 (writeKem 4 kem ++ rest) = some (found, left)) :
    found.kemCtLen = sizeOfInt (Int32.ofNat kem.kemCtLen) ∧
      (0 < found.kemCtLen → found.kemCiphertext ≠ none) := by
  simp only [writeKem, append_assoc, readKem, (reads_str counted).bind,
    (reads_int _).bind] at returned
  obtain ⟨ciphertext, ciphertextRead, returned⟩ := bind_returns returned
  obtain ⟨nonce, -, returned⟩ := bind_returns returned
  obtain ⟨rfl, rfl⟩ := Prod.mk.inj (some.inj returned)
  refine ⟨rfl, fun long missing => ?_⟩
  rw [readIf, if_pos (decide_eq_true long), map_eq_pure_bind] at ciphertextRead
  obtain ⟨buf, -, mapped⟩ := bind_returns ciphertextRead
  rw [← some.inj mapped] at missing
  exact nomatch missing

theorem read_pqc_returns {kem : KemFields} {signed : Option (Option Bytes)} {rest left : Bytes}
    (counted : Counted kem.kemAlgorithm)
    (returned : readPqc true kVersSelf 4 reader (1 :: (writeKem 4 kem ++ rest)) =
      some ((some kem, signed), left)) : kem.Kept := by
  obtain ⟨⟨found, _⟩, flagRead, returned⟩ := bind_returns returned
  obtain ⟨_, -, returned⟩ := bind_returns returned
  obtain rfl : found = some kem :=
    congrArg Prod.fst (congrArg Prod.fst (some.inj returned))
  rw [readFlagged, read_byte_bind, map_eq_pure_bind] at flagRead
  obtain ⟨⟨kemFound, _⟩, kemRead, mapped⟩ := bind_returns flagRead
  obtain rfl : kemFound = kem := some.inj (congrArg Prod.fst (some.inj mapped))
  obtain ⟨sameLen, present⟩ := read_kem_returns counted kemRead
  exact ⟨sameLen.symm, present⟩

theorem pqc_round_trip_iff (allocated : Allocated ah) (fresh : Fresh reader ah)
    (writerPqc readerPqc : Bool) :
    (∀ rest, readPqc readerPqc kVersSelf 4 reader
        ((if writerPqc then writePqc ah else []) ++ rest) =
      some ((ah.pqcEncrypted, ah.pqcSigned), rest)) ↔ writerPqc = readerPqc ∧
        if writerPqc then ∀ kem ∈ ah.pqcEncrypted, kem.Kept
        else ah.pqcEncrypted = none ∧ ah.pqcSigned = none := by
  cases writerPqc <;> cases readerPqc
  · simp only [readPqc, fresh.unencrypted, fresh.unsigned]
    constructor
    · intro returned
      obtain ⟨encrypted, signed⟩ := Prod.mk.inj (congrArg Prod.fst (some.inj (returned [])))
      exact ⟨trivial, encrypted.symm, signed.symm⟩
    · rintro ⟨-, encrypted, signed⟩ rest
      rw [encrypted, signed]
      rfl
  · exact iff_of_false (fun returned => nomatch returned []) (fun holds => nomatch holds.1)
  · refine iff_of_false (fun returned => ?_) (fun holds => nomatch holds.1)
    have left : writePqc ah ++ [] = [] := congrArg Prod.snd (some.inj (returned []))
    cases encrypted : ah.pqcEncrypted <;> simp [writePqc, writeFlagged, encrypted] at left
  · simp only [if_true, true_and, writePqc, allocated.intSize, append_assoc]
    constructor
    · intro returned kem encrypted
      have found := returned []
      rw [encrypted] at found
      exact read_pqc_returns (allocated.kemAlgorithm kem encrypted) found
    · intro kept rest
      have kemRead :=
        Reads.flagged fun kem encrypted => reads_kem (allocated.kemAlgorithm kem encrypted)
          (allocated.aesNonce kem encrypted) (allocated.kemCiphertext kem encrypted)
          (kept kem encrypted)
      have signedRead :=
        Reads.flagged fun algorithm signed => reads_str (allocated.signed algorithm signed)
      rw [readPqc, if_pos (by decide), kemRead.bind, signedRead.bind]
      rfl

/-- A header is read back by a reader of the writer's build, if the ciphertext is there and the
reader's time zone gives the date back. -/
theorem head_round_trip_iff (allocated : Allocated ah) (fresh : Fresh reader ah)
    (writerPqc readerPqc : Bool) :
    (∀ rest, readHead readerPqc false mktime reader (writeHead writerPqc localtime ah ++ rest) =
      some (ah, rest)) ↔
      createDateOf mktime (localtime ah.createDate) = ah.createDate ∧ writerPqc = readerPqc ∧
        if writerPqc then ∀ kem ∈ ah.pqcEncrypted, kem.Kept
        else ah.pqcEncrypted = none ∧ ah.pqcSigned = none := by
  rw [← pqc_round_trip_iff allocated fresh]
  simp only [read_head_written allocated fresh, map_eq_some_iff]
  constructor
  · intro returned
    refine ⟨?_, fun rest => ?_⟩
    · obtain ⟨_, -, same⟩ := returned []
      exact congrArg ArchiveHandle.createDate (congrArg Prod.fst same)
    · obtain ⟨⟨⟨kem, signed⟩, left⟩, read, same⟩ := returned rest
      obtain ⟨whole, rfl⟩ := Prod.mk.inj same
      rw [read, ← congrArg ArchiveHandle.pqcEncrypted whole,
        ← congrArg ArchiveHandle.pqcSigned whole]
  · rintro ⟨date, read⟩ rest
    exact ⟨_, read rest, by rw [date]⟩

end Heads

def sampleHandle (pqcEncrypted : Option KemFields) : ArchiveHandle :=
  ⟨kVersSelf, 4, 8, 1, 0, 0, some [112], none, none, pqcEncrypted, none⟩

def sampleKem : KemFields := ⟨none, 2, some [7, 8], List.replicate 12 9⟩

def sampleTime : Tm := ⟨0, 0, 0, 1, 0, 70, 0⟩

theorem sample_allocated : Allocated (sampleHandle (some sampleKem)) := by
  constructor <;> simp [sampleHandle, sampleKem, Counted]

theorem encrypted_head_read_back :
    readHead true false (fun _ => 0) (sampleHandle none)
        (writeHead true (fun _ => sampleTime) (sampleHandle (some sampleKem)) ++ [5, 6]) =
      some (sampleHandle (some sampleKem), [5, 6]) := by
  refine (@head_round_trip_iff (fun _ => sampleTime) (fun _ => 0) _ (sampleHandle none)
    sample_allocated ⟨rfl, rfl, rfl⟩ true true).mpr ⟨rfl, rfl, ?_⟩ [5, 6]
  intro kem encrypted
  obtain rfl : sampleKem = kem := some.inj encrypted
  exact ⟨by decide, nofun⟩

def sampleWritten (usePqc : Bool) : Bytes :=
  writeHead usePqc (fun _ => sampleTime) (sampleHandle none)

/-- A reader without the fields leaves them in front of the table of contents, and a reader with
them takes the first bytes of the table for them. -/
theorem builds_disagree :
    (readHead false false (fun _ => 0) (sampleHandle none) (sampleWritten true ++ [5, 6])).map
        Prod.snd = some [0, 0, 5, 6] ∧
      (readHead true false (fun _ => 0) (sampleHandle none)
        (sampleWritten false ++ [0, 0, 5, 6])).map Prod.snd = some [5, 6] := by
  decide +kernel

end FortressQL.Dump.ArchiveHead
