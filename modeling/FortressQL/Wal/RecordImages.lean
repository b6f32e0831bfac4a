import FortressQL.Wal.RecordDecode

/-!
# Page images in WAL records

An image header is read back as it was written, and the page that `RestoreBlockImage` builds is the
registered one with zeros in its hole.
-/

namespace FortressQL.Wal.RecordImages

open List hiding Vector
open Elog Lib.ByteStrings Lib.Fields Lib.LittleEndian Storage.BlockAddress Storage.BufPage
open Wal.RecordAssemble Wal.RecordDecode Wal.RecordFormat

section Fields

variable (readRecPtr : Nat)

theorem copy_number_append {size value : Nat} (fits : value < 256 ^ size) (rest : Bytes)
    (remaining : Nat) :
    copyNumber readRecPtr { ptr := encodeLe size value ++ rest, remaining := size + remaining }
      size = .ok (value, { ptr := rest, remaining := remaining }) := by
  rw [copyNumber, copyHeaderField, field_append (encode_le_length size value)]
  simp [decode_encode_le fits]

theorem copy_byte_append (byte : UInt8) (rest : Bytes) (remaining : Nat) :
    copyByte readRecPtr { ptr := byte :: rest, remaining := 1 + remaining } =
      .ok (byte, { ptr := rest, remaining := remaining }) := by
  have field := field_append (show [byte].length = 1 from rfl) rest remaining
  rw [singleton_append] at field
  rw [copyByte, copyHeaderField, field]
  rfl

theorem copy_locator_append {flags : UInt8} (rlocator : Option RelFileLocator)
    (locator : RelFileLocator) {sameRel : Bool} (flag : hasBit flags bkpblockSameRel = sameRel)
    (before : sameRel = true → rlocator = some locator) (rest : Bytes) (remaining : Nat) :
    copyLocator readRecPtr
        { ptr := (if sameRel then [] else encodeRelFileLocator locator) ++ rest
          remaining := (if sameRel then [] else encodeRelFileLocator locator).length + remaining }
        flags rlocator = .ok (locator, { ptr := rest, remaining := remaining }) := by
  unfold copyLocator
  rw [flag]
  cases sameRel with
  | true =>
    rw [before rfl]
    simp
  | false =>
    have field := field_append (encode_locator_length locator) rest remaining
    simp only [Bool.false_eq_true, if_false, encode_locator_length, copyHeaderField, field]
    simp [parse_encode_locator]

end Fields

section Images

structure ImageSound (image : BlockImage) (apply : Bool) (method : Option CompressMethod) :
    Prop where
  lengthBound : image.length ≤ blcksz
  holeBound : image.holeOffset + image.holeLength ≤ blcksz
  info : image.bimgInfo = bimgInfo (image.holeLength != 0) apply method
  compressed : image.isCompressed = method.isSome
  plainLength : method = none → image.length = blcksz - image.holeLength
  compressedLength : method.isSome = true → image.length < blcksz
  hole : image.holeOffset = 0 ↔ image.holeLength = 0
  dataLength : image.rdatas.flatten.length = image.length

variable {image : BlockImage} {apply : Bool} {method : Option CompressMethod}

def imageFields (image : BlockImage) : ImageFields :=
  { bimgLen := image.length
    holeOffset := image.holeOffset
    holeLength := image.holeLength
    bimgInfo := image.bimgInfo }

theorem check_image_sound (sound : ImageSound image apply method) (readRecPtr dataLen : Nat) :
    checkImage readRecPtr dataLen (imageFields image) = .ok () := by
  obtain ⟨hasHole, -, isCompressed, -⟩ := bimg_info_read (image.holeLength != 0) apply method
  rw [← sound.info] at hasHole isCompressed
  have plain := sound.plainLength
  have compressed := sound.compressedLength
  have hole := sound.hole
  have bound := sound.holeBound
  have full : image.length = blcksz → method.isSome = false ∧ image.holeLength = 0 := by
    intro whole
    cases method with
    | none => exact ⟨rfl, by have := plain rfl; omega⟩
    | some used => exact absurd whole (ne_of_lt (compressed rfl))
  simp only [checkImage, imageFields, hasHole, isCompressed]
  rw [demand_holds, ok_then, demand_holds, ok_then, demand_holds, ok_then, demand_holds]
  · rintro ⟨noHole, unused, short⟩
    have filled : image.holeLength = 0 := by simpa using noHole
    have length := plain (Option.isNone_iff_eq_none.mp (by simpa using unused))
    omega
  · rintro ⟨used, whole⟩
    rw [(full whole).1] at used
    cases used
  · rintro ⟨noHole, offset | length⟩
    · exact offset (hole.mpr (by simpa using noHole))
    · exact length (by simpa using noHole)
  · rintro ⟨holed, bad⟩
    have present : image.holeLength ≠ 0 := by simpa using holed
    rcases bad with offset | length | whole
    · exact present (hole.mp offset)
    · exact present length
    · exact present (full whole).2

theorem copy_hole_length_sound (sound : ImageSound image apply method) (readRecPtr : Nat)
    (rest : Bytes) (remaining : Nat) :
    copyHoleLength readRecPtr
        { ptr := (if image.holeLength ≠ 0 ∧ image.isCompressed = true then
            encodeLe 2 image.holeLength else []) ++ rest
          remaining := (if image.holeLength ≠ 0 ∧ image.isCompressed = true then
            encodeLe 2 image.holeLength else []).length + remaining }
        image.length image.bimgInfo =
      .ok (image.holeLength, { ptr := rest, remaining := remaining }) := by
  obtain ⟨hasHole, -, isCompressed, -⟩ := bimg_info_read (image.holeLength != 0) apply method
  rw [← sound.info] at hasHole isCompressed
  have bound : image.holeLength ≤ 8192 := le_trans (Nat.le_add_left _ _) sound.holeBound
  unfold copyHoleLength
  rw [hasHole, isCompressed, sound.compressed]
  cases method with
  | none =>
    have length := sound.plainLength rfl
    have size : blcksz = 8192 := rfl
    have inferred : (blcksz + 65536 - image.length) % 65536 = image.holeLength := by omega
    simp [inferred]
  | some used =>
    by_cases none : image.holeLength = 0
    · simp [none]
    · have number := copy_number_append readRecPtr
        (show image.holeLength < 256 ^ 2 by omega) rest remaining
      simp [none, number]

theorem copy_image_header_sound (sound : ImageSound image apply method)
    (readRecPtr dataLen : Nat) (rest : Bytes) (remaining : Nat) :
    copyImageHeader readRecPtr dataLen
        { ptr := imageHeader image ++ rest, remaining := (imageHeader image).length + remaining } =
      .ok (imageFields image, { ptr := rest, remaining := remaining }) := by
  have lengthFits : image.length < 256 ^ 2 :=
    lt_of_le_of_lt sound.lengthBound (by decide)
  have offsetFits : image.holeOffset < 256 ^ 2 :=
    lt_of_le_of_lt (le_trans (Nat.le_add_right _ _) sound.holeBound) (by decide)
  have holeRead := copy_hole_length_sound sound readRecPtr rest remaining
  unfold imageHeader
  generalize (if image.holeLength ≠ 0 ∧ image.isCompressed = true then
    encodeLe 2 image.holeLength else []) = stored at holeRead
  have size : (encodeLe 2 image.length ++ (encodeLe 2 image.holeOffset ++
      ([image.bimgInfo] ++ stored))).length + remaining =
      2 + (2 + (1 + (stored.length + remaining))) := by
    simp only [length_append, encode_le_length, length_singleton]
    omega
  rw [size]
  simp only [append_assoc, cons_append, nil_append, copyImageHeader,
    copy_number_append readRecPtr lengthFits, copy_number_append readRecPtr offsetFits,
    copy_byte_append, ok_then, holeRead]
  have checked := check_image_sound sound readRecPtr dataLen
  rw [imageFields] at checked
  rw [checked]
  rfl

def InHole (regbuf : RegisteredBuffer) (index : Nat) : Prop :=
  hasBit regbuf.flags regbufStandard = true ∧ sizeOfPageHeaderData ≤ pdLower regbuf.page ∧
    pdUpper regbuf.page ≤ blcksz ∧ pdLower regbuf.page ≤ index ∧ index < pdUpper regbuf.page

instance (regbuf : RegisteredBuffer) (index : Nat) : Decidable (InHole regbuf index) :=
  inferInstanceAs (Decidable (_ ∧ _ ∧ _ ∧ _ ∧ _))

def zeroedPage (regbuf : RegisteredBuffer) : Page :=
  Vector.ofFn fun index => if InHole regbuf index then 0 else regbuf.page[index]

variable {regbuf : RegisteredBuffer}

theorem page_hole_cases (regbuf : RegisteredBuffer) :
    (pageHole regbuf = (0, 0) ∧ ∀ index, ¬ InHole regbuf index) ∨
      (24 ≤ (pageHole regbuf).1 ∧ 0 < (pageHole regbuf).2 ∧
        (pageHole regbuf).1 + (pageHole regbuf).2 ≤ blcksz ∧
        ∀ index, InHole regbuf index ↔
          (pageHole regbuf).1 ≤ index ∧ index < (pageHole regbuf).1 + (pageHole regbuf).2) := by
  unfold pageHole
  dsimp only
  split_ifs with standard sane
  · right
    obtain ⟨lower, order, upper⟩ := sane
    refine ⟨lower, by dsimp only; omega, by dsimp only; omega, ?_⟩
    intro index
    constructor
    · rintro ⟨-, -, -, first, last⟩
      omega
    · rintro ⟨first, last⟩
      exact ⟨standard, lower, upper, first, by omega⟩
  · left
    refine ⟨rfl, ?_⟩
    rintro index ⟨-, lower, upper, first, last⟩
    exact sane ⟨lower, by omega, upper⟩
  · left
    exact ⟨rfl, fun index inside => standard inside.1⟩

theorem page_hole_bound (regbuf : RegisteredBuffer) :
    (pageHole regbuf).1 + (pageHole regbuf).2 ≤ blcksz := by
  rcases page_hole_cases regbuf with ⟨none, -⟩ | ⟨-, -, bound, -⟩
  · rw [none]
    exact Nat.zero_le _
  · exact bound

theorem page_hole_empty (regbuf : RegisteredBuffer) :
    (pageHole regbuf).1 = 0 ↔ (pageHole regbuf).2 = 0 := by
  rcases page_hole_cases regbuf with ⟨none, -⟩ | ⟨header, filled, -, -⟩
  · simp [none]
  · omega

theorem refill_without_hole (regbuf : RegisteredBuffer) :
    refillHole (withoutHole regbuf.page (pageHole regbuf).1 (pageHole regbuf).2)
      (pageHole regbuf).1 (pageHole regbuf).2 = (zeroedPage regbuf).toList := by
  have whole : regbuf.page.toList.length = blcksz := Vector.length_toList
  rcases page_hole_cases regbuf with ⟨none, outside⟩ | ⟨-, filled, bound, inside⟩
  · have same : zeroedPage regbuf = regbuf.page := by
      simp [zeroedPage, outside]
    rw [none, same]
    simp [refillHole, withoutHole]
  · generalize (pageHole regbuf).1 = offset at bound inside
    generalize (pageHole regbuf).2 = length at filled bound inside
    have front : (regbuf.page.toList.take offset).length = offset := by
      rw [length_take]
      omega
    have back : (regbuf.page.toList.drop (offset + length)).length =
        blcksz - (offset + length) := by
      rw [length_drop, whole]
    rw [refillHole, if_neg (ne_of_gt filled), withoutHole, take_left' front, drop_left' front,
      take_of_length_le (le_of_eq back)]
    apply ext_getElem
    · simp only [length_append, length_replicate, Vector.length_toList]
      omega
    · intro index left right
      by_cases early : index < offset
      · have outside : ¬ (offset ≤ index ∧ index < offset + length) := by omega
        simp [zeroedPage, inside, front, early]
      · by_cases middle : index < offset + length
        · have inHole : offset ≤ index ∧ index < offset + length := by omega
          have early' : index - offset < length := by omega
          simp [zeroedPage, inside, inHole, front, early']
        · have outside : ¬ (offset ≤ index ∧ index < offset + length) := by omega
          have late : ¬ index - offset < length := by omega
          have position : offset + length + (index - offset - length) = index := by omega
          simp [zeroedPage, inside, outside, front, early, getElem_append, late, position]

/-- An image of a registered page, with the compression it went through. -/
structure ImageOf (compressors : Compressors) (regbuf : RegisteredBuffer) (apply : Bool)
    (image : BlockImage) (method : Option CompressMethod) : Prop
    extends ImageSound image apply method where
  pageHole : (image.holeOffset, image.holeLength) = pageHole regbuf
  plain : method = none →
    image.rdatas.flatten = withoutHole regbuf.page image.holeOffset image.holeLength
  packed : ∀ used, method = some used → compressors.supports used = true ∧
    compressors.compress used (withoutHole regbuf.page image.holeOffset image.holeLength) =
      some image.rdatas.flatten

theorem without_hole_length (page : Page) {holeOffset holeLength : Nat}
    (bound : holeOffset + holeLength ≤ blcksz) :
    (withoutHole page holeOffset holeLength).length = blcksz - holeLength := by
  simp only [withoutHole, length_append, length_take, length_drop, Vector.length_toList]
  omega

theorem plain_image_of (compressors : Compressors) (regbuf : RegisteredBuffer) (apply : Bool) :
    ImageOf compressors regbuf apply
      (plainImage regbuf.page (pageHole regbuf).1 (pageHole regbuf).2 apply) none := by
  have content : (plainImage regbuf.page (pageHole regbuf).1 (pageHole regbuf).2
      apply).rdatas.flatten = withoutHole regbuf.page (pageHole regbuf).1 (pageHole regbuf).2 := by
    by_cases none : (pageHole regbuf).2 = 0
    · have start := (page_hole_empty regbuf).mpr none
      simp [plainImage, withoutHole, none]
    · simp [plainImage, withoutHole, none]
  have length := without_hole_length regbuf.page (page_hole_bound regbuf)
  exact
    { lengthBound := Nat.sub_le _ _
      holeBound := page_hole_bound regbuf
      info := rfl
      compressed := rfl
      plainLength := fun _ => rfl
      compressedLength := nofun
      hole := page_hole_empty regbuf
      dataLength := by rw [content]; exact length
      pageHole := rfl
      plain := fun _ => content
      packed := fun _ impossible => nomatch impossible }

variable {compressors : Compressors} {used : CompressMethod}

theorem compressed_image_of {dest : Bytes} (regbuf : RegisteredBuffer) (apply : Bool)
    (supported : compressors.supports used = true) (packed : compressors.compress used
      (withoutHole regbuf.page (pageHole regbuf).1 (pageHole regbuf).2) = some dest)
    (small : dest.length < blcksz) :
    ImageOf compressors regbuf apply
      (compressedImage used dest (pageHole regbuf).1 (pageHole regbuf).2 apply) (some used) := by
  exact
    { lengthBound := le_of_lt small
      holeBound := page_hole_bound regbuf
      info := rfl
      compressed := rfl
      plainLength := nofun
      compressedLength := fun _ => small
      hole := page_hole_empty regbuf
      dataLength := by simp [compressedImage]
      pageHole := rfl
      plain := nofun
      packed := by
        rintro _ ⟨⟩
        exact ⟨supported, by simpa [compressedImage] using packed⟩ }

theorem compress_backup_block_returns {page : Page} {holeOffset holeLength : Nat} {dest : Bytes}
    (returned : xlogCompressBackupBlock compressors used page holeOffset holeLength =
      .ok (some dest)) :
    compressors.supports used = true ∧
      compressors.compress used (withoutHole page holeOffset holeLength) = some dest ∧
      dest.length < blcksz := by
  simp only [xlogCompressBackupBlock, sequence_returns, ensure_returns] at returned
  obtain ⟨-, supported, returned⟩ := returned
  refine ⟨supported, ?_⟩
  cases packed : compressors.compress used (withoutHole page holeOffset holeLength) with
  | none => simp [packed] at returned
  | some bytes =>
    simp only [packed, Except.ok.injEq, Option.ite_none_right_eq_some] at returned
    obtain ⟨saves, same⟩ := returned
    cases same
    exact ⟨rfl, by omega⟩

theorem block_image_of {walCompression : Option CompressMethod}
    (returned : blockImage compressors walCompression regbuf apply = .ok image) :
    ∃ method, ImageOf compressors regbuf apply image method := by
  unfold blockImage at returned
  cases walCompression with
  | none =>
    cases returned
    exact ⟨none, plain_image_of compressors regbuf apply⟩
  | some used =>
    simp only [sequence_returns] at returned
    obtain ⟨compressed, tried, returned⟩ := returned
    cases compressed with
    | none =>
      cases returned
      exact ⟨none, plain_image_of compressors regbuf apply⟩
    | some dest =>
      cases returned
      obtain ⟨supported, packed, small⟩ := compress_backup_block_returns tried
      exact ⟨some used, compressed_image_of regbuf apply supported packed small⟩

def DecompressionInverts (compressors : Compressors) : Prop :=
  ∀ method source dest, compressors.compress method source = some dest →
    compressors.decompress method dest source.length = some source

theorem decompress_image_of (inverts : DecompressionInverts compressors)
    (imageOf : ImageOf compressors regbuf apply image method) (readRecPtr blockId : Nat)
    {block : DecodedBkpBlock} (info : block.bimgInfo = image.bimgInfo)
    (content : block.bkpImage = image.rdatas.flatten)
    (holeLength : block.holeLength = image.holeLength) :
    decompressImage compressors readRecPtr blockId block =
      .ok (withoutHole regbuf.page image.holeOffset image.holeLength) := by
  obtain ⟨-, -, isCompressed, found⟩ := bimg_info_read (image.holeLength != 0) apply method
  rw [← imageOf.info] at isCompressed found
  unfold decompressImage
  rw [info, isCompressed, found, content, holeLength]
  cases method with
  | none => simp [imageOf.plain rfl]
  | some used =>
    obtain ⟨supported, packed⟩ := imageOf.packed used rfl
    have unpacked := inverts used _ _ packed
    rw [without_hole_length _ imageOf.holeBound] at unpacked
    simp [supported, unpacked]

end Images

end FortressQL.Wal.RecordImages
