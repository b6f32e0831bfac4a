import FortressQL.Lib.Fields
import FortressQL.Lib.LittleEndian

/-!
# Posting lists of GIN

`ginpostinglist.c`: the first item of a segment stands in its header, and the others follow as
varbyte-encoded differences.
-/

namespace FortressQL.Gin.PostingList

open List Lib.ByteStrings Lib.Fields Lib.LittleEndian

variable {val count c fuel : Nat}

structure ItemPointer where
  blockNumber : UInt32
  offsetNumber : UInt16
deriving DecidableEq

def maxHeapTuplesPerPageBits : Nat := 11

def maxBytesPerInteger : Nat := 7

def itemptrToUint64 (iptr : ItemPointer) : Nat :=
  iptr.blockNumber.toNat <<< maxHeapTuplesPerPageBits ||| iptr.offsetNumber.toNat

def uint64ToItemptr (val : Nat) : ItemPointer where
  blockNumber := UInt32.ofNat (val >>> maxHeapTuplesPerPageBits)
  offsetNumber := UInt16.ofNat (val &&& (1 <<< maxHeapTuplesPerPageBits - 1))

def encodeVarbyte (val : Nat) : Bytes :=
  if 0x7f < val then UInt8.ofNat (0x80 ||| val &&& 0x7f) :: encodeVarbyte (val >>> 7)
  else [UInt8.ofNat val]
termination_by val
decreasing_by
  rw [Nat.shiftRight_eq_div_pow]
  omega

/-- The unrolled reads of `decode_varbyte`: `more` bytes may follow the next one. The last byte
is taken as it is. Nothing comes back where a read leaves the bytes of the segment. -/
def decodeVarbyteFrom : Nat → Nat → Nat → Bytes → Option (Nat × Bytes)
  | _, _, _, [] => none
  | 0, shift, val, c :: rest => some (val ||| c.toNat <<< shift, rest)
  | more + 1, shift, val, c :: rest =>
    let val := val ||| (c.toNat &&& 0x7f) <<< shift
    if c.toNat &&& 0x80 = 0 then some (val, rest) else decodeVarbyteFrom more (shift + 7) val rest

def decodeVarbyte : Bytes → Option (Nat × Bytes) := decodeVarbyteFrom 6 0 0

/-- The loop over the items behind the first, with the bytes and the number of items so far. -/
def packItems (maxbytes prev : Nat) (bytes : Bytes) (totalpacked : Nat) :
    List ItemPointer → Bytes × Nat
  | [] => (bytes, totalpacked)
  | item :: rest =>
    let val := itemptrToUint64 item
    let delta := (val + 2 ^ 64 - prev) % 2 ^ 64
    if bytes.length + maxBytesPerInteger ≤ maxbytes then
      packItems maxbytes val (bytes ++ encodeVarbyte delta) (totalpacked + 1) rest
    else if maxbytes < bytes.length + (encodeVarbyte delta).length then (bytes, totalpacked)
    else packItems maxbytes val (bytes ++ encodeVarbyte delta) (totalpacked + 1) rest

def shortAlign (size : Nat) : Nat := (size + 1) / 2 * 2

def offsetOfBytes : Nat := 8

/-- What `ginCompressPostingList` fills: the first item, the encoded bytes, and how many items
they are. -/
structure GinPostingList where
  first : ItemPointer
  bytes : Bytes
  nwritten : Nat

def GinPostingList.nbytes (plist : GinPostingList) : Nat := plist.bytes.length % 2 ^ 16

def GinPostingList.size (plist : GinPostingList) : Nat := offsetOfBytes + shortAlign plist.nbytes

def maxBytes (maxsize : Nat) : Nat := maxsize / 2 * 2 - offsetOfBytes

def ginCompressPostingList (first : ItemPointer) (rest : List ItemPointer) (maxsize : Nat) :
    GinPostingList :=
  let packed := packItems (maxBytes maxsize) (itemptrToUint64 first) [] 1 rest
  ⟨first, packed.1, packed.2⟩

def headerFields (plist : GinPostingList) : List Bytes :=
  [encodeLe 2 (plist.first.blockNumber.toNat / 2 ^ 16), encodeLe 2 plist.first.blockNumber.toNat,
    encodeLe 2 plist.first.offsetNumber.toNat, encodeLe 2 plist.nbytes]

/-- The memory of a segment, as many bytes of it as its size says. -/
def GinPostingList.image (plist : GinPostingList) : Bytes :=
  (headerFields plist).flatten ++
    (plist.bytes.take plist.nbytes ++ List.replicate (shortAlign plist.nbytes - plist.nbytes) 0)

def decodeItems : Nat → Nat → Bytes → Option (List ItemPointer)
  | 0, _, _ => some []
  | fuel + 1, val, bytes =>
    if bytes = [] then some []
    else do
      let (delta, rest) ← decodeVarbyte bytes
      let val := (val + delta) % 2 ^ 64
      let items ← decodeItems fuel val rest
      some (uint64ToItemptr val :: items)

def readHeader (segment : Bytes) : Option (ItemPointer × Nat) :=
  match readFields [2, 2, 2, 2] segment with
  | some [hi, lo, offset, nbytes] =>
    some (⟨UInt32.ofNat (decodeLe hi * 2 ^ 16 + decodeLe lo), UInt16.ofNat (decodeLe offset)⟩,
      decodeLe nbytes)
  | _ => none

/-- The loop over the segments, where each takes some bytes. -/
def decodeSegments : Nat → Bytes → Option (List ItemPointer)
  | 0, _ => some []
  | fuel + 1, segment =>
    if segment = [] then some []
    else do
      let (first, nbytes) ← readHeader segment
      let body := segment.drop offsetOfBytes
      let items ← decodeItems nbytes (itemptrToUint64 first) (body.take nbytes)
      let others ← decodeSegments fuel (body.drop (shortAlign nbytes))
      some (first :: items ++ others)

def ginPostingListDecodeAllSegments (segments : Bytes) : Option (List ItemPointer) :=
  decodeSegments segments.length segments

theorem encode_varbyte_small (small : val < 128) : encodeVarbyte val = [UInt8.ofNat val] := by
  rw [encodeVarbyte, if_neg (by omega)]

theorem low_bits (val : Nat) : val &&& 0x7f = val % 128 :=
  Nat.and_two_pow_sub_one_eq_mod val 7

theorem high_bits (val : Nat) : val >>> 7 = val / 128 := Nat.shiftRight_eq_div_pow val 7

theorem encode_varbyte_large (large : 128 ≤ val) :
    encodeVarbyte val = UInt8.ofNat (128 + val % 128) :: encodeVarbyte (val / 128) := by
  have low : val % 128 < 2 ^ 7 := Nat.mod_lt val (by decide)
  have joined : 0x80 ||| val &&& 0x7f = 128 + val % 128 := by
    rw [low_bits]
    exact (Nat.two_pow_add_eq_or_of_lt low 1).symm
  rw [encodeVarbyte, if_pos (by omega), joined, high_bits]

theorem encode_varbyte_pos (val : Nat) : 0 < (encodeVarbyte val).length := by
  rw [encodeVarbyte]
  split <;> simp

theorem encode_varbyte_length_le :
    (encodeVarbyte val).length ≤ count + 1 ↔ val < 128 ^ (count + 1) := by
  induction count generalizing val with
  | zero =>
    by_cases small : val < 128
    · simp [encode_varbyte_small small, small]
    · have more := encode_varbyte_pos (val / 128)
      rw [encode_varbyte_large (by omega), length_cons]
      omega
  | succ count ih =>
    by_cases small : val < 128
    · have power : 128 ≤ 128 ^ (count + 1 + 1) := Nat.le_self_pow (by omega) 128
      simp only [encode_varbyte_small small, length_singleton]
      omega
    · rw [encode_varbyte_large (by omega), length_cons, Nat.add_le_add_iff_right, ih,
        Nat.div_lt_iff_lt_mul (by decide), ← pow_succ]

/-- A sum takes no more bytes than its summands. -/
theorem encode_varbyte_add (left right : Nat) :
    (encodeVarbyte (left + right)).length ≤
      (encodeVarbyte left).length + (encodeVarbyte right).length := by
  obtain ⟨m, leftLength⟩ := Nat.exists_eq_add_of_lt (encode_varbyte_pos left)
  obtain ⟨n, rightLength⟩ := Nat.exists_eq_add_of_lt (encode_varbyte_pos right)
  rw [zero_add] at leftLength rightLength
  have leftBound := encode_varbyte_length_le.mp (le_of_eq leftLength)
  have rightBound := encode_varbyte_length_le.mp (le_of_eq rightLength)
  have leftPower : 128 ^ (m + 1) ≤ 128 ^ (m + n + 1) := Nat.pow_le_pow_right (by decide) (by omega)
  have rightPower : 128 ^ (n + 1) ≤ 128 ^ (m + n + 1) := Nat.pow_le_pow_right (by decide) (by omega)
  rw [leftLength, rightLength, show m + 1 + (n + 1) = m + n + 1 + 1 by omega,
    encode_varbyte_length_le]
  omega

theorem shift_split (val shift : Nat) :
    (val % 128) <<< shift ||| (val / 128) <<< (shift + 7) = val <<< shift := by
  have low : val % 128 < 2 ^ 7 := Nat.mod_lt val (by decide)
  have whole : (val / 128) <<< 7 ||| val % 128 = val := by
    rw [← Nat.shiftLeft_add_eq_or_of_lt low]
    omega
  rw [add_comm shift, Nat.shiftLeft_add, Nat.or_comm, ← Nat.shiftLeft_or_distrib, whole]

theorem last_byte_iff (byte : c < 256) : c &&& 0x80 = 0 ↔ c < 128 :=
  (by decide +kernel : ∀ c : Fin 256, c.val &&& 0x80 = 0 ↔ c.val < 128) ⟨c, byte⟩

theorem to_nat_of_nat (byte : c < 256) : (UInt8.ofNat c).toNat = c :=
  UInt8.toNat_ofNat_of_lt' byte

theorem decode_varbyte_encode {more : Nat} (bound : val < 128 ^ (more + 1)) (shift acc : Nat)
    (rest : Bytes) :
    decodeVarbyteFrom more shift acc (encodeVarbyte val ++ rest) =
      some (acc ||| val <<< shift, rest) := by
  induction more generalizing val shift acc with
  | zero =>
    rw [encode_varbyte_small (by omega), singleton_append, decodeVarbyteFrom,
      to_nat_of_nat (by omega)]
  | succ more ih =>
    by_cases small : val < 128
    · rw [encode_varbyte_small small, singleton_append, decodeVarbyteFrom, to_nat_of_nat (by omega),
        if_pos ((last_byte_iff (by omega)).mpr small), low_bits, Nat.mod_eq_of_lt small]
    · have goesOn : ¬ 128 + val % 128 &&& 0x80 = 0 := by
        rw [last_byte_iff (by omega)]
        omega
      have next : val / 128 < 128 ^ (more + 1) := by
        rwa [Nat.div_lt_iff_lt_mul (by decide)]
      rw [encode_varbyte_large (by omega), cons_append, decodeVarbyteFrom, to_nat_of_nat (by omega),
        if_neg goesOn, ih next, low_bits, Nat.add_mod_left, Nat.mod_mod, Nat.or_assoc, shift_split]

/-- The order of `ginCompareItemPointers`. -/
def ItemPointer.Before (left right : ItemPointer) : Prop :=
  left.blockNumber < right.blockNumber ∨
    left.blockNumber = right.blockNumber ∧ left.offsetNumber < right.offsetNumber

def ItemPointer.Encodable (item : ItemPointer) : Prop :=
  item.offsetNumber.toNat < 2 ^ maxHeapTuplesPerPageBits

section Items

variable {item other : ItemPointer}

theorem itemptr_eq (encodable : item.Encodable) :
    itemptrToUint64 item = item.blockNumber.toNat * 2048 + item.offsetNumber.toNat := by
  rw [itemptrToUint64, ← Nat.shiftLeft_add_eq_or_of_lt encodable, Nat.shiftLeft_eq]
  rfl

theorem itemptr_bound (encodable : item.Encodable) : itemptrToUint64 item < 2 ^ 43 := by
  have block := item.blockNumber.toNat_lt
  have offset : item.offsetNumber.toNat < 2048 := encodable
  rw [itemptr_eq encodable]
  omega

theorem uint64_to_itemptr (encodable : item.Encodable) :
    uint64ToItemptr (itemptrToUint64 item) = item := by
  have offset : item.offsetNumber.toNat < 2048 := encodable
  have low : itemptrToUint64 item &&& (1 <<< maxHeapTuplesPerPageBits - 1) =
      item.offsetNumber.toNat := by
    rw [Nat.one_shiftLeft, Nat.and_two_pow_sub_one_eq_mod, itemptr_eq encodable,
      maxHeapTuplesPerPageBits]
    omega
  have high : itemptrToUint64 item >>> maxHeapTuplesPerPageBits = item.blockNumber.toNat := by
    rw [itemptr_eq encodable, maxHeapTuplesPerPageBits]
    omega
  rw [uint64ToItemptr, low, high, UInt32.ofNat_toNat, UInt16.ofNat_toNat]

theorem itemptr_lt (before : item.Before other) (encodable : item.Encodable)
    (otherEncodable : other.Encodable) : itemptrToUint64 item < itemptrToUint64 other := by
  have offset : item.offsetNumber.toNat < 2048 := encodable
  rw [itemptr_eq encodable, itemptr_eq otherEncodable]
  rcases before with block | ⟨block, within⟩
  · have blocks := UInt32.lt_iff_toNat_lt.mp block
    omega
  · have offsets := UInt16.lt_iff_toNat_lt.mp within
    rw [block]
    omega

end Items

/-- Strictly increasing items that can be encoded. -/
structure Sorted (items : List ItemPointer) : Prop where
  increasing : items.Pairwise ItemPointer.Before
  encodable : ∀ item ∈ items, item.Encodable

def deltaBytes (last item : ItemPointer) : Bytes :=
  encodeVarbyte (itemptrToUint64 item - itemptrToUint64 last)

def encodeDeltas (last : ItemPointer) : List ItemPointer → Bytes
  | [] => []
  | item :: rest => deltaBytes last item ++ encodeDeltas item rest

/-- The item behind the first `count` ones does not fit behind the bytes. -/
def Full (maxbytes : Nat) (last : ItemPointer) (items : List ItemPointer) (bytes : Bytes)
    (count : Nat) : Prop :=
  ∀ before next, (last :: items)[count]? = some before → items[count]? = some next →
    maxbytes < bytes.length + (deltaBytes before next).length

section Packing

variable {last item : ItemPointer} {items rest : List ItemPointer} {maxbytes : Nat} {bytes : Bytes}

theorem Sorted.step (sorted : Sorted (last :: item :: rest)) :
    itemptrToUint64 last < itemptrToUint64 item ∧ itemptrToUint64 item < 2 ^ 43 ∧
      Sorted (item :: rest) := by
  obtain ⟨increasing, encodable⟩ := sorted
  obtain ⟨before, others⟩ := pairwise_cons.mp increasing
  have later : ∀ other ∈ item :: rest, other.Encodable := fun other member =>
    encodable other (mem_cons_of_mem last member)
  exact ⟨itemptr_lt (before item mem_cons_self) (encodable last mem_cons_self)
    (later item mem_cons_self), itemptr_bound (later item mem_cons_self), others, later⟩

/-- The two ways to write an item are one. -/
theorem pack_items_cons (sorted : Sorted (last :: item :: rest)) (total : Nat) :
    packItems maxbytes (itemptrToUint64 last) bytes total (item :: rest) =
      if bytes.length + (deltaBytes last item).length ≤ maxbytes then
        packItems maxbytes (itemptrToUint64 item) (bytes ++ deltaBytes last item) (total + 1) rest
      else (bytes, total) := by
  obtain ⟨before, bound, -⟩ := sorted.step
  have delta : (itemptrToUint64 item + 2 ^ 64 - itemptrToUint64 last) % 2 ^ 64 =
    itemptrToUint64 item - itemptrToUint64 last := by omega
  have short : (deltaBytes last item).length ≤ maxBytesPerInteger :=
    encode_varbyte_length_le.mpr (by omega)
  rw [packItems, delta, ← deltaBytes]
  split
  · rw [if_pos (by omega)]
  · split
    · rw [if_neg (by omega)]
    · rw [if_pos (by omega)]

theorem pack_items_cases (sorted : Sorted (last :: items)) (total : Nat)
    (fits : bytes.length ≤ maxbytes) :
    ∃ count ≤ items.length,
      packItems maxbytes (itemptrToUint64 last) bytes total items =
        (bytes ++ encodeDeltas last (items.take count), total + count) ∧
      (bytes ++ encodeDeltas last (items.take count)).length ≤ maxbytes ∧
      Full maxbytes last items (bytes ++ encodeDeltas last (items.take count)) count := by
  induction items generalizing last bytes total with
  | nil => exact ⟨0, Nat.le_refl 0, by simp [packItems, encodeDeltas], by simpa [encodeDeltas],
      fun _ _ _ => nofun⟩
  | cons item rest ih =>
    rw [pack_items_cons sorted]
    split
    · rename_i room
      rw [← length_append] at room
      obtain ⟨count, within, packed, stillFits, full⟩ := ih sorted.step.2.2 (total + 1) room
      rw [append_assoc] at packed stillFits full
      exact ⟨count + 1, Nat.succ_le_succ within, by rw [packed, Nat.add_assoc, Nat.add_comm 1]; rfl,
        stillFits, full⟩
    · rename_i full
      refine ⟨0, Nat.zero_le _, by simp [encodeDeltas], by simpa [encodeDeltas], ?_⟩
      intro before next isLast isItem
      cases isLast
      cases isItem
      simpa [encodeDeltas] using full

theorem pack_items_complete (sorted : Sorted (last :: items)) (total : Nat)
    (fits : bytes.length + (encodeDeltas last items).length ≤ maxbytes) :
    packItems maxbytes (itemptrToUint64 last) bytes total items =
      (bytes ++ encodeDeltas last items, total + items.length) := by
  induction items generalizing last bytes total with
  | nil => simp [packItems, encodeDeltas]
  | cons item rest ih =>
    rw [encodeDeltas, length_append] at fits
    rw [pack_items_cons sorted, if_pos (by omega),
      ih sorted.step.2.2 (total + 1) (by rw [length_append]; omega), append_assoc, add_assoc,
      add_comm 1]
    rfl

theorem encode_deltas_skip (before : itemptrToUint64 last < itemptrToUint64 item)
    (sorted : Sorted (item :: items)) :
    (encodeDeltas last items).length ≤ (encodeDeltas last (item :: items)).length := by
  cases items with
  | nil => simp [encodeDeltas]
  | cons next rest =>
    obtain ⟨later, -⟩ := sorted.step
    have joined := encode_varbyte_add (itemptrToUint64 item - itemptrToUint64 last)
      (itemptrToUint64 next - itemptrToUint64 item)
    rw [add_comm, Nat.sub_add_sub_cancel later.le before.le] at joined
    simp only [encodeDeltas, deltaBytes, length_append]
    omega

theorem Sorted.sublist (sorted : Sorted items) (sub : rest.Sublist items) : Sorted rest :=
  ⟨sorted.increasing.sublist sub, fun item member => sorted.encodable item (sub.subset member)⟩

theorem encode_deltas_sublist (sorted : Sorted (last :: items)) (sub : rest.Sublist items) :
    (encodeDeltas last rest).length ≤ (encodeDeltas last items).length := by
  induction sub generalizing last with
  | slnil => exact le_rfl
  | @cons rest items item sub ih =>
    obtain ⟨before, -, others⟩ := sorted.step
    calc (encodeDeltas last rest).length
        ≤ (encodeDeltas last (item :: rest)).length :=
          encode_deltas_skip before (others.sublist (sub.cons_cons item))
      _ ≤ (encodeDeltas last (item :: items)).length := by
          simp only [encodeDeltas, length_append]
          exact Nat.add_le_add_left (ih others) _
  | @cons_cons rest items item sub ih =>
    simp only [encodeDeltas, length_append]
    exact Nat.add_le_add_left (ih sorted.step.2.2) _

variable {maxsize : Nat}

theorem compress_cases (sorted : Sorted (last :: items)) (maxsize : Nat) :
    ∃ count ≤ items.length,
      ginCompressPostingList last items maxsize =
        ⟨last, encodeDeltas last (items.take count), count + 1⟩ ∧
      (encodeDeltas last (items.take count)).length ≤ maxBytes maxsize ∧
      Full (maxBytes maxsize) last items (encodeDeltas last (items.take count)) count := by
  obtain ⟨count, within, packed, fits, full⟩ :=
    pack_items_cases sorted 1 (show ([] : Bytes).length ≤ maxBytes maxsize from Nat.zero_le _)
  rw [nil_append] at packed
  exact ⟨count, within, by rw [ginCompressPostingList, packed, Nat.add_comm], fits, full⟩

/-- A list that is encoded whole is encoded whole, in no more bytes, when items are removed. -/
theorem removal_never_grows {first other : ItemPointer} {kept : List ItemPointer}
    (sorted : Sorted (first :: rest))
    (complete : (ginCompressPostingList first rest maxsize).nwritten = (first :: rest).length)
    (sub : (other :: kept).Sublist (first :: rest)) :
    (ginCompressPostingList other kept maxsize).nwritten = (other :: kept).length ∧
      offsetOfBytes + shortAlign (ginCompressPostingList other kept maxsize).bytes.length ≤
        offsetOfBytes + shortAlign (ginCompressPostingList first rest maxsize).bytes.length := by
  obtain ⟨count, -, packed, fits, -⟩ := compress_cases sorted maxsize
  rw [packed] at complete ⊢
  obtain rfl : count = rest.length := Nat.succ.inj complete
  rw [take_length] at fits ⊢
  have shorter : (encodeDeltas other kept).length ≤ (encodeDeltas first rest).length := by
    cases sub with
    | cons _ sub =>
      have whole := encode_deltas_sublist sorted sub
      rw [encodeDeltas, length_append] at whole
      omega
    | cons_cons _ sub => exact encode_deltas_sublist sorted sub
  have whole := pack_items_complete (sorted.sublist sub) 1
    (show ([] : Bytes).length + _ ≤ maxBytes maxsize by rw [length_nil]; omega)
  rw [ginCompressPostingList, whole, nil_append]
  refine ⟨add_comm .., Nat.add_le_add_left ?_ _⟩
  simp only [shortAlign]
  omega

theorem decode_items_deltas (sorted : Sorted (last :: items))
    (enough : (encodeDeltas last items).length ≤ fuel) :
    decodeItems fuel (itemptrToUint64 last) (encodeDeltas last items) = some items := by
  induction items generalizing last fuel with
  | nil => cases fuel <;> rfl
  | cons item rest ih =>
    obtain ⟨before, bound, others⟩ := sorted.step
    have taken : 0 < (deltaBytes last item).length := encode_varbyte_pos _
    rw [encodeDeltas, length_append] at enough
    obtain ⟨fuel, rfl⟩ := Nat.exists_eq_succ_of_ne_zero (by omega : fuel ≠ 0)
    have nonempty : encodeDeltas last (item :: rest) ≠ [] := by
      rw [← length_pos_iff, encodeDeltas, length_append]
      omega
    rw [decodeItems, if_neg nonempty, encodeDeltas, deltaBytes, decodeVarbyte,
      decode_varbyte_encode (by omega), Nat.zero_or, Nat.shiftLeft_zero]
    dsimp only [Option.bind_some, bind]
    rw [show (itemptrToUint64 last + (itemptrToUint64 item - itemptrToUint64 last)) % 2 ^ 64 =
      itemptrToUint64 item by omega, ih others (by omega),
      uint64_to_itemptr (others.encodable item mem_cons_self)]
    rfl

end Packing

variable (plist : GinPostingList)

theorem read_header_fields (rest : Bytes) :
    readHeader ((headerFields plist).flatten ++ rest) = some (plist.first, plist.nbytes) := by
  have block := plist.first.blockNumber.toNat_lt
  have lengths : (headerFields plist).map List.length = [2, 2, 2, 2] := by simp [headerFields]
  have fields := read_fields_flatten (headerFields plist) rest
  rw [lengths] at fields
  rw [readHeader, fields]
  dsimp only [headerFields]
  rw [decode_encode_le_mod, decode_encode_le_mod,
    decode_encode_le plist.first.offsetNumber.toNat_lt, UInt16.ofNat_toNat,
    show plist.first.blockNumber.toNat / 2 ^ 16 % 256 ^ 2 * 2 ^ 16 +
      plist.first.blockNumber.toNat % 256 ^ 2 = plist.first.blockNumber.toNat by omega,
    UInt32.ofNat_toNat, decode_encode_le (show plist.nbytes < _ from Nat.mod_lt _ (by decide))]

theorem header_length : (headerFields plist).flatten.length = offsetOfBytes := by
  simp [headerFields, offsetOfBytes]

variable {plist : GinPostingList}

theorem padded_length (counted : plist.bytes.length < 2 ^ 16) :
    plist.nbytes = plist.bytes.length ∧
      (plist.bytes ++ replicate (shortAlign plist.nbytes - plist.nbytes) 0).length =
        shortAlign plist.nbytes := by
  have nbytes : plist.nbytes = plist.bytes.length := Nat.mod_eq_of_lt counted
  rw [length_append, length_replicate, shortAlign]
  omega

/-- A segment that counts its bytes decodes to its items, and the next one follows it. -/
theorem decode_segments_image {items : List ItemPointer} (sorted : Sorted (plist.first :: items))
    (made : plist.bytes = encodeDeltas plist.first items) (counted : plist.bytes.length < 2 ^ 16)
    (fuel : Nat) (rest : Bytes) :
    decodeSegments (fuel + 1) (plist.image ++ rest) =
      (decodeSegments fuel rest).map fun others => plist.first :: items ++ others := by
  obtain ⟨nbytes, padded⟩ := padded_length counted
  have nonempty : plist.image ++ rest ≠ [] := by simp [GinPostingList.image, headerFields, encodeLe]
  have decoded := decode_items_deltas sorted le_rfl
  have body : plist.bytes.take plist.nbytes = plist.bytes := by rw [nbytes, take_length]
  rw [decodeSegments, GinPostingList.image, append_assoc, read_header_fields, body]
  dsimp only [bind, Option.bind_some]
  rw [drop_left' (header_length plist), drop_left' padded, append_assoc, take_left' nbytes.symm,
    nbytes, made, decoded]
  cases decodeSegments fuel rest <;> rfl

/-- A call of `ginCompressPostingList` with room behind the header, for as many bytes as the
length field can count. -/
structure Posting where
  first : ItemPointer
  rest : List ItemPointer
  maxsize : Nat
  sorted : Sorted (first :: rest)
  room : offsetOfBytes < maxsize
  short : maxsize < offsetOfBytes + 2 ^ 16

namespace Posting

variable (posting : Posting)

def items : List ItemPointer := posting.first :: posting.rest

def segment : GinPostingList :=
  ginCompressPostingList posting.first posting.rest posting.maxsize

def written : List ItemPointer := posting.items.take posting.segment.nwritten

theorem segment_cases : ∃ count ≤ posting.rest.length,
    posting.segment = ⟨posting.first, encodeDeltas posting.first (posting.rest.take count),
      count + 1⟩ ∧
    posting.segment.bytes.length < 2 ^ 16 ∧ posting.segment.size ≤ posting.maxsize ∧
    Full (maxBytes posting.maxsize) posting.first posting.rest posting.segment.bytes count := by
  obtain ⟨count, within, packed, fits, full⟩ := compress_cases posting.sorted posting.maxsize
  have room := posting.room
  have short := posting.short
  have bytes : posting.segment.bytes = encodeDeltas posting.first (posting.rest.take count) := by
    rw [segment, packed]
  rw [← bytes] at fits full
  have counted : posting.segment.bytes.length < 2 ^ 16 := by
    rw [maxBytes] at fits
    omega
  refine ⟨count, within, packed, counted, ?_, full⟩
  rw [GinPostingList.size, (padded_length counted).1, shortAlign]
  rw [maxBytes, offsetOfBytes] at *
  omega

theorem decode_images (postings : List Posting)
    (enough : (postings.map fun posting => posting.segment.image).flatten.length ≤ fuel) :
    decodeSegments fuel (postings.map fun posting => posting.segment.image).flatten =
      some (postings.map written).flatten := by
  induction postings generalizing fuel with
  | nil => cases fuel <;> rfl
  | cons posting rest ih =>
    obtain ⟨count, -, made, counted, -⟩ := posting.segment_cases
    have taken : 0 < posting.segment.image.length := by
      simp [GinPostingList.image, headerFields, encodeLe]
    have writes : posting.written = posting.first :: posting.rest.take count := by
      rw [written, made]
      rfl
    rw [map_cons, flatten_cons, length_append] at enough
    obtain ⟨fuel, rfl⟩ := Nat.exists_eq_succ_of_ne_zero (by omega : fuel ≠ 0)
    have first : posting.segment.first = posting.first := by rw [made]
    rw [map_cons, flatten_cons, map_cons, writes, decode_segments_image _ (by rw [made]) counted,
      ih (by omega)]
    · rfl
    · rw [first]
      exact posting.sorted.sublist ((take_sublist count _).cons_cons posting.first)

end Posting

/-- A segment holds at least the first item, fits, decodes to the items written, and is full
unless it holds all of them. Segments in a row decode to what was written to them. -/
theorem posting_list_codec :
    (∀ posting : Posting,
      0 < posting.segment.nwritten ∧ posting.segment.nwritten ≤ posting.items.length ∧
      posting.segment.image.length = posting.segment.size ∧
      posting.segment.size ≤ posting.maxsize ∧
      ginPostingListDecodeAllSegments posting.segment.image = some posting.written ∧
      ∀ before next, posting.items[posting.segment.nwritten - 1]? = some before →
        posting.items[posting.segment.nwritten]? = some next →
        maxBytes posting.maxsize < posting.segment.nbytes + (deltaBytes before next).length) ∧
    ∀ postings : List Posting,
      ginPostingListDecodeAllSegments (postings.map fun posting => posting.segment.image).flatten =
        some (postings.map Posting.written).flatten := by
  have decodes (postings : List Posting) := Posting.decode_images postings le_rfl
  refine ⟨fun posting => ?_, decodes⟩
  obtain ⟨count, within, made, counted, fits, full⟩ := posting.segment_cases
  obtain ⟨nbytes, padded⟩ := padded_length counted
  have decoded := decodes [posting]
  simp only [map_singleton, flatten_singleton] at decoded
  refine ⟨by simp [made], by simpa [made, Posting.items] using within, ?_, fits, decoded, ?_⟩
  · rw [GinPostingList.image, nbytes, take_length, ← nbytes, length_append, padded, header_length,
      GinPostingList.size]
  · rw [nbytes, show posting.segment.nwritten = count + 1 by rw [made]]
    exact full

def blockItem (block : Nat) : ItemPointer := ⟨UInt32.ofNat block, 1⟩

def blockItems (start count : Nat) : List ItemPointer := (List.range' start count).map blockItem

def blockSegment (count maxsize : Nat) : GinPostingList :=
  ginCompressPostingList (blockItem 0) (blockItems 1 count) maxsize

theorem block_item_encodable (block : Nat) : (blockItem block).Encodable :=
  show (1 : UInt16).toNat < 2 ^ 11 by decide

theorem block_items_sorted {start count : Nat} (short : start + count ≤ 2 ^ 32) :
    Sorted (blockItems start count) := by
  refine ⟨pairwise_map.mpr ((pairwise_lt_range' 1).imp_of_mem ?_), ?_⟩
  · intro left right _ member less
    have bound := (mem_range'_1.mp member).2
    refine Or.inl (UInt32.lt_iff_toNat_lt.mpr ?_)
    simp only [blockItem, UInt32.toNat_ofNat']
    omega
  · intro item member
    obtain ⟨block, -, rfl⟩ := mem_map.mp member
    exact block_item_encodable block

def samplePosting : Posting where
  first := blockItem 0
  rest := blockItems 1 3
  maxsize := 12
  sorted := @block_items_sorted 0 4 (by decide)
  room := by decide
  short := by decide

/-- There is room for two deltas, and the last item is left. -/
theorem three_items_written :
    samplePosting.segment.nwritten = 3 ∧ samplePosting.items.length = 4 ∧
      samplePosting.segment.size ≤ 12 ∧
      ginPostingListDecodeAllSegments samplePosting.segment.image =
        some (blockItem 0 :: blockItems 1 2) := by
  obtain ⟨-, -, -, fits, decodes, -⟩ := posting_list_codec.1 samplePosting
  exact ⟨by decide +kernel, rfl, fits, decodes.trans (by decide +kernel)⟩

theorem block_deltas_length {start : Nat} (short : start + count < 2 ^ 32) :
    (encodeDeltas (blockItem start) (blockItems (start + 1) count)).length = 2 * count := by
  induction count generalizing start with
  | zero => rfl
  | succ count ih =>
    have delta : itemptrToUint64 (blockItem (start + 1)) - itemptrToUint64 (blockItem start) =
        2048 := by
      rw [itemptr_eq (block_item_encodable _), itemptr_eq (block_item_encodable _)]
      simp only [blockItem, UInt32.toNat_ofNat']
      omega
    have two : (encodeVarbyte 2048).length = 2 := by simp [encodeVarbyte]
    rw [blockItems, List.range'_succ, map_cons, encodeDeltas, length_append, deltaBytes, delta]
    have others := @ih (start + 1) (by omega)
    rw [blockItems] at others
    omega

theorem block_items_written {count maxsize : Nat} (short : count < 2 ^ 32)
    (fits : 2 * count ≤ maxBytes maxsize) :
    (blockSegment count maxsize).nwritten = count + 1 ∧
      (blockSegment count maxsize).bytes.length = 2 * count := by
  have sorted : Sorted (blockItem 0 :: blockItems 1 count) :=
    @block_items_sorted 0 (count + 1) (by omega)
  have length : (encodeDeltas (blockItem 0) (blockItems 1 count)).length = 2 * count :=
    block_deltas_length (by omega)
  have room : ([] : Bytes).length + (encodeDeltas (blockItem 0) (blockItems 1 count)).length ≤
      maxBytes maxsize := by
    rwa [length, length_nil, zero_add]
  rw [blockSegment, ginCompressPostingList, pack_items_complete sorted 1 room]
  refine ⟨?_, length⟩
  simp [blockItems, add_comm]

/-- Without the bound the length field wraps around, and a segment of 32769 items decodes to its
first. -/
theorem long_segment_lost :
    (blockSegment 32768 (2 ^ 17)).nwritten = 32769 ∧
      ginPostingListDecodeAllSegments (blockSegment 32768 (2 ^ 17)).image =
        some [blockItem 0] := by
  obtain ⟨written, length⟩ := @block_items_written 32768 (2 ^ 17) (by decide) (by decide)
  refine ⟨written, ?_⟩
  rw [GinPostingList.image, headerFields, GinPostingList.nbytes, length]
  rfl

theorem removed_item_fits :
    (ginCompressPostingList (blockItem 0) (blockItems 2 1) 64).nwritten = 2 :=
  (removal_never_grows (block_items_sorted (by decide : 0 + 3 ≤ 2 ^ 32))
    (block_items_written (by decide) (by decide)).1 (by decide)).1

end FortressQL.Gin.PostingList
