import FortressQL.Lib.ByteMemory

/-!
# The LZ decoder

`pglz_decompress` of `pg_lzcompress.c`. A tag is read before the end of the input is checked, so
the input is a memory. A `memcpy` is defined only inside the produced bytes and without overlap.
-/

namespace FortressQL.Common.LzDecompress

open List Lib.ByteStrings Lib.ByteMemory

/-- `memcpy(dp, dp - off, len)` at the end of the produced bytes. -/
def copyProduced (out : Bytes) (off len : Nat) : Option Bytes :=
  if off ≤ out.length ∧ len ≤ off then some (out ++ (out.drop (out.length - off)).take len)
  else none

/-- The copy of one tag, which doubles the offset. -/
def copyMatch (out : Bytes) (off len : Nat) : Option Bytes :=
  if 0 < off ∧ off < len then do
    let longer ← copyProduced out off off
    copyMatch longer (off + off) (len - off)
  else copyProduced out off len
termination_by len

structure Tag where
  len : Nat
  off : Nat
  next : Nat

def readTag (source : Memory) (sp : Nat) : Tag :=
  let len := (source sp &&& 0x0f).toNat + 3
  let off := (source sp &&& 0xf0).toNat <<< 4 ||| (source (sp + 1)).toNat
  if len = 18 then ⟨len + (source (sp + 2)).toNat, off, sp + 3⟩ else ⟨len, off, sp + 2⟩

theorem read_tag_advances (source : Memory) (sp : Nat) : sp < (readTag source sp).next := by
  rw [readTag]
  split <;> simp

/-- Where the decoder stopped, and whether it stopped at corrupt data. -/
structure Decoded where
  sp : Nat
  out : Bytes
  corrupt : Bool

/-- The two loops as one: `ctrlc` items are left under the control byte. -/
def decompressItems (source : Memory) (slen rawsize : Nat) (ctrl : UInt8) (ctrlc sp : Nat)
    (out : Bytes) : Option Decoded :=
  if sp < slen ∧ out.length < rawsize then
    if ctrlc = 0 then decompressItems source slen rawsize (source sp) 8 (sp + 1) out
    else if ctrl &&& 1 = 1 then
      let tag := readTag source sp
      if slen < tag.next ∨ tag.off = 0 ∨ out.length < tag.off then some ⟨tag.next, out, true⟩
      else do
        let longer ← copyMatch out tag.off (min tag.len (rawsize - out.length))
        decompressItems source slen rawsize (ctrl >>> 1) (ctrlc - 1) tag.next longer
    else
      decompressItems source slen rawsize (ctrl >>> 1) (ctrlc - 1) (sp + 1) (out ++ [source sp])
  else some ⟨sp, out, false⟩
termination_by slen - sp
decreasing_by
  all_goals have advances := read_tag_advances source sp
  all_goals omega

def Decoded.result (final : Decoded) (slen rawsize : Nat) (checkComplete : Bool) : Int :=
  if final.corrupt ∨ checkComplete ∧ (final.out.length ≠ rawsize ∨ final.sp ≠ slen) then -1
  else final.out.length

/-- The result, and the bytes in the output buffer. -/
def pglzDecompress (source : Memory) (slen rawsize : Nat) (checkComplete : Bool) :
    Option (Int × Bytes) := do
  let final ← decompressItems source slen rawsize 0 0 0 []
  some (final.result slen rawsize checkComplete, final.out)

/-- A copy of one byte at a time from `off` bytes back. -/
def copyEach (off : Nat) : Nat → Bytes → Bytes
  | 0, out => out
  | len + 1, out => copyEach off len (out ++ [out.getD (out.length - off) 0])

theorem copy_each_add (off first second : Nat) (out : Bytes) :
    copyEach off (first + second) out = copyEach off second (copyEach off first out) := by
  induction first generalizing out with
  | zero => rw [zero_add]; rfl
  | succ first ih =>
    rw [Nat.succ_add]
    exact ih _

section Copies

variable {off len : Nat} {out : Bytes} (positive : 0 < off) (inside : off ≤ out.length)

include positive inside

/-- The copy repeats the last `off` bytes. -/
theorem copy_each_eq : copyEach off len out =
    out ++ (List.range len).map fun k => out.getD (out.length - off + k % off) 0 := by
  induction len with
  | zero => simp [copyEach]
  | succ len ih =>
    have longer :=
      copy_each_add off len 1 out
    rw [longer, ih, range_succ, map_append, ← append_assoc]
    simp only [copyEach, map_singleton, length_append, length_map, length_range,
      append_cancel_left_eq, List.cons.injEq, and_true]
    by_cases short : len < off
    · rw [getD_append _ _ _ _ (by omega), Nat.mod_eq_of_lt short]
      congr 1
      omega
    · rw [getD_append_right _ _ _ _ (by omega),
        show out.length + len - off - out.length = len - off by omega,
        getD_eq_getElem _ _ (by simp; omega)]
      simp only [getElem_map, getElem_range]
      rw [Nat.mod_eq_sub_mod (by omega : len ≥ off)]

theorem copy_each_length : (copyEach off len out).length = out.length + len := by
  simp [copy_each_eq positive inside]

theorem copy_produced_each (short : len ≤ off) :
    copyProduced out off len = some (copyEach off len out) := by
  rw [copyProduced, if_pos ⟨inside, short⟩, copy_each_eq positive inside]
  congr 2
  apply ext_getElem
  · simp; omega
  · intro k inTake inRange
    have below : k < len := by simpa using inRange
    simp only [getElem_take, getElem_drop, getElem_map, getElem_range]
    rw [Nat.mod_eq_of_lt (by omega), getD_eq_getElem]

theorem copied_byte {k : Nat} (bound : k < off + off) :
    (copyEach off off out).getD (out.length - off + k) 0 =
      out.getD (out.length - off + k % off) 0 := by
  rw [copy_each_eq positive inside]
  by_cases first : k < off
  · rw [getD_append _ _ _ _ (by omega), Nat.mod_eq_of_lt first]
  · rw [getD_append_right _ _ _ _ (by omega),
      show out.length - off + k - out.length = k - off by omega,
      getD_eq_getElem _ _ (by simp; omega)]
    simp only [getElem_map, getElem_range]
    rw [← Nat.mod_eq_sub_mod (by omega)]

theorem copy_each_doubled (len : Nat) : copyEach (off + off) len (copyEach off off out) =
    copyEach off len (copyEach off off out) := by
  have length := @copy_each_length off off out positive inside
  rw [@copy_each_eq (off + off) len (copyEach off off out) (by omega) (by omega),
    @copy_each_eq off len (copyEach off off out) positive (by omega)]
  congr 1
  apply map_congr_left
  intro k _
  have small := Nat.mod_lt k positive
  rw [length, show out.length + off - (off + off) = out.length - off by omega,
    show out.length + off - off + k % off = out.length - off + (off + k % off) by omega,
    copied_byte positive inside (Nat.mod_lt k (by omega)), copied_byte positive inside (by omega),
    Nat.add_mod_left, Nat.mod_mod, Nat.mod_mod_of_dvd k ⟨2, by omega⟩]

end Copies

theorem copy_match_each {off : Nat} {out : Bytes} (positive : 0 < off) (inside : off ≤ out.length)
    (len : Nat) : copyMatch out off len = some (copyEach off len out) := by
  induction len using Nat.strong_induction_on generalizing off out with
  | _ len ih =>
    rw [copyMatch]
    split
    · rename_i doubles
      obtain ⟨rest, rfl⟩ := Nat.exists_eq_add_of_le (le_of_lt doubles.2)
      have length := @copy_each_length off off out positive inside
      rw [copy_produced_each positive inside (le_refl off), Nat.add_sub_cancel_left,
        copy_each_add, ← copy_each_doubled positive inside]
      exact ih rest (by omega) (by omega) (by omega)
    · exact copy_produced_each positive inside (by omega)

theorem read_tag_agrees {source other : Memory} {sp slen : Nat} (more : sp < slen)
    (agree : ∀ place < slen, other place = source place) :
    (readTag other sp).next = (readTag source sp).next ∧
      ((readTag source sp).next ≤ slen → readTag other sp = readTag source sp) := by
  simp only [readTag, agree sp more]
  split
  · refine ⟨rfl, fun whole => ?_⟩
    dsimp only at whole
    rw [agree (sp + 1) (by omega), agree (sp + 2) (by omega)]
  · refine ⟨rfl, fun whole => ?_⟩
    dsimp only at whole
    rw [agree (sp + 1) (by omega)]

theorem decompress_items_robust {source other : Memory} {slen rawsize : Nat} (ctrl : UInt8)
    (ctrlc sp : Nat) {out : Bytes} (agree : ∀ place < slen, other place = source place)
    (fits : out.length ≤ rawsize) :
    ∃ final, decompressItems source slen rawsize ctrl ctrlc sp out = some final ∧
      decompressItems other slen rawsize ctrl ctrlc sp out = some final ∧
      final.out.length ≤ rawsize := by
  fun_induction decompressItems source slen rawsize ctrl ctrlc sp out with
  | case1 ctrl sp out more ih =>
    rw [decompressItems.eq_1 other, if_pos more, agree sp more.1]
    exact ih fits
  | case2 ctrl ctrlc sp out more items isTag tag corrupt =>
    obtain ⟨sameNext, sameTag⟩ := read_tag_agrees more.1 agree
    have corruptThere : slen < (readTag other sp).next ∨ (readTag other sp).off = 0 ∨
        out.length < (readTag other sp).off := by
      rcases lt_or_ge slen tag.next with overrun | whole
      · exact .inl (sameNext ▸ overrun)
      · rwa [sameTag whole]
    refine ⟨_, rfl, ?_, fits⟩
    rw [decompressItems.eq_1 other, if_pos more, if_neg items, if_pos isTag, if_pos corruptThere,
      sameNext]
  | case3 ctrl ctrlc sp out more items isTag tag sound ih =>
    have same : readTag other sp = tag := (read_tag_agrees more.1 agree).2 (by grind)
    have positive : 0 < tag.off := by omega
    have inside : tag.off ≤ out.length := by omega
    rw [decompressItems.eq_1 other, if_pos more, if_neg items, if_pos isTag, same, if_neg sound,
      copy_match_each positive inside]
    apply ih
    rw [copy_each_length positive inside]
    omega
  | case4 ctrl ctrlc sp out more items isLiteral ih =>
    rw [decompressItems.eq_1 other, if_pos more, if_neg items, if_neg isLiteral, agree sp more.1]
    exact ih (by simpa using Nat.succ_le_of_lt more.2)
  | case5 ctrl ctrlc sp out finished =>
    exact ⟨_, rfl, by rw [decompressItems, if_neg finished], fits⟩

/-- On any input the decoder ends, makes defined copies only and fills at most `rawsize` bytes, as
the `slen` bytes alone decide. -/
theorem decompress_robust (source : Memory) (slen rawsize : Nat) (checkComplete : Bool) :
    (∃ result out, pglzDecompress source slen rawsize checkComplete = some (result, out) ∧
      out.length ≤ rawsize ∧ (result = -1 ∨ result = out.length) ∧
      ∀ other : Memory, (∀ place < slen, other place = source place) →
        pglzDecompress other slen rawsize checkComplete = some (result, out)) ∧
    ∀ (out : Bytes) (off len : Nat), 0 < off → off ≤ out.length →
      copyMatch out off len = some (copyEach off len out) := by
  refine ⟨?_, fun out off len positive inside => copy_match_each positive inside len⟩
  have robust := fun (other : Memory) agree =>
    @decompress_items_robust source other slen rawsize 0 0 0 [] agree (Nat.zero_le _)
  obtain ⟨final, decoded, -, fits⟩ := robust source fun _ _ => rfl
  refine ⟨final.result slen rawsize checkComplete, final.out, ?_, fits, ?_, ?_⟩
  · rw [pglzDecompress, decoded]
    rfl
  · rw [Decoded.result]
    split
    · exact .inl rfl
    · exact .inr rfl
  · intro other agree
    obtain ⟨same, decodedHere, decodedThere, -⟩ := robust other agree
    obtain rfl : final = same := Option.some.inj (decoded.symm.trans decodedHere)
    rw [pglzDecompress, decodedThere]
    rfl

end FortressQL.Common.LzDecompress
