import FortressQL.Storage.PageItems

/-!
# Removing and replacing index items

`PageIndexTupleDelete`, `PageIndexTupleDeleteNoCompact` and `PageIndexTupleOverwrite` close or widen
the place of one item by moving all storage before it.
-/

namespace FortressQL.Storage.PageItems

open List Elog Lib.ByteMemory Lib.ByteStrings
open BufPage (blcksz maxalign)

section Routines

variable (page : ItemPage) (offnum : Nat)

def checkHeader : Raises Unit :=
  ensure (sizeOfPageHeaderData ≤ page.pdLower ∧ page.pdLower ≤ page.pdUpper ∧
      page.pdUpper ≤ page.pdSpecial ∧ page.pdSpecial ≤ blcksz ∧
      page.pdSpecial = maxalign page.pdSpecial)
    (corruptedPointers page .error)

def sound (lp : ItemId) : Bool :=
  page.pdUpper ≤ lp.lpOff ∧ lp.lpOff + lp.lpLen ≤ page.pdSpecial ∧ lp.lpOff = maxalign lp.lpOff

def corruptedLinePointer (lp : ItemId) : ErrorReport :=
  { elevel := .error
    errcode := .dataCorrupted
    errmsg := s!"corrupted line pointer: offset = {lp.lpOff}, size = {lp.lpLen}" }

/-- The checks with which the routines for one item start. -/
def checkedItem : Raises ItemId := do
  checkHeader page
  ensure (0 < offnum ∧ offnum ≤ page.pdLinp.length)
    { elevel := .error, errcode := .internalError, errmsg := s!"invalid index offnum: {offnum}" }
  let tup := page.pdLinp.getD (offnum - 1) unusedItemId
  ensure (sound page tup = true) (corruptedLinePointer tup)
  return tup

def ItemId.shift (sizeDiff : Int) (lp : ItemId) : ItemId :=
  { lp with lpOff := (lp.lpOff + sizeDiff).toNat }

/-- Storage before `offset` moves by `sizeDiff`, and the affected line pointers with it. -/
def relocate (affected : ItemId → Bool) (offset : Nat) (sizeDiff : Int) : ItemPage :=
  { page with
    pdUpper := (page.pdUpper + sizeDiff).toNat
    pdLinp := page.pdLinp.map fun lp => if affected lp then lp.shift sizeDiff else lp
    bytes := move page.bytes (page.pdUpper + sizeDiff).toNat page.pdUpper (offset - page.pdUpper) }

def storedBefore (offset : Nat) (lp : ItemId) : Bool := lp.hasStorage && lp.lpOff ≤ offset

def pageIndexTupleDelete : Raises ItemPage := do
  let tup ← checkedItem page offnum
  return relocate { page with pdLinp := page.pdLinp.eraseIdx (offnum - 1) }
    (fun lp => lp.lpOff ≤ tup.lpOff) tup.lpOff (maxalign tup.lpLen)

/-- The line pointer is marked unused, or cut off if it is the last one. -/
def dropLinp : List ItemId :=
  if offnum < page.pdLinp.length then page.pdLinp.set (offnum - 1) unusedItemId
  else page.pdLinp.dropLast

def pageIndexTupleDeleteNoCompact : Raises ItemPage := do
  let tup ← checkedItem page offnum
  return relocate { page with pdLinp := dropLinp page offnum } (storedBefore tup.lpOff) tup.lpOff
    (maxalign tup.lpLen)

/-- `none` when the new tuple does not fit. -/
def pageIndexTupleOverwrite (newtup : Bytes) : Raises (Option ItemPage) := do
  let tup ← checkedItem page offnum
  if maxalign tup.lpLen + (page.pdUpper - page.pdLower) < maxalign newtup.length then return none
  else
    let sizeDiff : Int := maxalign tup.lpLen - maxalign newtup.length
    let moved :=
      if sizeDiff ≠ 0 then relocate page (storedBefore tup.lpOff) tup.lpOff sizeDiff else page
    let lp := { tup.shift sizeDiff with lpLen := newtup.length }
    return some
      { moved with
        pdLinp := moved.pdLinp.set (offnum - 1) lp
        bytes := store moved.bytes lp.lpOff newtup }

end Routines

section Moves

/-- An index page: its items start where they are aligned. -/
structure IndexPage (page : ItemPage) : Prop extends WellFormed page where
  starts : ∀ lp ∈ page.pdLinp, lp.lpLen ≠ 0 → lp.lpOff % 8 = 0

variable {page : ItemPage} {tup : ItemId} {offnum offset length : Nat} {sizeDiff : Int}

theorem check_header_returns (lower : page.pdLower ≤ page.pdUpper)
    (upper : page.pdUpper ≤ page.pdSpecial)
    (special : page.pdSpecial ≤ blcksz) (aligned : page.pdSpecial % 8 = 0) :
    checkHeader page = .ok () :=
  ensure_holds ⟨Nat.le_add_right _ _, lower, upper, special, by unfold maxalign; omega⟩

theorem IndexPage.sound (index : IndexPage page) (member : tup ∈ page.pdLinp)
    (filled : tup.lpLen ≠ 0) :
    sound page tup = true := by
  have start := index.starts tup member filled
  have inside := index.laid.inside tup member filled
  exact decide_eq_true ⟨inside.1, inside.2, by unfold maxalign; omega⟩

theorem checked_item_returns (index : IndexPage page) (found : page.pdLinp[offnum - 1]? = some tup)
    (positive : 0 < offnum) (filled : tup.lpLen ≠ 0) : checkedItem page offnum = .ok tup := by
  have within := (List.getElem?_eq_some_iff.mp found).1
  have isTup : page.pdLinp.getD (offnum - 1) unusedItemId = tup := by
    rw [getD_eq_getElem?_getD, found, Option.getD_some]
  unfold checkedItem
  rw [check_header_returns index.lower index.upper index.special index.aligned.2,
    ensure_holds ⟨positive, by omega⟩]
  dsimp only
  rw [isTup, ensure_holds (index.sound (mem_of_getElem? found) filled)]
  rfl

structure Gap (page : ItemPage) (linp : List ItemId) (offset length : Nat) (sizeDiff : Int) :
    Prop where
  some : 0 < length
  low : page.pdUpper ≤ offset
  high : offset + length ≤ page.pdSpecial
  whole : offset % 8 = 0 ∧ sizeDiff % 8 = 0
  fits : sizeDiff ≤ length
  room : 0 ≤ page.pdUpper + sizeDiff
  laid : Laid page.pdUpper page.pdSpecial linp
  starts : ∀ lp ∈ linp, lp.lpLen ≠ 0 → lp.lpOff % 8 = 0
  clear : ∀ lp ∈ linp, lp.lpLen ≠ 0 → lp.lpOff + lp.lpLen ≤ offset ∨ offset + length ≤ lp.lpOff

theorem item_gap (index : IndexPage page) (found : page.pdLinp[offnum - 1]? = some tup)
    (filled : tup.lpLen ≠ 0) (whole : sizeDiff % 8 = 0) (fits : sizeDiff ≤ maxalign tup.lpLen)
    (room : 0 ≤ page.pdUpper + sizeDiff) :
    Gap page (page.pdLinp.eraseIdx (offnum - 1)) tup.lpOff (maxalign tup.lpLen) sizeDiff := by
  have member := mem_of_getElem? found
  obtain ⟨within, isTup⟩ := List.getElem?_eq_some_iff.mp found
  have inside := index.laid.inside tup member filled
  have start := index.starts tup member filled
  have aligned := index.aligned.2
  have sublist := eraseIdx_sublist page.pdLinp (offnum - 1)
  have apart := (getElem_cons_eraseIdx_perm within).symm.pairwise_iff Apart.symm |>.mp
    index.laid.apart
  rw [isTup] at apart
  have bounds := maxalign_bounds tup.lpLen
  refine ⟨by omega, inside.1, by omega, ⟨start, whole⟩, fits, room, index.laid.sublist sublist,
    fun lp kept => index.starts lp (sublist.subset kept), fun lp kept lpFilled => ?_⟩
  have lpStart := index.starts lp (sublist.subset kept) lpFilled
  rcases (pairwise_cons.mp apart).1 lp kept with empty | empty | before | behind
  · exact absurd empty filled
  · exact absurd empty lpFilled
  · right
    omega
  · left
    omega

variable {linp : List ItemId} {lp : ItemId} {affected : ItemId → Bool}

/-- The routine moves the line pointers in front of the gap. -/
def Affects (affected : ItemId → Bool) (offset : Nat) (linp : List ItemId) : Prop :=
  ∀ lp ∈ linp, lp.lpLen ≠ 0 → affected lp = decide (lp.lpOff ≤ offset)

theorem stored_before_affects (offset : Nat) (linp : List ItemId) :
    Affects (storedBefore offset) offset linp := by
  intro lp _ filled
  simp [storedBefore, ItemId.hasStorage, filled]

theorem shift_len : (if affected lp then lp.shift sizeDiff else lp).lpLen = lp.lpLen := by
  split <;> rfl

section

variable (gap : Gap page linp offset length sizeDiff) (affects : Affects affected offset linp)

include gap affects

theorem gap_moved (member : lp ∈ linp) (filled : lp.lpLen ≠ 0) :
    (lp.lpOff + lp.lpLen ≤ offset ∧
        ((if affected lp then lp.shift sizeDiff else lp).lpOff : Int) = lp.lpOff + sizeDiff) ∨
      (offset + length ≤ lp.lpOff ∧
        (if affected lp then lp.shift sizeDiff else lp).lpOff = lp.lpOff) := by
  have some := gap.some
  have room := gap.room
  have above := (gap.laid.inside lp member filled).1
  rw [affects lp member filled]
  rcases gap.clear lp member filled with before | behind
  · refine .inl ⟨before, ?_⟩
    rw [if_pos (decide_eq_true (by omega))]
    change (((lp.lpOff + sizeDiff).toNat : Nat) : Int) = _
    omega
  · exact .inr ⟨behind, by rw [if_neg (by simp; omega)]⟩

theorem gap_item (member : lp ∈ linp) :
    load (move page.bytes (page.pdUpper + sizeDiff).toNat page.pdUpper (offset - page.pdUpper))
        (if affected lp then lp.shift sizeDiff else lp).lpOff lp.lpLen =
      pageGetItem page lp := by
  by_cases empty : lp.lpLen = 0
  · rw [pageGetItem, empty]
    rfl
  · have above := (gap.laid.inside lp member empty).1
    have low := gap.low
    have room := gap.room
    have fits := gap.fits
    rcases gap_moved gap affects member empty with ⟨before, place⟩ | ⟨behind, stays⟩
    · obtain ⟨distance, start⟩ := Nat.exists_eq_add_of_le above
      have moved : (if affected lp then lp.shift sizeDiff else lp).lpOff =
          (page.pdUpper + sizeDiff).toNat + distance := by
        omega
      rw [moved, pageGetItem, start]
      exact load_move _ _ _ (by omega)
    · rw [stays]
      exact load_move_apart _ _ (.inr (by omega))

theorem gap_laid :
    Laid (page.pdUpper + sizeDiff).toNat page.pdSpecial
        (linp.map fun lp => if affected lp then lp.shift sizeDiff else lp) ∧
      ∀ lp ∈ linp.map fun lp => if affected lp then lp.shift sizeDiff else lp, lp.lpLen ≠ 0 →
        lp.lpOff % 8 = 0 ∧
          ((lp.lpOff + lp.lpLen : Int) ≤ offset + sizeDiff ∨ offset + length ≤ lp.lpOff) := by
  have low := gap.low
  have high := gap.high
  have whole := gap.whole
  have fits := gap.fits
  refine ⟨⟨?_, ?_⟩, ?_⟩
  · intro moved movedMember filled
    obtain ⟨lp, member, rfl⟩ := mem_map.mp movedMember
    rw [shift_len] at filled ⊢
    have inside := gap.laid.inside lp member filled
    have place := gap_moved gap affects member filled
    omega
  · rw [pairwise_map]
    refine gap.laid.apart.imp_of_mem fun {first second} firstMember secondMember apart => ?_
    unfold Apart
    rw [shift_len, shift_len]
    by_cases firstFilled : first.lpLen = 0
    · exact .inl firstFilled
    by_cases secondFilled : second.lpLen = 0
    · exact .inr (.inl secondFilled)
    have areas := (apart.resolve_left firstFilled).resolve_left secondFilled
    have firstPlace := gap_moved gap affects firstMember firstFilled
    have secondPlace := gap_moved gap affects secondMember secondFilled
    omega
  · intro moved movedMember filled
    obtain ⟨lp, member, rfl⟩ := mem_map.mp movedMember
    rw [shift_len] at filled ⊢
    have start := gap.starts lp member filled
    have place := gap_moved gap affects member filled
    omega

end

/-- A line pointer that stands for the same item as another one did before. -/
structure SameItem (page : ItemPage) (lp : ItemId) (after : ItemPage) (moved : ItemId) : Prop where
  flags : moved.lpFlags = lp.lpFlags
  length : moved.lpLen = lp.lpLen
  bytes : pageGetItem after moved = pageGetItem page lp

theorem relocate_same (gap : Gap page linp offset length sizeDiff)
    (affects : Affects affected offset linp) {index : Nat} (found : linp[index]? = some lp) :
    ∃ moved, (relocate { page with pdLinp := linp } affected offset sizeDiff).pdLinp[index]? =
      some moved ∧
      SameItem page lp (relocate { page with pdLinp := linp } affected offset sizeDiff) moved := by
  refine ⟨if affected lp then lp.shift sizeDiff else lp, ?_, ?_, shift_len, ?_⟩
  · change (linp.map _)[index]? = _
    rw [getElem?_map, found]
    rfl
  · split <;> rfl
  · unfold pageGetItem
    rw [shift_len]
    exact @gap_item page offset length sizeDiff linp lp affected gap affects (mem_of_getElem? found)

theorem relocate_index (index : IndexPage page) (gap : Gap page linp offset length sizeDiff)
    (affects : Affects affected offset linp)
    (lower : sizeOfPageHeaderData + sizeOfItemId * linp.length ≤ (page.pdUpper + sizeDiff).toNat) :
    IndexPage (relocate { page with pdLinp := linp } affected offset sizeDiff) := by
  obtain ⟨laid, starts⟩ := gap_laid gap affects
  have low := gap.low
  have high := gap.high
  have whole := gap.whole
  have fits := gap.fits
  have aligned := index.aligned
  refine ⟨⟨?_, ?_, index.special, ⟨?_, aligned.2⟩, laid⟩,
    fun lp member filled => (starts lp member filled).1⟩
  · unfold ItemPage.pdLower relocate
    rw [length_map]
    exact lower
  · change (page.pdUpper + sizeDiff).toNat ≤ page.pdSpecial
    omega
  · change (page.pdUpper + sizeDiff).toNat % 8 = 0
    omega

theorem relocate_zero (page : ItemPage) (affected : ItemId → Bool) (offset : Nat) :
    relocate page affected offset 0 = page := by
  have stays (lp : ItemId) : (if affected lp then lp.shift 0 else lp) = lp := by
    split
    · unfold ItemId.shift
      rw [Int.add_zero, Int.toNat_natCast]
    · rfl
  unfold relocate
  rw [Int.add_zero, Int.toNat_natCast, move_self]
  simp [stays]

end Moves

section Deletion

variable {page : ItemPage} {tup : ItemId} {offnum : Nat}

def pageGetExactFreeSpace (page : ItemPage) : Nat := page.pdUpper - page.pdLower

theorem drop_linp_cases (within : offnum - 1 < page.pdLinp.length) (positive : 0 < offnum) :
    (offnum < page.pdLinp.length ∧
        dropLinp page offnum = page.pdLinp.set (offnum - 1) unusedItemId) ∨
      (offnum = page.pdLinp.length ∧ dropLinp page offnum = page.pdLinp.eraseIdx (offnum - 1)) := by
  unfold dropLinp
  split
  · rename_i inner
    exact .inl ⟨inner, rfl⟩
  · exact .inr ⟨by omega, dropLast_eq_eraseIdx (by omega)⟩

theorem Gap.set_unused {offset length : Nat} {sizeDiff : Int} {linp : List ItemId} {position : Nat}
    (gap : Gap page (linp.eraseIdx position) offset length sizeDiff)
    (within : position < linp.length) :
    Gap page (linp.set position unusedItemId) offset length sizeDiff := by
  have perm := set_perm_cons_eraseIdx within unusedItemId
  have others (lp : ItemId) (member : lp ∈ linp.set position unusedItemId) (filled : lp.lpLen ≠ 0) :
      lp ∈ linp.eraseIdx position := by
    rcases mem_cons.mp (perm.mem_iff.mp member) with isUnused | kept
    · exact absurd (congrArg ItemId.lpLen isUnused) filled
    · exact kept
  exact
    { gap with
      laid := (gap.laid.cons (fun filled => absurd rfl filled) fun _ _ => .inl rfl).perm perm.symm
      starts := fun lp member filled => gap.starts lp (others lp member filled) filled
      clear := fun lp member filled => gap.clear lp (others lp member filled) filled }

theorem removed_index {linp : List ItemId} {affected : ItemId → Bool} (index : IndexPage page)
    (gap : Gap page linp tup.lpOff (maxalign tup.lpLen) (maxalign tup.lpLen))
    (affects : Affects affected tup.lpOff linp) (shorter : linp.length ≤ page.pdLinp.length) :
    IndexPage (relocate { page with pdLinp := linp } affected tup.lpOff (maxalign tup.lpLen)) ∧
      pageGetExactFreeSpace
          (relocate { page with pdLinp := linp } affected tup.lpOff (maxalign tup.lpLen)) =
        pageGetExactFreeSpace page + maxalign tup.lpLen +
          sizeOfItemId * (page.pdLinp.length - linp.length) := by
  have lower : 24 + 4 * page.pdLinp.length ≤ page.pdUpper := index.lower
  refine ⟨relocate_index index gap affects ?_, ?_⟩
  · change 24 + 4 * linp.length ≤ _
    omega
  · unfold pageGetExactFreeSpace ItemPage.pdLower relocate
    rw [length_map]
    change (page.pdUpper + (maxalign tup.lpLen : Int)).toNat - (24 + 4 * linp.length) =
      page.pdUpper - (24 + 4 * page.pdLinp.length) + maxalign tup.lpLen +
        4 * (page.pdLinp.length - linp.length)
    omega

/-- The tuple is gone, the others keep their numbers, and its space is free. -/
theorem delete_no_compact_returns (index : IndexPage page) (positive : 0 < offnum)
    (found : page.pdLinp[offnum - 1]? = some tup) (filled : tup.lpLen ≠ 0) :
    ∃ after, pageIndexTupleDeleteNoCompact page offnum = .ok after ∧ IndexPage after ∧
      (∀ lp, after.pdLinp[offnum - 1]? = some lp → lp = unusedItemId) ∧
      (∀ other lp, 0 < other → other ≠ offnum → page.pdLinp[other - 1]? = some lp →
        ∃ moved, after.pdLinp[other - 1]? = some moved ∧ SameItem page lp after moved) ∧
      after.pdLinp.length = page.pdLinp.length - (if offnum < page.pdLinp.length then 0 else 1) ∧
      pageGetExactFreeSpace after = pageGetExactFreeSpace page + maxalign tup.lpLen +
        sizeOfItemId * (if offnum < page.pdLinp.length then 0 else 1) := by
  have within := (List.getElem?_eq_some_iff.mp found).1
  have whole := (maxalign_bounds tup.lpLen).2.2
  have gap := item_gap index found filled (by omega) (Int.le_refl _) (by omega)
  unfold pageIndexTupleDeleteNoCompact
  rw [checked_item_returns index found positive filled]
  refine ⟨_, rfl, ?_⟩
  rcases drop_linp_cases within positive with ⟨inner, dropped⟩ | ⟨last, dropped⟩
  · rw [dropped, if_pos inner]
    have affects := stored_before_affects tup.lpOff (page.pdLinp.set (offnum - 1) unusedItemId)
    have emptied := gap.set_unused within
    have count : (page.pdLinp.set (offnum - 1) unusedItemId).length = page.pdLinp.length :=
      length_set
    obtain ⟨after, free⟩ := removed_index index emptied affects (le_of_eq count)
    rw [count, Nat.sub_self] at free
    refine ⟨after, ?_, ?_, (length_map _).trans count, free⟩
    · intro lp isLp
      change (List.map _ (page.pdLinp.set (offnum - 1) unusedItemId))[offnum - 1]? = _ at isLp
      rw [List.getElem?_map, List.getElem?_set_self within] at isLp
      exact (Option.some.inj isLp).symm
    · intro other lp otherPositive different isLp
      exact relocate_same emptied affects (by rw [List.getElem?_set_ne (by omega), isLp])
  · rw [dropped, if_neg (by omega)]
    have affects := stored_before_affects tup.lpOff (page.pdLinp.eraseIdx (offnum - 1))
    have count :=
      length_eraseIdx_of_lt within
    obtain ⟨after, free⟩ := removed_index index gap affects (by omega)
    rw [count, show page.pdLinp.length - (page.pdLinp.length - 1) = 1 by omega] at free
    refine ⟨after, ?_, ?_, (length_map _).trans count, free⟩
    · intro lp isLp
      have short := (List.getElem?_eq_some_iff.mp isLp).1
      change offnum - 1 < (List.map _ (page.pdLinp.eraseIdx (offnum - 1))).length at short
      rw [length_map] at short
      omega
    · intro other lp otherPositive different isLp
      have otherWithin := (List.getElem?_eq_some_iff.mp isLp).1
      refine relocate_same gap affects ?_
      rw [List.getElem?_eraseIdx_of_lt (by omega), isLp]

def twoTuples : ItemPage where
  hasFreeLines := false
  pdLinp := [⟨8184, .normal, 3⟩, ⟨8168, .normal, 13⟩]
  pdUpper := 8168
  pdSpecial := 8192
  bytes location := UInt8.ofNat location

theorem two_tuples_index : IndexPage twoTuples :=
  ⟨⟨by decide, by decide, by decide, by decide, by decide, by decide⟩, by decide⟩

theorem first_tuple_deleted :
    ∃ after, pageIndexTupleDeleteNoCompact twoTuples 1 = .ok after ∧ after.pdLinp.length = 2 ∧
      pageGetExactFreeSpace after = pageGetExactFreeSpace twoTuples + 8 := by
  obtain ⟨after, deleted, _, _, _, count, free⟩ :=
    @delete_no_compact_returns twoTuples ⟨8184, .normal, 3⟩ 1 two_tuples_index (by decide)
      rfl (by decide)
  exact ⟨after, deleted, count, free⟩

end Deletion

section Overwriting

variable {page : ItemPage} {tup : ItemId} {offnum : Nat} {newtup : Bytes}

/-- The new tuple takes the place of the old one, unless it does not fit. -/
theorem tuple_overwrite_returns (index : IndexPage page) (positive : 0 < offnum)
    (found : page.pdLinp[offnum - 1]? = some tup) (filled : tup.lpLen ≠ 0) (newtup : Bytes) :
    (maxalign tup.lpLen + (page.pdUpper - page.pdLower) < maxalign newtup.length ∧
        pageIndexTupleOverwrite page offnum newtup = .ok none) ∨
      (maxalign newtup.length ≤ maxalign tup.lpLen + (page.pdUpper - page.pdLower) ∧
        ∃ after new, pageIndexTupleOverwrite page offnum newtup = .ok (some after) ∧
          IndexPage after ∧
          after.pdLinp.length = page.pdLinp.length ∧
          after.pdLinp[offnum - 1]? = some new ∧ pageGetItem after new = newtup ∧
          ∀ other lp, 0 < other → other ≠ offnum → page.pdLinp[other - 1]? = some lp →
            ∃ moved, after.pdLinp[other - 1]? = some moved ∧ SameItem page lp after moved) := by
  have within := (List.getElem?_eq_some_iff.mp found).1
  have oldSize := maxalign_bounds tup.lpLen
  have newSize := maxalign_bounds newtup.length
  have lower : 24 + 4 * page.pdLinp.length ≤ page.pdUpper := index.lower
  have isLower : page.pdLower = 24 + 4 * page.pdLinp.length := rfl
  unfold pageIndexTupleOverwrite
  rw [checked_item_returns index found positive filled, ok_then]
  dsimp only
  split
  · rename_i large
    exact .inl ⟨large, rfl⟩
  refine .inr ⟨by omega, ?_⟩
  generalize isDiff : (maxalign tup.lpLen : Int) - maxalign newtup.length = sizeDiff
  have affects := stored_before_affects tup.lpOff (page.pdLinp.eraseIdx (offnum - 1))
  have gap : Gap page (page.pdLinp.eraseIdx (offnum - 1)) tup.lpOff (maxalign tup.lpLen) sizeDiff :=
    item_gap index found filled (by omega) (by omega) (by omega)
  obtain ⟨laid, starts⟩ := gap_laid gap affects
  have low := gap.low
  have high := gap.high
  have whole := gap.whole
  have aligned := index.aligned
  have moves : (if sizeDiff ≠ 0 then relocate page (storedBefore tup.lpOff) tup.lpOff sizeDiff
      else page) =
      relocate page (storedBefore tup.lpOff) tup.lpOff sizeDiff := by
    split
    · rfl
    · rename_i same
      rw [not_not.mp same, relocate_zero]
  rw [moves]
  have place : ((tup.shift sizeDiff).lpOff : Int) = tup.lpOff + sizeDiff := by
    change (((tup.lpOff + sizeDiff).toNat : Nat) : Int) = _
    omega
  generalize isNew : ({ tup.shift sizeDiff with lpLen := newtup.length } : ItemId) = new
  have isPlace : new.lpOff = (tup.shift sizeDiff).lpOff := by rw [← isNew]
  have newLen : new.lpLen = newtup.length := by rw [← isNew]
  have inMap : offnum - 1 < (relocate page (storedBefore tup.lpOff) tup.lpOff
      sizeDiff).pdLinp.length :=
    (length_map _).symm ▸ within
  have perm := set_perm_cons_eraseIdx inMap new
  have others : (relocate page (storedBefore tup.lpOff) tup.lpOff sizeDiff).pdLinp.eraseIdx
      (offnum - 1) =
      (page.pdLinp.eraseIdx (offnum - 1)).map fun lp =>
        if storedBefore tup.lpOff lp then lp.shift sizeDiff else lp := eraseIdx_map _ _ _
  rw [others] at perm
  refine ⟨_, new, rfl, ⟨⟨?_, ?_, index.special, ⟨?_, aligned.2⟩, Laid.perm (laid.cons ?_ ?_)
    perm.symm⟩, ?_⟩,
    length_set.trans (length_map _), List.getElem?_set_self inMap, ?_, ?_⟩
  · unfold ItemPage.pdLower
    rw [length_set, show (relocate page _ _ sizeDiff).pdLinp.length = _ from length_map _]
    change 24 + 4 * page.pdLinp.length ≤ (page.pdUpper + sizeDiff).toNat
    omega
  · change (page.pdUpper + sizeDiff).toNat ≤ page.pdSpecial
    omega
  · change (page.pdUpper + sizeDiff).toNat % 8 = 0
    omega
  · intro _
    omega
  · intro other member
    by_cases empty : other.lpLen = 0
    · exact .inr (.inl empty)
    · have clear := (starts other member empty).2
      refine .inr (.inr ?_)
      omega
  · intro lp member lpFilled
    rcases mem_cons.mp (perm.mem_iff.mp member) with rfl | kept
    · omega
    · exact (starts lp kept lpFilled).1
  · unfold pageGetItem
    rw [newLen, isPlace]
    exact load_store _ _ _
  · intro other lp otherPositive different isLp
    have member : lp ∈ page.pdLinp.eraseIdx (offnum - 1) :=
      mem_eraseIdx_iff_getElem?.mpr ⟨other - 1, by omega, isLp⟩
    refine ⟨if storedBefore tup.lpOff lp then lp.shift sizeDiff else lp, ?_, ?_, shift_len, ?_⟩
    · change ((page.pdLinp.map _).set (offnum - 1) new)[other - 1]? = _
      rw [List.getElem?_set_ne (by omega), List.getElem?_map, isLp]
      rfl
    · split <;> rfl
    · rw [pageGetItem, shift_len, ← gap_item gap affects member]
      by_cases empty : lp.lpLen = 0
      · rw [empty]
        rfl
      · have clear := starts _ (mem_map_of_mem member) (by rwa [shift_len])
        rw [shift_len] at clear
        exact load_store_apart _ (by omega)

theorem first_tuple_overwritten :
    ∃ after new, pageIndexTupleOverwrite twoTuples 1 [1, 2, 3, 4, 5, 6, 7, 8, 9] =
      .ok (some after) ∧
      after.pdLinp[0]? = some new ∧ pageGetItem after new = [1, 2, 3, 4, 5, 6, 7, 8, 9] := by
  rcases @tuple_overwrite_returns twoTuples ⟨8184, .normal, 3⟩ 1 two_tuples_index (by decide) rfl
    (by decide) [1, 2, 3, 4, 5, 6, 7, 8, 9] with ⟨large, _⟩ |
      ⟨_, after, new, done, _, _, found, readBack, _⟩
  · exact absurd large (by decide)
  · exact ⟨after, new, done, found, readBack⟩

end Overwriting

end FortressQL.Storage.PageItems
