import FortressQL.Elog
import FortressQL.Lib.ByteMemory
import FortressQL.Storage.BufPage
import Mathlib.Data.List.Perm.Basic

/-!
# Items on a page

`PageInit` and `PageAddItemExtended` of `bufpage.c` on the line pointers of a page and the bytes
behind them. The array of line pointers ends where `pd_lower` says; storage is never moved below it.
-/

namespace FortressQL.Storage.PageItems

open List Elog Lib.ByteMemory Lib.ByteStrings
open BufPage (blcksz maxalign)

section Pages

inductive LpFlags where
  | unused
  | normal
  | redirect
  | dead
  deriving DecidableEq

structure ItemId where
  lpOff : Nat
  lpFlags : LpFlags
  lpLen : Nat
  deriving DecidableEq

structure ItemPage where
  /-- `PD_HAS_FREE_LINES` of `pd_flags`. -/
  hasFreeLines : Bool
  pdLinp : List ItemId
  pdUpper : Nat
  pdSpecial : Nat
  bytes : Memory

def sizeOfPageHeaderData : Nat := 24

def sizeOfItemId : Nat := 4

def maxOffsetNumber : Nat := blcksz / sizeOfItemId

def maxHeapTuplesPerPage : Nat := (blcksz - sizeOfPageHeaderData) / (maxalign 23 + sizeOfItemId)

def ItemId.isUsed (lp : ItemId) : Bool := lp.lpFlags ≠ .unused

def ItemId.hasStorage (lp : ItemId) : Bool := lp.lpLen ≠ 0

def unusedItemId : ItemId := ⟨0, .unused, 0⟩

def itemIdSetNormal (off len : Nat) : ItemId := ⟨off % 2 ^ 15, .normal, len % 2 ^ 15⟩

def pageInit (specialSize : Nat) : ItemPage where
  hasFreeLines := false
  pdLinp := []
  pdUpper := blcksz - maxalign specialSize
  pdSpecial := blcksz - maxalign specialSize
  bytes _ := 0

variable (page : ItemPage)

def ItemPage.pdLower : Nat := sizeOfPageHeaderData + sizeOfItemId * page.pdLinp.length

def pageGetItem (lp : ItemId) : Bytes := load page.bytes lp.lpOff lp.lpLen

def corruptedPointers (elevel : Elevel) : ErrorReport :=
  { elevel := elevel
    errcode := .dataCorrupted
    errmsg := s!"corrupted page pointers: lower = {page.pdLower}, upper = {page.pdUpper}, special = {page.pdSpecial}" }

end Pages

section Layouts

def Apart (first second : ItemId) : Prop :=
  first.lpLen = 0 ∨ second.lpLen = 0 ∨ first.lpOff + first.lpLen ≤ second.lpOff ∨
    second.lpOff + second.lpLen ≤ first.lpOff

instance : DecidableRel Apart := fun _ _ => inferInstanceAs (Decidable (_ ∨ _))

/-- Line pointers whose storage lies between two bounds without overlaps. -/
structure Laid (low high : Nat) (linp : List ItemId) : Prop where
  inside : ∀ lp ∈ linp, lp.lpLen ≠ 0 → low ≤ lp.lpOff ∧ lp.lpOff + lp.lpLen ≤ high
  apart : linp.Pairwise Apart

structure WellFormed (page : ItemPage) : Prop where
  lower : page.pdLower ≤ page.pdUpper
  upper : page.pdUpper ≤ page.pdSpecial
  special : page.pdSpecial ≤ blcksz
  aligned : page.pdUpper % 8 = 0 ∧ page.pdSpecial % 8 = 0
  laid : Laid page.pdUpper page.pdSpecial page.pdLinp

variable {low high : Nat} {linp : List ItemId} {lp : ItemId}

theorem Apart.symm {first second : ItemId} (apart : Apart first second) : Apart second first := by
  unfold Apart at *
  omega

theorem Laid.perm {other : List ItemId} (laid : Laid low high linp) (perm : linp.Perm other) :
    Laid low high other :=
  ⟨fun lp member => laid.inside lp (perm.mem_iff.mpr member),
    (perm.pairwise_iff Apart.symm).mp laid.apart⟩

theorem Laid.sublist {fewer : List ItemId} (laid : Laid low high linp)
    (sublist : fewer.Sublist linp) :
    Laid low high fewer :=
  ⟨fun lp member => laid.inside lp (sublist.subset member), laid.apart.sublist sublist⟩

theorem Laid.cons (laid : Laid low high linp)
    (inside : lp.lpLen ≠ 0 → low ≤ lp.lpOff ∧ lp.lpOff + lp.lpLen ≤ high)
    (apart : ∀ other ∈ linp, Apart lp other) : Laid low high (lp :: linp) :=
  ⟨forall_mem_cons.mpr ⟨inside, laid.inside⟩, pairwise_cons.mpr ⟨apart, laid.apart⟩⟩

theorem Laid.weaken {lower : Nat} (laid : Laid low high linp) (further : lower ≤ low) :
    Laid lower high linp :=
  ⟨fun lp member filled => (laid.inside lp member filled).imp_left (le_trans further),
    laid.apart⟩

theorem page_init_well_formed {specialSize : Nat}
    (fits : maxalign specialSize + sizeOfPageHeaderData < blcksz) :
    WellFormed (pageInit specialSize) := by
  have block : blcksz = 8192 := rfl
  have header : sizeOfPageHeaderData = 24 := rfl
  refine ⟨?_, le_refl _, Nat.sub_le _ _, ?_, nofun, List.Pairwise.nil⟩
  · change 24 ≤ blcksz - maxalign specialSize
    omega
  · change (blcksz - maxalign specialSize) % 8 = 0 ∧ (blcksz - maxalign specialSize) % 8 = 0
    unfold maxalign
    omega

theorem maxalign_bounds (length : Nat) :
    length ≤ maxalign length ∧ maxalign length < length + 8 ∧ maxalign length % 8 = 0 := by
  unfold maxalign
  omega

end Layouts

section Adding

structure AddFlags where
  overwrite : Bool
  isHeap : Bool

/-- No offset number, with a warning or for lack of space, or the offset number of the item. -/
inductive Added where
  | refused (warning : Option String) (page : ItemPage)
  | placed (offnum : Nat) (page : ItemPage)

structure Slot where
  offnum : Nat
  needshuffle : Bool
  hasFreeLines : Bool

def recyclable (lp : ItemId) : Bool := !lp.isUsed && !lp.hasStorage

variable (page : ItemPage)

def selectSlot (offnum : Nat) (flags : AddFlags) : Except String Slot :=
  let limit := page.pdLinp.length + 1
  if 0 < offnum ∧ offnum ≤ maxOffsetNumber then
    if flags.overwrite then
      if offnum < limit ∧ (page.pdLinp[offnum - 1]?).any recyclable = false then
        .error "will not overwrite a used ItemId"
      else .ok ⟨offnum, false, page.hasFreeLines⟩
    else .ok ⟨offnum, offnum < limit, page.hasFreeLines⟩
  else if page.hasFreeLines then
    match page.pdLinp.findIdx? recyclable with
    | some index => .ok ⟨index + 1, false, true⟩
    -- the hint was wrong
    | none => .ok ⟨limit, false, false⟩
  else .ok ⟨limit, false, false⟩

def sizeToInt (size : Nat) : Int := Int.bmod size (2 ^ 32)

def Slot.Grows (slot : Slot) : Prop :=
  slot.offnum = page.pdLinp.length + 1 ∨ slot.needshuffle = true

instance (slot : Slot) : Decidable (slot.Grows page) := inferInstanceAs (Decidable (_ ∨ _))

def Slot.lower (slot : Slot) : Nat :=
  if slot.Grows page then page.pdLower + sizeOfItemId else page.pdLower

def withItem (item : Bytes) (slot : Slot) (upper : Nat) : ItemPage :=
  let lp := itemIdSetNormal upper item.length
  { page with
    hasFreeLines := slot.hasFreeLines
    pdLinp :=
      if slot.Grows page then page.pdLinp.insertIdx (slot.offnum - 1) lp
      else page.pdLinp.set (slot.offnum - 1) lp
    pdUpper := upper
    bytes := store page.bytes upper item }

def placeItem (item : Bytes) (slot : Slot) (isHeap : Bool) : Added :=
  let hinted := { page with hasFreeLines := slot.hasFreeLines }
  if page.pdLinp.length + 1 < slot.offnum then
    .refused (some "specified item offset is too large") hinted
  else if isHeap = true ∧ maxHeapTuplesPerPage < slot.offnum then
    .refused (some "can't put more than MaxHeapTuplesPerPage items in a heap page") hinted
  else
    let upper := page.pdUpper - sizeToInt (maxalign item.length)
    if upper < slot.lower page then .refused none hinted
    else .placed slot.offnum (withItem page item slot upper.toNat)

def pageAddItemExtended (item : Bytes) (offnum : Nat) (flags : AddFlags) : Raises Added := do
  ensure (sizeOfPageHeaderData ≤ page.pdLower ∧ page.pdLower ≤ page.pdUpper ∧
      page.pdUpper ≤ page.pdSpecial ∧ page.pdSpecial ≤ blcksz)
    (corruptedPointers page .panic)
  match selectSlot page offnum flags with
  | .error warning => return .refused (some warning) page
  | .ok slot => return placeItem page item slot flags.isHeap

end Adding

section Added

variable {page : ItemPage} {item : Bytes} {slot : Slot}

structure SlotFits (page : ItemPage) (slot : Slot) : Prop where
  positive : 0 < slot.offnum
  hint : slot.hasFreeLines = page.hasFreeLines ∨
    slot.hasFreeLines = false ∧ ∀ lp ∈ page.pdLinp, recyclable lp = false

theorem slot_selected {offnum : Nat} {flags : AddFlags}
    (selected : selectSlot page offnum flags = .ok slot) :
    SlotFits page slot ∧
      (slot.needshuffle = true ↔ 0 < offnum ∧ offnum ≤ maxOffsetNumber ∧ flags.overwrite = false ∧
        offnum ≤ page.pdLinp.length) ∧
      (0 < offnum → offnum ≤ maxOffsetNumber → slot.offnum = offnum) := by
  unfold selectSlot at selected
  dsimp only at selected
  split at selected
  · rename_i valid
    split at selected
    · rename_i overwrites
      split at selected
      · cases selected
      · cases selected
        exact ⟨⟨valid.1, .inl rfl⟩, by simp [overwrites], fun _ _ => rfl⟩
    · rename_i inserts
      cases selected
      have shuffles : decide (offnum < page.pdLinp.length + 1) = true ↔
          offnum ≤ page.pdLinp.length := by
        rw [decide_eq_true_eq, Nat.lt_succ_iff]
      refine ⟨⟨valid.1, .inl rfl⟩, ?_, fun _ _ => rfl⟩
      rw [shuffles]
      simp [valid, inserts]
  · rename_i invalid
    have notGiven (chosen : Slot) (stays : chosen.needshuffle = false) :
        (chosen.needshuffle = true ↔ 0 < offnum ∧ offnum ≤ maxOffsetNumber ∧
          flags.overwrite = false ∧ offnum ≤ page.pdLinp.length) ∧
          (0 < offnum → offnum ≤ maxOffsetNumber → chosen.offnum = offnum) := by
      rw [stays]
      exact ⟨⟨nofun, fun given => absurd ⟨given.1, given.2.1⟩ invalid⟩,
        fun positive fits => absurd ⟨positive, fits⟩ invalid⟩
    split at selected
    · rename_i hinted
      split at selected
      · cases selected
        exact ⟨⟨Nat.succ_pos _, .inl hinted.symm⟩, notGiven _ rfl⟩
      · rename_i none
        cases selected
        refine ⟨⟨Nat.succ_pos _, .inr ⟨rfl, ?_⟩⟩, notGiven _ rfl⟩
        exact List.findIdx?_eq_none_iff.mp none
    · rename_i unhinted
      cases selected
      exact ⟨⟨Nat.succ_pos _, .inl (Bool.eq_false_iff.mpr unhinted).symm⟩, notGiven _ rfl⟩

theorem size_to_int_short {size : Nat} (short : size < 2 ^ 31) : sizeToInt size = size := by
  unfold sizeToInt
  rw [Int.bmod_eq_of_le] <;> omega

theorem item_id_set_normal_small {off len : Nat} (offSmall : off ≤ blcksz)
    (lenSmall : len ≤ blcksz) :
    itemIdSetNormal off len = ⟨off, .normal, len⟩ := by
  have block : blcksz = 8192 := rfl
  unfold itemIdSetNormal
  rw [Nat.mod_eq_of_lt (by omega), Nat.mod_eq_of_lt (by omega)]

def Slot.shifted (slot : Slot) (offnum : Nat) : Nat :=
  if slot.needshuffle = true ∧ slot.offnum ≤ offnum then offnum + 1 else offnum

section Placed

variable {upper : Nat} (wellFormed : WellFormed page)
  (inRange : 0 < slot.offnum ∧ slot.offnum ≤ page.pdLinp.length + 1)
  (fills : upper + maxalign item.length = page.pdUpper)
  (newLp : itemIdSetNormal upper item.length = ⟨upper, .normal, item.length⟩)

include wellFormed fills

theorem with_item_keeps {lp : ItemId} (member : lp ∈ page.pdLinp) :
    pageGetItem (withItem page item slot upper) lp = pageGetItem page lp := by
  unfold pageGetItem
  by_cases empty : lp.lpLen = 0
  · rw [empty]
    rfl
  · have bounds := (maxalign_bounds item.length).1
    have above := (wellFormed.laid.inside lp member empty).1
    exact load_store_apart _ (.inr (by omega))

include newLp inRange

theorem with_item_laid :
    Laid upper page.pdSpecial (withItem page item slot upper).pdLinp := by
  have bounds := (maxalign_bounds item.length).1
  have special := wellFormed.upper
  have added (linp : List ItemId) (fewer : linp.Sublist page.pdLinp) :
      Laid upper page.pdSpecial (itemIdSetNormal upper item.length :: linp) := by
    have kept := wellFormed.laid.sublist fewer
    rw [newLp]
    refine (kept.weaken (by omega)).cons (fun _ => ⟨le_refl _, by dsimp only; omega⟩) ?_
    intro other member
    by_cases empty : other.lpLen = 0
    · exact .inr (.inl empty)
    · have above := (kept.inside other member empty).1
      exact .inr (.inr (.inl (by dsimp only; omega)))
  unfold withItem
  split
  · exact (added page.pdLinp (List.Sublist.refl _)).perm (perm_insertIdx _ _ (by omega)).symm
  · rename_i grows
    have within : slot.offnum - 1 < page.pdLinp.length := by
      have notLast := not_or.mp grows
      omega
    exact (added (page.pdLinp.eraseIdx (slot.offnum - 1)) (eraseIdx_sublist _ _)).perm
      (set_perm_cons_eraseIdx within _).symm

omit fills wellFormed newLp in
theorem with_item_lower : (withItem page item slot upper).pdLower = slot.lower page := by
  unfold ItemPage.pdLower withItem Slot.lower
  dsimp only
  split
  · rw [length_insertIdx_of_le_length (by omega)]
    rfl
  · rw [length_set]
    rfl

omit fills wellFormed newLp in
theorem with_item_linp :
    (withItem page item slot upper).pdLinp[slot.offnum - 1]? =
        some (itemIdSetNormal upper item.length) ∧
      ∀ offnum, 0 < offnum → offnum ≤ page.pdLinp.length →
        (slot.needshuffle = true ∨ offnum ≠ slot.offnum) →
        (withItem page item slot upper).pdLinp[slot.shifted offnum - 1]? =
          page.pdLinp[offnum - 1]? := by
  unfold withItem Slot.shifted
  dsimp only
  by_cases grows : slot.Grows page
  · rw [if_pos grows]
    refine ⟨by rw [getElem?_insertIdx, if_neg (lt_irrefl _), if_pos rfl, if_pos (by omega)], ?_⟩
    intro offnum positive inside other
    rw [getElem?_insertIdx]
    by_cases behind : slot.needshuffle = true ∧ slot.offnum ≤ offnum
    · rw [if_pos behind, if_neg (by omega), if_neg (by omega), Nat.add_sub_cancel]
    · rw [if_neg behind, if_pos]
      rcases grows with last | shuffled
      · omega
      · have := not_and.mp behind shuffled
        omega
  · rw [if_neg grows]
    obtain ⟨notLast, notShuffled⟩ := not_or.mp grows
    refine ⟨by rw [getElem?_set_self (by omega)], ?_⟩
    intro offnum positive inside other
    have different := other.resolve_left notShuffled
    rw [if_neg (fun both => notShuffled both.1), getElem?_set_ne (by omega)]

end Placed

/-- Nothing is lost when an item is added. Without room the page stays, but for a wrong hint. -/
theorem page_add_item_cases (wellFormed : WellFormed page) (short : maxalign item.length < 2 ^ 31)
    (offnum : Nat) (flags : AddFlags) :
    (∃ warning hint, pageAddItemExtended page item offnum flags =
        .ok (.refused warning { page with hasFreeLines := hint }) ∧
      (hint = page.hasFreeLines ∨ hint = false ∧ ∀ lp ∈ page.pdLinp, recyclable lp = false)) ∨
      ∃ (slot : Slot) (after : ItemPage) (new : ItemId),
        pageAddItemExtended page item offnum flags = .ok (.placed slot.offnum after) ∧
        (0 < offnum → offnum ≤ maxOffsetNumber → slot.offnum = offnum) ∧
        after.pdLinp[slot.offnum - 1]? = some new ∧ pageGetItem after new = item ∧
          WellFormed after ∧
        (slot.needshuffle = true ↔ 0 < offnum ∧ offnum ≤ maxOffsetNumber ∧ flags.overwrite = false ∧
          offnum ≤ page.pdLinp.length) ∧
        ∀ other lp, 0 < other → page.pdLinp[other - 1]? = some lp →
          (slot.needshuffle = true ∨ other ≠ slot.offnum) →
          after.pdLinp[slot.shifted other - 1]? = some lp ∧
            pageGetItem after lp = pageGetItem page lp := by
  have bounds := maxalign_bounds item.length
  have below := wellFormed.upper
  have special := wellFormed.special
  have aligned := wellFormed.aligned
  unfold pageAddItemExtended
  rw [ensure_holds ⟨Nat.le_add_right _ _, wellFormed.lower, wellFormed.upper, wellFormed.special⟩]
  cases selected : selectSlot page offnum flags with
  | error warning => exact .inl ⟨_, page.hasFreeLines, rfl, .inl rfl⟩
  | ok slot =>
    obtain ⟨fits, shuffles, given⟩ := slot_selected selected
    have refuses (warning : Option String) : ∃ warning' hint,
        (Except.ok (.refused warning { page with hasFreeLines := slot.hasFreeLines }) :
          Raises Added) = .ok (.refused warning' { page with hasFreeLines := hint }) ∧
        (hint = page.hasFreeLines ∨ hint = false ∧ ∀ lp ∈ page.pdLinp, recyclable lp = false) :=
      ⟨warning, _, rfl, fits.hint⟩
    unfold placeItem
    dsimp only
    rw [size_to_int_short short]
    split
    · exact .inl (refuses _)
    split
    · exact .inl (refuses _)
    split
    · exact .inl (refuses _)
    generalize placed : (page.pdUpper - (maxalign item.length : Int)).toNat = upper
    have positive := fits.positive
    have fills : upper + maxalign item.length = page.pdUpper := by omega
    have newLp : itemIdSetNormal upper item.length = ⟨upper, .normal, item.length⟩ :=
      item_id_set_normal_small (by omega) (by omega)
    obtain ⟨new, others⟩ := @with_item_linp page item slot upper ⟨positive, by omega⟩
    refine .inr ⟨slot, _, _, rfl, given, new, ?_, ?_, shuffles, ?_⟩
    · rw [newLp]
      exact load_store _ _ _
    · refine ⟨?_, ?_, special, ⟨?_, aligned.2⟩,
        with_item_laid wellFormed ⟨positive, by omega⟩ fills newLp⟩
      · rw [with_item_lower ⟨positive, by omega⟩]
        change slot.lower page ≤ upper
        omega
      · change upper ≤ page.pdSpecial
        omega
      · change upper % 8 = 0
        omega
    · intro other lp otherPositive found different
      have inside : other - 1 < page.pdLinp.length := (List.getElem?_eq_some_iff.mp found).1
      refine ⟨(others other otherPositive (by omega) different).trans found, ?_⟩
      exact with_item_keeps wellFormed fills (mem_of_getElem? found)

def indexPage : ItemPage where
  hasFreeLines := false
  pdLinp := [⟨8168, .normal, 8⟩, ⟨8160, .normal, 8⟩]
  pdUpper := 8160
  pdSpecial := 8176
  bytes offset := UInt8.ofNat offset

theorem item_added_in_front :
    ∃ after new,
      pageAddItemExtended indexPage [1, 2, 3] 1 ⟨false, false⟩ = .ok (.placed 1 after) ∧
        after.pdLinp[0]? = some new ∧ pageGetItem after new = [1, 2, 3] ∧ WellFormed after ∧
        ∀ other lp, indexPage.pdLinp[other]? = some lp →
          after.pdLinp[other + 1]? = some lp ∧ pageGetItem after lp = pageGetItem indexPage lp := by
  have wellFormed : WellFormed indexPage :=
    ⟨by decide, by decide, by decide, by decide, by decide, by decide⟩
  rcases @page_add_item_cases indexPage [1, 2, 3] wellFormed (by decide) 1 ⟨false, false⟩ with
    ⟨_, _, refused, _⟩ | ⟨slot, after, new, placed, given, found, readBack, stays, shuffles, others⟩
  · cases refused
  · have first : slot.offnum = 1 := given (by decide) (by decide)
    have shuffled : slot.needshuffle = true := shuffles.mpr (by decide)
    rw [first] at placed found
    refine ⟨after, new, placed, found, readBack, stays, fun other lp member => ?_⟩
    have moved := others (other + 1) lp (Nat.succ_pos other) member (.inl shuffled)
    rwa [Slot.shifted, first, shuffled, if_pos ⟨rfl, Nat.le_add_left 1 other⟩] at moved

/-- A page with one large item, and the hint that a line pointer is free. -/
def fullPage : ItemPage where
  hasFreeLines := true
  pdLinp := [⟨32, .normal, 8160⟩]
  pdUpper := 32
  pdSpecial := 8192
  bytes _ := 0

/-- A wrong hint is cleared even if the item is refused, and a size beyond the range of an `int`
gets through. -/
theorem add_item_surprises :
    (WellFormed fullPage ∧ pageAddItemExtended fullPage [0] 0 ⟨false, false⟩ =
        .ok (.refused none { fullPage with hasFreeLines := false })) ∧
      ∃ item after new, item.length = 2 ^ 32 ∧
        pageAddItemExtended (pageInit 0) item 0 ⟨false, false⟩ = .ok (.placed 1 after) ∧
        after.pdLinp[0]? = some new ∧ pageGetItem after new ≠ item := by
  refine ⟨⟨⟨by decide, by decide, by decide, by decide, by decide, by decide⟩, rfl⟩, ?_⟩
  · have long : (replicate (2 ^ 32) (0 : UInt8)).length = 2 ^ 32 := length_replicate
    generalize replicate (2 ^ 32) (0 : UInt8) = item at long
    have placed : pageAddItemExtended (pageInit 0) item 0 ⟨false, false⟩ =
        .ok (.placed 1 (withItem (pageInit 0) item ⟨1, false, false⟩ 8192)) := by
      have size : sizeToInt (maxalign (2 ^ 32)) = 0 := by decide
      unfold pageAddItemExtended placeItem
      rw [long]
      rfl
    refine ⟨item, _, itemIdSetNormal 8192 (2 ^ 32), long, placed, by rw [← long]; rfl,
      fun same => ?_⟩
    have lengths := congrArg List.length same
    rw [pageGetItem, load_length, long] at lengths
    exact absurd lengths (by decide)

end Added

end FortressQL.Storage.PageItems
