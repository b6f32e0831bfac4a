import FortressQL.Storage.Defragmentation
import Mathlib.Data.List.InsertIdx

/-!
# Deletion of many index tuples

`PageIndexMultiDelete` keeps the line pointers that are not listed and compacts the page. The items
are those that are left when the listed tuples are deleted one after the other.
-/

namespace FortressQL.Storage.PageItems

open List Elog Lib.ByteMemory Lib.ByteStrings
open BufPage (blcksz maxalign)

/-- The line pointers to keep, and the numbers that were not met. -/
def keptItems : Nat → List ItemId → List Nat → List ItemId × List Nat
  | _, [], itemnos => ([], itemnos)
  | offnum, lp :: rest, itemnos =>
    if itemnos.head? = some offnum then keptItems (offnum + 1) rest itemnos.tail
    else
      let kept := keptItems (offnum + 1) rest itemnos
      (lp :: kept.1, kept.2)

def incorrectOffsets : ErrorReport :=
  { elevel := .error, errcode := .internalError, errmsg := "incorrect index offsets supplied" }

def pageIndexMultiDelete (scratch : Memory) (page : ItemPage) (itemnos : List Nat) :
    Raises ItemPage :=
  if itemnos.length ≤ 2 then itemnos.reverse.foldlM pageIndexTupleDelete page
  else do
    checkHeader page
    match page.pdLinp.find? fun lp => !sound page lp with
    | some lp => .error (corruptedLinePointer lp)
    | none =>
      let kept := keptItems 1 page.pdLinp itemnos
      ensure (kept.2 = []) incorrectOffsets
      let items := collectItems (fun _ => true) kept.1
      ensure (totallen items ≤ page.pdSpecial - page.pdLower) (corruptedLengths page items)
      let cut := { page with pdLinp := kept.1 }
      if kept.1 = [] then return { cut with pdUpper := page.pdSpecial }
      else return compactifyTuples scratch cut items (presortedFrom page.pdSpecial items)

section Erasing

/-- A list without the listed entries, which are counted from `start`. -/
def erased {α : Type} (start : Nat) (itemnos : List Nat) (list : List α) : List α :=
  itemnos.foldr (fun itemno rest => rest.eraseIdx (itemno - start)) list

variable {α β : Type} {start : Nat} {itemnos : List Nat}

theorem erased_map (f : α → β) (list : List α) :
    erased start itemnos (list.map f) = (erased start itemnos list).map f := by
  induction itemnos with
  | nil => rfl
  | cons itemno rest ih =>
    change (erased start rest (list.map f)).eraseIdx _ = _
    rw [ih, eraseIdx_map]
    rfl

theorem erased_sublist (list : List α) : (erased start itemnos list).Sublist list := by
  induction itemnos with
  | nil => exact Sublist.refl _
  | cons itemno rest ih => exact (eraseIdx_sublist _ _).trans ih

variable {list : List α}

theorem erased_cons {first : α} (above : ∀ itemno ∈ itemnos, start < itemno) :
    erased start itemnos (first :: list) = first :: erased (start + 1) itemnos list := by
  induction itemnos with
  | nil => rfl
  | cons itemno rest ih =>
    obtain ⟨isAbove, restAbove⟩ := forall_mem_cons.mp above
    change (erased start rest (first :: list)).eraseIdx (itemno - start) = _
    rw [ih restAbove, show itemno - start = itemno - (start + 1) + 1 by omega]
    rfl

theorem erased_below {index : Nat} (above : ∀ itemno ∈ itemnos, index + start < itemno) :
    (erased start itemnos list)[index]? = list[index]? := by
  induction itemnos with
  | nil => rfl
  | cons itemno rest ih =>
    obtain ⟨isAbove, restAbove⟩ := forall_mem_cons.mp above
    change ((erased start rest list).eraseIdx (itemno - start))[index]? = _
    rw [getElem?_eraseIdx_of_lt (by omega), ih restAbove]

theorem kept_items_erased {linp : List ItemId} (increasing : itemnos.Pairwise (· < ·))
    (valid : ∀ itemno ∈ itemnos, start ≤ itemno ∧ itemno < start + linp.length) :
    keptItems start linp itemnos = (erased start itemnos linp, []) := by
  induction linp generalizing start itemnos with
  | nil =>
    cases itemnos with
    | nil => rfl
    | cons itemno rest =>
      have bounds := valid itemno mem_cons_self
      rw [length_nil] at bounds
      omega
  | cons lp rest ih =>
    rw [length_cons] at valid
    unfold keptItems
    split
    · rename_i listed
      obtain ⟨more, rfl⟩ := head?_eq_some_iff.mp listed
      obtain ⟨first, moreIncreasing⟩ := pairwise_cons.mp increasing
      have next := @ih (start + 1) more moreIncreasing fun itemno member => by
        have bounds := valid itemno (mem_cons_of_mem _ member)
        have above := first itemno member
        omega
      rw [tail_cons, next]
      change _ = ((erased start more (lp :: rest)).eraseIdx (start - start), [])
      rw [erased_cons first, Nat.sub_self, eraseIdx_cons_zero]
    · rename_i unlisted
      have above (itemno : Nat) (member : itemno ∈ itemnos) : start < itemno := by
        cases itemnos with
        | nil => cases member
        | cons first more =>
          have isFirst : first ≠ start := fun same => unlisted (congrArg some same)
          have bounds := valid first mem_cons_self
          rcases mem_cons.mp member with rfl | later
          · omega
          · have order := (pairwise_cons.mp increasing).1 itemno later
            omega
      have next := @ih (start + 1) itemnos increasing fun itemno member => by
        have bounds := valid itemno member
        have isAbove := above itemno member
        omega
      rw [next, erased_cons above]

end Erasing

section Deletions

def maxIndexTuplesPerPage : Nat :=
  (blcksz - sizeOfPageHeaderData) / (maxalign (8 + 1) + sizeOfItemId)

def pageItems (page : ItemPage) : List (LpFlags × Bytes) :=
  page.pdLinp.map fun lp => (lp.lpFlags, pageGetItem page lp)

def itemsLength (items : List (LpFlags × Bytes)) : Nat :=
  (items.map fun item => maxalign item.2.length).sum

structure FilledPage (page : ItemPage) : Prop extends IndexPage page where
  lines : page.pdLinp.length ≤ maxIndexTuplesPerPage
  filled : ∀ lp ∈ page.pdLinp, lp.lpLen ≠ 0

variable {page : ItemPage} {tup : ItemId} {offnum : Nat}

theorem page_items_length (page : ItemPage) : (pageItems page).length = page.pdLinp.length :=
  length_map _

variable {linp : List ItemId}

theorem page_items_eq {after : ItemPage} (length : after.pdLinp.length = linp.length)
    (same : ∀ (index : Nat) lp, linp[index]? = some lp →
      ∃ moved, after.pdLinp[index]? = some moved ∧
      SameItem page lp after moved) :
    pageItems after = linp.map fun lp => (lp.lpFlags, pageGetItem page lp) := by
  apply ext_getElem?
  intro index
  unfold pageItems
  rw [getElem?_map, getElem?_map]
  cases found : linp[index]? with
  | none =>
    have outside := getElem?_eq_none_iff.mp found
    rw [getElem?_eq_none_iff.mpr (length.symm ▸ outside)]
    rfl
  | some lp =>
    obtain ⟨moved, isMoved, item⟩ := same index lp found
    rw [isMoved, Option.map_some, Option.map_some, item.flags, item.bytes]

theorem items_length_erase {items : List (LpFlags × Bytes)} {index : Nat} {item : LpFlags × Bytes}
    (found : items[index]? = some item) :
    itemsLength items = maxalign item.2.length + itemsLength (items.eraseIdx index) := by
  obtain ⟨within, rfl⟩ := List.getElem?_eq_some_iff.mp found
  exact ((getElem_cons_eraseIdx_perm within).symm.map _).sum_eq

theorem collected_length (page : ItemPage) (linp : List ItemId) :
    totallen (collectItems (fun _ => true) linp) =
      itemsLength (linp.map fun lp => (lp.lpFlags, pageGetItem page lp)) := by
  unfold totallen itemsLength collectItems
  rw [filter_true, map_map, map_map]
  nth_rewrite 2 [← zipIdx_map_fst 0 linp]
  rw [map_map]
  simp [Function.comp_def, pageGetItem]

theorem tuple_delete_returns (filled : FilledPage page) (positive : 0 < offnum)
    (within : offnum ≤ page.pdLinp.length) :
    ∃ after, pageIndexTupleDelete page offnum = .ok after ∧ FilledPage after ∧
      pageItems after = (pageItems page).eraseIdx (offnum - 1) ∧
      after.pdUpper + itemsLength (pageItems after) = page.pdUpper + itemsLength (pageItems page) ∧
      after.pdSpecial = page.pdSpecial := by
  have found := getElem?_eq_getElem (show offnum - 1 < page.pdLinp.length by omega)
  generalize page.pdLinp[offnum - 1] = tup at found
  have tupFilled := filled.filled tup (mem_of_getElem? found)
  have whole := (maxalign_bounds tup.lpLen).2.2
  have gap := item_gap filled.toIndexPage found tupFilled (by omega) (Int.le_refl _) (by omega)
  have affects : Affects (fun lp => decide (lp.lpOff ≤ tup.lpOff)) tup.lpOff
      (page.pdLinp.eraseIdx (offnum - 1)) := fun _ _ _ => rfl
  have shorter : (page.pdLinp.eraseIdx (offnum - 1)).length ≤ page.pdLinp.length :=
    (eraseIdx_sublist _ _).length_le
  have items := page_items_eq (length_map _) fun _ _ isLp => relocate_same gap affects isLp
  rw [← eraseIdx_map] at items
  unfold pageIndexTupleDelete
  rw [checked_item_returns filled.toIndexPage found positive tupFilled]
  refine ⟨_, rfl, ⟨(removed_index filled.toIndexPage gap affects shorter).1, ?_, ?_⟩, items, ?_,
    rfl⟩
  · exact (length_map _).trans_le (shorter.trans filled.lines)
  · intro moved member
    obtain ⟨lp, kept, rfl⟩ := mem_map.mp member
    have stored := filled.filled lp ((eraseIdx_sublist _ _).subset kept)
    rwa [← @shift_len (maxalign tup.lpLen) lp fun lp => decide (lp.lpOff ≤ tup.lpOff)] at stored
  · have isItem : (pageItems page)[offnum - 1]? = some (tup.lpFlags, pageGetItem page tup) := by
      rw [pageItems, getElem?_map, found, Option.map_some]
    have lengths := items_length_erase isItem
    rw [show (pageGetItem page tup).length = tup.lpLen from load_length _ _ _] at lengths
    rw [items]
    change (page.pdUpper + (maxalign tup.lpLen : Int)).toNat + itemsLength
      ((pageItems page).eraseIdx _) = _
    omega

theorem tuple_deletes_return {itemnos : List Nat} (filled : FilledPage page)
    (increasing : itemnos.Pairwise (· < ·))
    (valid : ∀ itemno ∈ itemnos, 0 < itemno ∧ itemno ≤ page.pdLinp.length) :
    ∃ after, itemnos.reverse.foldlM pageIndexTupleDelete page = .ok after ∧ FilledPage after ∧
      pageItems after = erased 1 itemnos (pageItems page) ∧
      after.pdUpper + itemsLength (pageItems after) = page.pdUpper + itemsLength (pageItems page) ∧
      after.pdSpecial = page.pdSpecial := by
  induction itemnos with
  | nil => exact ⟨page, rfl, filled, rfl, rfl, rfl⟩
  | cons itemno rest ih =>
    obtain ⟨first, restIncreasing⟩ := pairwise_cons.mp increasing
    obtain ⟨bounds, restValid⟩ := forall_mem_cons.mp valid
    obtain ⟨later, deleted, laterFilled, laterItems, lengths, special⟩ :=
      ih restIncreasing restValid
    have stays : (pageItems later)[itemno - 1]? = (pageItems page)[itemno - 1]? := by
      rw [laterItems, erased_below fun other member => by have := first other member; omega]
    have within : itemno ≤ later.pdLinp.length := by
      have inPage : itemno - 1 < (pageItems page).length := by
        rw [page_items_length]
        omega
      rw [List.getElem?_eq_getElem inPage] at stays
      have inLater := (List.getElem?_eq_some_iff.mp stays).1
      rw [page_items_length] at inLater
      omega
    obtain ⟨after, last, afterFilled, afterItems, afterLengths, afterSpecial⟩ :=
      tuple_delete_returns laterFilled bounds.1 within
    refine ⟨after, ?_, afterFilled, ?_, afterLengths.trans lengths, afterSpecial.trans special⟩
    · rw [reverse_cons, foldlM_append, deleted, ok_then, foldlM_cons, last]
      rfl
    · rw [afterItems, laterItems]
      rfl

theorem filled_compactable (filled : FilledPage page) (sublist : linp.Sublist page.pdLinp) :
    Compactable { page with pdLinp := linp } (collectItems (fun _ => true) linp) := by
  refine collect_compactable ?_ filled.aligned.2 ?_ fun _ _ found _ => found
  · rw [filter_true]
    exact filled.laid.sublist sublist
  · intro lp member
    have inPage := sublist.subset (mem_of_mem_filter member)
    exact ⟨filled.filled lp inPage, filled.starts lp inPage (filled.filled lp inPage)⟩

theorem collected_fits (filled : FilledPage page) (sublist : linp.Sublist page.pdLinp) :
    totallen (collectItems (fun _ => true) linp) ≤ page.pdSpecial - page.pdUpper :=
  have compactable := filled_compactable filled sublist
  totallen_fits compactable.inside compactable.filled compactable.separate filled.upper

theorem placed_items {batch : ItemPage}
    (placed : Placed page.bytes { page with pdLinp := linp } page.pdSpecial
      (collectItems (fun _ => true) linp) batch) :
    pageItems batch = linp.map (fun lp => (lp.lpFlags, pageGetItem page lp)) ∧
      batch.pdUpper + itemsLength (pageItems batch) = page.pdSpecial := by
  have items : pageItems batch = linp.map fun lp => (lp.lpFlags, pageGetItem page lp) := by
    refine page_items_eq placed.others.1 fun index lp found => ?_
    obtain ⟨off, isMoved, bytes⟩ := placed.item found rfl found
    exact ⟨_, isMoved, rfl, rfl, bytes⟩
  refine ⟨items, ?_⟩
  rw [items, ← collected_length]
  exact placed.fills

variable {itemnos : List Nat} (filled : FilledPage page) (increasing : itemnos.Pairwise (· < ·))
  (valid : ∀ itemno ∈ itemnos, 0 < itemno ∧ itemno ≤ page.pdLinp.length)

include filled increasing valid

theorem batch_delete_returns (many : ¬itemnos.length ≤ 2) (scratch : Memory) :
    ∃ batch, pageIndexMultiDelete scratch page itemnos = .ok batch ∧
      pageItems batch = erased 1 itemnos (pageItems page) ∧
      batch.pdUpper + itemsLength (pageItems batch) = page.pdSpecial := by
  have kept := @kept_items_erased 1 itemnos page.pdLinp increasing fun itemno member => by
    have bounds := valid itemno member
    omega
  have allSound : page.pdLinp.find? (fun lp => !sound page lp) = none := by
    rw [find?_eq_none]
    intro lp member
    rw [filled.sound member (filled.filled lp member)]
    exact Bool.false_ne_true
  have sublist : (erased 1 itemnos page.pdLinp).Sublist page.pdLinp := erased_sublist _
  have total := collected_fits filled sublist
  have lower := filled.lower
  unfold pageIndexMultiDelete
  rw [if_neg many, check_header_returns filled.lower filled.upper filled.special filled.aligned.2,
    allSound]
  dsimp only
  rw [kept, ensure_holds rfl]
  dsimp only
  rw [ensure_holds (by omega)]
  have compactable := filled_compactable filled sublist
  rw [pageItems, erased_map]
  generalize erased 1 itemnos page.pdLinp = linp at compactable
  split
  · rename_i none
    subst none
    exact ⟨_, rfl, placed_items (place_items_placed _ (Nat.zero_le _) Pairwise.nil)⟩
  · exact ⟨_, rfl, placed_items (compactify_placed compactable scratch fun sorted =>
      (presorted_descending sorted).2)⟩

/-- The batch leaves the items that are left when the tuples are deleted one by one. -/
theorem multi_delete_agrees (scratch : Memory) :
    ∃ batch single, pageIndexMultiDelete scratch page itemnos = .ok batch ∧
      itemnos.reverse.foldlM pageIndexTupleDelete page = .ok single ∧
      pageItems batch = pageItems single ∧ batch.pdLinp.length = single.pdLinp.length ∧
      pageGetExactFreeSpace single ≤ pageGetExactFreeSpace batch ∧
      (page.pdUpper + itemsLength (pageItems page) = page.pdSpecial →
        pageGetExactFreeSpace batch = pageGetExactFreeSpace single) := by
  obtain ⟨single, deleted, _, singleItems, lengths, _⟩ :=
    tuple_deletes_return filled increasing valid
  by_cases few : itemnos.length ≤ 2
  · refine ⟨single, single, ?_, deleted, rfl, rfl, le_refl _, fun _ => rfl⟩
    rw [pageIndexMultiDelete, if_pos few, deleted]
  obtain ⟨batch, returned, items, fills⟩ := batch_delete_returns filled increasing valid few scratch
  have same : pageItems batch = pageItems single := items.trans singleItems.symm
  have count : batch.pdLinp.length = single.pdLinp.length := by
    rw [← page_items_length, same, page_items_length]
  have fits := collected_fits filled (Sublist.refl _)
  rw [collected_length page] at fits
  change itemsLength (pageItems page) ≤ _ at fits
  have upper := filled.upper
  have lower : batch.pdLower = single.pdLower := by rw [ItemPage.pdLower, ItemPage.pdLower, count]
  rw [same] at fills
  unfold pageGetExactFreeSpace
  exact ⟨batch, single, returned, deleted, same, count, by omega, fun _ => by omega⟩

omit filled increasing valid

def gappedIndex : ItemPage where
  hasFreeLines := false
  pdLinp := [⟨8184, .normal, 8⟩, ⟨8176, .normal, 8⟩, ⟨8160, .normal, 8⟩]
  pdUpper := 8160
  pdSpecial := 8192
  bytes location := UInt8.ofNat location

theorem gapped_index_filled : FilledPage gappedIndex :=
  ⟨⟨⟨by decide, by decide, by decide, by decide, by decide, by decide⟩, by decide⟩, by decide,
    by decide⟩

theorem gapped_index_agrees :
    ∃ batch single, pageIndexMultiDelete (fun _ => 0) gappedIndex [1, 2, 3] = .ok batch ∧
      [3, 2, 1].foldlM pageIndexTupleDelete gappedIndex = .ok single ∧
        pageItems batch = pageItems single := by
  obtain ⟨batch, single, returned, deleted, same, _⟩ :=
    @multi_delete_agrees gappedIndex [1, 2, 3] gapped_index_filled (by decide) (by decide)
      fun _ => 0
  exact ⟨batch, single, returned, deleted, same⟩

/-- The batch closes gaps that single deletions leave. -/
theorem batch_frees_more :
    FilledPage gappedIndex ∧
      ∃ batch single, pageIndexMultiDelete (fun _ => 0) gappedIndex [1, 2, 3] = .ok batch ∧
        [3, 2, 1].foldlM pageIndexTupleDelete gappedIndex = .ok single ∧
        pageGetExactFreeSpace single < pageGetExactFreeSpace batch :=
  ⟨gapped_index_filled, _, _, rfl, rfl, by decide⟩

end Deletions

end FortressQL.Storage.PageItems
