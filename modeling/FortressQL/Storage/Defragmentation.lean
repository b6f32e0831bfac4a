import FortressQL.Storage.Compaction
import FortressQL.Storage.IndexItems
import Mathlib.Data.List.DropRight

/-!
# Defragmentation

`PageRepairFragmentation` closes all gaps between the items of a heap page.
-/

namespace FortressQL.Storage.PageItems

open List Elog Lib.ByteMemory ItemId
open BufPage (blcksz maxalign)

section Collecting

def collectItems (keep : ItemId → Bool) (linp : List ItemId) : List ItemIdCompact :=
  (linp.zipIdx.filter fun entry => keep entry.1).map fun entry =>
    ⟨entry.2, entry.1.lpOff, maxalign entry.1.lpLen⟩

def presortedFrom (lastOffset : Nat) : List ItemIdCompact → Bool
  | [] => true
  | item :: rest => decide (item.itemoff < lastOffset) && presortedFrom item.itemoff rest

variable {keep : ItemId → Bool} {linp : List ItemId} {page : ItemPage}

theorem presorted_descending {lastOffset : Nat} {items : List ItemIdCompact}
    (presorted : presortedFrom lastOffset items = true) :
    (∀ item ∈ items, item.itemoff < lastOffset) ∧
      items.Pairwise fun first second => second.itemoff ≤ first.itemoff := by
  induction items generalizing lastOffset with
  | nil => exact ⟨nofun, Pairwise.nil⟩
  | cons item rest ih =>
    unfold presortedFrom at presorted
    rw [Bool.and_eq_true, decide_eq_true_eq] at presorted
    obtain ⟨below, descending⟩ := ih presorted.2
    refine ⟨forall_mem_cons.mpr ⟨presorted.1, fun other member => ?_⟩,
      pairwise_cons.mpr ⟨fun other member => le_of_lt (below other member), descending⟩⟩
    exact lt_trans (below other member) presorted.1

theorem mem_collect_items {item : ItemIdCompact} :
    item ∈ collectItems keep linp ↔ ∃ lp, linp[item.offsetindex]? = some lp ∧ keep lp = true ∧
      item.itemoff = lp.lpOff ∧ item.alignedlen = maxalign lp.lpLen := by
  unfold collectItems
  rw [mem_map]
  constructor
  · rintro ⟨entry, member, rfl⟩
    obtain ⟨inList, kept⟩ := mem_filter.mp member
    exact ⟨entry.1, mem_zipIdx_iff_getElem?.mp inList, kept, rfl, rfl⟩
  · rintro ⟨lp, found, kept, isOff, isLen⟩
    refine ⟨(lp, item.offsetindex), mem_filter.mpr ⟨mem_zipIdx_iff_getElem?.mpr found, kept⟩, ?_⟩
    rw [← isOff, ← isLen]

theorem collect_compactable (laid : Laid page.pdUpper page.pdSpecial (linp.filter keep))
    (aligned : page.pdSpecial % 8 = 0)
    (stored : ∀ lp ∈ linp.filter keep, lp.lpLen ≠ 0 ∧ lp.lpOff % 8 = 0)
    (linked : ∀ (index : Nat) lp, linp[index]? = some lp → keep lp = true →
      page.pdLinp[index]? = some lp) : Compactable page (collectItems keep linp) := by
  have ends (lp : ItemId) (member : lp ∈ linp) (kept : keep lp = true) :
      page.pdUpper ≤ lp.lpOff ∧ lp.lpOff + maxalign lp.lpLen ≤ page.pdSpecial ∧
        0 < maxalign lp.lpLen ∧
        lp.lpOff % 8 = 0 := by
    have inFilter := mem_filter.mpr ⟨member, kept⟩
    have inside := laid.inside lp inFilter (stored lp inFilter).1
    have start := stored lp inFilter
    have bounds := maxalign_bounds lp.lpLen
    omega
  refine ⟨?_, ?_, ?_, ?_⟩
  · intro item member
    obtain ⟨lp, found, kept, isOff, isLen⟩ := mem_collect_items.mp member
    have inside := ends lp (mem_of_getElem? found) kept
    rw [ItemIdCompact.tail, isOff, isLen]
    exact ⟨inside.1, inside.2.1⟩
  · intro item member
    obtain ⟨lp, found, kept, -, isLen⟩ := mem_collect_items.mp member
    rw [isLen]
    exact (ends lp (mem_of_getElem? found) kept).2.2.1
  · unfold collectItems
    have apart := pairwise_filter.mp laid.apart
    rw [← zipIdx_map_fst 0 linp, pairwise_map] at apart
    rw [pairwise_map, pairwise_filter]
    refine apart.imp_of_mem
      fun {first second} firstMember secondMember apart firstKept secondKept => ?_
    have firstEnds := ends first.1 (fst_mem_of_mem_zipIdx firstMember) firstKept
    have secondEnds := ends second.1 (fst_mem_of_mem_zipIdx secondMember) secondKept
    have firstBounds := maxalign_bounds first.1.lpLen
    have secondBounds := maxalign_bounds second.1.lpLen
    have areas := apart firstKept secondKept
    unfold Apart at areas
    unfold Separate ItemIdCompact.tail
    dsimp only
    omega
  · intro item member
    obtain ⟨lp, found, kept, isOff, -⟩ := mem_collect_items.mp member
    rw [linked _ lp found kept, isOff]
    rfl

end Collecting

section Repair

def corruptedLengths (page : ItemPage) (items : List ItemIdCompact) : ErrorReport :=
  { elevel := .error
    errcode := .dataCorrupted
    errmsg := s!"corrupted item lengths: total {totallen items}, available space {page.pdSpecial - page.pdLower}" }

def corruptedOffset (item : ItemIdCompact) : ErrorReport :=
  { elevel := .error
    errcode := .dataCorrupted
    errmsg := s!"corrupted line pointer: {item.itemoff}" }

def ItemId.isStored (lp : ItemId) : Bool := lp.isUsed && lp.hasStorage

/-- Unused entries should have no length, but this is made sure. -/
def ItemId.reset (lp : ItemId) : ItemId := if lp.isUsed then lp else unusedItemId

def truncated (page : ItemPage) : ItemPage :=
  let linp := page.pdLinp.rdropWhile fun lp => !lp.isUsed
  { page with
    pdLinp := linp
    hasFreeLines := 0 < linp.countP fun lp => !lp.isUsed }

def pageRepairFragmentation (scratch : Memory) (page : ItemPage) : Raises ItemPage := do
  checkHeader page
  let items := collectItems ItemId.isStored page.pdLinp
  match items.find? fun item => item.itemoff < page.pdUpper || page.pdSpecial ≤ item.itemoff with
  | some item => .error (corruptedOffset item)
  | none =>
    let reset := { page with pdLinp := page.pdLinp.map ItemId.reset }
    let compacted ←
      if items = [] then pure { reset with pdUpper := page.pdSpecial }
      else do
        ensure (totallen items ≤ page.pdSpecial - page.pdLower) (corruptedLengths page items)
        pure (compactifyTuples scratch reset items (presortedFrom page.pdSpecial items))
    return truncated compacted

/-- A heap page, with no more line pointers than the routine has room for. -/
structure HeapPage (page : ItemPage) : Prop where
  lines : page.pdLinp.length ≤ maxHeapTuplesPerPage
  lower : page.pdLower ≤ page.pdUpper
  upper : page.pdUpper ≤ page.pdSpecial
  special : page.pdSpecial ≤ blcksz ∧ page.pdSpecial % 8 = 0
  laid : Laid page.pdUpper page.pdSpecial (page.pdLinp.filter ItemId.isStored)
  starts : ∀ lp ∈ page.pdLinp, lp.isStored = true → lp.lpOff % 8 = 0

theorem rdropWhile_keeps {α : Type} {cut : α → Bool} {list : List α} {index : Nat} {entry : α}
    (found : list[index]? = some entry) (kept : cut entry = false) :
    (list.rdropWhile cut)[index]? = some entry := by
  induction list using reverseRecOn with
  | nil => cases found
  | append_singleton front last ih =>
    rw [rdropWhile_concat]
    split
    · rename_i cuts
      by_cases inFront : index < front.length
      · exact ih (by rwa [getElem?_append_left inFront] at found)
      · rw [getElem?_append_right (Nat.le_of_not_lt inFront)] at found
        have isLast := mem_singleton.mp (mem_of_getElem? found)
        rw [isLast, cuts] at kept
        cases kept
    · exact found

variable {page : ItemPage}

theorem repair_fragmentation_placed (heap : HeapPage page) (scratch : Memory) :
    ∃ compacted,
      Placed page.bytes { page with pdLinp := page.pdLinp.map reset } page.pdSpecial
        (collectItems isStored page.pdLinp) compacted ∧
      pageRepairFragmentation scratch page = .ok (truncated compacted) := by
  have compactable : Compactable { page with pdLinp := page.pdLinp.map reset }
      (collectItems isStored page.pdLinp) := by
    refine collect_compactable heap.laid heap.special.2 ?_ ?_
    · intro lp member
      obtain ⟨inPage, stored⟩ := mem_filter.mp member
      have parts := Bool.and_eq_true_iff.mp stored
      exact ⟨of_decide_eq_true parts.2, heap.starts lp inPage stored⟩
    · intro index lp found stored
      rw [getElem?_map, found, Option.map_some, reset, if_pos (Bool.and_eq_true_iff.mp stored).1]
  unfold pageRepairFragmentation
  rw [check_header_returns heap.lower heap.upper heap.special.1 heap.special.2]
  dsimp only
  generalize collectItems isStored page.pdLinp = items at compactable
  have inside := compactable.inside
  have filled := compactable.filled
  have allSound : items.find? (fun item =>
      decide (item.itemoff < page.pdUpper) || decide (page.pdSpecial ≤ item.itemoff)) = none := by
    rw [find?_eq_none]
    intro item member
    have itemInside := inside item member
    have itemFilled := filled item member
    unfold ItemIdCompact.tail at itemInside
    dsimp only at itemInside
    simp only [Bool.or_eq_true, decide_eq_true_eq]
    omega
  rw [allSound]
  dsimp only
  split
  · rename_i none
    subst none
    exact ⟨_, place_items_placed _ (Nat.zero_le _) Pairwise.nil, rfl⟩
  · have total := totallen_fits inside filled compactable.separate heap.upper
    have lower := heap.lower
    change totallen items ≤ page.pdSpecial - page.pdUpper at total
    rw [ensure_holds (by omega)]
    exact ⟨_, compactify_placed compactable scratch fun sorted => (presorted_descending sorted).2,
      rfl⟩

theorem Placed.item {keep : ItemId → Bool} {linp : List ItemId} {after : ItemPage} {index : Nat}
    {lp : ItemId} {upper : Nat} {other : ItemPage}
    (placed : Placed page.bytes other upper (collectItems keep linp) after)
    (found : linp[index]? = some lp) (kept : keep lp = true)
    (same : other.pdLinp[index]? = some lp) :
    ∃ off, after.pdLinp[index]? = some { lp with lpOff := off } ∧
      load after.bytes off lp.lpLen = pageGetItem page lp := by
  obtain ⟨off, isMoved, bytes⟩ := placed.keeps ⟨index, lp.lpOff, maxalign lp.lpLen⟩
    (mem_collect_items.mpr ⟨lp, found, kept, rfl, rfl⟩)
  rw [same] at isMoved
  refine ⟨off, isMoved, ?_⟩
  have short := (maxalign_bounds lp.lpLen).1
  rw [pageGetItem, ← take_load _ _ short, ← take_load _ _ short, bytes]

theorem repaired_line {compacted : ItemPage} {index : Nat} {lp : ItemId}
    (placed : Placed page.bytes { page with pdLinp := page.pdLinp.map reset } page.pdSpecial
      (collectItems isStored page.pdLinp) compacted)
    (found : page.pdLinp[index]? = some lp) :
    ∃ off, compacted.pdLinp[index]? = some { lp.reset with lpOff := off } ∧
      (lp.isStored = false → off = lp.reset.lpOff) ∧
      (lp.isUsed = true → load compacted.bytes off lp.lpLen = pageGetItem page lp) := by
  have isReset : (page.pdLinp.map reset)[index]? = some lp.reset := by
    rw [getElem?_map, found, Option.map_some]
  cases stored : lp.isStored with
  | true =>
    have used : lp.reset = lp := if_pos (Bool.and_eq_true_iff.mp stored).1
    rw [used] at isReset ⊢
    obtain ⟨off, isMoved, bytes⟩ := placed.item found stored isReset
    exact ⟨off, isMoved, nofun, fun _ => bytes⟩
  | false =>
    refine ⟨lp.reset.lpOff, ?_, fun _ => rfl, fun used => ?_⟩
    · rw [placed.others.2 index ?_]
      · exact isReset
      · rintro item member rfl
        obtain ⟨other, isOther, otherStored, _⟩ := mem_collect_items.mp member
        rw [Option.some.inj (found.symm.trans isOther), otherStored] at stored
        cases stored
    · have empty : lp.lpLen = 0 := by
        simpa [isStored, hasStorage, used] using stored
      rw [pageGetItem, empty]
      rfl

/-- The items keep their numbers and bytes, and there are no gaps left. -/
theorem repair_fragmentation_returns (heap : HeapPage page) (scratch : Memory) :
    ∃ after, pageRepairFragmentation scratch page = .ok after ∧
      (∀ (index : Nat) lp, page.pdLinp[index]? = some lp → lp.isUsed = true →
        ∃ moved, after.pdLinp[index]? = some moved ∧ SameItem page lp after moved ∧
          (lp.hasStorage = false → moved = lp)) ∧
      (∀ (index : Nat) lp moved, page.pdLinp[index]? = some lp → lp.isUsed = false →
        after.pdLinp[index]? = some moved → moved = unusedItemId) ∧
      after.pdLinp.length ≤ page.pdLinp.length ∧
      (∀ lp, after.pdLinp.getLast? = some lp → lp.isUsed = true) ∧
      after.pdUpper + totallen (collectItems ItemId.isStored page.pdLinp) = page.pdSpecial ∧
      (∀ location, after.pdUpper ≤ location → location < page.pdSpecial →
        ∃ lp ∈ after.pdLinp, lp.lpOff ≤ location ∧ location < lp.lpOff + maxalign lp.lpLen) ∧
      (after.hasFreeLines = true ↔ ∃ lp ∈ after.pdLinp, lp.isUsed = false) := by
  obtain ⟨compacted, placed, returned⟩ := repair_fragmentation_placed heap scratch
  have kept {index : Nat} {lp : ItemId} (found : compacted.pdLinp[index]? = some lp)
      (used : lp.isUsed = true) : (truncated compacted).pdLinp[index]? = some lp :=
    rdropWhile_keeps found (by rw [used]; rfl)
  refine ⟨_, returned, ?_, ?_, ?_, ?_, placed.fills, ?_, ?_⟩
  · intro index lp found used
    have isLp : lp.reset = lp := if_pos used
    obtain ⟨off, isMoved, stays, bytes⟩ := repaired_line placed found
    rw [isLp] at isMoved stays
    refine ⟨_, kept isMoved used, ⟨rfl, rfl, bytes used⟩, fun empty => ?_⟩
    rw [stays (by rw [isStored, empty, Bool.and_false])]
  · intro index lp moved found unused isMoved
    have isLp : lp.reset = unusedItemId := if_neg (by rw [unused]; exact Bool.false_ne_true)
    obtain ⟨off, inCompacted, stays, _⟩ := repaired_line placed found
    rw [stays (by rw [isStored, unused, Bool.false_and]), isLp] at inCompacted
    obtain ⟨cut, isCut⟩ : (truncated compacted).pdLinp <+: compacted.pdLinp :=
      rdropWhile_prefix _ _
    rw [← isCut, List.getElem?_append_left (List.getElem?_eq_some_iff.mp isMoved).1] at inCompacted
    exact Option.some.inj (isMoved.symm.trans inCompacted)
  · have shorter := (List.rdropWhile_prefix (fun lp => !lp.isUsed) compacted.pdLinp).length_le
    rw [placed.others.1] at shorter
    exact shorter.trans_eq (length_map _)
  · intro lp isLast
    have nonempty : (truncated compacted).pdLinp ≠ [] := by
      rintro empty
      rw [empty] at isLast
      cases isLast
    have last : ¬(!((truncated compacted).pdLinp.getLast nonempty).isUsed) = true :=
      rdropWhile_last_not _ _ nonempty
    rw [List.getLast?_eq_some_getLast nonempty] at isLast
    rw [← Option.some.inj isLast]
    simpa using last
  · intro location low high
    obtain ⟨item, member, off, isMoved, inside⟩ := placed.covers location low high
    obtain ⟨lp, found, stored, _, isLen⟩ := mem_collect_items.mp member
    have used := (Bool.and_eq_true_iff.mp stored).1
    have isReset : (page.pdLinp.map reset)[item.offsetindex]? = some lp := by
      rw [List.getElem?_map, found, Option.map_some, reset, if_pos used]
    rw [isReset] at isMoved
    rw [isLen] at inside
    exact ⟨_, mem_of_getElem? (kept isMoved used), inside⟩
  · have hint : (truncated compacted).hasFreeLines = true ↔
        0 < (truncated compacted).pdLinp.countP fun lp => !lp.isUsed := decide_eq_true_iff
    rw [hint, countP_pos_iff]
    simp

theorem gapped_page_repaired :
    ∃ after, pageRepairFragmentation (fun _ => 0) gappedPage = .ok after ∧
      after.pdUpper + 24 = 8192 := by
  have heap : HeapPage gappedPage :=
    ⟨by decide, by decide, by decide, by decide, ⟨by decide, by decide⟩, by decide⟩
  obtain ⟨after, repaired, _, _, _, _, fills, _⟩ := repair_fragmentation_returns heap fun _ => 0
  exact ⟨after, repaired, fills⟩

def unalignedPage : ItemPage where
  hasFreeLines := false
  pdLinp := [⟨104, .normal, 4⟩, ⟨100, .normal, 4⟩, ⟨96, .normal, 4⟩]
  pdUpper := 96
  pdSpecial := 112
  bytes location := UInt8.ofNat location

/-- The checks do not ask for aligned items, and an item is overwritten before it is moved. -/
theorem unaligned_item_overwritten :
    (unalignedPage.pdLinp.Pairwise Apart ∧ ∀ lp ∈ unalignedPage.pdLinp,
        unalignedPage.pdUpper ≤ lp.lpOff ∧ lp.lpOff + lp.lpLen ≤ unalignedPage.pdSpecial) ∧
      pageGetItem unalignedPage ⟨96, .normal, 4⟩ = [96, 97, 98, 99] ∧
      ∃ after, pageRepairFragmentation (fun _ => 0) unalignedPage = .ok after ∧
        after.pdLinp[2]? = some ⟨88, .normal, 4⟩ ∧
        pageGetItem after ⟨88, .normal, 4⟩ = [100, 101, 102, 103] :=
  ⟨by decide, by decide, _, rfl, rfl, by decide⟩

end Repair

end FortressQL.Storage.PageItems
