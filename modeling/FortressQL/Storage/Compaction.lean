import FortressQL.Storage.PageItems

/-!
# Compaction

`compactify_tuples` moves the items of a page to its end. Neighbouring items are copied together;
the page is as if every item had been copied on its own from a snapshot.
-/

namespace FortressQL.Storage.PageItems

open List Lib.ByteMemory
open BufPage (maxalign)

variable {page : ItemPage} {upper : Nat}

structure ItemIdCompact where
  offsetindex : Nat
  itemoff : Nat
  /-- `MAXALIGN` of the item's length. -/
  alignedlen : Nat

variable {items : List ItemIdCompact}

def ItemIdCompact.tail (item : ItemIdCompact) : Nat := item.itemoff + item.alignedlen

theorem ItemIdCompact.tail_eq (item : ItemIdCompact) :
    item.tail = item.itemoff + item.alignedlen := rfl

def totallen (items : List ItemIdCompact) : Nat := (items.map (·.alignedlen)).sum

def setOffset (page : ItemPage) (item : ItemIdCompact) (upper : Nat) : ItemPage :=
  { page with pdLinp := page.pdLinp.modify item.offsetindex fun lp => { lp with lpOff := upper } }

/-- Storage from `copyHead` to `copyTail` is still to be copied to `upper`. -/
structure Compaction where
  page : ItemPage
  upper : Nat
  copyHead : Nat
  copyTail : Nat

/-- The items come from the page itself, or from a scratch buffer. -/
def Compaction.flush (scratch : Option Memory) (state : Compaction) : ItemPage :=
  { state.page with
    bytes := store state.page.bytes state.upper
      (load (scratch.getD state.page.bytes) state.copyHead (state.copyTail - state.copyHead)) }

def compactStep (scratch : Option Memory) (state : Compaction) (item : ItemIdCompact) :
    Compaction :=
  let upper := state.upper - item.alignedlen
  if state.copyHead ≠ item.tail then
    ⟨setOffset (state.flush scratch) item upper, upper, item.itemoff, item.tail⟩
  else ⟨setOffset state.page item upper, upper, item.itemoff, state.copyTail⟩

def copyItems (scratch : Option Memory) (page : ItemPage) (upper : Nat)
    (items : List ItemIdCompact) :
    ItemPage :=
  match items with
  | [] => { page with pdUpper := upper }
  | first :: _ =>
    let state := items.foldl (compactStep scratch) ⟨page, upper, first.tail, first.tail⟩
    { state.flush scratch with pdUpper := state.upper }

def skipPlaced (upper : Nat) : List ItemIdCompact → Nat × List ItemIdCompact
  | [] => (upper, [])
  | item :: rest =>
    if upper = item.tail then skipPlaced (upper - item.alignedlen) rest else (upper, item :: rest)

def compactifyTuples (scratch : Memory) (page : ItemPage) (items : List ItemIdCompact)
    (presorted : Bool) : ItemPage :=
  let placed := skipPlaced page.pdSpecial items
  if presorted then copyItems none page placed.1 placed.2
  else if items.length < page.pdLinp.length / 4 then
    let copied := items.foldl
      (fun copied item => copyOver page.bytes copied item.itemoff item.alignedlen) scratch
    copyItems (some copied) page page.pdSpecial items
  else
    copyItems (some (copyOver page.bytes scratch page.pdUpper (placed.1 - page.pdUpper))) page
      placed.1 placed.2

section Snapshots

def placeItems (snapshot : Memory) : ItemPage → Nat → List ItemIdCompact → ItemPage
  | page, upper, [] => { page with pdUpper := upper }
  | page, upper, item :: rest =>
    let moved := setOffset page item (upper - item.alignedlen)
    placeItems snapshot
      { moved with
        bytes := store page.bytes (upper - item.alignedlen)
          (load snapshot item.itemoff item.alignedlen) }
      (upper - item.alignedlen) rest

def Below : Nat → List ItemIdCompact → Prop
  | _, [] => True
  | bound, item :: rest => item.tail ≤ bound ∧ Below item.itemoff rest

def Faithful (snapshot : Memory) (scratch : Option Memory) (state : Compaction)
    (items : List ItemIdCompact) : Prop :=
  match scratch with
  | some copied => ∀ item ∈ items,
      load copied item.itemoff item.alignedlen = load snapshot item.itemoff item.alignedlen
  | none => state.copyHead ≤ state.upper ∧ Below state.copyHead items ∧
      ∀ location < state.copyHead, state.page.bytes location = snapshot location

variable {snapshot : Memory} {scratch : Option Memory} {state : Compaction} {item : ItemIdCompact}

section

variable (faithful : Faithful snapshot scratch state (item :: items))

include faithful

theorem faithful_reads :
    load (scratch.getD state.page.bytes) item.itemoff item.alignedlen =
        load snapshot item.itemoff item.alignedlen ∧
      load (scratch.getD (state.flush scratch).bytes) item.itemoff item.alignedlen =
        load snapshot item.itemoff item.alignedlen := by
  cases scratch with
  | some copied => exact ⟨faithful item mem_cons_self, faithful item mem_cons_self⟩
  | none =>
    obtain ⟨head, ⟨below, _⟩, same⟩ := faithful
    have isTail := item.tail_eq
    have reads : load state.page.bytes item.itemoff item.alignedlen =
        load snapshot item.itemoff item.alignedlen :=
      load_congr fun location _ high => same location (by omega)
    exact ⟨reads, (load_store_apart _ (.inl (by omega))).trans reads⟩

theorem faithful_step : Faithful snapshot scratch (compactStep scratch state item) items := by
  cases scratch with
  | some copied => exact fun other member => faithful other (mem_cons_of_mem _ member)
  | none =>
    obtain ⟨head, ⟨below, rest⟩, same⟩ := faithful
    have isTail := item.tail_eq
    unfold compactStep
    split
    · refine ⟨by dsimp only; omega, rest, fun location low => ?_⟩
      dsimp only at low
      exact (store_outside _ (.inl (by omega))).trans (same location (by omega))
    · refine ⟨by dsimp only; omega, rest, fun location low => ?_⟩
      dsimp only at low
      exact same location (by omega)

/-- A step copies one more item, whether or not the copy is put off. -/
theorem compact_step_flush (ordered : state.copyHead ≤ state.copyTail)
    (fits : item.alignedlen ≤ state.upper) :
    (compactStep scratch state item).flush scratch =
      { setOffset (state.flush scratch) item (state.upper - item.alignedlen) with
        bytes := store (state.flush scratch).bytes (state.upper - item.alignedlen)
          (load snapshot item.itemoff item.alignedlen) } := by
  obtain ⟨reads, readsAfter⟩ := faithful_reads faithful
  have isTail := item.tail_eq
  unfold compactStep
  split
  · have length : item.tail - item.itemoff = item.alignedlen := by omega
    unfold Compaction.flush
    rw [length]
    exact congrArg (fun bytes => ({ setOffset (state.flush scratch) item _ with
      bytes := store (state.flush scratch).bytes _ bytes } : ItemPage)) readsAfter
  · rename_i contiguous
    have isHead : state.copyHead = item.itemoff + item.alignedlen := not_not.mp contiguous
    have length : state.copyTail - item.itemoff =
        item.alignedlen + (state.copyTail - state.copyHead) := by omega
    have bytes : store state.page.bytes (state.upper - item.alignedlen)
          (load (scratch.getD state.page.bytes) item.itemoff (state.copyTail - item.itemoff)) =
        store (state.flush scratch).bytes (state.upper - item.alignedlen)
          (load snapshot item.itemoff item.alignedlen) := by
      rw [length, load_append, store_append, load_length, reads, ← isHead, Nat.sub_add_cancel fits]
      rfl
    exact congrArg (fun bytes => ({ setOffset state.page item (state.upper - item.alignedlen) with
      bytes := bytes } : ItemPage)) bytes

end

/-- The copies that are put off and flushed amount to one copy for each item. -/
theorem fold_places (faithful : Faithful snapshot scratch state items)
    (ordered : state.copyHead ≤ state.copyTail) (fits : totallen items ≤ state.upper) :
    { (items.foldl (compactStep scratch) state).flush scratch with
        pdUpper := (items.foldl (compactStep scratch) state).upper } =
      placeItems snapshot (state.flush scratch) state.upper items := by
  induction items generalizing state with
  | nil => rfl
  | cons item rest ih =>
    have total : totallen (item :: rest) = item.alignedlen + totallen rest := rfl
    have isTail := item.tail_eq
    have isUpper : (compactStep scratch state item).upper = state.upper - item.alignedlen := by
      unfold compactStep
      split <;> rfl
    have next : (compactStep scratch state item).copyHead ≤
        (compactStep scratch state item).copyTail := by
      unfold compactStep
      split
      · dsimp only
        omega
      · dsimp only
        omega
    rw [foldl_cons, ih (faithful_step faithful) next (by omega), isUpper,
      compact_step_flush faithful ordered (by omega)]
    rfl

theorem copy_items_places (faithful : ∀ first ∈ items.head?,
      Faithful snapshot scratch ⟨page, upper, first.tail, first.tail⟩ items)
    (fits : totallen items ≤ upper) :
    copyItems scratch page upper items = placeItems snapshot page upper items := by
  cases items with
  | nil => rfl
  | cons first rest =>
    have flushed : (⟨page, upper, first.tail, first.tail⟩ : Compaction).flush scratch = page := by
      unfold Compaction.flush
      rw [Nat.sub_self]
      exact congrArg (fun bytes => ({ page with bytes := bytes } : ItemPage)) (store_nil _ _)
    have places := fold_places (faithful first rfl) le_rfl fits
    rwa [flushed] at places

end Snapshots

section Compactable

def Separate (first second : ItemIdCompact) : Prop :=
  first.tail ≤ second.itemoff ∨ second.tail ≤ first.itemoff

instance : DecidableRel Separate := fun _ _ => inferInstanceAs (Decidable (_ ∨ _))

structure Compactable (page : ItemPage) (items : List ItemIdCompact) : Prop where
  inside : ∀ item ∈ items, page.pdUpper ≤ item.itemoff ∧ item.tail ≤ page.pdSpecial
  filled : ∀ item ∈ items, 0 < item.alignedlen
  separate : items.Pairwise Separate
  linked : ∀ item ∈ items, (page.pdLinp[item.offsetindex]?).map (·.lpOff) = some item.itemoff

variable {low : Nat}

theorem descending_below (below : ∀ item ∈ items, item.tail ≤ upper)
    (filled : ∀ item ∈ items, 0 < item.alignedlen) (separate : items.Pairwise Separate)
    (descending : items.Pairwise fun first second => second.itemoff ≤ first.itemoff) :
    Below upper items := by
  induction items generalizing upper with
  | nil => trivial
  | cons item rest ih =>
    obtain ⟨itemSeparate, restSeparate⟩ := pairwise_cons.mp separate
    obtain ⟨itemFirst, restDescending⟩ := pairwise_cons.mp descending
    refine ⟨below item mem_cons_self, ih (fun other member => ?_)
      (fun other member => filled other (mem_cons_of_mem _ member)) restSeparate restDescending⟩
    have isTail := item.tail_eq
    have itemFilled := filled item mem_cons_self
    have order := itemFirst other member
    rcases itemSeparate other member with behind | before <;> omega

theorem totallen_below (below : Below upper items) (above : ∀ item ∈ items, low ≤ item.itemoff)
    (bounds : low ≤ upper) : totallen items ≤ upper - low := by
  induction items generalizing upper with
  | nil => exact Nat.zero_le _
  | cons item rest ih =>
    have isTail := item.tail_eq
    have total : totallen (item :: rest) = item.alignedlen + totallen rest := rfl
    have itemAbove := above item mem_cons_self
    have fits := ih below.2 (fun other member => above other (mem_cons_of_mem _ member))
    have itemBelow := below.1
    omega

theorem totallen_fits (inside : ∀ item ∈ items, low ≤ item.itemoff ∧ item.tail ≤ upper)
    (filled : ∀ item ∈ items, 0 < item.alignedlen) (separate : items.Pairwise Separate)
    (bounds : low ≤ upper) : totallen items ≤ upper - low := by
  -- the total does not depend on the order of the items
  have perm := mergeSort_perm items fun first second => decide (second.itemoff ≤ first.itemoff)
  generalize isSorted : items.mergeSort _ = sorted at perm
  have descending : sorted.Pairwise fun first second => second.itemoff ≤ first.itemoff := by
    rw [← isSorted]
    refine (pairwise_mergeSort (fun first second third => ?_) (fun first second => ?_) _).imp ?_
    · simp only [decide_eq_true_eq]
      omega
    · simp only [Bool.or_eq_true, decide_eq_true_eq]
      omega
    · simp
  have total : totallen items = totallen sorted := (perm.symm.map _).sum_eq
  rw [total]
  refine totallen_below
    (descending_below (fun item member => (inside item (perm.mem_iff.mp member)).2)
    (fun item member => filled item (perm.mem_iff.mp member))
    ((perm.pairwise_iff Or.symm).mpr separate) descending)
    (fun item member => (inside item (perm.mem_iff.mp member)).1) bounds

theorem set_offset_self {item : ItemIdCompact}
    (linked : (page.pdLinp[item.offsetindex]?).map (·.lpOff) = some item.itemoff) :
    setOffset page item item.itemoff = page := by
  have same : page.pdLinp.modify item.offsetindex (fun lp => { lp with lpOff := item.itemoff }) =
      page.pdLinp := by
    apply ext_getElem?
    intro index
    by_cases isItem : item.offsetindex = index
    · subst isItem
      obtain ⟨lp, found, isOff⟩ := Option.map_eq_some_iff.mp linked
      rw [getElem?_modify_eq, found, ← isOff]
      rfl
    · exact getElem?_modify_ne _ _ isItem
  exact congrArg (fun linp => ({ page with pdLinp := linp } : ItemPage)) same

theorem skip_placed_places (below : ∀ item ∈ items, item.tail ≤ upper)
    (filled : ∀ item ∈ items, 0 < item.alignedlen) (separate : items.Pairwise Separate)
    (linked : ∀ item ∈ items, (page.pdLinp[item.offsetindex]?).map (·.lpOff) = some item.itemoff) :
    placeItems page.bytes page upper items =
        placeItems page.bytes page (skipPlaced upper items).1 (skipPlaced upper items).2 ∧
      (skipPlaced upper items).2 <:+ items ∧
      ∀ item ∈ (skipPlaced upper items).2, item.tail ≤ (skipPlaced upper items).1 := by
  induction items generalizing upper with
  | nil => exact ⟨rfl, suffix_refl _, nofun⟩
  | cons item rest ih =>
    unfold skipPlaced
    split
    · rename_i placed
      have isTail := item.tail_eq
      have start : upper - item.alignedlen = item.itemoff := by omega
      obtain ⟨itemSeparate, restSeparate⟩ := pairwise_cons.mp separate
      have restBelow (other : ItemIdCompact) (member : other ∈ rest) :
          other.tail ≤ upper - item.alignedlen := by
        have otherTail := other.tail_eq
        have otherBelow := below other (mem_cons_of_mem _ member)
        have otherFilled := filled other (mem_cons_of_mem _ member)
        rcases itemSeparate other member with after | before <;> omega
      obtain ⟨places, suffix, rest⟩ := ih restBelow
        (fun other member => filled other (mem_cons_of_mem _ member)) restSeparate
        (fun other member => linked other (mem_cons_of_mem _ member))
      refine ⟨?_, suffix.trans (suffix_cons _ _), rest⟩
      rw [← places]
      have stays := set_offset_self (linked item mem_cons_self)
      change placeItems page.bytes { setOffset page item (upper - item.alignedlen) with
        bytes := store _ _ _ } _ _ = _
      rw [start, stays]
      exact congrArg (fun bytes => placeItems page.bytes { page with bytes := bytes } _ _)
        (move_self _ _ _)
    · exact ⟨rfl, suffix_refl _, below⟩

theorem compactify_places (compactable : Compactable page items) (scratch : Memory)
    {presorted : Bool}
    (sorted : presorted = true →
      items.Pairwise fun first second => second.itemoff ≤ first.itemoff) :
    compactifyTuples scratch page items presorted =
      placeItems page.bytes page page.pdSpecial items := by
  have fits {upper : Nat} {rest : List ItemIdCompact} (suffix : rest <:+ items)
      (below : ∀ item ∈ rest, item.tail ≤ upper) : totallen rest ≤ upper :=
    totallen_fits (fun item member => ⟨Nat.zero_le _, below item member⟩)
      (fun item member => compactable.filled item (suffix.subset member))
      (compactable.separate.sublist suffix.sublist) (Nat.zero_le _)
  have inside (item : ItemIdCompact) (member : item ∈ items) := (compactable.inside item member).2
  obtain ⟨places, suffix, below⟩ :=
    skip_placed_places inside compactable.filled compactable.separate compactable.linked
  unfold compactifyTuples
  split
  · rename_i isSorted
    rw [places]
    refine copy_items_places (fun first isFirst => ?_) (fits suffix below)
    obtain ⟨rest, isRest⟩ := List.head?_eq_some_iff.mp isFirst
    have descends := descending_below below
      (fun item member => compactable.filled item (suffix.subset member))
      (compactable.separate.sublist suffix.sublist) ((sorted isSorted).sublist suffix.sublist)
    rw [isRest] at descends ⊢
    exact ⟨descends.1, ⟨Nat.le_refl _, descends.2⟩, fun _ _ => rfl⟩
  split
  · refine copy_items_places (fun _ _ => fun item member => ?_) (fits (suffix_refl _) inside)
    exact load_congr fun location low high => copies_over_at _ _ _ _
      (.inr ⟨item, member, low, high⟩)
  · rw [places]
    refine copy_items_places (fun _ _ => fun item member => ?_) (fits suffix below)
    have above := (compactable.inside item (suffix.subset member)).1
    have isTail := item.tail_eq
    have itemBelow := below item member
    refine load_congr fun location low high => ?_
    rw [copy_over_at, if_pos (by omega)]

end Compactable

section Placed

structure Placed (snapshot : Memory) (page : ItemPage) (upper : Nat) (items : List ItemIdCompact)
    (after : ItemPage) : Prop where
  fills : after.pdUpper + totallen items = upper
  others : after.pdLinp.length = page.pdLinp.length ∧
    ∀ index, (∀ item ∈ items, item.offsetindex ≠ index) → after.pdLinp[index]? = page.pdLinp[index]?
  header : after.pdSpecial = page.pdSpecial ∧ after.hasFreeLines = page.hasFreeLines
  above : ∀ location, upper ≤ location → after.bytes location = page.bytes location
  keeps : ∀ item ∈ items, ∃ off,
    after.pdLinp[item.offsetindex]? =
        (page.pdLinp[item.offsetindex]?).map (fun lp => { lp with lpOff := off }) ∧
      load after.bytes off item.alignedlen = load snapshot item.itemoff item.alignedlen
  covers : ∀ location, after.pdUpper ≤ location → location < upper → ∃ item ∈ items, ∃ off,
    after.pdLinp[item.offsetindex]? =
        (page.pdLinp[item.offsetindex]?).map (fun lp => { lp with lpOff := off }) ∧
      off ≤ location ∧ location < off + item.alignedlen

theorem place_items_placed (snapshot : Memory) (fits : totallen items ≤ upper)
    (distinct : items.Pairwise fun first second => first.offsetindex ≠ second.offsetindex) :
    Placed snapshot page upper items (placeItems snapshot page upper items) := by
  induction items generalizing page upper with
  | nil =>
    refine ⟨rfl, ⟨rfl, fun _ _ => rfl⟩, ⟨rfl, rfl⟩, fun _ _ => rfl, nofun,
      fun location low high => ?_⟩
    exact absurd low (not_le.mpr high)
  | cons item rest ih =>
    obtain ⟨itemDistinct, restDistinct⟩ := pairwise_cons.mp distinct
    have total : totallen (item :: rest) = item.alignedlen + totallen rest := rfl
    unfold placeItems
    have placed := @ih { setOffset page item (upper - item.alignedlen) with
      bytes := store page.bytes (upper - item.alignedlen)
        (load snapshot item.itemoff item.alignedlen) }
      (upper - item.alignedlen) (by omega) restDistinct
    generalize placeItems snapshot _ _ _ = after at placed
    have isUpper := placed.fills
    have others (index : Nat) (different : item.offsetindex ≠ index) :
        (setOffset page item (upper - item.alignedlen)).pdLinp[index]? = page.pdLinp[index]? :=
      getElem?_modify_ne _ _ different
    have isItem :=
      (placed.others.2 item.offsetindex fun other member => (itemDistinct other member).symm).trans
        (getElem?_modify_eq _ _ _)
    refine ⟨by omega, ⟨placed.others.1.trans (length_modify _ _ _), ?_⟩, placed.header, ?_, ?_, ?_⟩
    · intro index different
      rw [placed.others.2 index fun other member => different other (mem_cons_of_mem _ member)]
      exact others index (different item mem_cons_self)
    · intro location high
      rw [placed.above location (by omega)]
      exact store_outside _ (.inr (by rw [load_length]; omega))
    · intro other member
      rcases mem_cons.mp member with rfl | later
      · refine ⟨_, isItem, ?_⟩
        rw [load_congr fun location low _ => placed.above location low]
        have stored := load_store page.bytes (upper - other.alignedlen)
          (load snapshot other.itemoff other.alignedlen)
        rwa [load_length] at stored
      · obtain ⟨off, found, bytes⟩ := placed.keeps other later
        exact ⟨off, found.trans (congrArg _ (others _ (itemDistinct other later))), bytes⟩
    · intro location low high
      by_cases inItem : upper - item.alignedlen ≤ location
      · exact ⟨item, mem_cons_self, _, isItem, inItem, by omega⟩
      · obtain ⟨other, later, off, found, inside⟩ := placed.covers location low (by omega)
        exact ⟨other, mem_cons_of_mem _ later, off,
          found.trans (congrArg _ (others _ (itemDistinct other later))), inside⟩

variable {page : ItemPage} {items : List ItemIdCompact}

theorem Compactable.distinct (compactable : Compactable page items) :
    items.Pairwise fun first second => first.offsetindex ≠ second.offsetindex := by
  refine compactable.separate.imp_of_mem
    fun {first second} firstMember secondMember separate same => ?_
  have firstLinked := compactable.linked first firstMember
  rw [same, compactable.linked second secondMember] at firstLinked
  have sameOff := Option.some.inj firstLinked
  have firstFilled := compactable.filled first firstMember
  have secondFilled := compactable.filled second secondMember
  unfold Separate ItemIdCompact.tail at separate
  omega

theorem compactify_placed (compactable : Compactable page items) (scratch : Memory)
    {presorted : Bool}
    (sorted : presorted = true →
      items.Pairwise fun first second => second.itemoff ≤ first.itemoff) :
    Placed page.bytes page page.pdSpecial items
      (compactifyTuples scratch page items presorted) := by
  rw [compactify_places compactable scratch sorted]
  refine place_items_placed _ ?_ compactable.distinct
  exact totallen_fits (fun item member => ⟨Nat.zero_le _, (compactable.inside item member).2⟩)
    compactable.filled compactable.separate (Nat.zero_le _)

/-- On descending items it makes no difference which branch runs. -/
theorem compactify_branches_agree (compactable : Compactable page items)
    (descending : items.Pairwise fun first second => second.itemoff < first.itemoff)
    (scratch : Memory) :
    compactifyTuples scratch page items true = compactifyTuples scratch page items false ∧
      ∀ item ∈ items, ∃ off,
        (compactifyTuples scratch page items true).pdLinp[item.offsetindex]? =
            (page.pdLinp[item.offsetindex]?).map (fun lp => { lp with lpOff := off }) ∧
          load (compactifyTuples scratch page items true).bytes off item.alignedlen =
            load page.bytes item.itemoff item.alignedlen := by
  have sorted :=
    descending.imp le_of_lt
  refine ⟨?_, (compactify_placed compactable scratch fun _ => sorted).keeps⟩
  rw [compactify_places compactable scratch fun _ => sorted,
    compactify_places compactable scratch fun _ => sorted]

def gappedPage : ItemPage where
  hasFreeLines := false
  pdLinp := [⟨8168, .normal, 10⟩, ⟨8144, .normal, 8⟩]
  pdUpper := 8144
  pdSpecial := 8192
  bytes location := UInt8.ofNat location

theorem gapped_branches_agree :
    compactifyTuples (fun _ => 0) gappedPage [⟨0, 8168, 16⟩, ⟨1, 8144, 8⟩] true =
      compactifyTuples (fun _ => 0) gappedPage [⟨0, 8168, 16⟩, ⟨1, 8144, 8⟩] false := by
  have compactable : Compactable gappedPage [⟨0, 8168, 16⟩, ⟨1, 8144, 8⟩] :=
    ⟨by decide, by decide, by decide, by decide⟩
  exact (compactify_branches_agree compactable (by decide) _).1

end Placed

end FortressQL.Storage.PageItems
