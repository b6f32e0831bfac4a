import FortressQL.Transam.Clog
import Mathlib.Data.List.TakeWhile

/-!
# The commit of a transaction tree

Readers may look between any two pages of a tree that is being committed. The section that marks the
top-level transaction decides whether its members are found committed.
-/

namespace FortressQL.Transam.TreeCommit

open List Transam

variable {clog : Clog} {subtrans : Subtrans} {first : List PageUpdate} {cache : FetchCache}
  {above : List TransactionId}

structure TransactionTree where
  xid : TransactionId
  subxids : List TransactionId
  normal : ∀ member ∈ xid :: subxids, transactionIdIsNormal member = true
  apart : xid ∉ subxids

namespace TransactionTree

variable (tree : TransactionTree)

def members : List TransactionId := tree.xid :: tree.subxids

def sections : List PageUpdate := transactionIdSetTreeStatus tree.xid tree.subxids .committed

def onFirstPage (sub : TransactionId) : Bool :=
  transactionIdToPage sub == transactionIdToPage tree.xid

def firstPage : List TransactionId := tree.subxids.takeWhile tree.onFirstPage

def laterPages : List TransactionId := tree.subxids.dropWhile tree.onFirstPage

def mainSection : PageUpdate :=
  { xid := tree.xid
    subxids := tree.firstPage
    status := .committed
    pageno := transactionIdToPage tree.xid }

end TransactionTree

/-- The transactions above a member, up to the top-level one. -/
def Linked (subtrans : Subtrans) (tree : TransactionTree) :
    List TransactionId → TransactionId → Prop
  | [], member => member = tree.xid
  | parent :: above, member =>
    member ∈ tree.subxids ∧ subtrans member = parent ∧ Linked subtrans tree above parent

def Walkable (tree : TransactionTree) (transactionXmin : TransactionId)
    (way : List TransactionId) : Prop :=
  ∀ sub ∈ way, sub ≠ tree.xid → transactionIdPrecedes sub transactionXmin = false

structure LogState where
  clog : Clog
  subtrans : Subtrans
  /-- What the reader keeps. -/
  cache : FetchCache
  /-- The sections of the commit that are still to come. -/
  pending : List PageUpdate

variable {start state : LogState}

inductive Reached (tree : TransactionTree) (start : LogState) : LogState → Prop
  | start : Reached tree start start
  | own {state : LogState} {inRecovery : Bool} {update : PageUpdate} {rest : List PageUpdate}
      {clog : Clog} (before : Reached tree start state) (next : state.pending = update :: rest)
      (marked : transactionIdSetPageStatusInternal inRecovery state.clog update = some clog) :
      Reached tree start { state with clog := clog, pending := rest }
  | foreign {state : LogState} {inRecovery : Bool} {update : PageUpdate} {clog : Clog}
      (before : Reached tree start state) (other : ∀ member ∈ tree.members, member ∉ update.named)
      (marked : transactionIdSetPageStatusInternal inRecovery state.clog update = some clog) :
      Reached tree start { state with clog := clog }
  | linked {state : LogState} {child parent : TransactionId} (before : Reached tree start state)
      (other : child ∉ tree.members) :
      Reached tree start { state with subtrans := Function.update state.subtrans child parent }
  | asked {state : LogState} {transactionXmin xid : TransactionId} {fuel : Nat} {answer : Bool}
      {cache : FetchCache} (before : Reached tree start state)
      (told : transactionIdDidCommit state.clog state.subtrans transactionXmin fuel state.cache
        xid = some (answer, cache)) :
      Reached tree start { state with cache := cache }

/-- What the reader keeps of a transaction is final and agrees with the log. -/
def Truthful (clog : Clog) (cache : FetchCache) : Prop :=
  transactionIdIsNormal cache.cachedFetchXid = true →
    isFinal cache.cachedFetchXidStatus = true ∧
      transactionIdGetStatus clog cache.cachedFetchXid = cache.cachedFetchXidStatus

structure Prepared (tree : TransactionTree) (state : LogState) : Prop where
  pending : state.pending = tree.sections
  top : transactionIdGetStatus state.clog tree.xid = .inProgress
  subs : ∀ sub ∈ tree.subxids, isFinal (transactionIdGetStatus state.clog sub) = false
  links : ∀ sub ∈ tree.subxids, ∃ above, Linked state.subtrans tree above sub
  truthful : Truthful state.clog state.cache

def topPending (tree : TransactionTree) (state : LogState) : Bool :=
  state.pending.any fun update => update.xid == tree.xid

section Sections

theorem status_by_pages_each (status : XidStatus) (xids : List TransactionId) :
    ∀ update ∈ setStatusByPages status xids,
      update.xid = invalidTransactionId ∧ update.status = status ∧ update.subxids ⊆ xids ∧
        ∀ xid ∈ update.subxids, transactionIdToPage xid = update.pageno := by
  induction xids using setStatusByPages.induct with
  | case1 =>
    intro update member
    rw [setStatusByPages] at member
    cases member
  | case2 xid rest onPage ih =>
    intro update member
    rw [setStatusByPages] at member
    rcases mem_cons.mp member with rfl | later
    · refine ⟨rfl, rfl, ?_, ?_⟩
      · exact cons_subset_cons xid (takeWhile_sublist onPage).subset
      · intro other found
        rcases mem_cons.mp found with rfl | inRest
        · rfl
        · exact beq_iff_eq.mp (mem_takeWhile_imp (p := onPage) inRest)
    · obtain ⟨noMain, marks, within, onOne⟩ := ih update later
      refine ⟨noMain, marks, ?_, onOne⟩
      intro other found
      exact mem_cons_of_mem xid ((dropWhile_sublist onPage).subset (within found))

theorem status_by_pages_covers (status : XidStatus) (xids : List TransactionId) :
    ∀ xid ∈ xids, ∃ update ∈ setStatusByPages status xids, xid ∈ update.subxids := by
  induction xids using setStatusByPages.induct with
  | case1 =>
    intro xid member
    cases member
  | case2 xid rest onPage ih =>
    intro other member
    rw [setStatusByPages]
    by_cases first : other ∈ xid :: rest.takeWhile onPage
    · exact ⟨_, mem_cons_self, first⟩
    · have later : other ∈ rest.dropWhile onPage := by
        have whole : other ∈ xid :: (rest.takeWhile onPage ++ rest.dropWhile onPage) := by
          rw [takeWhile_append_dropWhile]
          exact member
        simp only [mem_cons, mem_append] at whole first
        tauto
      obtain ⟨update, found, within⟩ := ih other later
      exact ⟨update, mem_cons_of_mem _ found, within⟩

variable (tree : TransactionTree)

theorem sections_eq : tree.sections = setStatusByPages .subCommitted tree.laterPages ++
      tree.mainSection :: setStatusByPages .committed tree.laterPages := by
  change (if tree.laterPages = [] then _ else _) = _
  by_cases single : tree.laterPages = []
  · have whole : tree.firstPage = tree.subxids := by
      have split := takeWhile_append_dropWhile (p := tree.onFirstPage) (l := tree.subxids)
      change tree.firstPage ++ tree.laterPages = tree.subxids at split
      rwa [single, append_nil] at split
    rw [if_pos single, single, setStatusByPages, setStatusByPages, nil_append,
      TransactionTree.mainSection, whole]
  · rw [if_neg single]
    rfl

theorem later_subset : tree.laterPages ⊆ tree.subxids := (dropWhile_sublist _).subset

theorem first_subset : tree.firstPage ⊆ tree.subxids := (takeWhile_sublist _).subset

theorem first_or_later {sub : TransactionId} (member : sub ∈ tree.subxids) :
    sub ∈ tree.firstPage ∨ sub ∈ tree.laterPages := by
  rw [← takeWhile_append_dropWhile (p := tree.onFirstPage) (l := tree.subxids)] at member
  exact mem_append.mp member

theorem top_valid : tree.xid ≠ invalidTransactionId := by
  intro invalid
  have normal := tree.normal tree.xid mem_cons_self
  rw [invalid] at normal
  exact absurd normal (by decide)

end Sections

section Phases

variable (tree : TransactionTree)

structure Preparing (state : LogState) (first : List PageUpdate) : Prop where
  pending : state.pending =
    first ++ tree.mainSection :: setStatusByPages .committed tree.laterPages
  planned : first ⊆ setStatusByPages .subCommitted tree.laterPages
  top : transactionIdGetStatus state.clog tree.xid = .inProgress
  subs : ∀ sub ∈ tree.subxids, isFinal (transactionIdGetStatus state.clog sub) = false
  marked : ∀ sub ∈ tree.laterPages, transactionIdGetStatus state.clog sub = .subCommitted ∨
    ∃ update ∈ first, sub ∈ update.subxids

structure Completing (state : LogState) : Prop where
  planned : state.pending ⊆ setStatusByPages .committed tree.laterPages
  top : transactionIdGetStatus state.clog tree.xid = .committed
  subs : ∀ sub ∈ tree.subxids, transactionIdGetStatus state.clog sub = .committed ∨
    transactionIdGetStatus state.clog sub = .subCommitted ∧
      ∃ update ∈ state.pending, sub ∈ update.subxids

variable {tree} {update : PageUpdate}

theorem planned_section {status : XidStatus}
    (planned : update ∈ setStatusByPages status tree.laterPages) :
    update = ⟨invalidTransactionId, update.subxids, status, update.pageno⟩ ∧
      update.subxids ⊆ tree.subxids ∧ tree.xid ∉ update.subxids := by
  obtain ⟨noMain, marks, within, -⟩ := status_by_pages_each status tree.laterPages update planned
  refine ⟨?_, fun sub found => later_subset tree (within found),
    fun found => tree.apart (later_subset tree (within found))⟩
  rw [← noMain, ← marks]

theorem preparing_section (preparing : Preparing tree state (update :: first)) (inRecovery : Bool) :
    ∃ clog, transactionIdSetPageStatusInternal inRecovery state.clog update = some clog ∧
      Preparing tree
        { state with
          clog := clog
          pending := first ++ tree.mainSection :: setStatusByPages .committed tree.laterPages }
        first := by
  have planned := preparing.planned mem_cons_self
  obtain ⟨shape, within, notTop⟩ := planned_section planned
  obtain ⟨-, -, -, onPage⟩ := status_by_pages_each _ _ update planned
  obtain ⟨clog, returned, statuses⟩ :=
    subxids_status_returns inRecovery state.clog .subCommitted update.subxids update.pageno onPage
      fun sub found => unfinished_may_become (preparing.subs sub (within found)) (by decide)
  refine ⟨clog, shape ▸ returned, rfl, fun _ found => preparing.planned
    (mem_cons_of_mem update found), ?_, fun sub member => ?_, fun sub member => ?_⟩
  · rw [statuses tree.xid, if_neg notTop]
    exact preparing.top
  · rw [statuses sub]
    split
    · decide
    · exact preparing.subs sub member
  · rw [statuses sub]
    by_cases now : sub ∈ update.subxids
    · rw [if_pos now]
      exact .inl rfl
    · rw [if_neg now]
      refine (preparing.marked sub member).imp_right fun later => ?_
      obtain ⟨other, found, inOther⟩ := later
      rcases mem_cons.mp found with rfl | inFirst
      · exact absurd inOther now
      · exact ⟨other, inFirst, inOther⟩

theorem deciding_section (preparing : Preparing tree state []) (inRecovery : Bool) :
    ∃ clog, transactionIdSetPageStatusInternal inRecovery state.clog tree.mainSection = some clog ∧
      Completing tree
        { state with
          clog := clog
          pending := setStatusByPages .committed tree.laterPages } := by
  obtain ⟨clog, returned, statuses⟩ :=
    main_status_returns inRecovery state.clog tree.xid tree.firstPage (top_valid tree)
      (fun sub found => beq_iff_eq.mp (mem_takeWhile_imp (p := tree.onFirstPage) found))
      (fun found => tree.apart (first_subset tree found)) (by
        intro member found
        rcases mem_cons.mp found with rfl | inFirst
        · rw [preparing.top]
          decide
        · exact preparing.subs member (first_subset tree inFirst))
  refine ⟨clog, returned, fun _ found => found, ?_, fun sub member => ?_⟩
  · rw [statuses tree.xid, if_pos mem_cons_self]
  · rw [statuses sub]
    by_cases now : sub ∈ tree.xid :: tree.firstPage
    · rw [if_pos now]
      exact .inl rfl
    · have later : sub ∈ tree.laterPages := (first_or_later tree member).resolve_left
        fun first => now (mem_cons_of_mem _ first)
      rw [if_neg now]
      right
      constructor
      · refine (preparing.marked sub later).resolve_right ?_
        rintro ⟨update, none, -⟩
        cases none
      · exact status_by_pages_covers .committed tree.laterPages sub later

theorem completing_section {rest : List PageUpdate} (completing : Completing tree state)
    (next : state.pending = update :: rest) (inRecovery : Bool) :
    ∃ clog, transactionIdSetPageStatusInternal inRecovery state.clog update = some clog ∧
      Completing tree { state with clog := clog, pending := rest } := by
  have planned : update ∈ setStatusByPages .committed tree.laterPages :=
    completing.planned (by rw [next]; exact mem_cons_self)
  obtain ⟨shape, within, notTop⟩ := planned_section planned
  obtain ⟨-, -, -, onPage⟩ := status_by_pages_each _ _ update planned
  have may : ∀ sub ∈ update.subxids,
      mayBecome (transactionIdGetStatus state.clog sub) .committed = true := by
    intro sub found
    rcases completing.subs sub (within found) with committed | ⟨subCommitted, -⟩
    · rw [committed]
      decide
    · rw [subCommitted]
      decide
  obtain ⟨clog, returned, statuses⟩ :=
    subxids_status_returns inRecovery state.clog .committed update.subxids update.pageno onPage may
  refine ⟨clog, shape ▸ returned, fun _ found => completing.planned
    (by rw [next]; exact mem_cons_of_mem update found), ?_, fun sub member => ?_⟩
  · rw [statuses tree.xid, if_neg notTop]
    exact completing.top
  · rw [statuses sub]
    by_cases now : sub ∈ update.subxids
    · rw [if_pos now]
      exact .inl rfl
    · rw [if_neg now]
      refine (completing.subs sub member).imp_right fun ⟨subCommitted, other, found, inOther⟩ => ?_
      rw [next] at found
      rcases mem_cons.mp found with rfl | inRest
      · exact absurd inOther now
      · exact ⟨subCommitted, other, inRest, inOther⟩

theorem phase_frame {next : LogState}
    (phase : (∃ first, Preparing tree state first) ∨ Completing tree state)
    (pending : next.pending = state.pending) (same : ∀ member ∈ tree.members,
      transactionIdGetStatus next.clog member = transactionIdGetStatus state.clog member) :
    (∃ first, Preparing tree next first) ∨ Completing tree next := by
  have sameTop := same tree.xid mem_cons_self
  have sameSub :=
    fun sub member => same sub (mem_cons_of_mem tree.xid member)
  rcases phase with ⟨first, preparing⟩ | completing
  · refine .inl ⟨first, pending.trans preparing.pending, preparing.planned,
      sameTop.trans preparing.top, ?_, ?_⟩
    · intro sub member
      rw [sameSub sub member]
      exact preparing.subs sub member
    · intro sub member
      rw [sameSub sub (later_subset tree member)]
      exact preparing.marked sub member
  · refine .inr ⟨pending ▸ completing.planned, sameTop.trans completing.top, ?_⟩
    intro sub member
    rw [sameSub sub member, pending]
    exact completing.subs sub member

end Phases

section Answers

variable {tree : TransactionTree} {xid member : TransactionId}

theorem fetch_truthful (truthful : Truthful clog cache) (xid : TransactionId) :
    Truthful clog (transactionLogFetch clog cache xid).2 := by
  unfold transactionLogFetch
  split
  · exact truthful
  · split
    · exact truthful
    · dsimp only
      split
      · rename_i final
        exact fun _ => ⟨final, rfl⟩
      · exact truthful

theorem fetch_status (truthful : Truthful clog cache) (normal : transactionIdIsNormal xid = true) :
    (transactionLogFetch clog cache xid).1 = transactionIdGetStatus clog xid := by
  unfold transactionLogFetch
  split
  · rename_i cached
    subst cached
    exact (truthful normal).2.symm
  · rw [if_neg (by rw [normal]; decide)]
    dsimp only
    split
    · rfl
    · rfl

theorem did_commit_truthful (clog : Clog) (subtrans : Subtrans) (transactionXmin : TransactionId)
    (fuel : Nat) {after : FetchCache} {answer : Bool} (truthful : Truthful clog cache)
    (told : transactionIdDidCommit clog subtrans transactionXmin fuel cache xid =
      some (answer, after)) : Truthful clog after := by
  induction fuel generalizing cache xid with
  | zero => cases told
  | succ fuel ih =>
    have fetched := fetch_truthful truthful xid
    rw [transactionIdDidCommit] at told
    dsimp only at told
    split at told
    · cases told
      exact fetched
    · split at told
      · cases told
        exact fetched
      · split at told
        · cases told
          exact fetched
        · exact ih fetched told
    · cases told
      exact fetched
    · cases told
      exact fetched

theorem linked_member (linked : Linked subtrans tree above member) : member ∈ tree.members := by
  cases above with
  | nil =>
    obtain rfl : member = tree.xid := linked
    exact mem_cons_self
  | cons parent above => exact mem_cons_of_mem tree.xid linked.1

/-- A subcommitted member is answered like its parent. All others have the status of the top-level
transaction. -/
theorem walk_answer {status : XidStatus} (settled : status ≠ .subCommitted)
    (top : transactionIdGetStatus clog tree.xid = status)
    (subs : ∀ sub ∈ tree.subxids, transactionIdGetStatus clog sub = status ∨
      transactionIdGetStatus clog sub = .subCommitted)
    (truthful : Truthful clog cache) {transactionXmin : TransactionId} {fuel : Nat}
    (linked : Linked subtrans tree above member)
    (walkable : status = .committed → Walkable tree transactionXmin (member :: above))
    (enough : above.length < fuel) :
    (transactionIdDidCommit clog subtrans transactionXmin fuel cache member).map Prod.fst =
      some (decide (status = .committed)) := by
  induction above generalizing member fuel cache with
  | nil =>
    obtain ⟨-, rfl⟩ := Nat.exists_eq_add_of_lt enough
    obtain rfl : member = tree.xid := linked
    rw [transactionIdDidCommit, fetch_status truthful (tree.normal _ mem_cons_self), top]
    cases status <;> first | rfl | exact absurd rfl settled
  | cons parent above ih =>
    obtain ⟨fuel, rfl⟩ : ∃ smaller, fuel = smaller + 1 :=
      Nat.exists_eq_add_one.mpr (Nat.zero_lt_of_lt enough)
    obtain ⟨sub, link, rest⟩ := linked
    have normal := tree.normal member (mem_cons_of_mem tree.xid sub)
    rw [transactionIdDidCommit, fetch_status truthful normal]
    rcases subs member sub with same | subCommitted
    · rw [same]
      cases status <;> first | rfl | exact absurd rfl settled
    · have valid : parent ≠ invalidTransactionId := by
        rintro rfl
        exact absurd (tree.normal _ (linked_member rest)) (by decide)
      simp only [subCommitted]
      split
      · rename_i before
        have uncommitted : status ≠ .committed := by
          intro committed
          have notBefore := walkable committed member mem_cons_self
            fun isTop => tree.apart (isTop ▸ sub)
          rw [before] at notBefore
          cases notBefore
        simp [uncommitted]
      · rw [subTransGetParent, if_pos normal, link, if_neg valid]
        exact ih (fetch_truthful truthful member) rest
          (fun committed other found => walkable committed other (mem_cons_of_mem member found))
          (Nat.lt_of_succ_lt_succ enough)

theorem preparing_subs (preparing : Preparing tree state first) {sub : TransactionId}
    (found : sub ∈ tree.subxids) : transactionIdGetStatus state.clog sub = .inProgress ∨
      transactionIdGetStatus state.clog sub = .subCommitted := by
  have unfinished := preparing.subs sub found
  cases status : transactionIdGetStatus state.clog sub <;> simp [status, isFinal] at unfinished ⊢

end Answers

section Runs

variable {tree : TransactionTree}

structure Sound (tree : TransactionTree) (state : LogState) : Prop where
  phase : (∃ first, Preparing tree state first) ∨ Completing tree state
  links : ∀ sub ∈ tree.subxids, ∃ above, Linked state.subtrans tree above sub
  truthful : Truthful state.clog state.cache

variable {update : PageUpdate} {state : LogState} {rest : List PageUpdate}

theorem prepared_sound (prepared : Prepared tree state) : Sound tree state := by
  refine ⟨.inl ⟨setStatusByPages .subCommitted tree.laterPages, ?_, Subset.refl _,
    prepared.top, prepared.subs, ?_⟩, prepared.links, prepared.truthful⟩
  · rw [prepared.pending, sections_eq]
  · intro sub member
    exact .inr (status_by_pages_covers .subCommitted tree.laterPages sub member)

/-- The next section of the commit never fails, and the log stays sound. -/
theorem section_returns (sound : Sound tree state) (next : state.pending = update :: rest)
    (inRecovery : Bool) :
    ∃ clog, transactionIdSetPageStatusInternal inRecovery state.clog update = some clog ∧
      ((∃ first, Preparing tree { state with clog := clog, pending := rest } first) ∨
        Completing tree { state with clog := clog, pending := rest }) := by
  rcases sound.phase with ⟨first, preparing⟩ | completing
  · have pending := next.symm.trans preparing.pending
    cases first with
    | nil =>
      obtain ⟨rfl, rfl⟩ := cons.inj pending
      obtain ⟨clog, returned, after⟩ := deciding_section preparing inRecovery
      exact ⟨clog, returned, .inr after⟩
    | cons planned first =>
      obtain ⟨rfl, rfl⟩ := cons.inj pending
      obtain ⟨clog, returned, after⟩ := preparing_section preparing inRecovery
      exact ⟨clog, returned, .inl ⟨first, after⟩⟩
  · obtain ⟨clog, returned, after⟩ := completing_section completing next inRecovery
    exact ⟨clog, returned, .inr after⟩

theorem section_named (sound : Sound tree state) (next : state.pending = update :: rest) :
    update.named ⊆ tree.members := by
  have planned {status : XidStatus} (member : update ∈ setStatusByPages status tree.laterPages) :
      update.named ⊆ tree.members := by
    obtain ⟨shape, within, -⟩ := planned_section member
    intro xid found
    rw [shape] at found
    exact mem_cons_of_mem tree.xid (within found)
  rcases sound.phase with ⟨first, preparing⟩ | completing
  · have pending := next.symm.trans preparing.pending
    cases first with
    | nil =>
      obtain ⟨rfl, rfl⟩ := cons.inj pending
      change (if tree.xid = invalidTransactionId then tree.firstPage
        else tree.xid :: tree.firstPage) ⊆ tree.members
      rw [if_neg (top_valid tree)]
      exact cons_subset_cons tree.xid (first_subset tree)
    | cons other first =>
      obtain ⟨rfl, rfl⟩ := cons.inj pending
      exact planned (preparing.planned mem_cons_self)
  · exact planned (completing.planned (by rw [next]; exact mem_cons_self))

theorem truthful_update {after : Clog} {inRecovery : Bool} (truthful : Truthful clog cache)
    (returned : transactionIdSetPageStatusInternal inRecovery clog update = some after) :
    Truthful after cache := by
  intro normal
  obtain ⟨final, agrees⟩ := truthful normal
  refine ⟨final, ?_⟩
  rcases page_status_changes returned cache.cachedFetchXid with same | ⟨-, unfinished⟩
  · exact same.trans agrees
  · rw [agrees, final] at unfinished
    cases unfinished

theorem linked_frame {child parent : TransactionId} (other : child ∉ tree.members)
    {member : TransactionId} (linked : Linked subtrans tree above member) :
    Linked (Function.update subtrans child parent) tree above member := by
  induction above generalizing member with
  | nil => exact linked
  | cons next above ih =>
    obtain ⟨sub, link, rest⟩ := linked
    refine ⟨sub, ?_, ih rest⟩
    rw [Function.update_of_ne]
    · exact link
    · rintro rfl
      exact other (mem_cons_of_mem tree.xid sub)

theorem reached_sound (sound : Sound tree start) (reached : Reached tree start state) :
    Sound tree state := by
  induction reached with
  | start => exact sound
  | own before next marked ih =>
    obtain ⟨clog, returned, phase⟩ := section_returns ih next _
    rw [marked] at returned
    cases returned
    exact ⟨phase, ih.links, truthful_update ih.truthful marked⟩
  | foreign before other marked ih =>
    have same := fun member found =>
      (page_status_changes marked member).resolve_right fun named => other member found named.1
    exact ⟨phase_frame ih.phase rfl same, ih.links, truthful_update ih.truthful marked⟩
  | linked before other ih =>
    refine ⟨phase_frame ih.phase rfl fun _ _ => rfl, fun sub member => ?_, ih.truthful⟩
    obtain ⟨above, linked⟩ := ih.links sub member
    exact ⟨above, linked_frame other linked⟩
  | asked before told ih =>
    exact ⟨phase_frame ih.phase rfl fun _ _ => rfl, ih.links,
      did_commit_truthful _ _ _ _ ih.truthful told⟩

theorem reached_pending (reached : Reached tree start state) : state.pending ⊆ start.pending := by
  induction reached with
  | start => exact Subset.refl _
  | own before next marked ih =>
    rw [next] at ih
    exact Subset.trans (subset_cons_self _ _) ih
  | foreign before other marked ih => exact ih
  | linked before other ih => exact ih
  | asked before told ih => exact ih

theorem preparing_pending (preparing : Preparing tree state first) :
    topPending tree state = true := by
  rw [topPending, preparing.pending]
  simp [TransactionTree.mainSection]

theorem completing_pending (completing : Completing tree state) :
    topPending tree state = false := by
  rw [topPending, any_eq_false]
  intro update member
  obtain ⟨noMain, -⟩ := status_by_pages_each _ _ update (completing.planned member)
  rw [noMain, beq_iff_eq]
  exact (top_valid tree).symm

/-- Between any two sections of the commit every member from which the reader may walk up is
answered alike, by whether the section of the top-level transaction is over. -/
theorem tree_commit_atomic (tree : TransactionTree) (start state : LogState)
    (prepared : Prepared tree start) (reached : Reached tree start state) :
    (∀ transactionXmin above member fuel, Linked state.subtrans tree above member →
      Walkable tree transactionXmin (member :: above) → above.length < fuel →
        (transactionIdDidCommit state.clog state.subtrans transactionXmin fuel state.cache
          member).map Prod.fst = some (!topPending tree state)) ∧
    (∀ sub ∈ tree.subxids, ∃ above, Linked state.subtrans tree above sub) ∧
    topPending tree start = true ∧
    (∀ next, Reached tree state next → topPending tree next = true →
      topPending tree state = true) ∧
    (∀ inRecovery update rest, state.pending = update :: rest →
      ∃ clog, transactionIdSetPageStatusInternal inRecovery state.clog update = some clog ∧
        ∀ other, other ∉ tree.members →
          transactionIdGetStatus clog other = transactionIdGetStatus state.clog other) ∧
    (state.pending = [] → topPending tree state = false ∧
      ∀ member ∈ tree.members, transactionIdGetStatus state.clog member = .committed) := by
  have initial := prepared_sound prepared
  have sound := reached_sound initial reached
  refine ⟨?_, sound.links, ?_, ?_, ?_, ?_⟩
  · intro transactionXmin above member fuel linked walkable enough
    rcases sound.phase with ⟨first, preparing⟩ | completing
    · rw [preparing_pending preparing]
      exact walk_answer (by decide) preparing.top (fun _ => preparing_subs preparing)
        sound.truthful linked nofun enough
    · rw [completing_pending completing]
      exact walk_answer (by decide) completing.top (fun sub found =>
        (completing.subs sub found).imp_right And.left) sound.truthful linked (fun _ => walkable)
        enough
  · rw [topPending, prepared.pending, sections_eq]
    simp [TransactionTree.mainSection]
  · intro next later pending
    obtain ⟨update, member, top⟩ := any_eq_true.mp pending
    exact any_eq_true.mpr ⟨update, reached_pending later member, top⟩
  · intro inRecovery update rest next
    obtain ⟨clog, returned, -⟩ := section_returns sound next inRecovery
    refine ⟨clog, returned, fun other outside => ?_⟩
    refine (page_status_changes returned other).resolve_right fun named => outside ?_
    exact section_named sound next named.1
  · intro finished
    rcases sound.phase with ⟨first, preparing⟩ | completing
    · have pending := preparing.pending
      rw [finished] at pending
      cases first <;> cases pending
    · refine ⟨completing_pending completing, fun member found => ?_⟩
      rcases mem_cons.mp found with rfl | sub
      · exact completing.top
      · refine (completing.subs member sub).resolve_right ?_
        rintro ⟨-, update, none, -⟩
        rw [finished] at none
        cases none

def nestedTree : TransactionTree :=
  { xid := 3
    subxids := [32768, 32769]
    normal := List.forall_mem_cons.mpr
      ⟨by decide, List.forall_mem_cons.mpr ⟨by decide, List.forall_mem_singleton.mpr (by decide)⟩⟩
    apart := by decide }

def nestedStart : LogState :=
  { clog := fun _ _ => 0
    subtrans := fun xid => if xid = 32769 then 32768 else 3
    cache := ⟨invalidTransactionId, .inProgress⟩
    pending :=
      [⟨invalidTransactionId, [32768, 32769], .subCommitted, 1⟩, ⟨3, [], .committed, 0⟩,
        ⟨invalidTransactionId, [32768, 32769], .committed, 1⟩] }

theorem nested_prepared : Prepared nestedTree nestedStart := by
  refine ⟨?_, by decide, forall_mem_cons.mpr
    ⟨by decide, forall_mem_singleton.mpr (by decide)⟩, ?_, ?_⟩
  · rw [sections_eq]
    have later : nestedTree.laterPages = [32768, 32769] := by decide
    rw [later, setStatusByPages, setStatusByPages]
    have none : dropWhile
        (fun other => transactionIdToPage other == transactionIdToPage 32768) [32769] = [] := by
      decide
    rw [none, setStatusByPages, setStatusByPages]
    rfl
  · intro sub member
    rcases mem_cons.mp member with rfl | nested
    · exact ⟨[3], by decide, rfl, rfl⟩
    · obtain rfl := mem_singleton.mp nested
      exact ⟨[32768, 3], by decide, rfl, by decide, rfl, rfl⟩
  · intro normal
    exact absurd normal (by decide)

theorem nested_commit_atomic :
    ∃ state, Prepared nestedTree nestedStart ∧ Reached nestedTree nestedStart state ∧
      (transactionIdDidCommit state.clog state.subtrans 3 3 state.cache 32769).map Prod.fst =
        some true := by
  have deciding := @Reached.own nestedTree nestedStart _ false _ _ _
    (@Reached.own nestedTree nestedStart _ false _ _ _ .start rfl rfl) rfl rfl
  refine ⟨_, nested_prepared, deciding, ?_⟩
  apply (tree_commit_atomic nestedTree nestedStart _ nested_prepared deciding).1 3 [32768, 3]
  · exact ⟨by decide, rfl, by decide, rfl, rfl⟩
  · exact forall_mem_cons.mpr
      ⟨by decide, forall_mem_cons.mpr ⟨by decide, forall_mem_singleton.mpr (by decide)⟩⟩
  · decide

/-- A subtransaction not older than the reader's limit is found uncommitted where its parent is
older. -/
theorem nested_commit_hidden :
    ∃ state, Prepared nestedTree nestedStart ∧ Reached nestedTree nestedStart state ∧
      transactionIdPrecedes 32769 32769 = false ∧
      (∃ above, Linked state.subtrans nestedTree above 32769) ∧
      (transactionIdDidCommit state.clog state.subtrans 32769 2 state.cache 3).map Prod.fst =
        some true ∧
      (transactionIdDidCommit state.clog state.subtrans 32769 2 state.cache 32769).map Prod.fst =
        some false := by
  have deciding := @Reached.own nestedTree nestedStart _ false _ _ _
    (@Reached.own nestedTree nestedStart _ false _ _ _ .start rfl rfl) rfl rfl
  refine ⟨_, nested_prepared, deciding, by decide, ⟨[32768, 3], ?_⟩, ?_, ?_⟩
  · exact ⟨by decide, rfl, by decide, rfl, rfl⟩
  · rfl
  · rfl

end Runs

end FortressQL.Transam.TreeCommit
