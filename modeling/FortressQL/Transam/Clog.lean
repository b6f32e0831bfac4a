import FortressQL.Lib.ByteMaps

/-!
# The commit log

`clog.c` and `transam.c`: two bits for every transaction. A tree is marked page by page. Readers
resolve a sub-committed status through the parents of `subtrans.c`.
-/

namespace FortressQL.Transam

open Option Function List Lib.ByteMaps

abbrev TransactionId := UInt32

def invalidTransactionId : TransactionId := 0

def bootstrapTransactionId : TransactionId := 1

def frozenTransactionId : TransactionId := 2

def transactionIdIsNormal (xid : TransactionId) : Bool := 3 ≤ xid.toNat

def transactionIdPrecedes (id1 id2 : TransactionId) : Bool :=
  if transactionIdIsNormal id1 = false ∨ transactionIdIsNormal id2 = false then
    id1.toNat < id2.toNat
  else 2 ^ 31 ≤ (id1 - id2).toNat

inductive XidStatus where
  | inProgress
  | committed
  | aborted
  | subCommitted
  deriving DecidableEq

def XidStatus.bits : XidStatus → UInt8
  | .inProgress => 0
  | .committed => 1
  | .aborted => 2
  | .subCommitted => 3

def XidStatus.ofBits (bits : UInt8) : XidStatus :=
  if bits = 0 then .inProgress
  else if bits = 1 then .committed
  else if bits = 2 then .aborted
  else .subCommitted

def clogXactsPerByte : Nat := 4

def clogXactsPerPage : Nat := 8192 * clogXactsPerByte

def transactionIdToPage (xid : TransactionId) : Nat := xid.toNat / clogXactsPerPage

def transactionIdToByte (xid : TransactionId) : Nat :=
  xid.toNat % clogXactsPerPage / clogXactsPerByte

def bshift (xid : TransactionId) : UInt8 := UInt8.ofNat (xid.toNat % clogXactsPerByte * 2)

/-- The pages, byte by byte. The buffers that hold them and the group positions of asynchronous
commits are left out. -/
abbrev Clog := Nat → Nat → UInt8

def statusOfByte (byte shift : UInt8) : XidStatus := XidStatus.ofBits ((byte >>> shift) &&& 3)

def setByte (byte shift : UInt8) (status : XidStatus) : UInt8 :=
  (byte &&& ~~~(3 <<< shift)) ||| (status.bits <<< shift)

def transactionIdGetStatus (clog : Clog) (xid : TransactionId) : XidStatus :=
  statusOfByte (clog (transactionIdToPage xid) (transactionIdToByte xid)) (bshift xid)

def putByte (clog : Clog) (pageno byteno : Nat) (byte : UInt8) : Clog :=
  Function.update clog pageno (Function.update (clog pageno) byteno byte)

def isFinal (status : XidStatus) : Bool := status = .committed ∨ status = .aborted

def mayBecome (curval status : XidStatus) : Bool :=
  curval = .inProgress ∨ curval = .subCommitted ∧ status ≠ .inProgress ∨ curval = status

/-- Nothing comes back where an assertion of the source fails. -/
def transactionIdSetStatusBit (inRecovery : Bool) (pageno : Nat) (status : XidStatus) (clog : Clog)
    (xid : TransactionId) : Option Clog :=
  let byteno := transactionIdToByte xid
  let byte := clog pageno byteno
  let curval := statusOfByte byte (bshift xid)
  if transactionIdToPage xid ≠ pageno then none
  else if inRecovery = true ∧ status = .subCommitted ∧ curval = .committed then some clog
  else if mayBecome curval status then
    some (putByte clog pageno byteno (setByte byte (bshift xid) status))
  else none

structure PageUpdate where
  xid : TransactionId
  subxids : List TransactionId
  status : XidStatus
  pageno : Nat

def setStatuses (inRecovery : Bool) (pageno : Nat) (status : XidStatus) (clog : Clog)
    (xids : List TransactionId) : Option Clog :=
  xids.foldlM (transactionIdSetStatusBit inRecovery pageno status) clog

/-- The subtransactions on the page of the top-level transaction are sub-committed first. -/
def setMainStatus (inRecovery : Bool) (clog : Clog) (update : PageUpdate) : Option Clog :=
  let prepared :=
    if update.status = .committed then
      setStatuses inRecovery update.pageno .subCommitted clog update.subxids
    else some clog
  prepared.bind fun marked =>
    transactionIdSetStatusBit inRecovery update.pageno update.status marked update.xid

def transactionIdSetPageStatusInternal (inRecovery : Bool) (clog : Clog) (update : PageUpdate) :
    Option Clog :=
  let main :=
    if update.xid ≠ invalidTransactionId then setMainStatus inRecovery clog update else some clog
  main.bind fun marked => setStatuses inRecovery update.pageno update.status marked update.subxids

/-- One update for each stretch of the list that lies on one page. -/
def setStatusByPages (status : XidStatus) : List TransactionId → List PageUpdate
  | [] => []
  | xid :: rest =>
    let onPage := fun other => transactionIdToPage other == transactionIdToPage xid
    { xid := invalidTransactionId
      subxids := xid :: rest.takeWhile onPage
      status := status
      pageno := transactionIdToPage xid } :: setStatusByPages status (rest.dropWhile onPage)
termination_by xids => xids.length
decreasing_by
  exact Nat.lt_succ_of_le (List.dropWhile_sublist _).length_le

def transactionIdSetTreeStatus (xid : TransactionId) (subxids : List TransactionId)
    (status : XidStatus) : List PageUpdate :=
  let pageno := transactionIdToPage xid
  let onFirstPage := subxids.takeWhile fun sub => transactionIdToPage sub == pageno
  let others := subxids.dropWhile fun sub => transactionIdToPage sub == pageno
  let update : List TransactionId → PageUpdate := fun subs =>
    { xid := xid, subxids := subs, status := status, pageno := pageno }
  if others = [] then [update subxids]
  else
    (if status = .committed then setStatusByPages .subCommitted others else []) ++
      update onFirstPage :: setStatusByPages status others

structure FetchCache where
  cachedFetchXid : TransactionId
  cachedFetchXidStatus : XidStatus

def permanentStatus (xid : TransactionId) : XidStatus :=
  if xid = bootstrapTransactionId then .committed
  else if xid = frozenTransactionId then .committed
  else .aborted

def transactionLogFetch (clog : Clog) (cache : FetchCache) (xid : TransactionId) :
    XidStatus × FetchCache :=
  if xid = cache.cachedFetchXid then (cache.cachedFetchXidStatus, cache)
  else if transactionIdIsNormal xid = false then (permanentStatus xid, cache)
  else
    let status := transactionIdGetStatus clog xid
    if isFinal status then
      (status, { cachedFetchXid := xid, cachedFetchXidStatus := status })
    else (status, cache)

abbrev Subtrans := TransactionId → TransactionId

def subTransGetParent (subtrans : Subtrans) (xid : TransactionId) : TransactionId :=
  if transactionIdIsNormal xid then subtrans xid else invalidTransactionId

/-- The fuel bounds the walk up the links. The warning about a missing link is left out. -/
def transactionIdDidCommit (clog : Clog) (subtrans : Subtrans) (transactionXmin : TransactionId) :
    Nat → FetchCache → TransactionId → Option (Bool × FetchCache)
  | 0, _, _ => none
  | fuel + 1, cache, xid =>
    let fetched := transactionLogFetch clog cache xid
    match fetched.1 with
    | .committed => some (true, fetched.2)
    | .subCommitted =>
      if transactionIdPrecedes xid transactionXmin then some (false, fetched.2)
      else
        let parentXid := subTransGetParent subtrans xid
        if parentXid = invalidTransactionId then some (false, fetched.2)
        else transactionIdDidCommit clog subtrans transactionXmin fuel fetched.2 parentXid
    | .inProgress => some (false, fetched.2)
    | .aborted => some (false, fetched.2)

section Statuses

theorem bits_of_status (status : XidStatus) : XidStatus.ofBits status.bits = status := by
  cases status <;> rfl

theorem masked_bits : ∀ first second : Fin 4,
    ((~~~(3 <<< UInt8.ofNat (first.val * 2))) >>> UInt8.ofNat (second.val * 2)) &&& 3 =
      if first = second then (0 : UInt8) else 3 := by
  decide

theorem placed_bits (status : XidStatus) : ∀ first second : Fin 4,
    ((status.bits <<< UInt8.ofNat (first.val * 2)) >>> UInt8.ofNat (second.val * 2)) &&& 3 =
      if first = second then status.bits else 0 := by
  cases status <;> decide

theorem byte_statuses (byte : UInt8) (first second : Fin 4) (status : XidStatus) :
    statusOfByte (setByte byte (UInt8.ofNat (first.val * 2)) status)
        (UInt8.ofNat (second.val * 2)) = if first = second then status
      else statusOfByte byte (UInt8.ofNat (second.val * 2)) := by
  unfold statusOfByte setByte
  rw [UInt8.shiftRight_or, UInt8.shiftRight_and, or_and_mask, UInt8.and_assoc, masked_bits,
    placed_bits]
  split_ifs
  · rw [UInt8.and_zero, UInt8.zero_or, bits_of_status]
  · rw [UInt8.or_zero]

theorem place_injective {first second : TransactionId}
    (pages : transactionIdToPage first = transactionIdToPage second)
    (bytes : transactionIdToByte first = transactionIdToByte second)
    (indexes : first.toNat % clogXactsPerByte = second.toNat % clogXactsPerByte) :
    first = second := by
  unfold transactionIdToPage at pages
  unfold transactionIdToByte at bytes
  have perPage : clogXactsPerPage = 32768 := rfl
  have perByte : clogXactsPerByte = 4 := rfl
  rw [perPage] at pages bytes
  rw [perByte] at bytes indexes
  apply UInt32.toNat_inj.mp
  omega

theorem put_status (clog : Clog) (xid other : TransactionId) (status : XidStatus) :
    transactionIdGetStatus (putByte clog (transactionIdToPage xid) (transactionIdToByte xid)
        (setByte (clog (transactionIdToPage xid) (transactionIdToByte xid)) (bshift xid) status))
        other =
      if other = xid then status else transactionIdGetStatus clog other := by
  have indexBound (one : TransactionId) : one.toNat % clogXactsPerByte < 4 :=
    Nat.mod_lt _ (by decide)
  have statuses := byte_statuses (clog (transactionIdToPage xid) (transactionIdToByte xid))
    ⟨xid.toNat % clogXactsPerByte, indexBound xid⟩
    ⟨other.toNat % clogXactsPerByte, indexBound other⟩ status
  unfold transactionIdGetStatus putByte
  by_cases pages : transactionIdToPage other = transactionIdToPage xid
  · by_cases bytes : transactionIdToByte other = transactionIdToByte xid
    · rw [pages, bytes, update_self, update_self]
      refine statuses.trans ?_
      by_cases indexes : xid.toNat % clogXactsPerByte = other.toNat % clogXactsPerByte
      · rw [if_pos (Fin.ext indexes), if_pos (place_injective pages bytes indexes.symm)]
      · rw [if_neg fun same => indexes (congrArg Fin.val same),
          if_neg fun same => indexes (by rw [same])]
        rfl
    · rw [pages, update_self, update_of_ne bytes, if_neg fun same => bytes (by rw [same])]
  · rw [update_of_ne pages, if_neg fun same => pages (by rw [same])]

theorem may_become_cases (curval status : XidStatus) (may : mayBecome curval status = true) :
    status = curval ∨ isFinal curval = false := by
  revert may
  cases curval <;> cases status <;> decide

theorem set_status_bit_returns (inRecovery : Bool) (status : XidStatus) (clog : Clog)
    (xid : TransactionId) (may : mayBecome (transactionIdGetStatus clog xid) status = true) :
    ∃ after, transactionIdSetStatusBit inRecovery (transactionIdToPage xid) status clog xid =
        some after ∧
      ∀ other, transactionIdGetStatus after other =
        if other = xid then status else transactionIdGetStatus clog other := by
  refine ⟨_, ?_, fun other => put_status clog xid other status⟩
  unfold transactionIdGetStatus at may
  unfold transactionIdSetStatusBit
  rw [if_neg (not_not_intro rfl), if_neg, if_pos may]
  rintro ⟨-, rfl, committed⟩
  rw [committed] at may
  exact absurd may (by decide)

variable {inRecovery : Bool} {status : XidStatus} {clog after : Clog} {update : PageUpdate}

/-- Only the transactions named change, and none whose status is final. -/
def ChangesOnly (named : List TransactionId) (clog after : Clog) : Prop :=
  ∀ other, transactionIdGetStatus after other = transactionIdGetStatus clog other ∨
    other ∈ named ∧ isFinal (transactionIdGetStatus clog other) = false

namespace ChangesOnly

variable {named fewer : List TransactionId} {middle : Clog}

theorem refl : ChangesOnly named clog clog := fun _ => .inl rfl

theorem trans (first : ChangesOnly named clog middle) (second : ChangesOnly named middle after) :
    ChangesOnly named clog after := by
  intro other
  rcases first other with same | changed
  · rw [← same]
    exact second other
  · exact .inr changed

theorem mono (less : fewer ⊆ named) (changes : ChangesOnly fewer clog after) :
    ChangesOnly named clog after :=
  fun other => (changes other).imp_right (And.imp_left (@less other))

end ChangesOnly

theorem set_status_bit_changes {pageno : Nat} {xid : TransactionId}
    (returned : transactionIdSetStatusBit inRecovery pageno status clog xid = some after) :
    ChangesOnly [xid] clog after := by
  by_cases page : transactionIdToPage xid = pageno
  · subst page
    by_cases may : mayBecome (transactionIdGetStatus clog xid) status = true
    · obtain ⟨found, foundReturned, statuses⟩ :=
        set_status_bit_returns inRecovery status clog xid may
      rw [foundReturned] at returned
      cases returned
      intro other
      rw [statuses other]
      by_cases same : other = xid
      · rw [if_pos same, same]
        exact (may_become_cases _ status may).imp_right
          fun unfinished => ⟨mem_singleton_self xid, unfinished⟩
      · rw [if_neg same]
        exact .inl rfl
    · unfold transactionIdSetStatusBit at returned
      rw [if_neg (not_not_intro rfl)] at returned
      split at returned
      · cases returned
        exact .refl
      · unfold transactionIdGetStatus at may
        rw [if_neg may] at returned
        cases returned
  · unfold transactionIdSetStatusBit at returned
    rw [if_pos page] at returned
    cases returned

theorem set_statuses_returns (inRecovery : Bool) (pageno : Nat) (status : XidStatus) (clog : Clog)
    (xids : List TransactionId) (onPage : ∀ xid ∈ xids, transactionIdToPage xid = pageno)
    (may : ∀ xid ∈ xids, mayBecome (transactionIdGetStatus clog xid) status = true) :
    ∃ after, setStatuses inRecovery pageno status clog xids = some after ∧
      ∀ other, transactionIdGetStatus after other =
        if other ∈ xids then status else transactionIdGetStatus clog other := by
  induction xids generalizing clog with
  | nil => exact ⟨clog, rfl, fun other => by simp⟩
  | cons xid rest ih =>
    obtain ⟨next, nextReturned, nextStatuses⟩ :=
      set_status_bit_returns inRecovery status clog xid (may xid mem_cons_self)
    have mayNext : ∀ other ∈ rest, mayBecome (transactionIdGetStatus next other) status = true := by
      intro other member
      rw [nextStatuses other]
      split
      · cases status <;> decide
      · exact may other (mem_cons_of_mem xid member)
    obtain ⟨after, returned, statuses⟩ :=
      ih next (fun other member => onPage other (mem_cons_of_mem xid member)) mayNext
    refine ⟨after, ?_, fun other => ?_⟩
    · unfold setStatuses at ⊢
      rw [foldlM_cons, ← onPage xid mem_cons_self, nextReturned]
      rwa [← onPage xid mem_cons_self] at returned
    · rw [statuses other, nextStatuses other]
      by_cases same : other = xid <;> by_cases later : other ∈ rest <;> simp [same]

theorem set_statuses_changes {pageno : Nat} {xids : List TransactionId}
    (returned : setStatuses inRecovery pageno status clog xids = some after) :
    ChangesOnly xids clog after := by
  induction xids generalizing clog with
  | nil =>
    cases returned
    exact .refl
  | cons xid rest ih =>
    obtain ⟨next, nextReturned, restReturned⟩ := bind_eq_some_iff.mp returned
    exact ((set_status_bit_changes nextReturned).mono (by simp)).trans
      ((ih restReturned).mono (subset_cons_self xid rest))

def PageUpdate.named (update : PageUpdate) : List TransactionId :=
  if update.xid = invalidTransactionId then update.subxids else update.xid :: update.subxids

theorem subxids_named (update : PageUpdate) : update.subxids ⊆ update.named := by
  intro xid member
  unfold PageUpdate.named
  split
  · exact member
  · exact mem_cons_of_mem update.xid member

theorem main_named (update : PageUpdate) (valid : update.xid ≠ invalidTransactionId) :
    update.xid ∈ update.named := by
  rw [PageUpdate.named, if_neg valid]
  exact mem_cons_self

theorem main_status_changes (valid : update.xid ≠ invalidTransactionId)
    (returned : setMainStatus inRecovery clog update = some after) :
    ChangesOnly update.named clog after := by
  obtain ⟨prepared, preparedReturned, mainReturned⟩ := bind_eq_some_iff.mp returned
  refine .trans ?_ ((set_status_bit_changes mainReturned).mono
    (by simpa using main_named update valid))
  split at preparedReturned
  · exact (set_statuses_changes preparedReturned).mono (subxids_named update)
  · cases preparedReturned
    exact .refl

theorem page_status_changes
    (returned : transactionIdSetPageStatusInternal inRecovery clog update = some after) :
    ChangesOnly update.named clog after := by
  obtain ⟨marked, markedReturned, lastReturned⟩ := bind_eq_some_iff.mp returned
  refine .trans ?_ ((set_statuses_changes lastReturned).mono (subxids_named update))
  by_cases valid : update.xid ≠ invalidTransactionId
  · rw [if_pos valid] at markedReturned
    exact main_status_changes valid markedReturned
  · rw [if_neg valid] at markedReturned
    cases markedReturned
    exact .refl

theorem unfinished_may_become {curval : XidStatus} (unfinished : isFinal curval = false)
    (marked : status ≠ .inProgress) : mayBecome curval status = true := by
  revert unfinished marked
  cases curval <;> cases status <;> decide

theorem subxids_status_returns (inRecovery : Bool) (clog : Clog) (status : XidStatus)
    (subxids : List TransactionId) (pageno : Nat)
    (onPage : ∀ xid ∈ subxids, transactionIdToPage xid = pageno)
    (may : ∀ xid ∈ subxids, mayBecome (transactionIdGetStatus clog xid) status = true) :
    ∃ after, transactionIdSetPageStatusInternal inRecovery clog
        ⟨invalidTransactionId, subxids, status, pageno⟩ = some after ∧
      ∀ other, transactionIdGetStatus after other =
        if other ∈ subxids then status else transactionIdGetStatus clog other :=
  set_statuses_returns inRecovery pageno status clog subxids onPage may

theorem main_status_returns (inRecovery : Bool) (clog : Clog) (xid : TransactionId)
    (subxids : List TransactionId) (valid : xid ≠ invalidTransactionId)
    (onPage : ∀ sub ∈ subxids, transactionIdToPage sub = transactionIdToPage xid)
    (apart : xid ∉ subxids)
    (unfinished : ∀ member ∈ xid :: subxids, isFinal (transactionIdGetStatus clog member) = false) :
    ∃ after, transactionIdSetPageStatusInternal inRecovery clog
        ⟨xid, subxids, .committed, transactionIdToPage xid⟩ = some after ∧
      ∀ other, transactionIdGetStatus after other =
        if other ∈ xid :: subxids then .committed else transactionIdGetStatus clog other := by
  obtain ⟨prepared, preparedReturned, preparedStatuses⟩ :=
    set_statuses_returns inRecovery (transactionIdToPage xid) .subCommitted clog subxids onPage
      fun sub member => unfinished_may_become
        (unfinished sub (mem_cons_of_mem xid member)) (by decide)
  have topStatus : transactionIdGetStatus prepared xid = transactionIdGetStatus clog xid := by
    rw [preparedStatuses xid, if_neg apart]
  obtain ⟨marked, markedReturned, markedStatuses⟩ :=
    set_status_bit_returns inRecovery .committed prepared xid
      (unfinished_may_become (topStatus ▸ unfinished xid mem_cons_self) (by decide))
  have subMarked : ∀ sub ∈ subxids, transactionIdGetStatus marked sub = .subCommitted := by
    intro sub member
    rw [markedStatuses sub, if_neg fun (same : sub = xid) => apart (same ▸ member),
      preparedStatuses sub, if_pos member]
  obtain ⟨after, returned, statuses⟩ :=
    set_statuses_returns inRecovery (transactionIdToPage xid) .committed marked subxids onPage
      fun sub member => by rw [subMarked sub member]; decide
  refine ⟨after, ?_, fun other => ?_⟩
  · unfold transactionIdSetPageStatusInternal
    rw [if_pos valid, setMainStatus, if_pos rfl, preparedReturned, bind_some, markedReturned,
      bind_some, returned]
  · rw [statuses other, markedStatuses other, preparedStatuses other]
    by_cases same : other = xid <;> by_cases later : other ∈ subxids <;> simp [later]

end Statuses

end FortressQL.Transam
