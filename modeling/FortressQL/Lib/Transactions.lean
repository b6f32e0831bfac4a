import Mathlib.Data.List.Sort
import Mathlib.Logic.Function.Basic

/-!
# A table under snapshot visibility

Sessions run transactions over one table and read the snapshots they took. While every insertion
sees all rows not rolled back, at most one transaction has rows that can vanish.
-/

namespace FortressQL.Lib.Transactions

open List

inductive TxStatus where
  | inProgress
  | committed
  | aborted
  deriving DecidableEq

structure Tuple (Row : Type) where
  xid : Nat
  row : Row

variable {Row : Type} {key : Row → Int}

structure Store (key : Row → Int) where
  tuples : List (Tuple Row)
  nextKey : Int
  status : Nat → TxStatus
  nextXid : Nat
  active : Nat → Option Nat
  snapshot : Nat → List (Tuple Row)
  fresh : ∀ tuple ∈ tuples, key tuple.row < nextKey
  ascending : tuples.Pairwise fun earlier later => key earlier.row < key later.row
  running : ∀ session xid, active session = some xid →
    status xid = .inProgress ∧ xid < nextXid
  unused : ∀ xid, nextXid ≤ xid → status xid = .inProgress
  alone : ∀ left right xid, active left = some xid → active right = some xid → left = right
  taken : ∀ session, (snapshot session).Sublist tuples
  shown : ∀ session, ∀ tuple ∈ snapshot session,
    status tuple.xid = .committed ∨ active session = some tuple.xid

namespace Store

def empty (first : Int) : Store key :=
  { tuples := []
    nextKey := first
    status := fun _ => .inProgress
    nextXid := 0
    active := fun _ => none
    snapshot := fun _ => []
    fresh := List.forall_mem_nil _
    ascending := List.Pairwise.nil
    running := by simp
    unused := fun _ _ => rfl
    alone := by simp
    taken := fun _ => List.Sublist.refl []
    shown := fun _ => List.forall_mem_nil _ }

def begin (store : Store key) (session : Nat) : Store key :=
  if idle : store.active session = none then
    { store with
      nextXid := store.nextXid + 1
      active := Function.update store.active session (some store.nextXid)
      running := by
        apply (Function.forall_update_iff store.active fun _ found => ∀ xid, found = some xid →
          store.status xid = .inProgress ∧ xid < store.nextXid + 1).mpr
        constructor
        · rintro xid ⟨⟩
          exact ⟨store.unused _ (Nat.le_refl _), Nat.lt_succ_self _⟩
        · intro other _ xid active
          exact (store.running other xid active).imp_right Nat.lt_succ_of_lt
      unused := fun xid above => store.unused xid (Nat.le_of_succ_le above)
      alone := by
        intro left right xid leftActive rightActive
        by_cases leftSame : left = session <;> by_cases rightSame : right = session
        · rw [leftSame, rightSame]
        · rw [leftSame, Function.update_self] at leftActive
          rw [Function.update_of_ne rightSame] at rightActive
          have below := (store.running right xid rightActive).2
          rw [← Option.some.inj leftActive] at below
          exact absurd below (Nat.lt_irrefl _)
        · rw [rightSame, Function.update_self] at rightActive
          rw [Function.update_of_ne leftSame] at leftActive
          have below := (store.running left xid leftActive).2
          rw [← Option.some.inj rightActive] at below
          exact absurd below (Nat.lt_irrefl _)
        · rw [Function.update_of_ne leftSame] at leftActive
          rw [Function.update_of_ne rightSame] at rightActive
          exact store.alone left right xid leftActive rightActive
      shown := by
        intro other tuple member
        rcases store.shown other tuple member with committed | own
        · exact .inl committed
        · refine .inr ?_
          rw [Function.update_of_ne, own]
          rintro rfl
          rw [idle] at own
          simp at own }
  else store

/-- A session sees the committed rows and its own. -/
def visible (store : Store key) (session : Nat) : List (Tuple Row) :=
  store.tuples.filter fun tuple =>
    store.status tuple.xid = .committed ∨ store.active session = some tuple.xid

def takeSnapshot (store : Store key) (session : Nat) : Store key :=
  { store with
    snapshot := Function.update store.snapshot session (store.visible session)
    taken := by
      apply (Function.forall_update_iff store.snapshot fun _ seen =>
        seen.Sublist store.tuples).mpr
      exact ⟨List.filter_sublist, fun other _ => store.taken other⟩
    shown := by
      apply (Function.forall_update_iff store.snapshot fun other seen => ∀ tuple ∈ seen,
        store.status tuple.xid = .committed ∨ store.active other = some tuple.xid).mpr
      refine ⟨?_, fun other _ => store.shown other⟩
      intro tuple member
      exact of_decide_eq_true (List.mem_filter.mp member).2 }

def insert (store : Store key) (session : Nat) (row : Row) (numbered : key row = store.nextKey) :
    Store key :=
  match store.active session with
  | none => store
  | some xid =>
    { store with
      tuples := store.tuples ++ [⟨xid, row⟩]
      nextKey := store.nextKey + 1
      fresh := by
        intro tuple member
        rcases List.mem_append.mp member with old | new
        · exact Int.lt_trans (store.fresh tuple old) (Int.lt_succ _)
        · rw [List.mem_singleton.mp new, numbered]
          exact Int.lt_succ _
      ascending := by
        refine List.pairwise_append.mpr
          ⟨store.ascending, List.pairwise_singleton _ _, ?_⟩
        intro earlier member later last
        rw [List.mem_singleton.mp last, numbered]
        exact store.fresh earlier member
      taken := fun other => (store.taken other).trans (List.sublist_append_left _ _) }

def finish (store : Store key) (session : Nat) (commits : Bool) : Store key :=
  match active : store.active session with
  | none => store
  | some xid =>
    { store with
      status := Function.update store.status xid (if commits then .committed else .aborted)
      active := Function.update store.active session none
      snapshot := Function.update store.snapshot session []
      running := by
        apply (Function.forall_update_iff store.active fun _ found => ∀ otherXid,
          found = some otherXid → Function.update store.status xid _ otherXid = .inProgress ∧
            otherXid < store.nextXid).mpr
        refine ⟨by simp, ?_⟩
        intro other different otherXid otherActive
        have apart : otherXid ≠ xid := by
          rintro rfl
          exact different (store.alone _ _ _ otherActive active)
        rw [Function.update_of_ne apart]
        exact store.running other otherXid otherActive
      unused := by
        intro other above
        have below := (store.running session xid active).2
        rw [Function.update_of_ne (by omega)]
        exact store.unused other above
      alone := by
        intro left right otherXid leftActive rightActive
        have kept : ∀ other, Function.update store.active session none other = some otherXid →
            store.active other = some otherXid := by
          intro other otherActive
          by_cases same : other = session
          · rw [same, Function.update_self] at otherActive
            simp at otherActive
          · rwa [Function.update_of_ne same] at otherActive
        exact store.alone left right otherXid (kept left leftActive) (kept right rightActive)
      taken := by
        apply (Function.forall_update_iff store.snapshot fun _ seen =>
          seen.Sublist store.tuples).mpr
        exact ⟨List.nil_sublist _, fun other _ => store.taken other⟩
      shown := by
        intro other tuple member
        by_cases same : other = session
        · rw [same, Function.update_self] at member
          simp at member
        · rw [Function.update_of_ne same] at member ⊢
          refine (store.shown other tuple member).imp_left ?_
          intro committed
          have apart : tuple.xid ≠ xid := by
            rintro rfl
            rw [(store.running session _ active).1] at committed
            simp at committed
          rwa [Function.update_of_ne apart] }

def live (store : Store key) : List (Tuple Row) :=
  store.tuples.filter fun tuple => store.status tuple.xid ≠ .aborted

def committed (store : Store key) : List (Tuple Row) :=
  store.tuples.filter fun tuple => store.status tuple.xid = .committed

def SeesAll (store : Store key) (session : Nat) : Prop :=
  ∀ tuple ∈ store.live, tuple ∈ store.snapshot session

/-- After a row in progress come only rows of the same transaction. -/
def OneWriter (store : Store key) : Prop :=
  store.live.Pairwise fun earlier later =>
    store.status earlier.xid = .inProgress → later.xid = earlier.xid

variable {store : Store key} {session : Nat}

theorem begin_keeps (store : Store key) (session : Nat) :
    (store.begin session).tuples = store.tuples ∧ (store.begin session).status = store.status ∧
      (store.begin session).snapshot = store.snapshot := by
  unfold begin
  split
  · exact ⟨rfl, rfl, rfl⟩
  · exact ⟨rfl, rfl, rfl⟩

theorem snapshot_live (sees : store.SeesAll session) : store.snapshot session = store.live := by
  have ascending : ∀ {rows : List (Tuple Row)}, rows.Sublist store.tuples →
      rows.Pairwise fun earlier later => key earlier.row < key later.row :=
    fun sublist => store.ascending.sublist sublist
  apply (ascending (store.taken session)).eq_of_mem_iff (ascending filter_sublist)
  intro tuple
  refine ⟨?_, sees tuple⟩
  intro member
  apply mem_filter.mpr ⟨(store.taken session).subset member, _⟩
  rcases store.shown session tuple member with committed | own
  · simp [committed]
  · simp [(store.running session _ own).1]

theorem sees_all_of_length (complete : store.tuples.length ≤ (store.snapshot session).length) :
    store.SeesAll session := by
  intro tuple member
  rw [(store.taken session).eq_of_length_le complete]
  exact (mem_filter.mp member).1

section

variable {α : Type} {rows : List α} (accepts : α → Bool)
  (leading : rows.Pairwise fun earlier later => accepts later = true → accepts earlier = true)

include accepts leading

theorem filter_eq_take_while : rows.filter accepts = rows.takeWhile accepts := by
  induction rows with
  | nil => rfl
  | cons row rest ih =>
    obtain ⟨first, others⟩ := pairwise_cons.mp leading
    cases accepted : accepts row with
    | true =>
      rw [filter_cons_of_pos accepted, takeWhile_cons_of_pos accepted, ih others]
    | false =>
      rw [filter_cons_of_neg (by simp [accepted]), takeWhile_cons_of_neg (by simp [accepted]),
        filter_eq_nil_iff]
      intro other member acceptsOther
      rw [first other member acceptsOther] at accepted
      simp at accepted

theorem filter_splits : ∃ rest, rows = rows.filter accepts ++ rest :=
  ⟨rows.dropWhile accepts, by
    rw [filter_eq_take_while accepts leading, takeWhile_append_dropWhile]⟩

end

theorem OneWriter.committed_first (oneWriter : store.OneWriter) :
    ∃ rest, store.live = store.committed ++ rest := by
  have same : store.committed = store.live.filter fun tuple =>
      store.status tuple.xid = .committed := by
    rw [live, filter_filter]
    apply filter_congr
    intro tuple _
    cases store.status tuple.xid <;> rfl
  rw [same]
  apply filter_splits
  apply oneWriter.imp_of_mem
  intro earlier later earlierMember _ together laterCommitted
  have notAborted := (mem_filter.mp earlierMember).2
  cases status : store.status earlier.xid with
  | inProgress =>
    rw [together status, status] at laterCommitted
    simp at laterCommitted
  | committed => rfl
  | aborted => simp [status] at notAborted

theorem insert_cases (store : Store key) (session : Nat) (row : Row)
    (numbered : key row = store.nextKey) :
    store.insert session row numbered = store ∨
      ∃ xid, store.active session = some xid ∧
        (store.insert session row numbered).tuples = store.tuples ++ [⟨xid, row⟩] ∧
        (store.insert session row numbered).live = store.live ++ [⟨xid, row⟩] ∧
        (store.insert session row numbered).status = store.status ∧
        (store.insert session row numbered).snapshot = store.snapshot := by
  unfold insert
  split
  · exact .inl rfl
  · rename_i xid active
    refine .inr ⟨xid, active, rfl, ?_, rfl, rfl⟩
    have running := (store.running session xid active).1
    simp [live, running]

theorem OneWriter.insert (oneWriter : store.OneWriter) (sees : store.SeesAll session) {row : Row}
    (numbered : key row = store.nextKey) : (store.insert session row numbered).OneWriter := by
  rcases insert_cases store session row numbered with unchanged | ⟨xid, active, -, live, status, -⟩
  · rw [unchanged]
    exact oneWriter
  · rw [OneWriter, live, status]
    refine pairwise_append.mpr ⟨oneWriter, pairwise_singleton _ _, ?_⟩
    intro earlier member later last inProgress
    rw [mem_singleton.mp last]
    rcases store.shown session earlier (sees earlier member) with committed | own
    · rw [inProgress] at committed
      simp at committed
    · exact Option.some.inj (active.symm.trans own)

theorem finish_cases (store : Store key) (session : Nat) (commits : Bool) :
    store.finish session commits = store ∨
      ∃ xid, store.status xid = .inProgress ∧
        (store.finish session commits).tuples = store.tuples ∧
        (store.finish session commits).status =
          Function.update store.status xid (if commits then .committed else .aborted) ∧
        (store.finish session commits).snapshot =
          Function.update store.snapshot session [] := by
  unfold finish
  split
  · exact .inl rfl
  · rename_i xid active
    exact .inr ⟨xid, (store.running session xid active).1, rfl, rfl, rfl⟩

theorem OneWriter.finish_live (oneWriter : store.OneWriter) (session : Nat) (commits : Bool) :
    ∃ rest, store.live = (store.finish session commits).live ++ rest := by
  rcases finish_cases store session commits with unchanged | ⟨xid, running, tuples, status, -⟩
  · exact ⟨[], by rw [unchanged, append_nil]⟩
  · have kept : (store.finish session commits).live =
        store.live.filter fun tuple => commits ∨ tuple.xid ≠ xid := by
      rw [live, live, tuples, status, filter_filter]
      apply filter_congr
      intro tuple _
      by_cases same : tuple.xid = xid
      · cases commits <;> simp [same, running]
      · simp [same]
    rw [kept]
    apply filter_splits
    apply oneWriter.imp
    intro earlier later together accepted
    simp only [decide_eq_true_eq] at accepted ⊢
    refine accepted.imp_right ?_
    rintro different rfl
    exact different (together running)

theorem OneWriter.finish (oneWriter : store.OneWriter) (session : Nat) (commits : Bool) :
    (store.finish session commits).OneWriter := by
  obtain ⟨rest, split⟩ := oneWriter.finish_live session commits
  rcases finish_cases store session commits with unchanged | ⟨xid, -, -, status, -⟩
  · rw [unchanged]
    exact oneWriter
  · rw [OneWriter, split] at oneWriter
    rw [OneWriter, status]
    apply (pairwise_append.mp oneWriter).1.imp
    intro earlier later together inProgress
    by_cases same : earlier.xid = xid
    · rw [same] at inProgress
      cases commits <;> simp at inProgress
    · rw [Function.update_of_ne same] at inProgress
      exact together inProgress

end Store

end FortressQL.Lib.Transactions
