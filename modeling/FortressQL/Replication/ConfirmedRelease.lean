import FortressQL.Replication.SyncRep
import Mathlib.Data.List.TakeDrop
import Mathlib.Data.List.TakeWhile

/-!
# Released only when confirmed

A backend released from a queue waited for a position that the required standbys have reported,
unless an invalid position is taken for "not set yet" on the way.
-/

namespace FortressQL.Replication.ConfirmedRelease

open List Lib.Ranking Lib.Runs Replication.SyncRep

variable {ptr : WaitMode → Nat} {mode : WaitMode} {waiter : Waiter}

structure Call where
  walsnds : List WalSnd
  me : Nat

def Confirmed (config : SyncRepConfig) (calls : List Call) (mode : WaitMode) (lsn : Nat) : Prop :=
  ∃ call ∈ calls, ∃ chosen rest : List SyncRepStandbyData,
    (chosen ++ rest).Perm (collectCandidates call.walsnds call.me) ∧
    chosen.length = config.numSync ∧
    (config.syncrepMethod = .priority → ∀ first ∈ chosen, ∀ second ∈ rest,
      standbyPriorityComparator first second = true) ∧
    ∀ standby ∈ chosen, lsn ≤ standby.position mode

/-- In priority mode no candidate without a valid position stands before one that has one; in quorum
mode the number of standbys fits into a byte. -/
def Comparable (config : SyncRepConfig) (walsnds : List WalSnd) (me : Nat) : Prop :=
  match config.syncrepMethod with
  | .priority => ∀ mode,
      (∀ standby ∈ syncRepGetCandidateStandbys config walsnds me, standby.position mode ≠ 0) ∨
        ((syncRepGetCandidateStandbys config walsnds me).map
          fun standby => standby.position mode).getLast? = some 0
  | .quorum => config.numSync ≤ 255

section Positions

variable {config : SyncRepConfig} {walsnds : List WalSnd} {me : Nat} {stray : WaitMode → Nat}

theorem comparator_order (first second : SyncRepStandbyData) :
    standbyPriorityComparator first second = true ↔
      first.syncStandbyPriority < second.syncStandbyPriority ∨
        first.syncStandbyPriority = second.syncStandbyPriority ∧
          first.walsndIndex ≤ second.walsndIndex := by
  unfold standbyPriorityComparator
  split_ifs with different
  · rw [decide_eq_true_eq]
    omega
  · rw [decide_eq_true_eq]
    omega

theorem sorted_by_priority (standbys : List SyncRepStandbyData) :
    (standbys.mergeSort standbyPriorityComparator).Pairwise
      fun first second => standbyPriorityComparator first second = true := by
  apply pairwise_mergeSort
  · intro first second third before behind
    rw [comparator_order] at before behind ⊢
    omega
  · intro first second
    rw [Bool.or_eq_true, comparator_order, comparator_order]
    omega

theorem priority_candidates (method : config.syncrepMethod = .priority)
    (enough : config.numSync ≤ (syncRepGetCandidateStandbys config walsnds me).length) :
    ∃ rest, (syncRepGetCandidateStandbys config walsnds me ++ rest).Perm
        (collectCandidates walsnds me) ∧
      (syncRepGetCandidateStandbys config walsnds me).length = config.numSync ∧
      ∀ first ∈ syncRepGetCandidateStandbys config walsnds me, ∀ second ∈ rest,
        standbyPriorityComparator first second = true := by
  unfold syncRepGetCandidateStandbys at enough ⊢
  dsimp only at enough ⊢
  split_ifs at enough ⊢ with many
  · have sorted := sorted_by_priority (collectCandidates walsnds me)
    have permuted := mergeSort_perm (collectCandidates walsnds me) standbyPriorityComparator
    refine ⟨(List.mergeSort (collectCandidates walsnds me) standbyPriorityComparator).drop
      config.numSync, ?_, ?_, ?_⟩
    · rw [take_append_drop]
      exact permuted
    · apply length_take_of_le
      rw [permuted.length_eq]
      exact le_of_lt many.2
    · intro first inFirst second inRest
      rw [← take_append_drop config.numSync
        (List.mergeSort (collectCandidates walsnds me) standbyPriorityComparator)] at sorted
      exact (pairwise_append.mp sorted).2.2 first inFirst second inRest
  · refine ⟨[], ?_, ?_, fun _ _ second none => absurd none not_mem_nil⟩
    · rw [append_nil]
    · have few : ¬ (collectCandidates walsnds me).length > config.numSync := fun more =>
        many ⟨method, more⟩
      omega

theorem computed_confirmed (comparable : Comparable config walsnds me)
    (got : (syncRepGetSyncRecPtr (some config) walsnds me stray).positions = some ptr) {lsn : Nat}
    (reached : lsn ≤ ptr mode) : Confirmed config [⟨walsnds, me⟩] mode lsn := by
  unfold syncRepGetSyncRecPtr at got
  dsimp only at got
  split_ifs at got with missing
  have enough : config.numSync ≤ (syncRepGetCandidateStandbys config walsnds me).length := by
    by_contra few
    exact missing (.inr (by omega))
  obtain rfl := Option.some.inj got
  refine ⟨⟨walsnds, me⟩, mem_singleton_self _, ?_⟩
  unfold Comparable at comparable
  cases method : config.syncrepMethod with
  | priority =>
    rw [method] at comparable reached
    obtain ⟨rest, permuted, length, highest⟩ := priority_candidates method enough
    refine ⟨_, rest, permuted, length, fun _ => highest, ?_⟩
    intro standby member
    refine Nat.le_trans reached ?_
    rcases comparable mode with valid | last
    · apply oldest_le
      · intro position among
        obtain ⟨other, inside, rfl⟩ := mem_map.mp among
        exact valid other inside
      · exact mem_map_of_mem member
    · have zero : syncRepGetOldestSyncRecPtr (syncRepGetCandidateStandbys config walsnds me)
          mode = 0 := oldest_last_zero last
      dsimp only
      rw [zero]
      exact Nat.zero_le _
  | quorum =>
    rw [method] at comparable reached
    have positive := config.positive
    have nth : config.numSync % 256 = config.numSync :=
      Nat.mod_eq_of_lt (Nat.lt_succ_of_le comparable)
    have all : syncRepGetCandidateStandbys config walsnds me = collectCandidates walsnds me := by
      unfold syncRepGetCandidateStandbys
      rw [method]
      exact if_neg fun both => absurd both.1 (by decide)
    dsimp only at reached
    rw [syncRepGetNthLatestSyncRecPtr, nth, if_neg (by omega), all] at reached
    rw [all] at enough
    obtain ⟨chosen, rest, permuted, length, above⟩ :=
      ranked_items (collectCandidates walsnds me) (fun standby => standby.position mode)
        positive enough
    refine ⟨chosen, rest, permuted, length, fun other => absurd other (by decide), ?_⟩
    intro standby member
    exact Nat.le_trans reached (above standby member)

end Positions

section Steps

variable {state : SyncRepState}

theorem release_mode_lsn (mode other : WaitMode) :
    state.lsn other ≤ (releaseMode ptr state mode).1.lsn other := by
  unfold releaseMode
  split_ifs with further
  · by_cases same : other = mode
    · subst same
      simp only [Function.update_self]
      exact le_of_lt further
    · simp only [Function.update_of_ne same]
      exact le_refl _
  · exact le_refl _

theorem release_mode_woken (woken : waiter ∈ (releaseMode ptr state mode).2) :
    waiter.waitLSN ≤ ptr mode := by
  unfold releaseMode at woken
  split_ifs at woken
  · dsimp only [syncRepWakeQueue] at woken
    rw [span_eq_takeWhile_dropWhile] at woken
    have released := mem_takeWhile_imp woken
    rw [Bool.false_or, decide_eq_true_eq] at released
    exact released
  · exact absurd woken not_mem_nil

theorem release_modes_lsn (mode : WaitMode) :
    state.lsn mode ≤ (releaseModes ptr state).1.lsn mode :=
  ((release_mode_lsn .write mode).trans (release_mode_lsn .flush mode)).trans
    (release_mode_lsn .apply mode)

theorem release_modes_woken (woken : (mode, waiter) ∈ (releaseModes ptr state).2) :
    waiter.waitLSN ≤ ptr mode := by
  unfold releaseModes at woken
  simp only [mem_append, mem_map] at woken
  rcases woken with (⟨_, found, rfl, rfl⟩ | ⟨_, found, rfl, rfl⟩) | ⟨_, found, rfl, rfl⟩
  · exact release_mode_woken found
  · exact release_mode_woken found
  · exact release_mode_woken found

theorem announce_takeover_lsn (config : Option SyncRepConfig) (walsnd : WalSnd) (me : Nat)
    (amSync : Bool) : (announceTakeover config walsnd me amSync state).lsn = state.lsn := by
  unfold announceTakeover
  cases config with
  | none => rfl
  | some config =>
    split_ifs <;> rfl

/-- Everything a call can do to the released positions and the queues. -/
theorem release_waiters_cases (config : Option SyncRepConfig) (me : Nat) (stray : WaitMode → Nat) :
    ((syncRepReleaseWaiters config me stray state).1.lsn = state.lsn ∧
        (syncRepReleaseWaiters config me stray state).2 = []) ∨
      ∃ ptr announced, (syncRepGetSyncRecPtr config state.walsnds me stray).positions = some ptr ∧
        announced.lsn = state.lsn ∧
        syncRepReleaseWaiters config me stray state = releaseModes ptr announced := by
  unfold syncRepReleaseWaiters
  cases state.walsnds[me]? with
  | none => exact .inl ⟨rfl, rfl⟩
  | some walsnd =>
    dsimp only
    split_ifs with idle
    · exact .inl ⟨rfl, rfl⟩
    · cases got : (syncRepGetSyncRecPtr config state.walsnds me stray).positions with
      | none => exact .inl ⟨announce_takeover_lsn config walsnd me _, rfl⟩
      | some ptr =>
        exact .inr ⟨ptr, _, rfl, announce_takeover_lsn config walsnd me _, rfl⟩

/-- Released positions never move backwards. -/
theorem perform_lsn (config : Option SyncRepConfig) (event : Event) (mode : WaitMode) :
    state.lsn mode ≤ (perform config state event).1.lsn mode := by
  cases event with
  | report index walsnd => exact le_refl _
  | wait mode' waiter =>
    show state.lsn mode ≤ (syncRepWaitForLSN state mode' waiter).lsn mode
    unfold syncRepWaitForLSN
    split_ifs <;> exact le_refl _
  | cancel proc => exact le_refl _
  | release me stray =>
    show state.lsn mode ≤ (syncRepReleaseWaiters config me stray state).1.lsn mode
    rcases release_waiters_cases config me stray with ⟨same, -⟩ | ⟨ptr, announced, -, same, all⟩
    · rw [same]
    · rw [all, ← same]
      exact release_modes_lsn mode

end Steps

section Histories

structure History where
  state : SyncRepState
  calls : List Call

def callsOf (state : SyncRepState) : Event → List Call
  | .release me _ => [⟨state.walsnds, me⟩]
  | _ => []

def advance (config : SyncRepConfig) (history : History) (event : Event) : History :=
  { state := (perform (some config) history.state event).1
    calls := history.calls ++ callsOf history.state event }

def initial (maxWalSenders : Nat) : History :=
  { state :=
      { walsnds := List.replicate maxWalSenders
          { pid := 0
            state := .startup
            write := 0
            flush := 0
            apply := 0
            syncStandbyPriority := 0
            applicationName := "" }
        lsn := fun _ => 0
        queue := fun _ => []
        announceNextTakeover := fun _ => true
        log := [] }
    calls := [] }

def ComparableEvent (config : SyncRepConfig) (history : History) : Event → Prop
  | .release me _ => Comparable config history.state.walsnds me
  | _ => True

variable {config : SyncRepConfig}

theorem Confirmed.append {calls : List Call} {lsn : Nat}
    (confirmed : Confirmed config calls mode lsn) (before : List Call) :
    Confirmed config (before ++ calls) mode lsn := by
  obtain ⟨call, member, found⟩ := confirmed
  exact ⟨call, mem_append_right before member, found⟩

/-- Step: whoever is released is confirmed by the call. -/
theorem released_confirmed {history : History} {event : Event}
    (comparable : ComparableEvent config history event)
    (released : (mode, waiter) ∈ (perform (some config) history.state event).2) :
    Confirmed config (callsOf history.state event) mode waiter.waitLSN := by
  cases event with
  | report index walsnd => exact absurd released not_mem_nil
  | wait mode' other => exact absurd released not_mem_nil
  | cancel proc => exact absurd released not_mem_nil
  | release me stray =>
    change (mode, waiter) ∈ (syncRepReleaseWaiters (some config) me stray history.state).2
      at released
    rcases release_waiters_cases (some config) me stray with
      ⟨-, none⟩ | ⟨ptr, announced, got, -, all⟩
    · rw [none] at released
      exact absurd released not_mem_nil
    · rw [all] at released
      exact computed_confirmed comparable got (release_modes_woken released)

/-- After every history whose calls all meet the condition, what the next event releases was
reported, and no released position moves back. -/
theorem release_confirmed (config : SyncRepConfig) (maxWalSenders : Nat) (events : List Event)
    (event : Event)
    (comparable : Admissible (advance config) (ComparableEvent config) (initial maxWalSenders)
      (events ++ [event])) :
    let history := run (advance config) (initial maxWalSenders) events
    (∀ released ∈ (perform (some config) history.state event).2,
      Confirmed config (advance config history event).calls released.1 released.2.waitLSN) ∧
    ∀ mode, history.state.lsn mode ≤ (advance config history event).state.lsn mode := by
  intro history
  refine ⟨?_, fun mode => perform_lsn (some config) event mode⟩
  rintro ⟨mode, waiter⟩ released
  have last : ComparableEvent config history event :=
    ((admissible_append _ _ _ _ _).mp comparable).2.1
  exact (released_confirmed last released).append history.calls

end Histories

section Queues

variable {state : SyncRepState}

/-- An event in a process with its own setting, or `SyncRepUpdateSyncStandbysDefined` when there
are no more synchronous standbys. -/
def queueStep (state : SyncRepState) : Option SyncRepConfig × Option Event → SyncRepState
  | (config, some event) => (perform config state event).1
  | (_, none) =>
    { state with queue := fun mode => (syncRepWakeQueue true 0 (state.queue mode)).2 }

/-- The queues are ordered, and nobody in them waits for a released position. -/
def Ahead (state : SyncRepState) : Prop :=
  ∀ mode, (state.queue mode).Pairwise (fun first second => first.waitLSN ≤ second.waitLSN) ∧
    ∀ waiter ∈ state.queue mode, state.lsn mode < waiter.waitLSN

theorem left_fails {p : Waiter → Bool} {before : Waiter → Waiter → Prop} {queue : List Waiter}
    (ordered : queue.Pairwise before)
    (closed : ∀ first second, before first second → p second → p first) :
    ∀ waiter ∈ queue.dropWhile p, p waiter = false := by
  induction ordered with
  | nil => nofun
  | cons earlier _ ih => grind [dropWhile_cons]

theorem wait_ahead (ahead : Ahead state) (joined : WaitMode) (waiter : Waiter) :
    Ahead (syncRepWaitForLSN state joined waiter) := by
  unfold syncRepWaitForLSN
  split
  · exact ahead
  intro mode
  obtain ⟨ordered, later⟩ := ahead mode
  rcases eq_or_ne mode joined with rfl | other
  · have earlier := left_fails (p := fun other => decide (waiter.waitLSN ≤ other.waitLSN))
      (pairwise_reverse.mpr ordered) (by grind)
    have parts := @takeWhile_append_dropWhile _
      (fun other => decide (waiter.waitLSN ≤ other.waitLSN)) (state.queue mode).reverse
    rw [← reverse_reverse (state.queue mode), ← parts] at ordered later
    rw [syncRepQueueInsert, span_eq_takeWhile_dropWhile]
    grind [mem_takeWhile_imp]
  · grind

theorem release_mode_ahead (ahead : Ahead state) (released : WaitMode) :
    Ahead (releaseMode ptr state released).1 := by
  unfold releaseMode syncRepWakeQueue
  split
  · intro mode
    obtain ⟨ordered, later⟩ := ahead mode
    rcases eq_or_ne mode released with rfl | other
    · rw [span_eq_takeWhile_dropWhile]
      simp only [Function.update_self]
      refine ⟨ordered.sublist (dropWhile_sublist _), fun waiter left => ?_⟩
      have beyond := left_fails ordered (by grind) waiter left
      grind
    · grind
  · exact ahead

theorem fewer_ahead (ahead : Ahead state) {fewer : WaitMode → List Waiter}
    (less : ∀ mode, (fewer mode).Sublist (state.queue mode)) :
    Ahead { state with queue := fewer } :=
  fun mode => ⟨(ahead mode).1.sublist (less mode), fun waiter kept =>
    (ahead mode).2 waiter ((less mode).subset kept)⟩

theorem release_ahead (config : Option SyncRepConfig) (me : Nat) (stray : WaitMode → Nat)
    (ahead : Ahead state) :
    Ahead (syncRepReleaseWaiters config me stray state).1 := by
  have announced (walsnd : WalSnd) (amSync : Bool) :
      Ahead (announceTakeover config walsnd me amSync state) := by
    unfold announceTakeover
    split
    · exact ahead
    · split <;> exact ahead
  unfold syncRepReleaseWaiters
  split
  · exact ahead
  · dsimp only
    split
    · exact ahead
    · split
      · exact announced _ _
      · exact release_mode_ahead (release_mode_ahead (release_mode_ahead (announced _ _) _) _) _

/-- Whatever the processes do, nobody is left waiting for a released position. -/
theorem nobody_overlooked (maxWalSenders : Nat)
    (ops : List (Option SyncRepConfig × Option Event)) :
    Ahead (run queueStep (initial maxWalSenders).state ops) := by
  refine run_invariant_always queueStep Ahead ?_ _ ops fun _ => ⟨.nil, by simp [initial]⟩
  rintro state ⟨config, _ | event⟩ ahead
  · apply fewer_ahead ahead
    intro mode
    rw [syncRepWakeQueue, span_eq_takeWhile_dropWhile]
    exact dropWhile_sublist _
  · cases event with
    | report index walsnd => exact ahead
    | wait joined waiter => exact wait_ahead ahead joined waiter
    | cancel proc => exact fewer_ahead ahead fun mode => filter_sublist
    | release me stray => exact release_ahead config me stray ahead

end Queues

def sampleConfig : SyncRepConfig :=
  { numSync := 2, syncrepMethod := .priority, positive := by decide }

def sampleStandby (priority apply : Nat) (name : String) : WalSnd :=
  { pid := 10 + priority
    state := .streaming
    write := 100
    flush := 100
    apply := apply
    syncStandbyPriority := priority
    applicationName := name }

/-- Two standbys report, and a backend waits until position 100 is applied. -/
def sampleEvents (firstApply : Nat) : List Event :=
  [.report 0 (sampleStandby 1 firstApply "receiver"), .report 1 (sampleStandby 2 100 "standby"),
    .wait .apply { proc := 7, waitLSN := 100 }]

def sampleRelease : Event := .release 1 fun _ => 0

/-- The first standby has not reported that it applied anything. The second one replies, and the
backend is released. -/
theorem unapplied_commit_released :
    let history := run (advance sampleConfig) (initial 2) (sampleEvents 0)
    (WaitMode.apply, { proc := 7, waitLSN := 100 }) ∈
        (perform (some sampleConfig) history.state sampleRelease).2 ∧
      ¬ Confirmed sampleConfig (advance sampleConfig history sampleRelease).calls .apply 100 := by
  refine ⟨by decide, ?_⟩
  rintro ⟨call, member, chosen, rest, permuted, length, -, reported⟩
  obtain rfl := mem_singleton.mp (member)
  have count := permuted.length_eq
  rw [length_append, length] at count
  have none : rest = [] := length_eq_zero_iff.mp (Nat.add_left_cancel count)
  subst none
  rw [append_nil] at permuted
  have lagging := reported _ (permuted.mem_iff.mpr mem_cons_self)
  exact absurd lagging (by decide)

theorem applied_commit_released :
    let history := run (advance sampleConfig) (initial 2) (sampleEvents 100)
    ∃ released ∈ (perform (some sampleConfig) history.state sampleRelease).2,
      Confirmed sampleConfig (advance sampleConfig history sampleRelease).calls released.1
        released.2.waitLSN := by
  have comparable : Admissible (advance sampleConfig) (ComparableEvent sampleConfig) (initial 2)
      (sampleEvents 100 ++ [sampleRelease]) := by
    refine ⟨trivial, trivial, trivial, ?_, trivial⟩
    intro mode
    cases mode <;> decide
  obtain ⟨confirmed, -⟩ := release_confirmed sampleConfig 2 (sampleEvents 100) sampleRelease
    comparable
  have found : (WaitMode.apply, { proc := 7, waitLSN := 100 }) ∈ (perform (some sampleConfig)
      (run (advance sampleConfig) (initial 2) (sampleEvents 100)).state sampleRelease).2 := by
    decide
  exact ⟨_, found, confirmed _ found⟩

end FortressQL.Replication.ConfirmedRelease
