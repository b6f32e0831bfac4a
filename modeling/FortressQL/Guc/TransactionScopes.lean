import FortressQL.Guc.NestLevels

/-!
# Settings as nested scopes

What a nested history of levels and assignments means for a variable, level by level. The stacks of
the code carry this, but for the source of a `SET` that a `SET LOCAL` hides.
-/

namespace FortressQL.Guc.TransactionScopes

open Option Function Guc.NestLevels

section Scopes

variable {Name Value : Type} [DecidableEq Name]

structure Scope (Value : Type) where
  current : Setting Value
  /-- The last `SET` at this level or at one committed into it. -/
  kept : Option (Setting Value)
  /-- A `SAVE` of this level that no later `SET` overrode. -/
  saved : Bool
  /-- A `SET LOCAL` since the last `SET`. -/
  localSet : Bool

def Scope.enter (current : Setting Value) : Scope Value :=
  { current := current, kept := none, saved := false, localSet := false }

def Scope.assign (scope : Scope Value) (reset : Setting Value) (request : Request Value) :
    Scope Value :=
  let new := request.setting reset
  if request.source.level < scope.current.source.level then scope
  else
    match request.action with
    | .set => { current := new, kept := some new, saved := false, localSet := false }
    | .localOnly => { scope with current := new, localSet := true }
    | .save => { scope with current := new, saved := true }

def Scope.commit (outer inner : Scope Value) : Scope Value :=
  if inner.saved then outer
  else
    { current := inner.current
      kept := inner.kept.or outer.kept
      saved := outer.saved && inner.kept.isNone
      localSet := if inner.kept.isSome then inner.localSet else outer.localSet || inner.localSet }

/-- A properly nested sequence of assignments and levels, each with its exit. -/
inductive History (Name Value : Type) where
  | done
  | assign (name : Name) (request : Request Value) (rest : History Name Value)
  | level (body : History Name Value) (isCommit : Bool) (rest : History Name Value)

def History.events : History Name Value → Nat → List (Event Name Value)
  | .done, _ => []
  | .assign name request rest, nestLevel => .setConfig name request :: rest.events nestLevel
  | .level body isCommit rest, nestLevel =>
    .newGUCNestLevel ::
      (body.events (nestLevel + 1) ++
        .atEOXactGUC isCommit (nestLevel + 1) :: rest.events nestLevel)

def History.replay (name : Name) (reset : Setting Value) :
    History Name Value → Scope Value → Scope Value
  | .done, scope => scope
  | .assign assigned request rest, scope =>
    rest.replay name reset (if assigned = name then scope.assign reset request else scope)
  | .level body isCommit rest, scope =>
    rest.replay name reset
      (if isCommit then scope.commit (body.replay name reset (.enter scope.current)) else scope)

/-- A history that stands inside levels not left yet. -/
inductive Opened (Name Value : Type) where
  | here (history : History Name Value)
  | inside (history : History Name Value) (inner : Opened Name Value)

def Opened.events : Opened Name Value → Nat → List (Event Name Value)
  | .here history, nestLevel => history.events nestLevel
  | .inside history inner, nestLevel =>
    history.events nestLevel ++ .newGUCNestLevel :: inner.events (nestLevel + 1)

def abortedLevel (body : History Name Value) (nestLevel : Nat) : List (Event Name Value) :=
  .newGUCNestLevel :: (body.events (nestLevel + 1) ++ [.atEOXactGUC false (nestLevel + 1)])

def transaction (history : History Name Value) (isCommit : Bool) : List (Event Name Value) :=
  .atStartGUC :: (history.events 1 ++ [.atEOXactGUC isCommit 1])

structure Idle (state : GucState Name Value) : Prop where
  level : state.gucNestLevel = 0
  empty : ∀ name, (state.records name).stack = []

def finalScope (state : GucState Name Value) (name : Name) (history : History Name Value) :
    Scope Value :=
  history.replay name (state.records name).reset (.enter (state.records name).current)

/-- The setting a committed transaction should leave: the last `SET` that survives, or what was
there at its start. -/
def outcome (state : GucState Name Value) (name : Name) (history : History Name Value) :
    Setting Value :=
  (finalScope state name history).kept.getD (state.records name).current

structure Transactional (state : GucState Name Value) (name : Name)
    (history : History Name Value) : Prop where
  /-- An aborted level leaves what was there at its entry. -/
  levels : ∀ (opened : Opened Name Value) (body : History Name Value)
    (before after : GucState Name Value),
    run state (.atStartGUC :: opened.events 1) = some before →
      run before (abortedLevel body before.gucNestLevel) = some after →
        (after.records name).current = (before.records name).current
  /-- So does an aborted transaction. -/
  abort : ∀ after, run state (transaction history false) = some after →
    (after.records name).current = (state.records name).current ∧
      (after.records name).stack = []
  commit : ∀ after, run state (transaction history true) = some after →
    (after.records name).current = outcome state name history ∧ (after.records name).stack = []

def SessionMasked (state : GucState Name Value) (name : Name) (history : History Name Value) :
    Prop :=
  ∀ kept, (finalScope state name history).kept = some kept →
    (finalScope state name history).localSet = true → kept.source = .session

end Scopes

section Stacks

variable {Value : Type}

/-- What the entry of a level says about its scope. -/
def Matches (scope : Scope Value) : GucStackState Value → Prop
  | .save => scope.kept = none ∧ scope.saved = true
  | .set => scope.kept = some scope.current ∧ scope.saved = false ∧ scope.localSet = false
  | .localOnly => scope.kept = none ∧ scope.saved = false ∧ scope.localSet = true
  | .setLocal masked =>
    (∃ kept, scope.kept = some kept ∧ kept.masked = masked) ∧ scope.saved = false ∧
      scope.localSet = true

/-- Every entry belongs to a level before this one. -/
def Below (nestLevel : Nat) (stack : List (GucStack Value)) : Prop :=
  ∀ entry ∈ stack.head?, entry.nestLevel < nestLevel

theorem below_nil (nestLevel : Nat) : Below nestLevel ([] : List (GucStack Value)) := by
  intro entry found
  cases found

/-- The stack of a variable inside a level: what was there at its entry, with at most one entry of
the level on top. -/
structure Carries (nestLevel : Nat) (base : List (GucStack Value)) (entry : Setting Value)
    (scope : Scope Value) (record : ConfigGeneric Value) : Prop where
  current : record.current = scope.current
  stack : record.stack = base ∧ scope = .enter entry ∨
    ∃ state, record.stack = ⟨nestLevel, state, entry⟩ :: base ∧ Matches scope state

theorem enter_carries (nestLevel : Nat) (record : ConfigGeneric Value) :
    Carries nestLevel record.stack record.current (.enter record.current) record :=
  ⟨rfl, .inl ⟨rfl, rfl⟩⟩

variable {nestLevel : Nat} {base : List (GucStack Value)} {entry : Setting Value}
  {record : ConfigGeneric Value}

theorem carries_below {scope : Scope Value} (below : Below nestLevel base)
    (carries : Carries nestLevel base entry scope record) : Below (nestLevel + 1) record.stack := by
  rcases carries.stack with ⟨same, -⟩ | ⟨state, top, -⟩
  · rw [same]
    exact fun first found => Nat.lt_succ_of_lt (below first found)
  · rw [top]
    intro first found
    cases found
    exact Nat.lt_succ_self nestLevel

theorem push_new_below (positive : 0 < nestLevel) (below : Below nestLevel record.stack)
    (action : GucAction) :
    pushOldValue nestLevel record action = some (pushNew nestLevel record action) := by
  unfold pushOldValue
  rw [if_neg (Nat.ne_of_gt positive)]
  cases shape : record.stack with
  | nil => rfl
  | cons entry prev =>
    have lower := below entry (by rw [shape]; rfl)
    dsimp only
    rw [if_neg (Nat.not_le_of_gt lower)]

variable {state : GucStackState Value}

theorem push_adjust (positive : 0 < nestLevel) {prior : Setting Value}
    (top : record.stack = ⟨nestLevel, state, prior⟩ :: base) (action : GucAction) :
    pushOldValue nestLevel record action =
      (state.adjust action record.current).map fun adjusted =>
        { record with stack := ⟨nestLevel, adjusted, prior⟩ :: base } := by
  unfold pushOldValue
  rw [if_neg (Nat.ne_of_gt positive), top]
  dsimp only
  rw [if_pos (Nat.le_refl nestLevel), if_pos rfl]

theorem adjust_matches {scope : Scope Value} {adjusted : GucStackState Value}
    {request : Request Value} (reset : Setting Value)
    (allowed : ¬ request.source.level < scope.current.source.level) (holds : Matches scope state)
    (adjusts : state.adjust request.action scope.current = some adjusted) :
    Matches (scope.assign reset request) adjusted := by
  unfold Scope.assign
  rw [if_neg allowed]
  cases action : request.action with
  | set =>
    rw [action] at adjusts
    obtain rfl : GucStackState.set = adjusted := by
      cases state <;> exact Option.some.inj adjusts
    exact ⟨rfl, rfl, rfl⟩
  | localOnly =>
    rw [action] at adjusts
    cases state with
    | save =>
      cases adjusts
      exact holds
    | set =>
      cases adjusts
      exact ⟨⟨scope.current, holds.1, rfl⟩, holds.2.1, rfl⟩
    | localOnly =>
      cases adjusts
      exact ⟨holds.1, holds.2.1, rfl⟩
    | setLocal masked =>
      cases adjusts
      exact ⟨holds.1, holds.2.1, rfl⟩
  | save =>
    rw [action] at adjusts
    cases state with
    | save =>
      cases adjusts
      exact ⟨holds.1, rfl⟩
    | set => cases adjusts
    | localOnly => cases adjusts
    | setLocal masked => cases adjusts

theorem first_matches (entry : Setting Value) (reset : Setting Value) (request : Request Value)
    (allowed : ¬ request.source.level < (Scope.enter entry).current.source.level) :
    Matches ((Scope.enter entry).assign reset request) (.ofAction request.action) := by
  unfold Scope.assign
  rw [if_neg allowed]
  cases request.action with
  | set => exact ⟨rfl, rfl, rfl⟩
  | localOnly => exact ⟨rfl, rfl, rfl⟩
  | save => exact ⟨rfl, rfl⟩

theorem assign_current (scope : Scope Value) (reset : Setting Value) (request : Request Value)
    (allowed : ¬ request.source.level < scope.current.source.level) :
    (scope.assign reset request).current = request.setting reset := by
  unfold Scope.assign
  rw [if_neg allowed]
  cases request.action <;> rfl

theorem assign_carries (positive : 0 < nestLevel) (below : Below nestLevel base)
    {scope : Scope Value} {after : ConfigGeneric Value}
    (carries : Carries nestLevel base entry scope record) (request : Request Value)
    (assigned : setConfigWithHandle nestLevel record request = some after) :
    Carries nestLevel base entry (scope.assign record.reset request) after ∧
      after.reset = record.reset := by
  unfold setConfigWithHandle at assigned
  rw [carries.current] at assigned
  by_cases ignored : request.source.level < scope.current.source.level
  · rw [if_pos ignored] at assigned
    cases assigned
    have unchanged : scope.assign record.reset request = scope := by
      unfold Scope.assign
      rw [if_pos ignored]
    rw [unchanged]
    exact ⟨carries, rfl⟩
  · rw [if_neg ignored] at assigned
    have current := assign_current scope record.reset request ignored
    rcases carries.stack with ⟨same, untouched⟩ | ⟨state, top, holds⟩
    · rw [push_new_below positive (same ▸ below)] at assigned
      cases assigned
      refine ⟨⟨current.symm, .inr ⟨.ofAction request.action, ?_, ?_⟩⟩, rfl⟩
      · change ⟨nestLevel, _, record.current⟩ :: record.stack = _
        rw [same, carries.current, untouched]
        rfl
      · rw [untouched] at ignored ⊢
        exact first_matches entry record.reset request ignored
    · rw [push_adjust positive top, carries.current] at assigned
      obtain ⟨pushed, pushes, rfl⟩ := map_eq_some_iff.mp assigned
      obtain ⟨adjusted, adjusts, rfl⟩ := map_eq_some_iff.mp pushes
      exact ⟨⟨current.symm, .inr ⟨adjusted, rfl,
        adjust_matches record.reset ignored holds adjusts⟩⟩, rfl⟩

theorem exit_below {stack : List (GucStack Value)} (below : Below nestLevel stack)
    (isCommit : Bool) (current : Setting Value) :
    exitEntries isCommit nestLevel current stack = (current, stack) := by
  cases stack with
  | nil => rw [exitEntries]
  | cons entry prev =>
    rw [exitEntries.eq_def]
    dsimp only
    rw [if_pos (.inl (below entry rfl))]

section

variable (positive : 0 < nestLevel) (below : Below nestLevel base)

include positive below

theorem exit_abort {scope : Scope Value} (carries : Carries nestLevel base entry scope record) :
    record.exit false nestLevel = { record with current := entry, stack := base } := by
  unfold ConfigGeneric.exit
  rcases carries.stack with ⟨same, untouched⟩ | ⟨state, top, -⟩
  · rw [same, exit_below below, carries.current, untouched]
    rfl
  · have inside : ¬ (nestLevel < nestLevel ∨ nestLevel = 0) := by omega
    rw [top, exitEntries.eq_def]
    dsimp only
    rw [if_neg inside, if_pos rfl, exit_below below]

theorem exit_saved (entry current : Setting Value) :
    exitEntries true nestLevel current (⟨nestLevel, .save, entry⟩ :: base) = (entry, base) := by
  have inside : ¬ (nestLevel < nestLevel ∨ nestLevel = 0) := by omega
  rw [exitEntries.eq_def]
  dsimp only
  rw [if_neg inside, if_neg (by decide), if_pos (by rfl), exit_below below]

/-- Otherwise its entry sinks to the level below where that has none. -/
theorem exit_sinks (keeps : state.isSave = false) (entry current : Setting Value) :
    exitEntries true (nestLevel + 1) current (⟨nestLevel + 1, state, entry⟩ :: base) =
      (current, ⟨nestLevel, state, entry⟩ :: base) := by
  have inside : ¬ (nestLevel + 1 < nestLevel + 1 ∨ nestLevel + 1 = 0) := by omega
  have inner : ¬ (nestLevel + 1 = 1) := by omega
  have sunk : Below (nestLevel + 1) (⟨nestLevel, state, entry⟩ :: base) := by
    intro first found
    cases found
    exact Nat.lt_succ_self nestLevel
  rw [exitEntries.eq_def]
  dsimp only
  rw [if_neg inside, if_neg (by decide), if_neg (by rw [keeps]; decide), if_neg inner]
  cases base with
  | nil =>
    exact exit_below sunk true current
  | cons first others =>
    dsimp only
    rw [Nat.add_sub_cancel, if_pos (below first rfl)]
    exact exit_below sunk true current

end

/-- And is merged into the entry of the level below where that has one. -/
theorem exit_merges (positive : 0 < nestLevel) (keeps : state.isSave = false)
    (outer : GucStack Value) (level : outer.nestLevel = nestLevel) (entry current : Setting Value) :
    exitEntries true (nestLevel + 1) current (⟨nestLevel + 1, state, entry⟩ :: outer :: base) =
      (current, GucStack.merge ⟨nestLevel + 1, state, entry⟩ outer :: base) := by
  have inside : ¬ (nestLevel + 1 < nestLevel + 1 ∨ nestLevel + 1 = 0) := by omega
  have inner : ¬ (nestLevel + 1 = 1) := by omega
  have adjacent : ¬ outer.nestLevel < nestLevel + 1 - 1 := by omega
  rw [exitEntries.eq_def]
  dsimp only
  rw [if_neg inside, if_neg (by decide), if_neg (by rw [keeps]; decide), if_neg inner,
    if_neg adjacent]
  apply exit_below
  intro first found
  cases found
  rw [merge_level, level]
  exact Nat.lt_succ_self nestLevel

variable {outer inner : Scope Value}

theorem commit_saved (saved : inner.saved = true) : outer.commit inner = outer := by
  rw [Scope.commit, if_pos saved]

theorem commit_unsaved (outer : Scope Value) (saved : inner.saved = false) :
    outer.commit inner =
      { current := inner.current
        kept := inner.kept.or outer.kept
        saved := outer.saved && inner.kept.isNone
        localSet :=
          if inner.kept.isSome then inner.localSet else outer.localSet || inner.localSet } := by
  rw [Scope.commit, if_neg (by rw [saved]; decide)]

theorem commit_untouched (outer : Scope Value) : outer.commit (.enter outer.current) = outer := by
  rw [commit_unsaved outer rfl]
  simp [Scope.enter]

theorem commit_into_untouched (entry : Setting Value) (saved : inner.saved = false) :
    (Scope.enter entry).commit inner = inner := by
  rw [commit_unsaved _ saved]
  obtain ⟨current, kept, innerSaved, localSet⟩ := inner
  cases kept <;> simp [Scope.enter] at ⊢ <;> exact saved

theorem matches_saved {scope : Scope Value} (holds : Matches scope state)
    (keeps : state.isSave = false) : scope.saved = false := by
  cases state with
  | save => cases keeps
  | set => exact holds.2.1
  | localOnly => exact holds.2.1
  | setLocal masked => exact holds.2.1

theorem merge_matches {outerState : GucStackState Value} (outerHolds : Matches outer outerState)
    (holds : Matches inner state) (keeps : state.isSave = false) (prior : Setting Value) :
    ∃ merged, GucStack.merge ⟨nestLevel + 1, state, outer.current⟩
        ⟨nestLevel, outerState, prior⟩ = ⟨nestLevel, merged, prior⟩ ∧
      Matches (outer.commit inner) merged := by
  rw [commit_unsaved outer (matches_saved holds keeps)]
  cases state with
  | save => cases keeps
  | set =>
    refine ⟨.set, rfl, ?_⟩
    simp [Matches, holds.1, holds.2.2]
  | localOnly =>
    obtain ⟨noSet, -, isLocal⟩ := holds
    cases outerState with
    | save =>
      refine ⟨.save, rfl, ?_⟩
      simp [Matches, noSet, outerHolds.1, outerHolds.2]
    | set =>
      refine ⟨.setLocal outer.current.masked, rfl, ?_⟩
      simp [Matches, noSet, isLocal, outerHolds.1, outerHolds.2.1]
    | localOnly =>
      refine ⟨.localOnly, rfl, ?_⟩
      simp [Matches, noSet, isLocal, outerHolds.1, outerHolds.2.1]
    | setLocal masked =>
      obtain ⟨⟨kept, found, mask⟩, outerSaved, -⟩ := outerHolds
      refine ⟨.setLocal masked, rfl, ?_⟩
      simp [Matches, noSet, isLocal, found, outerSaved, mask]
  | setLocal masked =>
    obtain ⟨⟨kept, found, mask⟩, -, isLocal⟩ := holds
    refine ⟨.setLocal masked, rfl, ?_⟩
    simp [Matches, found, isLocal, mask]

theorem exit_commit (positive : 0 < nestLevel) (below : Below nestLevel base)
    {before : ConfigGeneric Value} (outerCarries : Carries nestLevel base entry outer before)
    (carries : Carries (nestLevel + 1) before.stack before.current inner record) :
    Carries nestLevel base entry (outer.commit inner) (record.exit true (nestLevel + 1)) := by
  have beforeBelow := carries_below below outerCarries
  unfold ConfigGeneric.exit
  rcases carries.stack with ⟨same, untouched⟩ | ⟨state, top, holds⟩
  · rw [same, exit_below beforeBelow, untouched, outerCarries.current, commit_untouched]
    refine ⟨?_, outerCarries.stack⟩
    rw [carries.current, untouched, outerCarries.current]
    rfl
  · cases keeps : state.isSave with
    | false =>
      have saved := matches_saved holds keeps
      have current : (outer.commit inner).current = record.current := by
        rw [commit_unsaved outer saved, carries.current]
      rw [top]
      rcases outerCarries.stack with ⟨same, untouched⟩ | ⟨outerState, outerTop, outerHolds⟩
      · rw [same, exit_sinks positive below keeps]
        refine ⟨current.symm, .inr ⟨state, ?_, ?_⟩⟩
        · rw [outerCarries.current, untouched]
          rfl
        · rw [untouched, commit_into_untouched entry saved]
          exact holds
      · rw [outerTop, exit_merges positive keeps _ rfl, outerCarries.current]
        obtain ⟨merged, shape, mergedHolds⟩ := merge_matches outerHolds holds keeps entry
        exact ⟨current.symm, .inr ⟨merged, by rw [shape], mergedHolds⟩⟩
    | true =>
      obtain rfl : state = .save := by
        cases state with
        | save => rfl
        | set => cases keeps
        | localOnly => cases keeps
        | setLocal masked => cases keeps
      rw [top, exit_saved (Nat.succ_pos nestLevel) beforeBelow, commit_saved holds.2]
      exact ⟨outerCarries.current, outerCarries.stack⟩

theorem exit_committed (keeps : state.isSave = false) (entry current : Setting Value) :
    exitEntries true 1 current [⟨1, state, entry⟩] =
      (GucStack.committed ⟨1, state, entry⟩ current, []) := by
  rw [exitEntries.eq_def]
  simp [keeps, exit_below (below_nil 1)]

theorem exit_outermost {scope : Scope Value} (carries : Carries 1 [] entry scope record) :
    (record.exit true 1).stack = [] ∧
      ((record.exit true 1).current = scope.kept.getD entry ↔
        ∀ kept, scope.kept = some kept → scope.localSet = true → kept.source = .session) := by
  unfold ConfigGeneric.exit
  rcases carries.stack with ⟨same, untouched⟩ | ⟨state, top, holds⟩
  · rw [same, exitEntries, carries.current, untouched]
    exact ⟨rfl, by simp [Scope.enter]⟩
  · rw [top]
    cases state with
    | save =>
      rw [exit_saved Nat.one_pos (below_nil 1), holds.1]
      exact ⟨rfl, by simp⟩
    | set =>
      rw [exit_committed rfl, holds.1, holds.2.2, carries.current]
      exact ⟨rfl, by simp [GucStack.committed]⟩
    | localOnly =>
      rw [exit_committed rfl, holds.1]
      exact ⟨rfl, by simp [GucStack.committed]⟩
    | setLocal masked =>
      obtain ⟨⟨kept, found, mask⟩, -, isLocal⟩ := holds
      rw [exit_committed rfl, found, isLocal, ← mask]
      refine ⟨rfl, fun same other isKept _ => ?_, fun session => ?_⟩
      · cases isKept
        exact (congrArg Setting.source same).symm
      · have source := session kept rfl rfl
        change kept.masked.setting = _
        rw [Masked.setting, ← source]
        rfl

end Stacks

section Runs

variable {Name Value : Type} [DecidableEq Name]

theorem run_append (state : GucState Name Value) (first second : List (Event Name Value)) :
    run state (first ++ second) = (run state first).bind fun middle => run middle second :=
  List.foldlM_append

theorem run_cons (state : GucState Name Value) (event : Event Name Value)
    (rest : List (Event Name Value)) :
    run state (event :: rest) = (step state event).bind fun next => run next rest :=
  rfl

structure Level (nestLevel : Nat) (start : GucState Name Value)
    (scope : Name → Scope Value) (state : GucState Name Value) : Prop where
  level : state.gucNestLevel = nestLevel
  carries : ∀ name, Carries nestLevel (start.records name).stack (start.records name).current
    (scope name) (state.records name)
  reset : ∀ name, (state.records name).reset = (start.records name).reset

/-- The state at the entry of a level: all entries belong to levels before it. -/
structure Entered (nestLevel : Nat) (state : GucState Name Value) : Prop where
  positive : 0 < nestLevel
  below : ∀ name, Below nestLevel (state.records name).stack

variable {nestLevel : Nat} {scope : Name → Scope Value} {start state after : GucState Name Value}

theorem exit_returns (positive : 0 < nestLevel) {isCommit : Bool}
    (level : state.gucNestLevel = nestLevel) :
    step state (.atEOXactGUC isCommit nestLevel) = some
        { gucNestLevel := nestLevel - 1
          records := fun name => (state.records name).exit isCommit nestLevel } := by
  rw [step, atEOXactGUC, if_pos ⟨positive, .inl (Nat.le_of_eq level.symm)⟩]

def scopesAfter (start : GucState Name Value) (history : History Name Value)
    (scope : Name → Scope Value) (name : Name) : Scope Value :=
  history.replay name (start.records name).reset (scope name)

section

variable (entered : Entered nestLevel start) (holds : Level nestLevel start scope state)

include entered holds

theorem level_assign {name : Name} {request : Request Value}
    (stepped : step state (.setConfig name request) = some after) :
    Level nestLevel start
      (fun other => if name = other then (scope other).assign (start.records other).reset request
        else scope other) after := by
  obtain ⟨record, assigned, rfl⟩ := map_eq_some_iff.mp stepped
  rw [holds.level] at assigned
  obtain ⟨carries, reset⟩ := assign_carries entered.positive (entered.below name)
    (holds.carries name) request assigned
  refine ⟨holds.level, fun other => ?_, fun other => ?_⟩
  · by_cases same : name = other
    · subst same
      rw [if_pos rfl, ← holds.reset name]
      change Carries _ _ _ _ (update state.records name record name)
      rw [update_self]
      exact carries
    · rw [if_neg same]
      change Carries _ _ _ _ (update state.records name record other)
      rw [update_of_ne (Ne.symm same)]
      exact holds.carries other
  · change (update state.records name record other).reset = _
    by_cases same : other = name
    · subst same
      rw [update_self, reset, holds.reset other]
    · rw [update_of_ne same]
      exact holds.reset other

omit [DecidableEq Name] in
theorem enter_level : Entered (nestLevel + 1) { state with gucNestLevel := nestLevel + 1 } ∧
      Level (nestLevel + 1) { state with gucNestLevel := nestLevel + 1 }
        (fun name => .enter (state.records name).current)
        { state with gucNestLevel := nestLevel + 1 } := by
  constructor
  · exact ⟨Nat.succ_pos nestLevel,
      fun name => carries_below (entered.below name) (holds.carries name)⟩
  · exact ⟨rfl, fun name => enter_carries (nestLevel + 1) (state.records name), fun _ => rfl⟩

theorem history_carries (history : History Name Value)
    (ran : run state (history.events nestLevel) = some after) :
    Level nestLevel start (scopesAfter start history scope) after := by
  induction history generalizing nestLevel start state after scope with
  | done =>
    cases ran
    exact holds
  | assign name request rest ih =>
    obtain ⟨next, stepped, ranRest⟩ := bind_eq_some_iff.mp ran
    exact ih entered (level_assign entered holds stepped) ranRest
  | level body isCommit rest ihBody ihRest =>
    rw [History.events, run_cons] at ran
    obtain ⟨inner, stepped, ranInner⟩ := bind_eq_some_iff.mp ran
    rw [step, holds.level] at stepped
    cases stepped
    rw [run_append] at ranInner
    obtain ⟨left, ranBody, ranLeft⟩ := bind_eq_some_iff.mp ranInner
    obtain ⟨innerEntered, innerHolds⟩ := enter_level entered holds
    have bodyHolds := ihBody innerEntered innerHolds ranBody
    rw [run_cons, exit_returns (Nat.succ_pos nestLevel) bodyHolds.level] at ranLeft
    refine ihRest entered ?_ ranLeft
    refine ⟨rfl, fun name => ?_, fun name => (bodyHolds.reset name).trans (holds.reset name)⟩
    cases isCommit with
    | true =>
      have committed := exit_commit entered.positive (entered.below name) (holds.carries name)
        (bodyHolds.carries name)
      unfold scopesAfter at committed
      dsimp only at committed
      rw [holds.reset name, (holds.carries name).current] at committed
      exact committed
    | false =>
      have aborted := exit_abort (Nat.succ_pos nestLevel) (innerEntered.below name)
        (bodyHolds.carries name)
      change Carries _ _ _ (scope name) ((left.records name).exit false (nestLevel + 1))
      rw [aborted]
      exact ⟨(holds.carries name).current, (holds.carries name).stack⟩

theorem opened_level (opened : Opened Name Value)
    (ran : run state (opened.events nestLevel) = some after) :
    ∃ (inner : GucState Name Value) (innerScope : Name → Scope Value),
      Entered after.gucNestLevel inner ∧ Level after.gucNestLevel inner innerScope after := by
  induction opened generalizing nestLevel start state after scope with
  | here history =>
    have reached := history_carries entered holds history ran
    rw [← reached.level] at entered reached
    exact ⟨start, _, entered, reached⟩
  | inside history inner ih =>
    rw [Opened.events, run_append] at ran
    obtain ⟨middle, ranHistory, ranInner⟩ := bind_eq_some_iff.mp ran
    have reached := history_carries entered holds history ranHistory
    rw [run_cons, step, reached.level] at ranInner
    obtain ⟨innerEntered, innerHolds⟩ := enter_level entered reached
    exact ih innerEntered innerHolds ranInner

theorem aborted_level (body : History Name Value)
    (ran : run state (abortedLevel body nestLevel) = some after) (name : Name) :
    (after.records name).current = (state.records name).current := by
  rw [abortedLevel, run_cons, step, holds.level, bind_some, run_append] at ran
  obtain ⟨left, ranBody, ranLeft⟩ := bind_eq_some_iff.mp ran
  obtain ⟨innerEntered, innerHolds⟩ := enter_level entered holds
  have bodyHolds := history_carries innerEntered innerHolds body ranBody
  rw [run_cons, exit_returns (Nat.succ_pos nestLevel) bodyHolds.level] at ranLeft
  cases ranLeft
  change ((left.records name).exit false (nestLevel + 1)).current = _
  rw [exit_abort (Nat.succ_pos nestLevel) (innerEntered.below name) (bodyHolds.carries name)]

end

omit [DecidableEq Name] in
theorem start_level (idle : Idle state) :
    Entered 1 { state with gucNestLevel := 1 } ∧
      Level 1 { state with gucNestLevel := 1 } (fun name => .enter (state.records name).current)
        { state with gucNestLevel := 1 } := by
  constructor
  · refine ⟨Nat.one_pos, fun name entry found => ?_⟩
    change entry ∈ (state.records name).stack.head? at found
    rw [idle.empty name] at found
    cases found
  · exact ⟨rfl, fun name => enter_carries 1 (state.records name), fun _ => rfl⟩

theorem transaction_exit (idle : Idle state)
    {history : History Name Value} {isCommit : Bool}
    (ran : run state (transaction history isCommit) = some after) (name : Name) :
    ∃ record, after.records name = record.exit isCommit 1 ∧
      Carries 1 [] (state.records name).current (finalScope state name history) record := by
  rw [transaction, run_cons, step, bind_some, run_append] at ran
  obtain ⟨left, ranHistory, ranLeft⟩ := bind_eq_some_iff.mp ran
  obtain ⟨entered, holds⟩ := start_level idle
  have reached := history_carries entered holds history ranHistory
  rw [run_cons, exit_returns Nat.one_pos reached.level] at ranLeft
  cases ranLeft
  have carries := reached.carries name
  rw [idle.empty name] at carries
  exact ⟨left.records name, rfl, carries⟩

/-- Settings follow the scopes exactly where no `SET LOCAL` hides a `SET` from another source than
the session. -/
theorem settings_transactional (state : GucState Name Value) (idle : Idle state) (name : Name)
    (history : History Name Value) (after : GucState Name Value)
    (ran : run state (transaction history true) = some after) :
    Transactional state name history ↔ SessionMasked state name history := by
  constructor
  · intro holds
    obtain ⟨record, shape, carries⟩ := transaction_exit idle ran name
    have kept := (holds.commit after ran).1
    rw [shape] at kept
    exact (exit_outermost carries).2.mp kept
  · intro masked
    refine ⟨?_, ?_, ?_⟩
    · intro opened body before aborted ranOpened ranBody
      obtain ⟨entered, holds⟩ := start_level idle
      obtain ⟨inner, scope, innerEntered, innerHolds⟩ :=
        opened_level entered holds opened ranOpened
      exact aborted_level innerEntered innerHolds body ranBody name
    · intro aborted ranAborted
      obtain ⟨record, shape, carries⟩ := transaction_exit idle ranAborted name
      rw [shape, exit_abort Nat.one_pos (below_nil 1) carries]
      exact ⟨rfl, rfl⟩
    · intro committed ranCommitted
      obtain ⟨record, shape, carries⟩ := transaction_exit idle ranCommitted name
      rw [shape]
      exact ⟨(exit_outermost carries).2.mpr masked, (exit_outermost carries).1⟩

def untouchedState : GucState Unit Nat :=
  let setting : Setting Nat :=
    { value := 0, source := .default, scontext := .internal, srole := 10 }
  { gucNestLevel := 0
    records := fun _ => { current := setting, reset := setting, stack := [] } }

def sessionRequest (value : Option Nat) (action : GucAction) : Request Nat :=
  { value := value
    source := .session
    context := .userset
    srole := 10
    action := action
    transactional := by cases value <;> rfl }

def hidden (value : Option Nat) : History Unit Nat :=
  .assign () (sessionRequest value .set) (.assign () (sessionRequest (some 8) .localOnly) .done)

theorem untouched_idle : Idle untouchedState := ⟨rfl, fun _ => rfl⟩

theorem hidden_set_transactional :
    Idle untouchedState ∧ Transactional untouchedState () (hidden (some 7)) := by
  refine ⟨untouched_idle,
    (settings_transactional untouchedState untouched_idle () (hidden (some 7)) _ rfl).mpr ?_⟩
  intro kept found _
  cases found
  rfl

/-- A `RESET` hidden by a `SET LOCAL` comes back as a setting of the session. -/
theorem hidden_reset_in_session :
    Idle untouchedState ∧
      (outcome untouchedState () (hidden none)).source = .default ∧
      ∃ after, run untouchedState (transaction (hidden none) true) = some after ∧
        (after.records ()).current.source = .session := by
  refine ⟨untouched_idle, rfl, _, rfl, ?_⟩
  change (exitEntries true 1 _ [_]).1.source = .session
  rw [exitEntries.eq_def]
  dsimp only
  rw [if_neg (by decide), if_neg (by decide), if_neg (by decide), exitEntries]
  rfl

end Runs

end FortressQL.Guc.TransactionScopes
