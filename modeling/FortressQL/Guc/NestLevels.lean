import FortressQL.Guc.PolicyCascade

/-!
# Settings and nest levels

`guc.c`: an assignment inside a transaction pushes what it replaces on a stack of the variable,
one entry for each nest level.
-/

namespace FortressQL.Guc.NestLevels

open Guc.PolicyCascade (GucSource GucContext)

variable {Value : Type}

abbrev Oid := UInt32

/-- A value with its source, context and role. The extra data of a value counts as part of it. -/
structure Setting (Value : Type) where
  value : Value
  source : GucSource
  scontext : GucContext
  srole : Oid
  deriving DecidableEq

/-- What an entry keeps of a `SET` that a `SET LOCAL` hides: all but the source. -/
structure Masked (Value : Type) where
  value : Value
  scontext : GucContext
  srole : Oid

def Setting.masked (setting : Setting Value) : Masked Value :=
  ⟨setting.value, setting.scontext, setting.srole⟩

def Masked.setting (masked : Masked Value) : Setting Value :=
  { value := masked.value
    source := .session
    scontext := masked.scontext
    srole := masked.srole }

inductive GucAction where
  | set
  | localOnly
  | save

/-- `GucStackState`, with the masked value in the one state that has it. -/
inductive GucStackState (Value : Type) where
  | save
  | set
  | localOnly
  | setLocal (masked : Masked Value)

structure GucStack (Value : Type) where
  nestLevel : Nat
  state : GucStackState Value
  prior : Setting Value

structure ConfigGeneric (Value : Type) where
  current : Setting Value
  reset : Setting Value
  stack : List (GucStack Value)

def GucStackState.ofAction : GucAction → GucStackState Value
  | .set => .set
  | .localOnly => .localOnly
  | .save => .save

/-- A further assignment at the level of an entry; nothing if `GUC_ACTION_SAVE` finds another
action. -/
def GucStackState.adjust (state : GucStackState Value) (action : GucAction)
    (current : Setting Value) : Option (GucStackState Value) :=
  match action, state with
  | .set, _ => some .set
  | .localOnly, .set => some (.setLocal current.masked)
  | .localOnly, other => some other
  | .save, .save => some .save
  | .save, _ => none

def pushNew (gucNestLevel : Nat) (gconf : ConfigGeneric Value) (action : GucAction) :
    ConfigGeneric Value :=
  { gconf with stack := ⟨gucNestLevel, .ofAction action, gconf.current⟩ :: gconf.stack }

def pushOldValue (gucNestLevel : Nat) (gconf : ConfigGeneric Value) (action : GucAction) :
    Option (ConfigGeneric Value) :=
  if gucNestLevel = 0 then some gconf
  else
    match gconf.stack with
    | [] => some (pushNew gucNestLevel gconf action)
    | entry :: prev =>
      if gucNestLevel ≤ entry.nestLevel then
        if entry.nestLevel = gucNestLevel then
          (entry.state.adjust action gconf.current).map fun state =>
            { gconf with stack := { entry with state := state } :: prev }
        else none
      else some (pushNew gucNestLevel gconf action)

def makeDefault (value : Option Value) (source : GucSource) : Bool :=
  source.level ≤ GucSource.override.level && (value.isSome || source == .default)

/-- An assignment that passed the checks of `set_config_with_handle` and is transactional. No value
asks for `RESET`. -/
structure Request (Value : Type) where
  value : Option Value
  source : GucSource
  context : GucContext
  srole : Oid
  action : GucAction
  transactional : makeDefault value source = false

def Request.setting (request : Request Value) (reset : Setting Value) : Setting Value :=
  match request.value with
  | none => reset
  | some value => ⟨value, request.source, request.context, request.srole⟩

/-- The end of `set_config_with_handle`: a setting from a higher source stays. -/
def setConfigWithHandle (gucNestLevel : Nat) (record : ConfigGeneric Value)
    (request : Request Value) : Option (ConfigGeneric Value) :=
  if request.source.level < record.current.source.level then some record
  else
    (pushOldValue gucNestLevel record request.action).map fun pushed =>
      { pushed with current := request.setting record.reset }

def GucStackState.isSave : GucStackState Value → Bool
  | .save => true
  | .set => false
  | .localOnly => false
  | .setLocal _ => false

/-- The setting after the last level of a transaction has been committed. -/
def GucStack.committed (entry : GucStack Value) (current : Setting Value) : Setting Value :=
  match entry.state with
  | .setLocal masked => masked.setting
  | .set => current
  | .localOnly => entry.prior
  | .save => entry.prior

/-- What becomes of the entry of the level below when a committed one is merged into it. -/
def GucStack.merge (entry prev : GucStack Value) : GucStack Value :=
  match entry.state with
  | .save => prev
  | .set => { prev with state := .set }
  | .localOnly =>
    match prev.state with
    | .set => { prev with state := .setLocal entry.prior.masked }
    | _ => prev
  | .setLocal masked => { prev with state := .setLocal masked }

def stackWeight (stack : List (GucStack Value)) : Nat :=
  (stack.map fun entry => entry.nestLevel + 1).sum

theorem merge_level (entry prev : GucStack Value) :
    (entry.merge prev).nestLevel = prev.nestLevel := by
  unfold GucStack.merge
  split
  · rfl
  · rfl
  · split <;> rfl
  · rfl

/-- The loop over the entries of one variable in `AtEOXact_GUC`. -/
def exitEntries (isCommit : Bool) (nestLevel : Nat) (current : Setting Value) :
    List (GucStack Value) → Setting Value × List (GucStack Value)
  | [] => (current, [])
  | entry :: prev =>
    if entry.nestLevel < nestLevel ∨ nestLevel = 0 then (current, entry :: prev)
    else if isCommit = false then exitEntries isCommit nestLevel entry.prior prev
    else if entry.state.isSave then exitEntries isCommit nestLevel entry.prior prev
    else if entry.nestLevel = 1 then
      exitEntries isCommit nestLevel (entry.committed current) prev
    else
      match prev with
      | [] => exitEntries isCommit nestLevel current
          [{ entry with nestLevel := entry.nestLevel - 1 }]
      | below :: others =>
        if below.nestLevel < entry.nestLevel - 1 then
          exitEntries isCommit nestLevel current
            ({ entry with nestLevel := entry.nestLevel - 1 } :: below :: others)
        else exitEntries isCommit nestLevel current (entry.merge below :: others)
termination_by stack => stackWeight stack
decreasing_by
  all_goals simp only [stackWeight, List.map_cons, List.map_nil, List.sum_cons, List.sum_nil,
    merge_level]
  all_goals omega

def ConfigGeneric.exit (record : ConfigGeneric Value) (isCommit : Bool) (nestLevel : Nat) :
    ConfigGeneric Value :=
  let left := exitEntries isCommit nestLevel record.current record.stack
  { record with current := left.1, stack := left.2 }

section Machine

variable {Name : Type} [DecidableEq Name]

structure GucState (Name Value : Type) where
  gucNestLevel : Nat
  records : Name → ConfigGeneric Value

inductive Event (Name Value : Type) where
  | atStartGUC
  | newGUCNestLevel
  | setConfig (name : Name) (request : Request Value)
  | atEOXactGUC (isCommit : Bool) (nestLevel : Nat)

def atEOXactGUC (state : GucState Name Value) (isCommit : Bool) (nestLevel : Nat) :
    Option (GucState Name Value) :=
  if 0 < nestLevel ∧ (nestLevel ≤ state.gucNestLevel ∨
      nestLevel = state.gucNestLevel + 1 ∧ isCommit = false) then
    some
      { gucNestLevel := nestLevel - 1
        records := fun name => (state.records name).exit isCommit nestLevel }
  else none

def step (state : GucState Name Value) : Event Name Value → Option (GucState Name Value)
  | .atStartGUC => some { state with gucNestLevel := 1 }
  | .newGUCNestLevel => some { state with gucNestLevel := state.gucNestLevel + 1 }
  | .setConfig name request =>
    (setConfigWithHandle state.gucNestLevel (state.records name) request).map fun record =>
      { state with records := Function.update state.records name record }
  | .atEOXactGUC isCommit nestLevel => atEOXactGUC state isCommit nestLevel

def run (state : GucState Name Value) (events : List (Event Name Value)) :
    Option (GucState Name Value) :=
  events.foldlM step state

end Machine

end FortressQL.Guc.NestLevels
