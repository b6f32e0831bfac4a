import FortressQL.Scram.Answers
import FortressQL.Scram.Client

/-!
# The mechanism that the client selects

The loop of `pg_SASL_init` reads the offered names from left to right. A name with channel
binding replaces what was selected before; of the two others the first one stays.
-/

namespace FortressQL.Scram.MechanismChoice

open Elog Lib.ByteStrings Scram.Answers Scram.Client Scram.Keys

abbrev Insane (conn : PgConn) (mechanisms : List Bytes) : Prop :=
  conn.sslInUse = false ∧
    (scramSha384PlusName ∈ mechanisms ∨ scramSha256PlusName ∈ mechanisms)

/-- The first name of the documented order that is offered and permitted. -/
def bestMechanism (conn : PgConn) (mechanisms : List Bytes) : Option Bytes :=
  if Insane conn mechanisms then none
  else if scramSha384PlusName ∈ mechanisms ∧ supportsBinding conn then some scramSha384PlusName
  else if scramSha256PlusName ∈ mechanisms ∧ supportsBinding conn then some scramSha256PlusName
  else if scramSha384Name ∈ mechanisms ∧ conn.channelBinding ≠ .require then some scramSha384Name
  else if scramSha256Name ∈ mechanisms ∧ conn.channelBinding ≠ .require then some scramSha256Name
  else none

def plainName (name : Bytes) : Bool := name = scramSha384Name ∨ name = scramSha256Name

/-- What the loop over further names ends with if it does not stop. -/
def settled (conn : PgConn) (selected : Option Bytes) (mechanisms : List Bytes) : Option Bytes :=
  if supportsBinding conn ∧
      (scramSha384PlusName ∈ mechanisms ∨ selected = some scramSha384PlusName) then
    some scramSha384PlusName
  else if supportsBinding conn ∧ scramSha256PlusName ∈ mechanisms then some scramSha256PlusName
  else selected.or (mechanisms.find? plainName)

section Loop

variable {conn : PgConn} {mechanisms : List Bytes} {selected : Option Bytes}

theorem consider_returns {offered : Bytes} {next : Option Bytes} :
    considerMechanism conn selected offered = .ok next ↔
      ¬ Insane conn [offered] ∧ next = settled conn selected [offered] := by
  have names := mechanism_names_distinct
  simp only [considerMechanism, settled, supportsBinding, List.find?_singleton, plainName]
  cases selected <;> cases ssl : conn.sslInUse <;>
    by_cases disabled : conn.channelBinding = .disable <;> grind

theorem settled_cons (selected : Option Bytes) (offered : Bytes) (later : List Bytes) :
    settled conn (settled conn selected [offered]) later =
      settled conn selected (offered :: later) := by
  simp only [settled]
  cases plain : plainName offered with
  | false => grind
  | true => cases selected <;> grind

theorem loop_returns (mechanisms : List Bytes) (selected : Option Bytes) {last : Option Bytes} :
    mechanisms.foldlM (considerMechanism conn) selected = .ok last ↔
      ¬ Insane conn mechanisms ∧ last = settled conn selected mechanisms := by
  induction mechanisms generalizing selected with
  | nil =>
    have same : settled conn selected [] = selected := by
      grind [settled]
    simp only [List.foldlM_nil, pure, Except.pure]
    grind
  | cons offered later ih =>
    simp only [List.foldlM_cons, sequence_returns, consider_returns]
    rw [← settled_cons selected offered later]
    grind

theorem select_returns {mechanism : Bytes} :
    selectMechanism conn mechanisms = .ok mechanism ↔
      ¬ Insane conn mechanisms ∧ settled conn none mechanisms = some mechanism ∧
      (conn.channelBinding = .require →
        mechanism = scramSha256PlusName ∨ mechanism = scramSha384PlusName) := by
  simp only [selectMechanism, sequence_returns, loop_returns]
  cases settled conn none mechanisms with
  | none => simp
  | some name =>
    by_cases unbound : conn.channelBinding = .require ∧ name ≠ scramSha256PlusName ∧
        name ≠ scramSha384PlusName
    · simp [unbound]
      grind
    · simp [unbound]
      grind

theorem find_plain_cases (mechanisms : List Bytes) :
    (mechanisms.find? plainName = none ∧ scramSha384Name ∉ mechanisms ∧
        scramSha256Name ∉ mechanisms) ∨
      (mechanisms.find? plainName = some scramSha384Name ∧ scramSha384Name ∈ mechanisms) ∨
      (mechanisms.find? plainName = some scramSha256Name ∧ scramSha256Name ∈ mechanisms) := by
  cases found : mechanisms.find? plainName with
  | none => grind [plainName]
  | some name => grind [plainName]

end Loop

/-- Every order of an offer leads to the best name, unless SHA-384 alone is best and SHA-256 is
there. -/
theorem mechanism_choice_iff (conn : PgConn) (mechanisms : List Bytes) :
    (∀ order : List Bytes, order.Perm mechanisms →
      ∀ name, selectMechanism conn order = .ok name ↔
        bestMechanism conn mechanisms = some name) ↔
    (bestMechanism conn mechanisms = some scramSha384Name → scramSha256Name ∉ mechanisms) := by
  have names := mechanism_names_distinct
  constructor
  · intro always best offered
    -- The order that lists SHA-256 first.
    have first := (always _ (List.perm_cons_erase offered).symm _).mpr best
    rw [select_returns, settled, List.find?_cons_of_pos (by simp [plainName])] at first
    grind
  · intro apart order permuted name
    have same : bestMechanism conn order = bestMechanism conn mechanisms := by
      simp [bestMechanism, Insane, permuted.mem_iff]
    rw [select_returns, settled]
    simp only [bestMechanism] at apart ⊢
    rcases find_plain_cases order with ⟨found, missing⟩ | ⟨found, -⟩ | ⟨found, -⟩
    · rw [found]
      grind
    · rw [found]
      grind
    · rw [found]
      grind

def plainConn : PgConn :=
  { sslInUse := false
    channelBinding := .prefer
    hostPassword := none
    pgpass := none
    peerCertificateHash := .error "" }

/-- A server that lists SHA-256 first gets it. -/
theorem sha256_listed_first :
    bestMechanism plainConn [scramSha256Name, scramSha384Name] = some scramSha384Name ∧
      selectMechanism plainConn [scramSha256Name, scramSha384Name] = .ok scramSha256Name := by
  decide +kernel

end FortressQL.Scram.MechanismChoice
