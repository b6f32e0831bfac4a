import FortressQL.Elog
import FortressQL.Lib.Runs
import Mathlib.Data.List.Induction
import Mathlib.Logic.Function.Basic

/-!
# Policies and the settings they cascade to

`assign_crypto_policy` sets other parameters. What a parameter holds is decided by the last policy
that sets it: `custom` sets none, `legacy` two of the four.
-/

namespace FortressQL.Guc.PolicyCascade

open Elog Lib.Runs

/-- `GucSource`; a setting gives way to one of the same or a higher level. -/
inductive GucSource where
  | default
  | dynamicDefault
  | envVar
  | file
  | argv
  | global
  | database
  | user
  | databaseUser
  | client
  | override
  | interactive
  | test
  | session
  deriving DecidableEq

def GucSource.level : GucSource → Nat
  | .default => 0
  | .dynamicDefault => 1
  | .envVar => 2
  | .file => 3
  | .argv => 4
  | .global => 5
  | .database => 6
  | .user => 7
  | .databaseUser => 8
  | .client => 9
  | .override => 10
  | .interactive => 11
  | .test => 12
  | .session => 13

inductive GucContext where
  | internal
  | postmaster
  | sighup
  | suBackend
  | backend
  | suset
  | userset
  deriving DecidableEq

structure Setting (Value : Type) where
  value : Value
  source : GucSource

/-- The current setting, the one `RESET` goes back to and those of the enclosing transactions. -/
structure ConfigRecord (Value : Type) where
  current : Setting Value
  reset : Setting Value
  stack : List (Setting Value)

def Setting.replace {Value : Type} (setting new : Setting Value) : Setting Value :=
  if setting.source.level ≤ new.source.level then new else setting

/-- The end of `set_config_with_handle` for sources up to `PGC_S_OVERRIDE`, where `makeDefault`
holds. -/
def ConfigRecord.install {Value : Type} (record : ConfigRecord Value) (new : Setting Value) :
    ConfigRecord Value :=
  { current := record.current.replace new
    reset := record.reset.replace new
    stack := record.stack.map fun setting => setting.replace new }

inductive PasswordType where
  | md5
  | scramSha256
  | scramSha384
  deriving DecidableEq

inductive PqcTlsMode where
  | off
  | hybrid
  | pqcOnly
  deriving DecidableEq

inductive Parameter where
  | passwordEncryption
  | sslPqcMode
  | sslPqcGroups
  | sslPqcSigalgs
  deriving DecidableEq

def Parameter.name : Parameter → String
  | .passwordEncryption => "password_encryption"
  | .sslPqcMode => "ssl_pqc_mode"
  | .sslPqcGroups => "ssl_pqc_groups"
  | .sslPqcSigalgs => "ssl_pqc_sigalgs"

def Parameter.Value : Parameter → Type
  | .passwordEncryption => PasswordType
  | .sslPqcMode => PqcTlsMode
  | .sslPqcGroups => String
  | .sslPqcSigalgs => String

abbrev Config := (parameter : Parameter) → ConfigRecord parameter.Value

def passwordEncryptionOptions : List (String × PasswordType) :=
  [("md5", .md5), ("scram-sha-256", .scramSha256), ("scram-sha-384", .scramSha384)]

def sslPqcModeOptions : List (String × PqcTlsMode) :=
  [("off", .off), ("hybrid", .hybrid), ("pqc-only", .pqcOnly)]

def invalidValue (parameter : Parameter) (value errdetail errhint : String) : ErrorReport :=
  { elevel := .error
    errcode := .invalidParameterValue
    errmsg := s!"invalid value for parameter \"{parameter.name}\": \"{value}\""
    errdetail := errdetail
    errhint := errhint }

/-- `config_enum_lookup_by_name`, with the report of its caller. -/
def configEnumLookupByName {Value : Type} (parameter : Parameter) (options : List (String × Value))
    (value : String) : Raises Value :=
  match options.find? fun entry => value.toLower == entry.1.toLower with
  | some entry => .ok entry.2
  | none =>
    .error (invalidValue parameter value ""
      ("Available values: " ++ ", ".intercalate (options.map Prod.fst) ++ "."))

def checkSslPqcGroups (newval : String) (source : GucSource) : Bool :=
  !(newval == "" && decide (GucSource.default.level < source.level))

/-- `parse_and_validate_value` with the check hooks of the four parameters. -/
def parseAndValidateValue (parameter : Parameter) (value : String) (source : GucSource) :
    Raises parameter.Value :=
  match parameter with
  | .passwordEncryption =>
    configEnumLookupByName .passwordEncryption passwordEncryptionOptions value
  | .sslPqcMode => configEnumLookupByName .sslPqcMode sslPqcModeOptions value
  | .sslPqcGroups =>
    if checkSslPqcGroups value source then .ok value
    else .error (invalidValue .sslPqcGroups value
      "ssl_pqc_groups must not be empty when explicitly set." "")
  | .sslPqcSigalgs => .ok value

/-- `password_encryption` is `PGC_USERSET`, the others are `PGC_SIGHUP`. -/
def Parameter.settable (parameter : Parameter) (context : GucContext) : Bool :=
  match parameter with
  | .passwordEncryption => true
  | _ => context == .sighup || context == .postmaster

def cannotBeChangedNow (parameter : Parameter) : ErrorReport :=
  { elevel := .error
    errcode := .cantChangeRuntimeParam
    errmsg := s!"parameter \"{parameter.name}\" cannot be changed now" }

/-- `SetConfigOption` outside parallel mode, for sources up to `PGC_S_OVERRIDE`. -/
def setConfigOption (config : Config) (parameter : Parameter) (value : String)
    (context : GucContext) (source : GucSource) : Raises Config := do
  ensure (parameter.settable context = true) (cannotBeChangedNow parameter)
  let newval ← parseAndValidateValue parameter value source
  return Function.update config parameter ((config parameter).install ⟨newval, source⟩)

inductive CryptoPolicy where
  | custom
  | legacy
  | transitional
  | fipsPqcLevel3
  | fipsPqcLevel5
  deriving DecidableEq

def assignCryptoPolicy (config : Config) (newval : CryptoPolicy) : Raises Config :=
  match newval with
  | .custom => .ok config
  | .legacy => do
      let config ← setConfigOption config .passwordEncryption "md5" .sighup .override
      setConfigOption config .sslPqcMode "off" .sighup .override
  | .transitional => do
      let config ← setConfigOption config .passwordEncryption "scram-sha-256" .sighup .override
      let config ← setConfigOption config .sslPqcMode "hybrid" .sighup .override
      let config ← setConfigOption config .sslPqcGroups "X25519MLKEM768:X25519:prime256v1"
        .sighup .override
      setConfigOption config .sslPqcSigalgs "" .sighup .override
  | .fipsPqcLevel3 => do
      let config ← setConfigOption config .passwordEncryption "scram-sha-384" .sighup .override
      let config ← setConfigOption config .sslPqcMode "hybrid" .sighup .override
      let config ← setConfigOption config .sslPqcGroups "MLKEM768" .sighup .override
      setConfigOption config .sslPqcSigalgs "MLDSA65" .sighup .override
  | .fipsPqcLevel5 => do
      let config ← setConfigOption config .passwordEncryption "scram-sha-384" .sighup .override
      let config ← setConfigOption config .sslPqcMode "pqc-only" .sighup .override
      let config ← setConfigOption config .sslPqcGroups "MLKEM1024" .sighup .override
      setConfigOption config .sslPqcSigalgs "MLDSA87" .sighup .override

section Records

variable {Value : Type}

theorem replace_replace (setting first second : Setting Value)
    (same : first.source = second.source) :
    (setting.replace first).replace second = setting.replace second := by
  unfold Setting.replace
  split_ifs with given kept <;> first | rfl | (rw [same] at *; omega)

theorem install_install (record : ConfigRecord Value) (first second : Setting Value)
    (same : first.source = second.source) :
    (record.install first).install second = record.install second := by
  simp [ConfigRecord.install, replace_replace _ first second same]

end Records

def CryptoPolicy.cascades : CryptoPolicy → (parameter : Parameter) → Option parameter.Value
  | .custom, _ => none
  | .legacy, .passwordEncryption => some PasswordType.md5
  | .legacy, .sslPqcMode => some PqcTlsMode.off
  | .legacy, .sslPqcGroups => none
  | .legacy, .sslPqcSigalgs => none
  | .transitional, .passwordEncryption => some PasswordType.scramSha256
  | .transitional, .sslPqcMode => some PqcTlsMode.hybrid
  | .transitional, .sslPqcGroups => some "X25519MLKEM768:X25519:prime256v1"
  | .transitional, .sslPqcSigalgs => some ""
  | .fipsPqcLevel3, .passwordEncryption => some PasswordType.scramSha384
  | .fipsPqcLevel3, .sslPqcMode => some PqcTlsMode.hybrid
  | .fipsPqcLevel3, .sslPqcGroups => some "MLKEM768"
  | .fipsPqcLevel3, .sslPqcSigalgs => some "MLDSA65"
  | .fipsPqcLevel5, .passwordEncryption => some PasswordType.scramSha384
  | .fipsPqcLevel5, .sslPqcMode => some PqcTlsMode.pqcOnly
  | .fipsPqcLevel5, .sslPqcGroups => some "MLKEM1024"
  | .fipsPqcLevel5, .sslPqcSigalgs => some "MLDSA87"

def overridden {Value : Type} (record : ConfigRecord Value) : Option Value → ConfigRecord Value
  | none => record
  | some value => record.install ⟨value, .override⟩

theorem overridden_overridden {Value : Type} (record : ConfigRecord Value)
    (first second : Option Value) :
    overridden (overridden record first) second = overridden record (second.or first) := by
  cases second with
  | none => rfl
  | some value =>
    cases first with
    | none => rfl
    | some earlier => exact install_install record _ _ rfl

/-- The value the last policy of a sequence that sets the parameter gives it. -/
def lastCascaded (policies : List CryptoPolicy) (parameter : Parameter) :
    Option parameter.Value :=
  policies.reverse.findSome? fun policy => policy.cascades parameter

theorem last_cascaded_append (earlier : List CryptoPolicy) (last : CryptoPolicy)
    (parameter : Parameter) :
    lastCascaded (earlier ++ [last]) parameter =
      (last.cascades parameter).or (lastCascaded earlier parameter) := by
  rw [lastCascaded, List.reverse_append, List.reverse_singleton, List.singleton_append,
    List.findSome?_cons]
  cases last.cascades parameter <;> rfl

section Assigning

variable (config : Config)

theorem options_found :
    (∀ entry ∈ passwordEncryptionOptions, (passwordEncryptionOptions.find? fun other =>
        entry.1.toLower == other.1.toLower) = some entry) ∧
      ∀ entry ∈ sslPqcModeOptions, (sslPqcModeOptions.find? fun other =>
        entry.1.toLower == other.1.toLower) = some entry := by
  decide +kernel

theorem enum_lookup_found {Value : Type} {parameter : Parameter} {options : List (String × Value)}
    {entry : String × Value}
    (found : (options.find? fun other => entry.1.toLower == other.1.toLower) = some entry) :
    configEnumLookupByName parameter options entry.1 = .ok entry.2 := by
  rw [configEnumLookupByName, found]

theorem set_config_option_returns (parameter : Parameter) (value : String)
    {newval : parameter.Value}
    (parsed : parseAndValidateValue parameter value .override = .ok newval) :
    setConfigOption config parameter value .sighup .override =
      .ok (Function.update config parameter ((config parameter).install ⟨newval, .override⟩)) := by
  have settable : parameter.settable .sighup = true := by cases parameter <;> rfl
  rw [setConfigOption, ensure_holds settable, parsed]
  rfl

theorem assign_crypto_policy_returns (policy : CryptoPolicy) :
    assignCryptoPolicy config policy =
      .ok fun parameter => overridden (config parameter) (policy.cascades parameter) := by
  have password (entry : String × PasswordType) (listed : entry ∈ passwordEncryptionOptions)
      (config : Config) :=
    set_config_option_returns config .passwordEncryption entry.1
      (enum_lookup_found (options_found.1 entry listed))
  have mode (entry : String × PqcTlsMode) (listed : entry ∈ sslPqcModeOptions) (config : Config) :=
    set_config_option_returns config .sslPqcMode entry.1
      (enum_lookup_found (options_found.2 entry listed))
  have groups {value : String} (accepted : checkSslPqcGroups value .override = true)
      (config : Config) :=
    set_config_option_returns config .sslPqcGroups value (if_pos accepted)
  have sigalgs (value : String) (config : Config) :=
    set_config_option_returns config .sslPqcSigalgs value rfl
  cases policy with
  | custom => rfl
  | legacy =>
    rw [assignCryptoPolicy, password ("md5", .md5) (by decide), ok_then,
      mode ("off", .off) (by decide)]
    congr 1
    funext parameter
    cases parameter <;> rfl
  | transitional =>
    rw [assignCryptoPolicy, password ("scram-sha-256", .scramSha256) (by decide), ok_then,
      mode ("hybrid", .hybrid) (by decide), ok_then, groups (by decide), ok_then, sigalgs]
    congr 1
    funext parameter
    cases parameter <;> rfl
  | fipsPqcLevel3 =>
    rw [assignCryptoPolicy, password ("scram-sha-384", .scramSha384) (by decide), ok_then,
      mode ("hybrid", .hybrid) (by decide), ok_then, groups (by decide), ok_then, sigalgs]
    congr 1
    funext parameter
    cases parameter <;> rfl
  | fipsPqcLevel5 =>
    rw [assignCryptoPolicy, password ("scram-sha-384", .scramSha384) (by decide), ok_then,
      mode ("pqc-only", .pqcOnly) (by decide), ok_then, groups (by decide), ok_then, sigalgs]
    congr 1
    funext parameter
    cases parameter <;> rfl

theorem assigned_policies_return (policies : List CryptoPolicy) :
    runFallible assignCryptoPolicy config policies =
      .ok fun parameter => overridden (config parameter) (lastCascaded policies parameter) := by
  induction policies using List.reverseRecOn with
  | nil => rfl
  | append_singleton earlier last ih =>
    rw [run_fallible_append assignCryptoPolicy config earlier [last] ih]
    simp [runFallible, assign_crypto_policy_returns, overridden_overridden, last_cascaded_append]

end Assigning

/-- A last policy other than `custom` decides `password_encryption` and `ssl_pqc_mode`, and all
parameters if it is not `legacy` either. `custom` changes nothing. -/
theorem last_policy_decides (start : Config) (earlier : List CryptoPolicy) (last : CryptoPolicy) :
    ∃ before after alone, runFallible assignCryptoPolicy start earlier = .ok before ∧
      runFallible assignCryptoPolicy start (earlier ++ [last]) = .ok after ∧
      runFallible assignCryptoPolicy start [last] = .ok alone ∧
      (last = .custom → after = before) ∧
      (last ≠ .custom → after .passwordEncryption = alone .passwordEncryption ∧
        after .sslPqcMode = alone .sslPqcMode) ∧
      (last ≠ .custom → last ≠ .legacy → after = alone) := by
  refine ⟨_, _, _, assigned_policies_return start earlier, assigned_policies_return start _,
    assigned_policies_return start _, ?_⟩
  have sets {parameter : Parameter} (set : (last.cascades parameter).isSome) :
      lastCascaded (earlier ++ [last]) parameter = lastCascaded [last] parameter := by
    obtain ⟨value, cascaded⟩ := Option.isSome_iff_exists.mp set
    rw [last_cascaded_append, ← List.nil_append [last], last_cascaded_append, cascaded]
    rfl
  refine ⟨?_, ?_, ?_⟩
  · rintro rfl
    funext parameter
    rw [last_cascaded_append]
    rfl
  · intro cascading
    cases last with
    | custom => exact absurd rfl cascading
    | _ => exact ⟨by rw [sets rfl], by rw [sets rfl]⟩
  · intro cascading current
    funext parameter
    cases last with
    | custom => exact absurd rfl cascading
    | legacy => exact absurd rfl current
    | _ => cases parameter <;> rw [sets rfl]

def bootConfig : Config
  | .passwordEncryption => ⟨⟨PasswordType.scramSha256, .default⟩, ⟨.scramSha256, .default⟩, []⟩
  | .sslPqcMode => ⟨⟨PqcTlsMode.hybrid, .default⟩, ⟨.hybrid, .default⟩, []⟩
  | .sslPqcGroups =>
    let groups : Setting String := ⟨"X25519MLKEM768:X25519:prime256v1", .default⟩
    ⟨groups, groups, []⟩
  | .sslPqcSigalgs =>
    let sigalgs : Setting String := ⟨"", .default⟩
    ⟨sigalgs, sigalgs, []⟩

/-- What an earlier policy has set stays behind `custom`, and in part behind `legacy`. -/
theorem earlier_policy_shows :
    ∃ custom customAlone legacy legacyAlone,
      runFallible assignCryptoPolicy bootConfig [.fipsPqcLevel5, .custom] = .ok custom ∧
      runFallible assignCryptoPolicy bootConfig [.custom] = .ok customAlone ∧
      runFallible assignCryptoPolicy bootConfig [.fipsPqcLevel5, .legacy] = .ok legacy ∧
      runFallible assignCryptoPolicy bootConfig [.legacy] = .ok legacyAlone ∧
      (custom .passwordEncryption).current.value = PasswordType.scramSha384 ∧
      (customAlone .passwordEncryption).current.value = PasswordType.scramSha256 ∧
      (legacy .sslPqcGroups).current.value = "MLKEM1024" ∧
      (legacyAlone .sslPqcGroups).current.value = "X25519MLKEM768:X25519:prime256v1" := by
  refine ⟨_, _, _, _, assigned_policies_return _ _, assigned_policies_return _ _,
    assigned_policies_return _ _, assigned_policies_return _ _, ?_⟩
  exact ⟨rfl, rfl, rfl, rfl⟩

end FortressQL.Guc.PolicyCascade
