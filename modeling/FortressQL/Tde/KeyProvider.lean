import FortressQL.Elog
import FortressQL.Lib.ByteStrings

/-!
# Key providers

`tde_key_provider.c`: the text of the secret key comes from an environment variable, a file or a
command. The last two are cut at the buffer size and the first zero byte.
-/

namespace FortressQL.Tde.KeyProvider

open Elog Lib.ByteStrings

def tdeMaxHexKeyLen : Nat := 8192

inductive TdeKeyProviderType where
  | env
  | file
  | command
  deriving DecidableEq

/-- What the providers of a process find: the settings, the environment, the files and what
`popen` starts, with its exit code. -/
structure KeySources where
  tdeKeyProvider : TdeKeyProviderType
  environment : Option Bytes
  tdeKeyFile : String
  stat : String → Bool
  fopen : String → Option Bytes
  tdeKeyCommand : String
  popen : String → Option (Bytes × Int)

def cString (buffer : Bytes) : Bytes := buffer.takeWhile (· ≠ 0)

def isBlank (char : UInt8) : Bool := char = 32 ∨ char = 9 ∨ char = 10 ∨ char = 13

def stripWhitespace (str : Bytes) : Bytes :=
  ((str.dropWhile isBlank).reverse.dropWhile isBlank).reverse

def invalidSetting (errmsg errhint : String) : ErrorReport :=
  { elevel := .error
    errcode := .invalidParameterValue
    errmsg := errmsg
    errhint := errhint }

def environmentNotSet : ErrorReport :=
  invalidSetting "TDE: FORTRESSQL_KEM_SECRET_KEY environment variable not set"
    ("Set the ML-KEM secret key environment variable, or use " ++
      "tde_key_provider = 'file' or 'command' for alternative key sources.")

def tdeKeyProviderFetchEnv (sources : KeySources) : Raises Bytes :=
  match sources.environment with
  | none => .error environmentNotSet
  | some value =>
    if (cString value).length = 0 then .error environmentNotSet else .ok (cString value)

def keyFileNotSet : ErrorReport :=
  invalidSetting "TDE: tde_key_file is not set"
    "Set tde_key_file to the path of a file containing the hex-encoded ML-KEM secret key."

def fileAccess (errmsg : String) : ErrorReport :=
  { elevel := .error, errcode := .fileAccess, errmsg := errmsg }

def keyFileCorrupted (errmsg : String) : ErrorReport :=
  { elevel := .error, errcode := .dataCorrupted, errmsg := errmsg }

def tdeKeyProviderFetchFile (sources : KeySources) : Raises Bytes := do
  let path := sources.tdeKeyFile
  ensure (path ≠ "") keyFileNotSet
  ensure (sources.stat path = true) (fileAccess s!"TDE: could not access key file \"{path}\"")
  match sources.fopen path with
  | none => .error (fileAccess s!"TDE: could not open key file \"{path}\"")
  | some content => do
      let buffer := content.take tdeMaxHexKeyLen
      ensure (buffer.length ≠ 0) (keyFileCorrupted s!"TDE: key file \"{path}\" is empty")
      let trimmed := stripWhitespace (cString buffer)
      ensure (trimmed.length ≠ 0)
        (keyFileCorrupted s!"TDE: key file \"{path}\" contains only whitespace")
      return trimmed

def keyCommandNotSet : ErrorReport :=
  invalidSetting "TDE: tde_key_command is not set"
    "Set tde_key_command to a command that outputs the hex-encoded ML-KEM secret key on stdout."

def keyCommandFailed (errmsg : String) : ErrorReport :=
  { elevel := .error, errcode := .externalRoutineException, errmsg := errmsg }

def tdeKeyProviderFetchCommand (sources : KeySources) : Raises Bytes := do
  let command := sources.tdeKeyCommand
  ensure (command ≠ "") keyCommandNotSet
  match sources.popen command with
  | none => .error (fileAccess s!"TDE: could not execute key command \"{command}\"")
  | some (output, exitCode) => do
      let buffer := output.take tdeMaxHexKeyLen
      ensure (exitCode = 0)
        (keyCommandFailed s!"TDE: key command \"{command}\" failed with exit code {exitCode}")
      ensure (buffer.length ≠ 0)
        (keyCommandFailed s!"TDE: key command \"{command}\" produced no output")
      let trimmed := stripWhitespace (cString buffer)
      ensure (trimmed.length ≠ 0)
        (keyCommandFailed s!"TDE: key command \"{command}\" produced only whitespace")
      return trimmed

def tdeKeyProviderFetch (sources : KeySources) : Raises Bytes :=
  match sources.tdeKeyProvider with
  | .env => tdeKeyProviderFetchEnv sources
  | .file => tdeKeyProviderFetchFile sources
  | .command => tdeKeyProviderFetchCommand sources

/-- What the chosen provider reads, before it makes a text of it. -/
def KeySources.material (sources : KeySources) : Option Bytes :=
  match sources.tdeKeyProvider with
  | .env => sources.environment
  | .file => sources.fopen sources.tdeKeyFile
  | .command => (sources.popen sources.tdeKeyCommand).map Prod.fst

theorem tde_key_provider_fetch_returns {sources : KeySources} {text : Bytes}
    (returned : tdeKeyProviderFetch sources = .ok text) :
    ∃ material, sources.material = some material ∧
      (text = cString material ∨
        text = stripWhitespace (cString (material.take tdeMaxHexKeyLen))) := by
  cases provider : sources.tdeKeyProvider with
  | env =>
    simp only [tdeKeyProviderFetch, provider, tdeKeyProviderFetchEnv] at returned
    cases found : sources.environment with
    | none => simp [found] at returned
    | some value =>
      simp only [found] at returned
      split_ifs at returned
      exact ⟨value, by simp [KeySources.material, provider, found],
        .inl (Except.ok.inj returned).symm⟩
  | file =>
    simp only [tdeKeyProviderFetch, provider, tdeKeyProviderFetchFile, sequence_returns] at returned
    obtain ⟨_, -, _, -, read⟩ := returned
    cases opened : sources.fopen sources.tdeKeyFile with
    | none => simp [opened] at read
    | some content =>
      simp only [opened, sequence_returns] at read
      obtain ⟨_, -, _, -, trimmed⟩ := read
      exact ⟨content, by simp [KeySources.material, provider, opened],
        .inr (Except.ok.inj trimmed).symm⟩
  | command =>
    simp only [tdeKeyProviderFetch, provider, tdeKeyProviderFetchCommand,
      sequence_returns] at returned
    obtain ⟨_, -, read⟩ := returned
    cases started : sources.popen sources.tdeKeyCommand with
    | none => simp [started] at read
    | some result =>
      simp only [started, sequence_returns] at read
      obtain ⟨_, -, _, -, _, -, trimmed⟩ := read
      exact ⟨result.1, by simp [KeySources.material, provider, started],
        .inr (Except.ok.inj trimmed).symm⟩

end FortressQL.Tde.KeyProvider
