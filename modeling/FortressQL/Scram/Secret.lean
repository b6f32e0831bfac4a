import FortressQL.Lib.Scan
import FortressQL.Scram.Keys

/-!
# Parsing stored secrets

`parse_scram_secret` and `get_password_type`. A parsed secret has keys of the length
its hash prescribes.
-/

namespace FortressQL.Scram.Secret

open Option List Common.Base64 Lib.ByteStrings Lib.Decimal Lib.Scan Scram.Keys

/-- A hash with the key length that is kept beside it everywhere. -/
structure HashParameters where
  hashType : PgCryptohashType
  keyLength : Nat
  keyLengthMatches : keyLength = hashType.digestLength

def sha256Parameters : HashParameters := ⟨.sha256, scramSha256KeyLen, rfl⟩

def sha384Parameters : HashParameters := ⟨.sha384, scramSha384KeyLen, rfl⟩

/-- The hash and key length that a mechanism name promises. -/
def mechanismParameters (selectedMech : Bytes) : HashParameters :=
  if selectedMech = scramSha384Name ∨ selectedMech = scramSha384PlusName then sha384Parameters
  else sha256Parameters

structure ScramSecret extends HashParameters where
  iterations : Int
  /-- The salt as base64 text. -/
  salt : Bytes
  storedKey : Bytes
  serverKey : Bytes
  storedKeyLength : storedKey.length = keyLength
  serverKeyLength : serverKey.length = keyLength

def schemeParameters (scheme : Bytes) : Option HashParameters :=
  if scheme = scramSha256Name then some sha256Parameters
  else if scheme = scramSha384Name then some sha384Parameters
  else none

/-- The iteration count: the whole text is a number in the range of `long`, cut to `int`. -/
def readIterations (text : Bytes) : Option Int :=
  let read := strtol text
  if read.rest ≠ [] ∨ read.outOfRange then none else some (intOfLong read.value)

/-- Decoding into a buffer of the advertised length, as every caller does. -/
def decodeText (text : Bytes) : Option Bytes := pgB64Decode text (pgB64DecLen text.length)

theorem decode_text_encode_text (src : Bytes) : decodeText (encodeText src) = some src :=
  pg_b64_decode_encode_text src

def parseScramSecret (secret : Bytes) : Option ScramSecret := do
  let (scheme, afterScheme) ← strtok [dollar] secret
  let (iterationsText, afterIterations) ← strtok [colon] afterScheme
  let (salt, afterSalt) ← strtok [dollar] afterIterations
  let (storedText, afterStored) ← strtok [colon] afterSalt
  let (serverText, _) ← strtok [] afterStored
  let parameters ← schemeParameters scheme
  let iterations ← readIterations iterationsText
  let _ ← decodeText salt
  let storedKey ← decodeText storedText
  let serverKey ← decodeText serverText
  if lengths : storedKey.length = parameters.keyLength ∧
      serverKey.length = parameters.keyLength then
    some { toHashParameters := parameters, iterations := iterations, salt := salt
           storedKey := storedKey, serverKey := serverKey
           storedKeyLength := lengths.1, serverKeyLength := lengths.2 }
  else none

inductive PasswordType where
  | plaintext
  | md5
  | scramSha256
  | scramSha384
  deriving DecidableEq, Repr

/-- The test for an MD5 hash: `md5` and 32 hexadecimal digits. -/
def looksLikeMd5 (shadowPass : Bytes) : Bool :=
  shadowPass.take 3 == ascii "md5" && shadowPass.length == 35 &&
    (shadowPass.drop 3).all fun char => (ascii "0123456789abcdef").contains char

def getPasswordType (shadowPass : Bytes) : PasswordType :=
  if looksLikeMd5 shadowPass then .md5
  else
    match parseScramSecret shadowPass with
    | some secret => if secret.hashType = .sha384 then .scramSha384 else .scramSha256
    | none => .plaintext

theorem read_iterations_decimal (iterations : Nat) (small : iterations < 2147483648) :
    readIterations (decimal iterations) = some (iterations : Int) := by
  have fits : (iterations : Int) ≤ longMax := by
    unfold longMax
    omega
  have cut := int_of_long_small iterations (by omega) (by omega)
  simp [readIterations, strtol_decimal iterations fits, cut]

theorem scheme_parameters_name (parameters : HashParameters)
    (supported : parameters = sha256Parameters ∨ parameters = sha384Parameters) :
    schemeParameters (schemeName parameters.hashType) = some parameters := by
  have distinct : scramSha384Name ≠ scramSha256Name := by decide +kernel
  rcases supported with rfl | rfl
  · exact if_pos rfl
  · exact (if_neg distinct).trans (if_pos rfl)

def builtSecret (crypto : Crypto) (parameters : HashParameters) (salt : Bytes) (iterations : Int)
    (password : Bytes) : ScramSecret :=
  let hashType := parameters.hashType
  let saltedPassword := scramSaltedPassword crypto hashType password salt iterations
  { toHashParameters := parameters
    iterations := iterations
    salt := encodeText salt
    storedKey := scramH crypto hashType (scramClientKey crypto hashType saltedPassword)
    serverKey := scramServerKey crypto hashType saltedPassword
    storedKeyLength := (crypto.hashLength hashType _).trans parameters.keyLengthMatches.symm
    serverKeyLength := (crypto.hmacLength hashType _ _).trans parameters.keyLengthMatches.symm }

theorem encode_text_token (src : Bytes) {delimiter : UInt8}
    (outside : isBase64Char delimiter = false) :
    ∀ symbol ∈ encodeText src, symbol ∉ [delimiter] := by
  intro symbol member inside
  rw [mem_singleton.mp inside] at member
  exact encode_text_avoids src delimiter outside member

theorem decimal_token (number : Nat) {delimiter : UInt8} (outside : isDigit delimiter = false) :
    ∀ symbol ∈ decimal number, symbol ∉ [delimiter] := by
  intro symbol member inside
  rw [mem_singleton.mp inside] at member
  rw [decimal_is_digit number delimiter member] at outside
  cases outside

theorem parse_scram_secret_tokens {secret scheme iterationsText storedText serverText : Bytes}
    {afterScheme afterIterations afterSalt afterStored unread saltBytes : Bytes}
    {parsed : ScramSecret} (schemeToken : strtok [dollar] secret = some (scheme, afterScheme))
    (iterationsToken : strtok [colon] afterScheme = some (iterationsText, afterIterations))
    (saltToken : strtok [dollar] afterIterations = some (parsed.salt, afterSalt))
    (storedToken : strtok [colon] afterSalt = some (storedText, afterStored))
    (serverToken : strtok [] afterStored = some (serverText, unread))
    (parametersRead : schemeParameters scheme = some parsed.toHashParameters)
    (iterationsRead : readIterations iterationsText = some parsed.iterations)
    (saltRead : decodeText parsed.salt = some saltBytes)
    (storedRead : decodeText storedText = some parsed.storedKey)
    (serverRead : decodeText serverText = some parsed.serverKey) :
    parseScramSecret secret = some parsed := by
  refine bind_eq_some_iff.mpr ⟨_, schemeToken, ?_⟩
  refine bind_eq_some_iff.mpr ⟨_, iterationsToken, ?_⟩
  refine bind_eq_some_iff.mpr ⟨_, saltToken, ?_⟩
  refine bind_eq_some_iff.mpr ⟨_, storedToken, ?_⟩
  refine bind_eq_some_iff.mpr ⟨_, serverToken, ?_⟩
  refine bind_eq_some_iff.mpr ⟨_, parametersRead, ?_⟩
  refine bind_eq_some_iff.mpr ⟨_, iterationsRead, ?_⟩
  refine bind_eq_some_iff.mpr ⟨_, saltRead, ?_⟩
  refine bind_eq_some_iff.mpr ⟨_, storedRead, ?_⟩
  refine bind_eq_some_iff.mpr ⟨_, serverRead, ?_⟩
  exact dif_pos ⟨parsed.storedKeyLength, parsed.serverKeyLength⟩

theorem parse_scram_secret_build (crypto : Crypto) (parameters : HashParameters)
    (salt password : Bytes) (iterations : Nat)
    (supported : parameters = sha256Parameters ∨ parameters = sha384Parameters)
    (salted : salt ≠ []) (small : iterations < 2147483648) :
    parseScramSecret (scramBuildSecret crypto parameters.hashType salt iterations password) =
      some (builtSecret crypto parameters salt iterations password) := by
  let secret := builtSecret crypto parameters salt iterations password
  have nameNonempty : schemeName parameters.hashType ≠ [] := by
    rcases supported with rfl | rfl <;> decide +kernel
  have nameClean : ∀ symbol ∈ schemeName parameters.hashType, symbol ∉ [dollar] := by
    rcases supported with rfl | rfl <;> decide +kernel
  have keyNonempty (key : Bytes) (length : key.length = parameters.keyLength) : key ≠ [] := by
    intro empty
    rw [empty] at length
    rcases supported with rfl | rfl <;> cases length
  have schemeToken := strtok_token [dollar] (schemeName parameters.hashType)
    (decimal iterations ++ colon :: (encodeText salt ++ dollar ::
      (encodeText secret.storedKey ++ colon :: encodeText secret.serverKey)))
    dollar nameNonempty nameClean mem_cons_self
  have iterationsToken := strtok_token [colon] (decimal iterations) (encodeText salt ++ dollar ::
    (encodeText secret.storedKey ++ colon :: encodeText secret.serverKey)) 58
    (decimal_nonempty iterations) (decimal_token iterations (by decide)) mem_cons_self
  have saltToken := strtok_token [dollar] (encodeText salt)
    (encodeText secret.storedKey ++ colon :: encodeText secret.serverKey) dollar
    (encode_text_nonempty salt salted) (encode_text_token salt (by decide +kernel))
    mem_cons_self
  have storedToken := strtok_token [colon] (encodeText secret.storedKey)
    (encodeText secret.serverKey) colon
    (encode_text_nonempty _ (keyNonempty _ secret.storedKeyLength))
    (encode_text_token _ (by decide +kernel)) mem_cons_self
  have serverToken := strtok_all (encodeText secret.serverKey)
    (encode_text_nonempty _ (keyNonempty _ secret.serverKeyLength))
  exact parse_scram_secret_tokens schemeToken iterationsToken saltToken storedToken serverToken
    (scheme_parameters_name parameters supported) (read_iterations_decimal iterations small)
    (decode_text_encode_text salt) (decode_text_encode_text _) (decode_text_encode_text _)

end FortressQL.Scram.Secret
