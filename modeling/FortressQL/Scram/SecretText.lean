import FortressQL.Scram.Answers

/-!
# Secrets as texts

What `parse_scram_secret` accepts, and how `get_password_type` and `encrypt_password` of
`crypt.c` take a built secret and any other text.
-/

namespace FortressQL.Scram.SecretText

open Option
open Common.Base64 Elog Lib.ByteStrings Lib.Decimal Lib.Scan Scram.Answers Scram.Keys Scram.Secret

def internalError (errmsg : String) : ErrorReport :=
  { elevel := .error, errcode := .internalError, errmsg := errmsg }

/-- What `encrypt_password` calls on: the primitives, `scram_sha_256_iterations`, the salt that
is drawn and `pg_md5_encrypt`. -/
structure Encryption where
  crypto : Crypto
  iterations : Int
  random : Option Bytes
  md5Encrypt : Bytes → Bytes → Except String Bytes

def Encryption.build (encryption : Encryption) (build : Bytes → Bytes) : Raises Bytes :=
  match encryption.random with
  | none => .error (internalError "could not generate random salt")
  | some salt => .ok (build salt)

def encryptPassword (encryption : Encryption) (targetType : PasswordType)
    (role password : Bytes) : Raises Bytes :=
  if getPasswordType password ≠ .plaintext then .ok password
  else
    match targetType with
    | .md5 =>
      match encryption.md5Encrypt password role with
      | .ok encrypted => .ok encrypted
      | .error errstr => .error (internalError s!"password encryption failed: {errstr}")
    | .scramSha256 => encryption.build fun salt =>
      pgBeScramBuildSecret encryption.crypto encryption.iterations salt password
    | .scramSha384 => encryption.build fun salt =>
      pgBeScramBuildSecretSha384 encryption.crypto salt password
    | .plaintext => .error (internalError "cannot encrypt password with 'plaintext'")

def scramType (hashType : PgCryptohashType) : PasswordType :=
  if hashType = .sha384 then .scramSha384 else .scramSha256

/-- A secret with a salt is read back, recognised and stored as it is. -/
theorem built_secret_round_trip (crypto : Crypto) (parameters : HashParameters)
    (supported : parameters = sha256Parameters ∨ parameters = sha384Parameters)
    (salt password : Bytes) (salted : salt ≠ []) (iterations : Nat)
    (small : iterations ≤ 2147483647) :
    let text := scramBuildSecret crypto parameters.hashType salt iterations password
    let secret := builtSecret crypto parameters salt iterations password
    parseScramSecret text = some secret ∧ decodeText secret.salt = some salt ∧
      getPasswordType text = scramType parameters.hashType ∧
      ∀ encryption targetType role, encryptPassword encryption targetType role text = .ok text := by
  intro text secret
  have parsed : parseScramSecret text = some secret :=
    parse_scram_secret_build crypto parameters salt password iterations supported salted (by omega)
  have type : getPasswordType text = scramType parameters.hashType := by
    rw [getPasswordType, built_not_md5, parsed]
    rfl
  refine ⟨parsed, decode_text_encode_text salt, type, ?_⟩
  intro encryption targetType role
  have encrypted : getPasswordType text ≠ .plaintext := by
    rw [type, scramType]
    split_ifs <;> decide
  exact if_pos encrypted

theorem sample_secret_round_trip :
    parseScramSecret (scramBuildSecret sampleCrypto .sha384 [7] 4096 []) =
      some (builtSecret sampleCrypto sha384Parameters [7] 4096 []) :=
  (built_secret_round_trip sampleCrypto sha384Parameters (.inr rfl) [7] [] (by decide) 4096
    (by decide)).1

/-- Without a salt `strtok` runs over the two separators, and a field is missing. -/
theorem unsalted_secret_refused :
    parseScramSecret (scramBuildSecret sampleCrypto .sha256 [] 4096 []) = none := by
  decide +kernel

def iterationsField (secret : Bytes) : Option Bytes := do
  let (_, afterScheme) ← strtok [dollar] secret
  let (iterationsText, _) ← strtok [colon] afterScheme
  return iterationsText

theorem parse_scram_secret_iterations {text : Bytes} {secret : ScramSecret}
    (parsed : parseScramSecret text = some secret) :
    ∃ field, iterationsField text = some field ∧
      secret.iterations = intOfLong (strtol field).value := by
  simp only [parseScramSecret, bind_eq_bind, bind_eq_some_iff] at parsed
  obtain ⟨⟨scheme, afterScheme⟩, schemeToken, ⟨field, afterField⟩, fieldToken, salt, -, -, -,
    -, -, parameters, -, iterations, read, -, -, storedKey, -, serverKey, -,
    checked⟩ := parsed
  have found : iterationsField text = some field := by
    simp only [iterationsField, schemeToken, fieldToken, bind_eq_bind, bind_some]
    rfl
  refine ⟨field, found, ?_⟩
  simp only [readIterations] at read
  split_ifs at checked read
  rw [← some.inj checked, some.inj read]

structure Denoted (text : Bytes) (secret : ScramSecret) : Prop where
  denoted : ∃ field, iterationsField text = some field ∧
    secret.iterations = (strtol field).value
  positive : 0 < secret.iterations
  small : secret.iterations ≤ 2147483647
  storedKey : secret.storedKey.length = secret.hashType.digestLength
  serverKey : secret.serverKey.length = secret.hashType.digestLength

/-- A text that is accepted gives the count it denotes exactly if that is positive and fits. -/
theorem accepted_secret_iff (text : Bytes) :
    ((∀ secret, parseScramSecret text = some secret → Denoted text secret) ∧
      (parseScramSecret text = none →
        getPasswordType text = .plaintext ∨ getPasswordType text = .md5)) ↔
    (∀ secret, parseScramSecret text = some secret →
      ∃ field, iterationsField text = some field ∧ 0 < (strtol field).value ∧
        (strtol field).value ≤ 2147483647) := by
  constructor
  · intro promised secret parsed
    have denotes := promised.1 secret parsed
    obtain ⟨field, found, same⟩ := denotes.denoted
    exact ⟨field, found, same ▸ denotes.positive, same ▸ denotes.small⟩
  · intro counts
    constructor
    · intro secret parsed
      obtain ⟨field, found, positive, small⟩ := counts secret parsed
      obtain ⟨read, foundRead, cut⟩ := parse_scram_secret_iterations parsed
      rw [found] at foundRead
      rw [← some.inj foundRead, int_of_long_small _ (by omega) (by omega)] at cut
      exact ⟨⟨field, found, cut⟩, cut ▸ positive, cut ▸ small,
        secret.storedKeyLength.trans secret.keyLengthMatches,
        secret.serverKeyLength.trans secret.keyLengthMatches⟩
    · intro refused
      rw [getPasswordType, refused]
      split_ifs
      · exact .inr rfl
      · exact .inl rfl

def longCountText : Bytes :=
  scramSha256Name ++ ascii "$4294967297:Bw==$" ++ encodeText (List.replicate 32 0) ++
    colon :: encodeText (List.replicate 32 0)

/-- The count 4294967297 is taken for 1. -/
theorem long_count_cut :
    iterationsField longCountText = some (ascii "4294967297") ∧
      (parseScramSecret longCountText).map ScramSecret.iterations = some 1 := by
  decide +kernel

end FortressQL.Scram.SecretText
