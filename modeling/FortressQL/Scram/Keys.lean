import FortressQL.Common.Base64
import FortressQL.Lib.Decimal

/-!
# SCRAM keys and secrets

`scram-common.c`: mechanism names, the key derivation and the text of a stored secret. Of HMAC, the
hash functions and SASLprep only the lengths are known.
-/

namespace FortressQL.Scram.Keys

open Common.Base64 Lib.ByteStrings Lib.Decimal

inductive PgCryptohashType where
  | md5
  | sha1
  | sha224
  | sha256
  | sha384
  | sha512
  deriving DecidableEq, Repr

def PgCryptohashType.digestLength : PgCryptohashType → Nat
  | .md5 => 16
  | .sha1 => 20
  | .sha224 => 28
  | .sha256 => 32
  | .sha384 => 48
  | .sha512 => 64

/-- `pg_hmac_*` on a key and a message, `pg_cryptohash_*`, and `pg_saslprep`, which may reject. -/
structure Crypto where
  hmac : PgCryptohashType → Bytes → Bytes → Bytes
  hash : PgCryptohashType → Bytes → Bytes
  saslprep : Bytes → Option Bytes
  hmacLength : ∀ hashType key message, (hmac hashType key message).length = hashType.digestLength
  hashLength : ∀ hashType message, (hash hashType message).length = hashType.digestLength

/-- Both ends fall back to the password itself when SASLprep rejects it. -/
def Crypto.prepared (crypto : Crypto) (password : Bytes) : Bytes :=
  (crypto.saslprep password).getD password

abbrev dollar : UInt8 := 36

abbrev comma : UInt8 := 44

abbrev colon : UInt8 := 58

abbrev equals : UInt8 := 61

def scramSha256Name : Bytes := ascii "SCRAM-SHA-256"

def scramSha256PlusName : Bytes := ascii "SCRAM-SHA-256-PLUS"

def scramSha384Name : Bytes := ascii "SCRAM-SHA-384"

def scramSha384PlusName : Bytes := ascii "SCRAM-SHA-384-PLUS"

def scramSha256KeyLen : Nat := 32

def scramSha384KeyLen : Nat := 48

abbrev scramDefaultSaltLen : Nat := 16

def scramSha256DefaultIterations : Int := 4096

def scramSha384DefaultIterations : Int := 4096

def xorBytes (left right : Bytes) : Bytes := List.zipWith (· ^^^ ·) left right

theorem xor_bytes_length (left right : Bytes) (sameLength : left.length = right.length) :
    (xorBytes left right).length = left.length := by
  simp [xorBytes, sameLength]

theorem xor_bytes_cancel (left right : Bytes) (sameLength : left.length = right.length) :
    xorBytes (xorBytes left right) right = left := by
  unfold xorBytes
  induction left generalizing right with
  | nil => rfl
  | cons byte rest ih =>
    cases right with
    | nil => cases sameLength
    | cons other others =>
      simp only [List.length_cons, Nat.add_right_cancel_iff] at sameLength
      rw [List.zipWith_cons_cons, List.zipWith_cons_cons, ih others sameLength,
        UInt8.xor_assoc, UInt8.xor_self, UInt8.xor_zero]

section Derivation

variable (crypto : Crypto) (hashType : PgCryptohashType)

/-- The iterations of `scram_SaltedPassword` behind the first one. -/
def saltedPasswordLoop (password : Bytes) : Nat → Bytes → Bytes → Bytes
  | 0, _, result => result
  | remaining + 1, uiPrev, result =>
    let ui := crypto.hmac hashType password uiPrev
    saltedPasswordLoop password remaining ui (xorBytes result ui)

def scramSaltedPassword (password salt : Bytes) (iterations : Int) : Bytes :=
  let first := crypto.hmac hashType password (salt ++ [0, 0, 0, 1])
  saltedPasswordLoop crypto hashType password (iterations - 1).toNat first first

def scramH (input : Bytes) : Bytes := crypto.hash hashType input

def scramClientKey (saltedPassword : Bytes) : Bytes :=
  crypto.hmac hashType saltedPassword (ascii "Client Key")

def scramServerKey (saltedPassword : Bytes) : Bytes :=
  crypto.hmac hashType saltedPassword (ascii "Server Key")

def schemeName : Bytes :=
  if hashType = .sha384 then scramSha384Name else scramSha256Name

/-- `scram_build_secret`:
`<scheme>$<iterations>:<salt>$<StoredKey>:<ServerKey>`. -/
def scramBuildSecret (salt : Bytes) (iterations : Int) (password : Bytes) : Bytes :=
  let saltedPassword := scramSaltedPassword crypto hashType password salt iterations
  let storedKey := scramH crypto hashType (scramClientKey crypto hashType saltedPassword)
  let serverKey := scramServerKey crypto hashType saltedPassword
  schemeName hashType ++ dollar :: (printInt iterations ++ colon :: (encodeText salt ++ dollar ::
    (encodeText storedKey ++ colon :: encodeText serverKey)))

def authMessage (clientFirstMessageBare serverFirstMessage clientFinalMessageWithoutProof :
    Bytes) : Bytes :=
  clientFirstMessageBare ++ comma :: (serverFirstMessage ++ comma :: clientFinalMessageWithoutProof)

end Derivation

/-- `pg_be_scram_build_secret`, with the salt it drew and `scram_sha_256_iterations`. -/
def pgBeScramBuildSecret (crypto : Crypto) (iterations : Int) (salt password : Bytes) : Bytes :=
  scramBuildSecret crypto .sha256 salt iterations (crypto.prepared password)

def pgBeScramBuildSecretSha384 (crypto : Crypto) (salt password : Bytes) : Bytes :=
  scramBuildSecret crypto .sha384 salt scramSha384DefaultIterations (crypto.prepared password)

def sampleCrypto : Crypto where
  hmac hashType _ _ := List.replicate hashType.digestLength 0
  hash hashType message := (message ++ List.replicate hashType.digestLength 0).take
    hashType.digestLength
  saslprep := some
  hmacLength := by simp
  hashLength := by simp

end FortressQL.Scram.Keys
