import FortressQL.Lib.ByteStrings

/-!
# Authenticated encryption

A cipher with a nonce and a tag. Decryption inverts encryption. That nothing else decrypts is
an assumption about what is presented, against what was produced.
-/

namespace FortressQL.Lib.Authenticated

open Lib.ByteStrings

structure Cipher (tagLen : Nat) where
  encrypt : Bytes → Bytes → Bytes → Bytes × Bytes
  decrypt : Bytes → Bytes → Bytes → Bytes → Option Bytes
  cipherLength : ∀ key nonce plaintext, (encrypt key nonce plaintext).1.length = plaintext.length
  tagLength : ∀ key nonce plaintext, (encrypt key nonce plaintext).2.length = tagLen
  decryptEncrypt : ∀ key nonce plaintext,
    decrypt key nonce (encrypt key nonce plaintext).1 (encrypt key nonce plaintext).2 =
      some plaintext

/-- What decrypts was produced under the same key and nonce. -/
def Cipher.Unforged {tagLen : Nat} (cipher : Cipher tagLen) (key : Bytes)
    (Produced : Bytes → Bytes → Prop) (nonce ciphertext tag : Bytes) : Prop :=
  (cipher.decrypt key nonce ciphertext tag).isSome →
    ∃ plaintext, Produced nonce plaintext ∧ cipher.encrypt key nonce plaintext = (ciphertext, tag)

/-- A cipher that meets the laws. Its tag shows the nonce and the key. -/
def transparent (tagLen : Nat) : Cipher tagLen :=
  { encrypt := fun key nonce plaintext => (plaintext, (nonce ++ key).takeD tagLen 0)
    decrypt := fun key nonce ciphertext tag =>
      if tag = (nonce ++ key).takeD tagLen 0 then some ciphertext else none
    cipherLength := fun _ _ _ => rfl
    tagLength := fun _ _ _ => List.takeD_length ..
    decryptEncrypt := fun _ _ _ => if_pos rfl }

end FortressQL.Lib.Authenticated
