import FortressQL.Elog
import FortressQL.Scram.Client

/-!
# The client's answers to well-formed messages

What the client's `scram_exchange` returns for the messages that a server without extensions
builds.
-/

namespace FortressQL.Scram.ClientAnswers

open List Common.Base64 Elog Lib.ByteStrings Lib.Decimal Scram.Keys Scram.Messages Scram.Secret
open Scram.Client

variable {iterations : Nat} {state : FeScramState}

def nonceSent (state : FeScramState) (rawNonce : Bytes) : FeScramState :=
  { state with
    state := .nonceSent
    clientNonce := encodeText rawNonce
    clientFirstMessageBare := clientFirstBare (encodeText rawNonce) }

variable (crypto : Crypto)

theorem fe_first_reply (state : FeScramState) (rawNonce input : Bytes)
    (initial : state.state = .init) :
    feScramExchange crypto state (some rawNonce) input =
      { status := .saslContinue
        state := nonceSent state rawNonce
        output := some (cbindFlagText state ++ comma :: comma ::
          clientFirstBare (encodeText rawNonce)) } := by
  simp only [feScramExchange, initial]
  rfl

def withServerFirst (state : FeScramState) (nonce salt : Bytes) (iterations : Nat) :
    FeScramState :=
  { state with
    serverFirstMessage := serverFirst nonce (encodeText salt) iterations
    nonce := nonce
    salt := salt
    iterations := iterations }

theorem print_int_nat (number : Nat) : printInt (number : Int) = decimal number := by
  simp [printInt]

section ServerFirst

variable {serverNonce : Bytes}

theorem read_server_nonce_complete {clientNonce : Bytes} (rest : Bytes)
    (own : state.clientNonce = clientNonce) (clean : comma ∉ clientNonce ++ serverNonce) :
    readServerNonce state (attrVal 'r'.toUInt8 (clientNonce ++ serverNonce) ++ comma :: rest) =
      .ok ({ state with nonce := clientNonce ++ serverNonce }, rest) := by
  simp only [readServerNonce, readAttrValue, read_attr_more clean, own]
  exact if_neg (by simp)

theorem read_server_salt_complete (salt rest : Bytes) :
    readServerSalt state (attrVal 's'.toUInt8 (encodeText salt) ++ comma :: rest) =
      .ok ({ state with salt := salt }, rest) := by
  simp [readServerSalt, readAttrValue, read_attr_more (encode_text_clean salt),
    decode_text_encode_text]

theorem read_server_iterations_complete (positive : 0 < iterations)
    (small : iterations < 2147483648) :
    readServerIterations state (attrVal 'i'.toUInt8 (printInt iterations)) =
      .ok ({ state with iterations := iterations }, []) := by
  have fits : (iterations : Int) ≤ longMax := by
    unfold longMax
    omega
  have cut := int_of_long_small iterations (by omega) (by omega)
  simp only [readServerIterations, readAttrValue, print_int_nat,
    read_attr_last (plain_value_decimal iterations).clean, strtol_decimal iterations fits, cut]
  exact if_neg (by simp; omega)

theorem read_server_first_complete (salt : Bytes)
    (plain : PlainValue (state.clientNonce ++ serverNonce)) (positive : 0 < iterations)
    (small : iterations < 2147483648) :
    readServerFirstMessage state
        (serverFirst (state.clientNonce ++ serverNonce) (encodeText salt) iterations) =
      .ok (withServerFirst state (state.clientNonce ++ serverNonce) salt iterations) := by
  let text := serverFirst (state.clientNonce ++ serverNonce) (encodeText salt) iterations
  have nonceRead : readServerNonce { state with serverFirstMessage := text } text =
      .ok ({ state with
          serverFirstMessage := text
          nonce := state.clientNonce ++ serverNonce },
        attrVal 's'.toUInt8 (encodeText salt) ++ comma ::
          attrVal 'i'.toUInt8 (printInt iterations)) :=
    read_server_nonce_complete _ rfl plain.clean
  rw [readServerFirstMessage, nonceRead]
  simp only [read_server_salt_complete, ok_then, read_server_iterations_complete positive small]
  rfl

theorem server_first_nul_free {nonce : Bytes} (salt : Bytes) (iterations : Nat)
    (plain : PlainValue nonce) : 0 ∉ serverFirst nonce (encodeText salt) iterations := by
  have saltFree := encode_text_nul_free salt
  have iterationsFree := (plain_value_decimal iterations).nulFree
  simp only [serverFirst, print_int_nat, attrVal, mem_append, mem_cons, plain.nulFree, saltFree,
    iterationsFree]
  decide

def finalProof (crypto : Crypto) (state : FeScramState) (binding nonce salt : Bytes)
    (iterations : Nat) : Bytes :=
  calculateClientProof crypto (withServerFirst state nonce salt iterations)
    (clientFinalWithoutProof binding nonce)

def proofSent (crypto : Crypto) (state : FeScramState) (binding nonce salt : Bytes)
    (iterations : Nat) : FeScramState :=
  { withServerFirst state nonce salt iterations with
    state := .proofSent
    clientFinalMessageWithoutProof := clientFinalWithoutProof binding nonce
    saltedPassword := (withServerFirst state nonce salt iterations).saltPassword crypto }

theorem fe_second_reply (state : FeScramState) (random : Option Bytes) (serverNonce salt : Bytes)
    {binding : Bytes} (waiting : state.state = .nonceSent)
    (plain : PlainValue (state.clientNonce ++ serverNonce)) (positive : 0 < iterations)
    (small : iterations < 2147483648) (bound : channelBindingValue state = .ok binding) :
    feScramExchange crypto state random
        (serverFirst (state.clientNonce ++ serverNonce) (encodeText salt) iterations) =
      { status := .saslContinue
        state := proofSent crypto state binding (state.clientNonce ++ serverNonce) salt iterations
        output := some (clientFinal binding (state.clientNonce ++ serverNonce)
          (finalProof crypto state binding (state.clientNonce ++ serverNonce) salt
            iterations)) } := by
  let nonce := state.clientNonce ++ serverNonce
  have nonempty : ¬(state.state ≠ .init ∧ serverFirst nonce (encodeText salt) iterations = []) :=
    fun both => cons_ne_nil _ _ both.2
  have nulFree : ¬(state.state ≠ .init ∧ 0 ∈ serverFirst nonce (encodeText salt) iterations) :=
    fun both => server_first_nul_free salt iterations plain both.2
  have boundRead : channelBindingValue (withServerFirst state nonce salt iterations) =
      .ok binding := bound
  rw [feScramExchange, if_neg nulFree, waiting]
  simp only [read_server_first_complete salt plain positive small, ok_then,
    buildClientFinalMessage] at ⊢
  rw [boundRead]
  rfl

end ServerFirst

theorem fe_third_reply (state : FeScramState) (random : Option Bytes) (signature : Bytes)
    (waiting : state.state = .proofSent) (sized : signature.length = state.keyLength) :
    feScramExchange crypto state random (attrVal 'v'.toUInt8 (encodeText signature)) =
      feVerify crypto { state with
        serverFinalMessage := attrVal 'v'.toUInt8 (encodeText signature)
        serverSignature := signature } := by
  have clean := encode_text_clean signature
  have free : 0 ∉ attrVal 'v'.toUInt8 (encodeText signature) := by
    simp only [attrVal, mem_cons, encode_text_nul_free signature]
    decide
  have nonempty : ¬(state.state ≠ .init ∧ attrVal 'v'.toUInt8 (encodeText signature) = []) :=
    fun both => cons_ne_nil _ _ both.2
  have nulFree : ¬(state.state ≠ .init ∧ 0 ∈ attrVal 'v'.toUInt8 (encodeText signature)) :=
    fun both => free both.2
  have notError : ¬peek (attrVal 'v'.toUInt8 (encodeText signature)) = 'e'.toUInt8 := by
    change 'v'.toUInt8 ≠ 'e'.toUInt8
    decide
  rw [feScramExchange, if_neg nonempty, if_neg nulFree]
  simp [readServerFinalMessage, if_neg notError, readAttrValue, read_attr_last clean,
    decode_text_encode_text, reportGarbage, sized, waiting]

theorem fe_verify_complete {crypto : Crypto}
    (verified : verifyServerSignature crypto state = true) :
    feVerify crypto state =
      { status := .saslComplete
        state := { state with
          state := .finished
          conn := { state.conn with clientFinishedAuth := true } } } := by
  rw [feVerify, if_pos verified]

end FortressQL.Scram.ClientAnswers
