import FortressQL.Scram.Acceptance

/-!
# The server's answers to well-formed messages

What `scram_exchange` returns for the messages that a client without extensions builds.
-/

namespace FortressQL.Scram.Answers

open List Common.Base64 Elog Lib.ByteStrings Scram.Keys Scram.Messages Scram.Secret Scram.Server
open Scram.Acceptance

variable {state : ScramState} {flag : UInt8}

theorem built_not_md5 (crypto : Crypto) (hashType : PgCryptohashType) (salt password : Bytes)
    (iterations : Int) :
    looksLikeMd5 (scramBuildSecret crypto hashType salt iterations password) = false := by
  have scheme : (schemeName hashType).take 3 = ascii "SCR" := by
    cases hashType <;> decide +kernel
  have long : 3 ≤ (schemeName hashType).length := by
    cases hashType <;> decide +kernel
  have other :
      (scramBuildSecret crypto hashType salt iterations password).take 3 = ascii "SCR" := by
    rw [scramBuildSecret, take_append_of_le_length long, scheme]
  have differs : (ascii "SCR" == ascii "md5") = false := by decide +kernel
  rw [looksLikeMd5, other]
  rfl

theorem stored_secret_build (crypto : Crypto) (parameters : HashParameters) (salt password : Bytes)
    (iterations : Nat) (supported : parameters = sha256Parameters ∨ parameters = sha384Parameters)
    (salted : salt ≠ []) (small : iterations < 2147483648) :
    storedSecret (some (scramBuildSecret crypto parameters.hashType salt iterations password)) =
      some (builtSecret crypto parameters salt iterations password) := by
  have parsed := parse_scram_secret_build crypto parameters salt password iterations supported
    salted small
  have scramType : isScramType (getPasswordType
      (scramBuildSecret crypto parameters.hashType salt iterations password)) = true := by
    rw [getPasswordType, parsed]
    rcases supported with rfl | rfl <;> rfl
  simp [storedSecret, scramType, parsed]

theorem mechanism_names_distinct :
    (scramSha256Name ≠ scramSha256PlusName ∧ scramSha256Name ≠ scramSha384Name ∧
      scramSha256Name ≠ scramSha384PlusName) ∧
    (scramSha256PlusName ≠ scramSha384Name ∧ scramSha256PlusName ≠ scramSha384PlusName) ∧
      scramSha384Name ≠ scramSha384PlusName := by
  decide +kernel

section SelectMech

variable {port : Port}

theorem select_mech_sha384_plus (ssl : port.sslInUse = true) :
    selectMech port scramSha384PlusName = .ok ⟨true, .sha384⟩ :=
  if_pos ⟨rfl, ssl⟩

theorem select_mech_sha384 (port : Port) :
    selectMech port scramSha384Name = .ok ⟨false, .sha384⟩ := by
  have names := mechanism_names_distinct
  rw [selectMech, if_neg (fun both => names.2.2 both.1), if_pos rfl]

theorem select_mech_sha256_plus (notPqc : port.authMethod ≠ .uaPQCSCRAM)
    (ssl : port.sslInUse = true) :
    selectMech port scramSha256PlusName = .ok ⟨true, .md5⟩ := by
  have names := mechanism_names_distinct
  rw [selectMech, if_neg (fun both => names.2.1.2 both.1), if_neg names.2.1.1, if_neg notPqc,
    if_pos ⟨rfl, ssl⟩]

theorem select_mech_sha256 (notPqc : port.authMethod ≠ .uaPQCSCRAM) :
    selectMech port scramSha256Name = .ok ⟨false, .md5⟩ := by
  have names := mechanism_names_distinct
  rw [selectMech, if_neg (fun both => names.1.2.2 both.1), if_neg names.1.2.1, if_neg notPqc,
    if_neg (fun both => names.1.1 both.1), if_pos rfl]

end SelectMech

theorem scram_init_stored (crypto : Crypto) (mockAuthNonce : Bytes) {port : Port}
    {selectedMech : Bytes} {shadowPass : Option Bytes} {choice : MechChoice} {secret : ScramSecret}
    (selected : selectMech port selectedMech = .ok choice)
    (stored : storedSecret shadowPass = some secret) :
    scramInit crypto mockAuthNonce port selectedMech shadowPass =
      .ok (startState port choice secret false (secretLogdetail port shadowPass)) := by
  rw [scramInit, selected, ok_then, stored]

theorem gs2_header_nul_free (allowed : FlagAllowed state flag) : 0 ∉ gs2Header flag := by
  rcases allowed with ⟨rfl, _⟩ | ⟨rfl, _⟩ | ⟨rfl, _⟩ <;> decide +kernel

theorem read_comma_complete (rest : Bytes) : readComma (comma :: rest) = .ok rest :=
  if_neg (not_not.mpr rfl)

theorem read_authzid_complete (bare : Bytes) : readAuthzid (comma :: bare) = .ok bare := by
  have noAuthzid : ¬peek (comma :: bare) = 'a'.toUInt8 := by
    change ¬comma = 'a'.toUInt8
    decide
  rw [readAuthzid, if_neg noAuthzid]
  exact if_neg (not_not.mpr rfl)

theorem peek_gs2_header (flag : UInt8) (bare : Bytes) :
    peek (gs2Header flag ++ bare) = flag := by
  unfold gs2Header
  split_ifs with isP
  · rw [isP]
    rfl
  · rfl

theorem read_cbind_flag_complete (bare : Bytes) (allowed : FlagAllowed state flag) :
    readCbindFlag state (gs2Header flag ++ bare) = .ok (comma :: bare) := by
  simp only [readCbindFlag]
  rcases allowed with ⟨rfl, off⟩ | ⟨rfl, off, ssl⟩ | ⟨rfl, inUse⟩
  · rw [off]
    exact read_comma_complete (comma :: bare)
  · rw [off, ssl]
    exact read_comma_complete (comma :: bare)
  · have text : gs2Header 'p'.toUInt8 ++ bare =
        attrVal 'p'.toUInt8 tlsServerEndPoint ++ comma :: comma :: bare := by
      rw [gs2Header, cbind_header_text]
      simp [attrVal]
    have endPointClean : comma ∉ tlsServerEndPoint := by decide +kernel
    rw [inUse]
    rfl

section Dispatch

variable {crypto : Crypto} {random : Option Bytes} {message : Bytes}

theorem scram_exchange_init (nonempty : message ≠ []) (nulFree : 0 ∉ message)
    (initial : state.state = .init) :
    scramExchange crypto state random (some message) = exchangeFirst state random message := by
  simp [scramExchange, if_neg nonempty, if_neg nulFree, initial]

theorem scram_exchange_salt_sent (nonempty : message ≠ []) (nulFree : 0 ∉ message)
    (saltSent : state.state = .saltSent) :
    scramExchange crypto state random (some message) = exchangeFinal crypto state message := by
  simp [scramExchange, if_neg nonempty, if_neg nulFree, saltSent]

end Dispatch

theorem exchange_first_complete (crypto : Crypto) {nonce : Bytes} (rawNonce : Bytes)
    (initial : state.state = .init) (allowed : FlagAllowed state flag)
    (printable : isScramPrintable nonce = true) :
    scramExchange crypto state (some rawNonce)
        (some (gs2Header flag ++ clientFirstBare nonce)) =
      .ok { result := .exchangeContinue
            state := salted state flag (clientFirstBare nonce) [] nonce rawNonce
            output := some (serverFirstText state.toScramSecret nonce (encodeText rawNonce)) } := by
  have plain := plain_value_printable printable
  have nonempty : gs2Header flag ++ clientFirstBare nonce ≠ [] := by
    simp [clientFirstBare]
  have nulFree : 0 ∉ gs2Header flag ++ clientFirstBare nonce := by
    have headerFree := gs2_header_nul_free allowed
    have bareFree : 0 ∉ clientFirstBare nonce := by
      simp only [clientFirstBare, attrVal, cons_append, nil_append, mem_cons, plain.nulFree]
      decide
    rw [mem_append]
    exact fun member => member.elim headerFree bareFree
  have read : readClientFirstMessage state (gs2Header flag ++ clientFirstBare nonce) =
      .ok (withFirst state flag (clientFirstBare nonce) [] nonce) := by
    have notExtension : peek (clientFirstBare nonce) ≠ 'm'.toUInt8 := by
      change 'n'.toUInt8 ≠ 'm'.toUInt8
      decide
    have username : readAttrValue 'n'.toUInt8 (clientFirstBare nonce) =
        .ok ([], attrVal 'r'.toUInt8 nonce) := read_attr_more not_mem_nil
    have nonceRead : readAttrValue 'r'.toUInt8 (attrVal 'r'.toUInt8 nonce) = .ok (nonce, []) :=
      read_attr_last plain.clean
    have noExtensions : skipExtensions [] = .ok () := by
      rw [skipExtensions, if_pos rfl]
    simp only [readClientFirstMessage, read_cbind_flag_complete _ allowed, ok_then,
      read_authzid_complete, username, nonceRead, ensure_holds printable, noExtensions,
      peek_gs2_header]
    rfl
  rw [scram_exchange_init nonempty nulFree initial, exchangeFirst, read]
  rfl

theorem exchange_first_unbound (crypto : Crypto) (random : Option Bytes) (nonce : Bytes)
    (initial : state.state = .init) (inUse : state.channelBindingInUse = true)
    (plain : PlainValue nonce) :
    scramExchange crypto state random
        (some (ascii "y" ++ comma :: comma :: clientFirstBare nonce)) =
      .error bindingNotIncluded := by
  have nonempty : ascii "y" ++ comma :: comma :: clientFirstBare nonce ≠ [] := by simp
  have nulFree : 0 ∉ ascii "y" ++ comma :: comma :: clientFirstBare nonce := by
    have flagFree : 0 ∉ ascii "y" := by decide +kernel
    simp only [clientFirstBare, attrVal, mem_append, mem_cons, plain.nulFree]
    decide
  have shown : peek (ascii "y" ++ comma :: comma :: clientFirstBare nonce) = 'y'.toUInt8 := by
    change (ascii "y").headD 0 = 'y'.toUInt8
    decide +kernel
  have refused : readCbindFlag state (ascii "y" ++ comma :: comma :: clientFirstBare nonce) =
      .error bindingNotIncluded := by
    rw [readCbindFlag, shown, if_neg (by decide), if_pos rfl, if_pos inUse]
  rw [scram_exchange_init nonempty nulFree initial, exchangeFirst, readClientFirstMessage, refused]
  rfl

section Final

variable {binding nonce proof : Bytes}

theorem client_final_nul_free (bindingPlain : PlainValue binding) (noncePlain : PlainValue nonce)
    (proof : Bytes) : 0 ∉ clientFinal binding nonce proof := by
  have proofFree := encode_text_nul_free proof
  simp only [clientFinal, clientFinalWithoutProof, attrVal, mem_append, mem_cons,
    bindingPlain.nulFree, noncePlain.nulFree, proofFree]
  decide

theorem read_client_final_decode (bound : checkChannelBinding state binding = .ok ())
    (bindingPlain : PlainValue binding) (noncePlain : PlainValue nonce) :
    readClientFinalMessage state (clientFinal binding nonce proof) =
      (decodeProof state.keyLength (encodeText proof) >>= fun clientProof =>
        .ok (withFinal state nonce clientProof (clientFinalWithoutProof binding nonce))) := by
  have read := read_client_final_text [] bound
    ⟨bindingPlain.clean, noncePlain.clean, encode_text_clean proof⟩ (.inl rfl)
  simpa only [extensionsText, flatMap_nil, append_nil, clientFinal] using read

section

variable (crypto : Crypto) (random : Option Bytes) (saltSent : state.state = .saltSent)

include crypto random saltSent

theorem exchange_final_dispatch (bindingPlain : PlainValue binding)
    (noncePlain : PlainValue nonce) :
    scramExchange crypto state random (some (clientFinal binding nonce proof)) =
      exchangeFinal crypto state (clientFinal binding nonce proof) := by
  have nonempty : clientFinal binding nonce proof ≠ [] := by
    simp [clientFinal]
  exact scram_exchange_salt_sent nonempty
    (client_final_nul_free bindingPlain noncePlain proof) saltSent

theorem exchange_final_complete (bound : checkChannelBinding state binding = .ok ())
    (bindingPlain : PlainValue binding)
    (noncePlain : PlainValue (state.clientNonce ++ state.serverNonce))
    (sized : proof.length = state.keyLength) :
    scramExchange crypto state random
        (some (clientFinal binding (state.clientNonce ++ state.serverNonce) proof)) =
      .ok (finalReply crypto (withFinal state (state.clientNonce ++ state.serverNonce) proof
        (clientFinalWithoutProof binding (state.clientNonce ++ state.serverNonce)))) := by
  have decoded : decodeProof state.keyLength (encodeText proof) = .ok proof := by
    simp [decodeProof, decode_text_encode_text, sized]
  have sameNonce : verifyFinalNonce (withFinal state (state.clientNonce ++ state.serverNonce) proof
      (clientFinalWithoutProof binding (state.clientNonce ++ state.serverNonce))) = true := by
    simp [verifyFinalNonce, withFinal]
  rw [exchange_final_dispatch crypto random saltSent bindingPlain noncePlain, exchangeFinal,
    read_client_final_decode bound bindingPlain noncePlain, decoded, ok_then, ok_then,
    ensure_holds sameNonce]
  rfl

theorem exchange_final_wrong_length (bound : checkChannelBinding state binding = .ok ())
    (bindingPlain : PlainValue binding) (noncePlain : PlainValue nonce)
    (otherLength : proof.length ≠ state.keyLength) :
    scramExchange crypto state random (some (clientFinal binding nonce proof)) =
      .error (malformed "Malformed proof in client-final-message.") := by
  have refused : decodeProof state.keyLength (encodeText proof) =
      .error (malformed "Malformed proof in client-final-message.") := by
    simp [decodeProof, decode_text_encode_text, otherLength]
  rw [exchange_final_dispatch crypto random saltSent bindingPlain noncePlain, exchangeFinal,
    read_client_final_decode bound bindingPlain noncePlain, refused]
  rfl

end

theorem check_channel_binding_complete {data : Bytes} (allowed : FlagAllowed state state.cbindFlag)
    (dataMatches : BindingData state.port state.cbindFlag data) :
    checkChannelBinding state (encodeText (gs2Header state.cbindFlag ++ data)) = .ok () := by
  simp only [checkChannelBinding]
  rcases allowed with ⟨flag, off⟩ | ⟨flag, off, _⟩ | ⟨flag, inUse⟩
  · rw [flag] at dataMatches
    rw [off, if_neg Bool.false_ne_true, flag, dataMatches]
    exact ensure_holds (.inl ⟨by decide +kernel, rfl⟩)
  · rw [flag] at dataMatches
    rw [off, if_neg Bool.false_ne_true, flag, dataMatches]
    exact ensure_holds (.inr ⟨by decide +kernel, rfl⟩)
  · rw [BindingData, if_pos flag] at dataMatches
    rw [inUse, dataMatches.1, Option.getD_some, if_neg dataMatches.2, flag]
    exact ensure_holds rfl

theorem final_reply_success {crypto : Crypto} (verified : verifyClientProof crypto state = true)
    (notDoomed : state.doomed = false) :
    finalReply crypto state =
      { result := .exchangeSuccess
        state := { state with state := .finished }
        output := some (buildServerFinalMessage crypto state) } := by
  rw [finalReply, verified, notDoomed]
  rfl

/-- Whoever knows the key behind the stored key can build an accepted proof. -/
theorem verify_client_proof_complete (crypto : Crypto) (clientKey : Bytes)
    (keySize : clientKey.length = state.hashType.digestLength)
    (stored : state.storedKey = scramH crypto state.hashType clientKey)
    (computed : state.clientProof =
      xorBytes clientKey (crypto.hmac state.hashType state.storedKey state.authMessage)) :
    verifyClientProof crypto state = true := by
  have cancelled := xor_bytes_cancel clientKey
    (crypto.hmac state.hashType state.storedKey state.authMessage)
    (by rw [keySize, crypto.hmacLength])
  rw [verifyClientProof, computed, cancelled]
  exact decide_eq_true stored.symm

end Final

end FortressQL.Scram.Answers
