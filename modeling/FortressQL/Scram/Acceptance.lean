import FortressQL.Scram.Server

/-!
# What an accepted client has shown

Inversion of the server's message readers, and from it what the messages of every accepted
exchange looked like.
-/

namespace FortressQL.Scram.Acceptance

open List Common.Base64 Elog Lib.ByteStrings Scram.Keys Scram.Messages Scram.Secret Scram.Server

variable {rest bare value : Bytes}

def gs2Header (flag : UInt8) : Bytes :=
  if flag = 'p'.toUInt8 then cbindHeader else [flag, comma, comma]

def FlagAllowed (state : ScramState) (flag : UInt8) : Prop :=
  (flag = 'n'.toUInt8 ∧ state.channelBindingInUse = false) ∨
    (flag = 'y'.toUInt8 ∧ state.channelBindingInUse = false ∧ state.port.sslInUse = false) ∨
    (flag = 'p'.toUInt8 ∧ state.channelBindingInUse = true)

def BareMessage (bare username nonce : Bytes) : Prop :=
  ∃ text afterUsername nonceText extensions,
    bare = attrVal 'n'.toUInt8 text ∧ Delimited text username afterUsername ∧
      afterUsername = attrVal 'r'.toUInt8 nonceText ∧ Delimited nonceText nonce extensions

variable {input : Bytes} {state after : ScramState} {random : Option Bytes} {reply : ExchangeReply}
  {crypto : Crypto}

theorem read_comma_sound (read : readComma input = .ok rest) : input = comma :: rest := by
  unfold readComma at read
  split_ifs at read with shown
  rw [not_not] at shown
  rw [peek_cons shown (by decide), Except.ok.inj read]

theorem read_authzid_sound (read : readAuthzid input = .ok bare) : input = comma :: bare := by
  unfold readAuthzid at read
  split_ifs at read with authzid shown
  rw [not_not] at shown
  rw [peek_cons shown (by decide), Except.ok.inj read]

theorem cbind_header_text : cbindHeader =
    attrVal 'p'.toUInt8 (tlsServerEndPoint ++ [comma, comma]) := by
  decide +kernel

theorem read_cbind_flag_sound (read : readCbindFlag state input = .ok rest)
    (header : rest = comma :: bare) :
    FlagAllowed state (peek input) ∧ input = gs2Header (peek input) ++ bare := by
  simp only [readCbindFlag] at read
  split_ifs at read with isN inUse isY inUse ssl isP inUse
  · have text := read_comma_sound read
    refine ⟨.inl ⟨isN, by simpa using inUse⟩, ?_⟩
    rw [peek_cons isN (by decide), text, header]
    rfl
  · have text := read_comma_sound read
    refine ⟨.inr (.inl ⟨isY, by simpa using inUse, by simpa using ssl⟩), ?_⟩
    rw [peek_cons isY (by decide), text, header]
    rfl
  · simp only [sequence_returns, ensure_returns, Prod.exists] at read
    obtain ⟨bindingType, afterType, attr, _, isEndPoint, same⟩ := read
    obtain ⟨text, shape, delimited⟩ := read_attr_sound (by decide) attr
    refine ⟨.inr (.inr ⟨isP, by simpa using inUse⟩), ?_⟩
    rw [Except.ok.inj same, header, isEndPoint] at delimited
    rcases delimited.shape with more | ended
    · rw [isP, gs2Header, cbind_header_text, shape, more]
      simp [attrVal]
    · cases ended.2

def withFirst (state : ScramState) (flag : UInt8) (bare username nonce : Bytes) :
    ScramState :=
  { state with
    cbindFlag := flag
    clientFirstMessageBare := bare
    clientUsername := username
    clientNonce := nonce }

theorem read_client_first_sound (read : readClientFirstMessage state input = .ok after) :
    ∃ flag bare username nonce, FlagAllowed state flag ∧ input = gs2Header flag ++ bare ∧
      BareMessage bare username nonce ∧ after = withFirst state flag bare username nonce := by
  simp only [readClientFirstMessage, sequence_returns, Prod.exists] at read
  obtain ⟨afterFlag, flagRead, bare, authzid, _, _, username, afterUsername, usernameRead,
    nonce, afterNonce, nonceRead, _, _, _, _, same⟩ := read
  have flag := read_cbind_flag_sound flagRead (read_authzid_sound authzid)
  obtain ⟨text, bareText, usernameText⟩ := read_attr_sound (by decide) usernameRead
  obtain ⟨nonceText, restText, nonceDelimited⟩ := read_attr_sound (by decide) nonceRead
  exact ⟨peek input, bare, username, nonce, flag.1, flag.2,
    ⟨text, afterUsername, nonceText, afterNonce, bareText, usernameText, restText, nonceDelimited⟩,
    (Except.ok.inj same).symm⟩

structure Extension where
  name : UInt8
  value : Bytes
  alpha : isAlpha name = true
  notProof : name ≠ 'p'.toUInt8
  clean : comma ∉ value

def extensionsText (extensions : List Extension) : Bytes :=
  extensions.flatMap fun extension => comma :: attrVal extension.name extension.value

/-- The loop runs over other attributes up to the first `p`. -/
theorem read_proof_sound {fromProof : Bytes}
    (read : readProof input = .ok (fromProof, value, rest)) :
    ∃ extensions text, comma :: input = extensionsText extensions ++ comma :: fromProof ∧
      fromProof = attrVal 'p'.toUInt8 text ∧ Delimited text value rest := by
  induction input using readProof.induct with
  | case1 input report failed =>
    rw [read_proof_error failed] at read
    cases read
  | case2 input found rest anyRead =>
    rw [read_proof_found anyRead] at read
    obtain ⟨same, sameValue, sameRest⟩ := by simpa using read
    obtain ⟨-, text, shape, delimited⟩ := read_any_attr_sound anyRead
    exact ⟨[], text, congrArg _ same, same ▸ shape, sameValue ▸ sameRest ▸ delimited⟩
  | case3 input attr skippedValue afterSkipped anyRead other ih =>
    rw [read_proof_skip anyRead other] at read
    obtain ⟨extensions, text, afterShape, proofShape, delimited⟩ := ih read
    obtain ⟨alpha, skippedText, shape, skipped⟩ := read_any_attr_sound anyRead
    rcases skipped.shape with more | ended
    · refine ⟨⟨attr, skippedValue, alpha, other, skipped.clean⟩ :: extensions, text, ?_,
        proofShape, delimited⟩
      rw [extensionsText, flatMap_cons, ← extensionsText, append_assoc, ← afterShape]
      simp [shape, more, attrVal]
    · -- the text behind an attribute that ends the message holds no proof
      rw [ended.2, readProof] at read
      cases read

theorem extensions_then_comma (extensions : List Extension) (text : Bytes) :
    ∃ next, extensionsText extensions ++ comma :: text = comma :: next := by
  cases extensions with
  | nil => exact ⟨_, rfl⟩
  | cons => exact ⟨_, rfl⟩

theorem read_proof_complete (extensions : List Extension) {text : Bytes}
    (shape : comma :: input = extensionsText extensions ++ comma :: attrVal 'p'.toUInt8 text)
    (delimited : Delimited text value rest) :
    readProof input = .ok (attrVal 'p'.toUInt8 text, value, rest) := by
  induction extensions generalizing input with
  | nil =>
    obtain rfl := (cons.inj shape).2
    exact read_proof_found (read_any_attr_complete (by decide) delimited)
  | cons extension extensions ih =>
    obtain ⟨next, follows⟩ := extensions_then_comma extensions (attrVal 'p'.toUInt8 text)
    rw [extensionsText, flatMap_cons, ← extensionsText, append_assoc, follows] at shape
    obtain rfl := (cons.inj shape).2
    have skipped : readAnyAttr _ = .ok (_, _, next) :=
      read_any_attr_complete extension.alpha ⟨extension.clean, .inl rfl⟩
    exact (read_proof_skip skipped extension.notProof).trans (ih follows.symm)

def BindingData (port : Port) (flag : UInt8) (data : Bytes) : Prop :=
  if flag = 'p'.toUInt8 then port.certificateHash = some data ∧ data ≠ [] else data = []

theorem binding_data_absent {port : Port} {flag : UInt8} (other : flag ≠ 'p'.toUInt8) :
    BindingData port flag [] := by
  rw [BindingData, if_neg other]

theorem check_channel_binding_sound {binding : Bytes} {done : Unit}
    (allowed : FlagAllowed state state.cbindFlag)
    (checked : checkChannelBinding state binding = .ok done) :
    ∃ data, BindingData state.port state.cbindFlag data ∧
      binding = encodeText (gs2Header state.cbindFlag ++ data) := by
  simp only [checkChannelBinding] at checked
  split_ifs at checked with inUse missing
  · have isP : state.cbindFlag = 'p'.toUInt8 := by
      rcases allowed with ⟨_, off⟩ | ⟨_, off, _⟩ | ⟨isP, _⟩
      · rw [inUse] at off
        cases off
      · rw [inUse] at off
        cases off
      · exact isP
    rw [ensure_returns] at checked
    cases certificate : state.port.certificateHash with
    | none => simp [certificate] at missing
    | some hash =>
      rw [certificate] at checked missing
      refine ⟨hash, ?_, ?_⟩
      · rw [BindingData, if_pos isP]
        exact ⟨certificate, missing⟩
      · rw [isP]
        exact checked
  · rw [ensure_returns] at checked
    refine ⟨[], ?_, ?_⟩
    · apply binding_data_absent
      rcases checked with ⟨_, flag⟩ | ⟨_, flag⟩ <;> rw [flag] <;> decide
    · rcases checked with ⟨text, flag⟩ | ⟨text, flag⟩ <;> rw [text, flag] <;> decide +kernel

theorem decode_proof_sound {keyLength : Nat} {proof : Bytes}
    (decoded : decodeProof keyLength value = .ok proof) :
    decodeText value = some proof ∧ proof.length = keyLength := by
  unfold decodeProof at decoded
  split at decoded
  · cases decoded
  · rename_i clientProof text
    split_ifs at decoded with sized
    rw [← Except.ok.inj decoded]
    exact ⟨text, not_not.mp sized⟩

def withFinal (state : ScramState) (nonce proof withoutProof : Bytes) : ScramState :=
  { state with
    clientFinalNonce := nonce
    clientProof := proof
    clientFinalMessageWithoutProof := withoutProof }

structure FinalMessage (input binding nonce withoutProof proof : Bytes) : Prop where
  withoutProofShape : ∃ extensions : List Extension, withoutProof =
    attrVal 'c'.toUInt8 binding ++ comma :: attrVal 'r'.toUInt8 nonce ++ extensionsText extensions
  nonceClean : comma ∉ nonce
  inputShape : ∃ proofText trailing, input =
      withoutProof ++ comma :: attrVal 'p'.toUInt8 proofText ++ trailing ∧
    (trailing = [] ∨ trailing = [comma]) ∧ decodeText proofText = some proof

/-- The message consists of its attributes and of `trailing` behind the proof. -/
def AcceptedFinal (state after : ScramState) (input trailing : Bytes) : Prop :=
  ∃ binding nonce extensions proofText proof,
    let withoutProof := clientFinalWithoutProof binding nonce ++ extensionsText extensions
    input = withoutProof ++ comma :: attrVal 'p'.toUInt8 proofText ++ trailing ∧
      (comma ∉ binding ∧ comma ∉ nonce ∧ comma ∉ proofText) ∧
      checkChannelBinding state binding = .ok () ∧ decodeText proofText = some proof ∧
      proof.length = state.keyLength ∧ after = withFinal state nonce proof withoutProof

theorem read_client_final_accepted (read : readClientFinalMessage state input = .ok after) :
    ∃ trailing, (trailing = [] ∨ trailing = [comma]) ∧
      AcceptedFinal state after input trailing := by
  simp only [readClientFinalMessage, sequence_returns, ensure_returns, Prod.exists] at read
  obtain ⟨binding, afterBinding, bindingRead, _, checked, nonce, afterNonce, nonceRead, fromProof,
    proofText, rest, proofRead, proof, decoded, _, restEmpty, same⟩ := read
  obtain ⟨bindingTail, inputShape, bindingDelimited⟩ := read_attr_sound (by decide) bindingRead
  obtain ⟨nonceTail, nonceShape, nonceDelimited⟩ := read_attr_sound (by decide) nonceRead
  obtain ⟨extensions, proofTail, extensionsShape, proofShape, proofDelimited⟩ :=
    read_proof_sound proofRead
  have decodes := decode_proof_sound decoded
  -- Neither the binding nor the nonce can be the last attribute, because another one was read.
  have bindingMore : bindingTail = binding ++ comma :: afterBinding := by
    rcases bindingDelimited.shape with more | ended
    · exact more
    · rw [ended.2] at nonceShape
      cases nonceShape
  have nonceMore : nonceTail = nonce ++ comma :: afterNonce := by
    rcases nonceDelimited.shape with more | ended
    · exact more
    · rw [ended.2, readProof] at proofRead
      cases proofRead
  have whole : input = clientFinalWithoutProof binding nonce ++ extensionsText extensions ++
      comma :: fromProof := by
    rw [append_assoc, ← extensionsShape, inputShape, bindingMore, nonceShape, nonceMore]
    simp [clientFinalWithoutProof, attrVal]
  have proofEnd : ∃ trailing, fromProof = attrVal 'p'.toUInt8 proofText ++ trailing ∧
      (trailing = [] ∨ trailing = [comma]) := by
    rw [restEmpty] at proofDelimited
    rcases proofDelimited.shape with more | ended
    · exact ⟨[comma], by rw [proofShape, more]; rfl, .inr rfl⟩
    · exact ⟨[], by rw [proofShape, ended.1, append_nil], .inl rfl⟩
  obtain ⟨trailing, ends, trailingShape⟩ := proofEnd
  refine ⟨trailing, trailingShape, binding, nonce, extensions, proofText, proof,
    by rw [whole, ends]; simp, ⟨bindingDelimited.clean, nonceDelimited.clean,
      proofDelimited.clean⟩, checked, decodes.1, decodes.2, ?_⟩
  have position : input.length - fromProof.length - 1 =
      (clientFinalWithoutProof binding nonce ++ extensionsText extensions).length := by
    rw [whole, length_append, length_cons]
    omega
  rw [← Except.ok.inj same, position, whole, take_left]
  rfl

theorem read_client_final_sound (allowed : FlagAllowed state state.cbindFlag)
    (read : readClientFinalMessage state input = .ok after) :
    ∃ data nonce proof withoutProof, BindingData state.port state.cbindFlag data ∧
      FinalMessage input (encodeText (gs2Header state.cbindFlag ++ data)) nonce withoutProof proof ∧
      proof.length = state.keyLength ∧ after = withFinal state nonce proof withoutProof := by
  obtain ⟨trailing, ending, binding, nonce, extensions, proofText, proof, shape, clean, checked,
    decoded, sized, same⟩ := read_client_final_accepted read
  obtain ⟨data, dataMatches, rfl⟩ := check_channel_binding_sound allowed checked
  exact ⟨data, nonce, proof, _, dataMatches,
    ⟨⟨extensions, rfl⟩, clean.2.1, proofText, trailing, shape, ending, decoded⟩, sized, same⟩

theorem read_client_final_text {binding nonce proofText trailing : Bytes}
    (extensions : List Extension) (bound : checkChannelBinding state binding = .ok ())
    (clean : comma ∉ binding ∧ comma ∉ nonce ∧ comma ∉ proofText)
    (ending : trailing = [] ∨ trailing = [comma]) :
    let withoutProof := clientFinalWithoutProof binding nonce ++ extensionsText extensions
    readClientFinalMessage state
        (withoutProof ++ comma :: attrVal 'p'.toUInt8 proofText ++ trailing) =
      decodeProof state.keyLength proofText >>= fun proof =>
        .ok (withFinal state nonce proof withoutProof) := by
  have delimited : Delimited (proofText ++ trailing) proofText [] := by
    refine ⟨clean.2.2, ?_⟩
    rcases ending with rfl | rfl
    · exact .inr ⟨append_nil _, rfl⟩
    · exact .inl rfl
  obtain ⟨next, follows⟩ :=
    extensions_then_comma extensions (attrVal 'p'.toUInt8 (proofText ++ trailing))
  intro withoutProof
  have whole : withoutProof ++ comma :: attrVal 'p'.toUInt8 proofText ++ trailing =
      attrVal 'c'.toUInt8 binding ++ comma :: (attrVal 'r'.toUInt8 nonce ++ comma :: next) := by
    rw [← follows]
    simp [withoutProof, clientFinalWithoutProof, attrVal]
  have position : (withoutProof ++ comma :: attrVal 'p'.toUInt8 proofText ++ trailing).length -
      (attrVal 'p'.toUInt8 (proofText ++ trailing)).length - 1 = withoutProof.length := by
    simp [attrVal]
    omega
  have bindingRead : readAttrValue 'c'.toUInt8
      (withoutProof ++ comma :: attrVal 'p'.toUInt8 proofText ++ trailing) =
        .ok (binding, attrVal 'r'.toUInt8 nonce ++ comma :: next) := by
    rw [whole]
    exact read_attr_more clean.1
  have nonceRead : readAttrValue 'r'.toUInt8 (attrVal 'r'.toUInt8 nonce ++ comma :: next) =
      .ok (nonce, next) := read_attr_more clean.2.1
  simp only [readClientFinalMessage, bindingRead, ok_then, bound, nonceRead,
    read_proof_complete extensions follows.symm delimited, position]
  rw [append_assoc, take_left]
  rfl

/-- An accepted message is its part without proof, `,p=` and the proof, behind which one comma may
stand. The proof ends every accepted message exactly where no such comma is there. -/
theorem client_final_message_shape (state : ScramState) (input : Bytes) :
    (∀ after, readClientFinalMessage state input = .ok after ↔
        AcceptedFinal state after input [] ∨ AcceptedFinal state after input [comma]) ∧
      (((∀ after, readClientFinalMessage state input = .ok after →
            AcceptedFinal state after input []) ∧
          ((∀ after, ¬ AcceptedFinal state after input []) →
            ∃ report, readClientFinalMessage state input = .error report)) ↔
        ∀ after, ¬ AcceptedFinal state after input [comma]) := by
  have accepts : ∀ after, readClientFinalMessage state input = .ok after ↔
      AcceptedFinal state after input [] ∨ AcceptedFinal state after input [comma] := by
    intro after
    constructor
    · intro read
      obtain ⟨trailing, rfl | rfl, accepted⟩ := read_client_final_accepted read
      · exact .inl accepted
      · exact .inr accepted
    · have complete (trailing : Bytes) (ending : trailing = [] ∨ trailing = [comma])
          (accepted : AcceptedFinal state after input trailing) :
          readClientFinalMessage state input = .ok after := by
        obtain ⟨binding, nonce, extensions, proofText, proof, rfl, clean, bound, decoded, sized,
          rfl⟩ := accepted
        rw [read_client_final_text extensions bound clean ending]
        simp [decodeProof, decoded, sized]
      rintro (accepted | accepted)
      · exact complete [] (.inl rfl) accepted
      · exact complete [comma] (.inr rfl) accepted
  refine ⟨accepts, ⟨?_, ?_⟩⟩
  · rintro ⟨atEnd, -⟩ after behind
    -- the last byte of the message would be the comma and belong to the proof
    have read := (accepts after).mpr (.inr behind)
    obtain ⟨_, _, _, proofText, _, shape, clean, -⟩ := atEnd after read
    obtain ⟨_, _, _, _, _, rfl, -⟩ := behind
    have last := congrArg getLast? shape
    rw [getLast?_concat, append_nil, getLast?_append_of_ne_nil _ (cons_ne_nil _ _), attrVal,
      getLast?_cons_cons, getLast?_cons_cons] at last
    rcases mem_cons.mp (mem_of_getLast? last.symm) with same | inProof
    · exact absurd same (by decide)
    · exact clean.2.2 inProof
  · intro none
    have only (after : ScramState) (read : readClientFinalMessage state input = .ok after) :
        AcceptedFinal state after input [] :=
      ((accepts after).mp read).resolve_right (none after)
    refine ⟨only, fun other => ?_⟩
    cases outcome : readClientFinalMessage state input with
    | error report => exact ⟨report, rfl⟩
    | ok after => exact absurd (only after outcome) (other after)

def salted (state : ScramState) (flag : UInt8) (bare username nonce rawNonce : Bytes) :
    ScramState :=
  { withFirst state flag bare username nonce with
    state := .saltSent
    serverNonce := encodeText rawNonce
    serverFirstMessage := serverFirstText state.toScramSecret nonce (encodeText rawNonce) }

theorem exchange_first_sound (exchanged : exchangeFirst state random input = .ok reply) :
    ∃ flag bare username nonce rawNonce, FlagAllowed state flag ∧ input = gs2Header flag ++ bare ∧
      BareMessage bare username nonce ∧ random = some rawNonce ∧
      reply.result = .exchangeContinue ∧
      reply.state = salted state flag bare username nonce rawNonce := by
  simp only [exchangeFirst, sequence_returns] at exchanged
  obtain ⟨after, read, built, builtFirst, same⟩ := exchanged
  obtain ⟨flag, bare, username, nonce, allowed, header, bareText, afterIs⟩ :=
    read_client_first_sound read
  cases random with
  | none => cases builtFirst
  | some rawNonce =>
    have builtIs := Except.ok.inj builtFirst
    refine ⟨flag, bare, username, nonce, rawNonce, allowed, header, bareText, rfl, ?_, ?_⟩
    · rw [← Except.ok.inj same]
    · rw [← Except.ok.inj same, ← builtIs, afterIs]
      rfl

theorem verify_final_nonce_sound (verified : verifyFinalNonce state = true) :
    state.clientFinalNonce = state.clientNonce ++ state.serverNonce := by
  simp only [verifyFinalNonce, Bool.and_eq_true, decide_eq_true_eq] at verified
  have split := take_append_drop state.clientNonce.length state.clientFinalNonce
  rw [← split, verified.1.2, verified.2]

theorem exchange_final_sound (allowed : FlagAllowed state state.cbindFlag)
    (exchanged : exchangeFinal crypto state input = .ok reply) :
    ∃ data proof withoutProof, BindingData state.port state.cbindFlag data ∧
      FinalMessage input (encodeText (gs2Header state.cbindFlag ++ data))
        (state.clientNonce ++ state.serverNonce) withoutProof proof ∧
      ((reply.result = .exchangeSuccess ∧ state.doomed = false ∧
          verifyClientProof crypto (withFinal state (state.clientNonce ++ state.serverNonce) proof
            withoutProof) = true ∧
          reply.state = { withFinal state (state.clientNonce ++ state.serverNonce) proof
            withoutProof with state := .finished }) ∨
        (reply.result = .exchangeFailure ∧ reply.state = withFinal state
          (state.clientNonce ++ state.serverNonce) proof withoutProof)) := by
  simp only [exchangeFinal, sequence_returns, ensure_returns] at exchanged
  obtain ⟨after, read, _, verified, result⟩ := exchanged
  obtain ⟨data, nonce, proof, withoutProof, dataMatches, message, _, afterIs⟩ :=
    read_client_final_sound allowed read
  have nonceIs : nonce = state.clientNonce ++ state.serverNonce := by
    rw [afterIs] at verified
    exact verify_final_nonce_sound verified
  rw [nonceIs] at message afterIs
  refine ⟨data, proof, withoutProof, dataMatches, message, ?_⟩
  rw [← Except.ok.inj result, finalReply]
  split_ifs with refused
  · exact .inr ⟨rfl, afterIs⟩
  · simp only [Bool.or_eq_true, Bool.not_eq_true', not_or, Bool.not_eq_true, Bool.not_eq_false]
      at refused
    rw [afterIs] at refused ⊢
    exact .inl ⟨rfl, refused.2, refused.1, rfl⟩

theorem scram_exchange_cases {input : Option Bytes}
    (exchanged : scramExchange crypto state random input = .ok reply) :
    (input = none ∧ reply.state = state ∧ reply.result = .exchangeContinue) ∨
      (∃ message, input = some message ∧ message ≠ [] ∧ state.state = .init ∧
        exchangeFirst state random message = .ok reply) ∨
      (∃ message, input = some message ∧ message ≠ [] ∧ state.state = .saltSent ∧
        exchangeFinal crypto state message = .ok reply) := by
  unfold scramExchange at exchanged
  cases input with
  | none =>
    rw [← Except.ok.inj exchanged]
    exact .inl ⟨rfl, rfl, rfl⟩
  | some message =>
    simp only at exchanged
    split_ifs at exchanged with empty nul
    cases phase : state.state with
    | init =>
      rw [phase] at exchanged
      exact .inr (.inl ⟨message, rfl, empty, rfl, exchanged⟩)
    | saltSent =>
      rw [phase] at exchanged
      exact .inr (.inr ⟨message, rfl, empty, rfl, exchanged⟩)
    | finished =>
      rw [phase] at exchanged
      cases exchanged

theorem final_reply_keeps_secret (crypto : Crypto) (read : ScramState) :
    (finalReply crypto read).state.toScramSecret = read.toScramSecret := by
  unfold finalReply
  split_ifs <;> rfl

theorem scram_exchange_keeps_secret {input : Option Bytes}
    (exchanged : scramExchange crypto state random input = .ok reply) :
    reply.state.toScramSecret = state.toScramSecret := by
  rcases scram_exchange_cases exchanged with ⟨_, same, _⟩ | ⟨text, _, _, _, first⟩ |
    ⟨text, _, _, _, final⟩
  · rw [same]
  · obtain ⟨flag, bare, username, nonce, rawNonce, _, _, _, _, _, next⟩ :=
      exchange_first_sound first
    rw [next]
    rfl
  · simp only [exchangeFinal, readClientFinalMessage, sequence_returns, Prod.exists] at final
    obtain ⟨after, ⟨_, _, _, _, _, _, _, _, _, _, _, _, _, _, _, _, read⟩, _, _, result⟩ := final
    rw [← Except.ok.inj result, final_reply_keeps_secret, ← Except.ok.inj read]

end FortressQL.Scram.Acceptance
