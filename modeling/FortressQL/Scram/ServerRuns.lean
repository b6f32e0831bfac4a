import FortressQL.Scram.Answers

/-!
# Sequences of calls to `scram_exchange`

The calls a server makes are followed for any client messages, also behind a failure, where
`CheckSASLAuth` makes no further call.
-/

namespace FortressQL.Scram.ServerRuns

open Except (ok.injEq)
open Option
open List Common.Base64 Elog Lib.ByteStrings Scram.Keys Scram.Messages Scram.Secret Scram.Server
open Scram.Acceptance Scram.Answers

variable {start state : ScramState} {first rawNonce : Bytes} {message : SaslMessage}
  {crypto : Crypto} {reply : ExchangeReply}

def exchangeAll (crypto : Crypto) :
    ScramState → List SaslMessage → Raises (ScramState × List PgSaslExchange)
  | state, [] => .ok (state, [])
  | state, message :: later => do
      let reply ← scramExchange crypto state message.random message.payload
      let (last, results) ← exchangeAll crypto reply.state later
      .ok (last, reply.result :: results)

def payloads (messages : List SaslMessage) : List Bytes := messages.filterMap (·.payload)

def Shown (crypto : Crypto) (start : ScramState) (rawNonce first final : Bytes) : Prop :=
  ∃ flag bare username clientNonce data withoutProof proof,
    FlagAllowed start flag ∧ first = gs2Header flag ++ bare ∧
    BareMessage bare username clientNonce ∧ BindingData start.port flag data ∧
    FinalMessage final (encodeText (gs2Header flag ++ data))
      (clientNonce ++ encodeText rawNonce) withoutProof proof ∧
    scramH crypto start.hashType (xorBytes proof (crypto.hmac start.hashType start.storedKey
      (authMessage bare (serverFirstText start.toScramSecret clientNonce (encodeText rawNonce))
        withoutProof))) = start.storedKey

def FirstRead (start : ScramState) (first rawNonce : Bytes) (state : ScramState) : Prop :=
  first ≠ [] ∧ ∃ flag bare username nonce finalNonce proof withoutProof,
    FlagAllowed start flag ∧ first = gs2Header flag ++ bare ∧ BareMessage bare username nonce ∧
    state = withFinal (salted start flag bare username nonce rawNonce) finalNonce proof withoutProof

inductive Phase (start : ScramState) : ScramState → List SaslMessage → Nat → Prop where
  | waiting {seen : List SaslMessage} (absent : ∀ message ∈ seen, message.payload = none) :
      Phase start start seen 0
  | salted {state : ScramState} (before after : List SaslMessage) (first rawNonce : Bytes)
      (absent : ∀ message ∈ before, message.payload = none)
      (read : FirstRead start first rawNonce state) :
      Phase start state (before ++ ⟨some first, some rawNonce⟩ :: after) (payloads after).length
  | finished {state : ScramState} {seen : List SaslMessage} {failures : Nat}
      (ended : state.state = .finished) : Phase start state seen failures

theorem first_read_salt_sent (read : FirstRead start first rawNonce state) :
    state.state = .saltSent ∧ FlagAllowed state state.cbindFlag := by
  obtain ⟨_, flag, bare, username, nonce, finalNonce, proof, withoutProof, allowed, _, _, same⟩ :=
    read
  rw [same]
  exact ⟨rfl, allowed⟩

theorem first_read_with_final (read : FirstRead start first rawNonce state)
    (finalNonce proof withoutProof : Bytes) :
    FirstRead start first rawNonce (withFinal state finalNonce proof withoutProof) := by
  obtain ⟨nonempty, flag, bare, username, nonce, _, _, _, allowed, header, bareText, same⟩ := read
  refine ⟨nonempty, flag, bare, username, nonce, finalNonce, proof, withoutProof, allowed, header,
    bareText, ?_⟩
  rw [same]
  rfl

def failureCount (result : PgSaslExchange) : Nat := [result].count .exchangeFailure

theorem payloads_snoc_some (messages : List SaslMessage) {text : Bytes}
    (payload : message.payload = some text) :
    (payloads (messages ++ [message])).length = (payloads messages).length + 1 := by
  simp [payloads, payload]

theorem payloads_snoc_none (messages : List SaslMessage) (payload : message.payload = none) :
    (payloads (messages ++ [message])).length = (payloads messages).length := by
  simp [payloads, payload]

section Phases

variable {seen : List SaslMessage} {failures : Nat}

theorem phase_absent (phase : Phase start state seen failures)
    (absentNow : message.payload = none) : Phase start state (seen ++ [message]) failures := by
  cases phase with
  | waiting absent =>
    apply Phase.waiting
    intro other member
    rcases mem_append.mp member with earlier | now
    · exact absent other earlier
    · rw [mem_singleton.mp now, absentNow]
  | salted before after first rawNonce absent read =>
    rw [← payloads_snoc_none after absentNow, append_assoc]
    exact Phase.salted before (after ++ [message]) first rawNonce absent read
  | finished ended => exact Phase.finished ended

theorem phase_step (initial : start.state = .init) (phase : Phase start state seen failures)
    (exchanged : scramExchange crypto state message.random message.payload = .ok reply) :
    Phase start reply.state (seen ++ [message]) (failures + failureCount reply.result) := by
  rcases scram_exchange_cases exchanged with ⟨absentNow, same, continues⟩ |
    ⟨text, payload, nonempty, waitingNow, first⟩ | ⟨text, payload, _, saltSent, final⟩
  · rw [same, continues]
    exact phase_absent phase absentNow
  -- A first message is only read by a server that has not read one.
  · cases phase with
    | waiting absent =>
      obtain ⟨flag, bare, username, nonce, rawNonce, allowed, header, bareText, random,
        continues, next⟩ := exchange_first_sound first
      have isFirst : message = ⟨some text, some rawNonce⟩ := by
        rw [← payload, ← random]
      rw [continues, next, isFirst]
      exact Phase.salted seen [] text rawNonce absent ⟨nonempty, flag, bare, username, nonce,
        start.clientFinalNonce, start.clientProof, start.clientFinalMessageWithoutProof,
        allowed, header, bareText, rfl⟩
    | salted before after earlier rawNonce absent read =>
      rw [(first_read_salt_sent read).1] at waitingNow
      cases waitingNow
    | finished ended =>
      rw [ended] at waitingNow
      cases waitingNow
  · cases phase with
    | waiting absent =>
      rw [initial] at saltSent
      cases saltSent
    | salted before after earlier rawNonce absent read =>
      obtain ⟨-, proof, withoutProof, _, _, verdict⟩ :=
        exchange_final_sound (first_read_salt_sent read).2 final
      -- A refused final message leaves the server where it was, with the failure counted.
      rcases verdict with ⟨_, _, _, ended⟩ | ⟨failed, next⟩
      · exact Phase.finished (ended ▸ rfl)
      · have counted : (payloads after).length + failureCount reply.result =
            (payloads (after ++ [message])).length := by
          rw [failed, payloads_snoc_some _ payload]
          rfl
        rw [counted, next, append_assoc]
        exact Phase.salted before (after ++ [message]) earlier rawNonce absent
          (first_read_with_final read _ _ _)
    | finished ended =>
      rw [ended] at saltSent
      cases saltSent

variable {last : ScramState} {results : List PgSaslExchange}

theorem phase_run (initial : start.state = .init) (messages : List SaslMessage)
    (phase : Phase start state seen failures)
    (ran : exchangeAll crypto state messages = .ok (last, results)) :
    Phase start last (seen ++ messages) (failures + results.count .exchangeFailure) := by
  induction messages generalizing state seen failures results with
  | nil =>
    have ended := Prod.mk.inj (Except.ok.inj ran)
    rw [← ended.1, ← ended.2, append_nil]
    exact phase
  | cons message later ih =>
    simp only [exchangeAll, sequence_returns, Prod.exists] at ran
    obtain ⟨reply, exchanged, rest, laterResults, laterRan, same⟩ := ran
    have ended := Prod.mk.inj (Except.ok.inj same)
    have next := ih (phase_step initial phase exchanged) (ended.1 ▸ laterRan)
    rw [append_assoc] at next
    have counted : failures + failureCount reply.result + laterResults.count .exchangeFailure =
        failures + results.count .exchangeFailure := by
      rw [← ended.2, failureCount, add_assoc, ← count_append, singleton_append]
    rw [counted] at next
    exact next

theorem phase_success (initial : start.state = .init) (phase : Phase start state seen failures)
    (exchanged : scramExchange crypto state message.random message.payload = .ok reply)
    (success : reply.result = .exchangeSuccess) :
    start.doomed = false ∧ reply.state.state = .finished ∧
      ∃ before after first rawNonce final,
        seen = before ++ ⟨some first, some rawNonce⟩ :: after ∧
        (∀ message ∈ before, message.payload = none) ∧ (payloads after).length = failures ∧
        message.payload = some final ∧ first ≠ [] ∧ final ≠ [] ∧
        Shown crypto start rawNonce first final := by
  rcases scram_exchange_cases exchanged with ⟨_, _, continues⟩ |
    ⟨text, _, _, _, first⟩ | ⟨text, payload, nonempty, saltSent, final⟩
  · rw [continues] at success
    cases success
  · obtain ⟨-, -, -, -, -, _, _, _, _, continues, _⟩ :=
      exchange_first_sound first
    rw [continues] at success
    cases success
  · cases phase with
    | waiting absent =>
      rw [initial] at saltSent
      cases saltSent
    | finished ended =>
      rw [ended] at saltSent
      cases saltSent
    | salted before after earlier rawNonce absent read =>
      obtain ⟨data, proof, withoutProof, bindingData, finalMessage, verdict⟩ :=
        exchange_final_sound (first_read_salt_sent read).2 final
      obtain ⟨firstNonempty, flag, bare, username, nonce, _, _, _, allowed, header, bareText,
        same⟩ := read
      rw [same] at bindingData finalMessage verdict
      rcases verdict with ⟨_, notDoomed, verified, ended⟩ | ⟨failed, _⟩
      · exact ⟨notDoomed, ended ▸ rfl, before, after, earlier, rawNonce, text, rfl, absent, rfl,
          payload, firstNonempty, nonempty, flag, bare, username, nonce, data, withoutProof,
          proof, allowed, header, bareText, bindingData, finalMessage,
          of_decide_eq_true verified⟩
      · rw [failed] at success
        cases success

theorem finished_no_success (messages : List SaslMessage) (ended : state.state = .finished)
    (ran : exchangeAll crypto state messages = .ok (last, results)) :
    .exchangeSuccess ∉ results := by
  induction messages generalizing state results last with
  | nil =>
    rw [← (Prod.mk.inj (Except.ok.inj ran)).2]
    exact not_mem_nil
  | cons message later ih =>
    simp only [exchangeAll, sequence_returns, Prod.exists] at ran
    obtain ⟨reply, exchanged, rest, laterResults, laterRan, same⟩ := ran
    rcases scram_exchange_cases exchanged with ⟨_, unchanged, continues⟩ |
      ⟨_, _, _, waitingNow, _⟩ | ⟨_, _, _, saltSent, _⟩
    · have later := ih (unchanged ▸ ended) laterRan
      rw [← (Prod.mk.inj (Except.ok.inj same)).2, continues]
      simpa using later
    · rw [ended] at waitingNow
      cases waitingNow
    · rw [ended] at saltSent
      cases saltSent

end Phases

def verdict (reply : ExchangeReply) (unread : List SaslMessage) : Option SaslOutcome :=
  match reply.result with
  | .exchangeContinue => none
  | .exchangeSuccess => some (.accepted reply.state unread)
  | .exchangeFailure => some (.rejected unread)

variable {unread messages : List SaslMessage} {outcome : SaslOutcome}

theorem sasl_loop_verdict
    (exchanged : scramExchange crypto state message.random message.payload = .ok reply)
    (decided : verdict reply unread = some outcome) :
    saslLoop crypto state (message :: unread) = .ok outcome := by
  cases result : reply.result with
  | exchangeContinue => simp [verdict, result] at decided
  | exchangeSuccess | exchangeFailure =>
    rw [verdict, result] at decided
    simp [saslLoop, exchanged, result, some.inj decided]

/-- One round of the loop: the exchange goes on, or its reply is the verdict. -/
theorem sasl_loop_round {later : List SaslMessage}
    (ran : saslLoop crypto state (message :: later) = .ok outcome) :
    ∃ reply, scramExchange crypto state message.random message.payload = .ok reply ∧
      (reply.result = .exchangeContinue ∧ saslLoop crypto reply.state later = .ok outcome ∨
        verdict reply later = some outcome) := by
  simp only [saslLoop, sequence_returns] at ran
  obtain ⟨reply, exchanged, rest⟩ := ran
  refine ⟨reply, exchanged, ?_⟩
  cases result : reply.result with
  | exchangeContinue =>
    rw [result] at rest
    exact .inl ⟨rfl, rest⟩
  | exchangeSuccess | exchangeFailure =>
    rw [result] at rest
    rw [verdict, result]
    exact .inr (congrArg some (Except.ok.inj rest))

theorem sasl_loop_ends (messages : List SaslMessage)
    (ran : saslLoop crypto state messages = .ok outcome) :
    outcome = .disconnected ∨ ∃ seen message unread mid results reply,
      messages = seen ++ message :: unread ∧
      exchangeAll crypto state seen = .ok (mid, results) ∧ .exchangeFailure ∉ results ∧
      scramExchange crypto mid message.random message.payload = .ok reply ∧
      verdict reply unread = some outcome ∧
      ∀ other otherOutcome, verdict reply other = some otherOutcome →
        saslLoop crypto state (seen ++ message :: other) = .ok otherOutcome := by
  induction messages generalizing state with
  | nil => exact .inl (Except.ok.inj ran).symm
  | cons message later ih =>
    obtain ⟨reply, exchanged, ⟨continues, rest⟩ | decided⟩ := sasl_loop_round ran
    · rcases ih rest with left | ⟨seen, next, unread, mid, results, last, split, all, clean,
        lastReply, ended, others⟩
      · exact .inl left
      · refine .inr ⟨message :: seen, next, unread, mid, .exchangeContinue :: results, last,
          ?_, ?_, ?_, lastReply, ended, ?_⟩
        · rw [split]
          rfl
        · simp [exchangeAll, exchanged, all, continues]
        · simpa using clean
        · intro other otherOutcome otherVerdict
          simp only [cons_append, saslLoop, exchanged, ok_then, continues]
          exact others other otherOutcome otherVerdict
    · exact .inr ⟨[], message, later, state, [], reply, rfl, rfl, not_mem_nil, exchanged,
        decided, fun _ _ otherVerdict => sasl_loop_verdict exchanged otherVerdict⟩

theorem scram_init_sound {mockAuthNonce selectedMech : Bytes} {port : Port}
    {shadowPass : Option Bytes}
    (init : scramInit crypto mockAuthNonce port selectedMech shadowPass = .ok start) :
    start.state = .init ∧ start.port = port ∧
      (start.doomed = false → storedSecret shadowPass = some start.toScramSecret) := by
  simp only [scramInit, sequence_returns] at init
  obtain ⟨choice, _, started⟩ := init
  split at started
  · rename_i secret stored
    rw [← Except.ok.inj started]
    exact ⟨rfl, rfl, fun _ => stored⟩
  · rw [← Except.ok.inj started]
    refine ⟨rfl, rfl, ?_⟩
    intro notDoomed
    cases notDoomed

theorem waiting_start (start : ScramState) : Phase start start [] 0 :=
  Phase.waiting fun _ member => by cases member

/-- An accepted client has sent two messages and nothing behind them was read. -/
theorem accepted_two_messages (initial : start.state = .init)
    (accepted : saslLoop crypto start messages = .ok (.accepted state unread)) :
    start.doomed = false ∧ ∃ seen, messages = seen ++ unread ∧ (payloads seen).length = 2 ∧
      ∀ other, saslLoop crypto start (seen ++ other) = .ok (.accepted state other) := by
  rcases sasl_loop_ends messages accepted with left | ⟨seen, message, rest, mid, results, reply,
    split, ran, noFailure, exchanged, ended, others⟩
  · cases left
  · cases result : reply.result with
    | exchangeContinue => simp [verdict, result] at ended
    | exchangeFailure => simp [verdict, result] at ended
    | exchangeSuccess =>
      simp only [verdict, result, some.injEq, SaslOutcome.accepted.injEq] at ended
      have phase := phase_run initial seen (waiting_start start) ran
      obtain ⟨notDoomed, _, before, after, first, rawNonce, final, seenIs, absent, failures,
        payload, _⟩ := phase_success initial phase exchanged result
      refine ⟨notDoomed, seen ++ [message], ?_, ?_, ?_⟩
      · rw [split, ended.2, append_assoc]
        rfl
      · have beforeEmpty : payloads before = [] := filterMap_eq_nil_iff.mpr absent
        -- The loop of `CheckSASLAuth` stops at a failure; no final message came before this one.
        have afterEmpty : payloads after = [] := by
          rw [count_eq_zero_of_not_mem noFailure] at failures
          exact length_eq_zero_iff.mp failures
        have seenOne : payloads seen = [first] := by
          have parts : payloads seen = payloads before ++ first :: payloads after := by
            rw [← nil_append seen, seenIs]
            simp [payloads]
          rw [parts, beforeEmpty, afterEmpty]
          rfl
        rw [payloads_snoc_some _ payload, seenOne]
        rfl
      · intro other
        rw [append_assoc]
        apply others other
        rw [verdict, result, ended.1]

theorem rejected_final (rejected : saslLoop crypto start messages = .ok (.rejected unread)) :
    ∃ seen, messages = seen ++ unread ∧
      ∀ other, saslLoop crypto start (seen ++ other) = .ok (.rejected other) := by
  rcases sasl_loop_ends messages rejected with left | ⟨seen, message, rest, -, -, reply,
    split, -, -, -, ended, others⟩
  · cases left
  · cases result : reply.result with
    | exchangeContinue => simp [verdict, result] at ended
    | exchangeSuccess => simp [verdict, result] at ended
    | exchangeFailure =>
      simp only [verdict, result, some.injEq, SaslOutcome.rejected.injEq] at ended
      refine ⟨seen ++ [message], ?_, ?_⟩
      · rw [split, ended, append_assoc]
        rfl
      · intro other
        rw [append_assoc]
        apply others other
        rw [verdict, result]

/-- Every success was earned by a first and a final message, and is the last one. -/
theorem server_success_sound (crypto : Crypto) (mockAuthNonce selectedMech : Bytes) (port : Port)
    (shadowPass : Option Bytes) (start : ScramState)
    (init : scramInit crypto mockAuthNonce port selectedMech shadowPass = .ok start) :
    (∀ (seen : List SaslMessage) (mid : ScramState) (results : List PgSaslExchange)
        (message : SaslMessage) (reply : ExchangeReply),
      exchangeAll crypto start seen = .ok (mid, results) →
      scramExchange crypto mid message.random message.payload = .ok reply →
      reply.result = .exchangeSuccess →
        start.doomed = false ∧ storedSecret shadowPass = some start.toScramSecret ∧
        (∃ before after first rawNonce final,
          seen = before ++ ⟨some first, some rawNonce⟩ :: after ∧
          (∀ message ∈ before, message.payload = none) ∧
          (payloads after).length = results.count .exchangeFailure ∧
          message.payload = some final ∧ first ≠ [] ∧ final ≠ [] ∧
          Shown crypto start rawNonce first final) ∧
        ∀ later last laterResults, exchangeAll crypto reply.state later = .ok (last, laterResults) →
          .exchangeSuccess ∉ laterResults) ∧
    (∀ messages state unread, saslLoop crypto start messages = .ok (.accepted state unread) →
      ∃ seen, messages = seen ++ unread ∧ (payloads seen).length = 2 ∧
        ∀ other, saslLoop crypto start (seen ++ other) = .ok (.accepted state other)) ∧
    (∀ messages unread, saslLoop crypto start messages = .ok (.rejected unread) →
      ∃ seen, messages = seen ++ unread ∧
        ∀ other, saslLoop crypto start (seen ++ other) = .ok (.rejected other)) := by
  have started := scram_init_sound init
  refine ⟨?_, ?_, ?_⟩
  · intro seen mid results message reply ran exchanged success
    have phase := phase_run started.1 seen (waiting_start start) ran
    rw [zero_add] at phase
    obtain ⟨notDoomed, ended, shown⟩ := phase_success started.1 phase exchanged success
    exact ⟨notDoomed, started.2.2 notDoomed, shown,
      fun later last laterResults => finished_no_success later ended⟩
  · intro messages state unread accepted
    exact (accepted_two_messages started.1 accepted).2
  · intro messages unread rejected
    exact rejected_final rejected

def samplePort (authMethod : UserAuth) : Port :=
  { authMethod := authMethod
    sslInUse := false
    userName := ascii "alice"
    certificateHash := none }

def sampleShadow : Bytes :=
  scramBuildSecret sampleCrypto .sha256 (List.replicate 16 7) (4096 : Nat) (ascii "secret")

def sampleSecret : ScramSecret :=
  builtSecret sampleCrypto sha256Parameters (List.replicate 16 7) (4096 : Nat) (ascii "secret")

theorem sample_stored : storedSecret (some sampleShadow) = some sampleSecret :=
  stored_secret_build sampleCrypto sha256Parameters (replicate 16 7) (ascii "secret")
    4096 (.inl rfl) (by decide) (by decide)

section Sample

variable (authMethod : UserAuth)

def sampleStart : ScramState :=
  startState (samplePort authMethod) ⟨false, .md5⟩ sampleSecret false
    (secretLogdetail (samplePort authMethod) (some sampleShadow))

theorem sample_init (notPqc : authMethod ≠ .uaPQCSCRAM) :
    scramInit sampleCrypto [] (samplePort authMethod) scramSha256Name (some sampleShadow) =
      .ok (sampleStart authMethod) :=
  scram_init_stored sampleCrypto [] (select_mech_sha256 notPqc) sample_stored

def sampleNonce : Bytes := ascii "nonce"

def sampleSalted : ScramState :=
  salted (sampleStart authMethod) 'n'.toUInt8 (clientFirstBare sampleNonce) [] sampleNonce []

def sampleFirst : SaslMessage :=
  ⟨some (gs2Header 'n'.toUInt8 ++ clientFirstBare sampleNonce), some []⟩

def sampleBinding : Bytes := encodeText (gs2Header 'n'.toUInt8 ++ [])

def sampleFinal (proof : Bytes) : SaslMessage :=
  ⟨some (clientFinal sampleBinding (sampleNonce ++ encodeText []) proof), none⟩

def sampleJudged (proof : Bytes) : ScramState :=
  withFinal (sampleSalted authMethod) (sampleNonce ++ encodeText []) proof
    (clientFinalWithoutProof sampleBinding (sampleNonce ++ encodeText []))

theorem sample_first : scramExchange sampleCrypto (sampleStart authMethod) sampleFirst.random
    sampleFirst.payload = .ok
      { result := .exchangeContinue
        state := sampleSalted authMethod
        output := some (serverFirstText sampleSecret sampleNonce (encodeText [])) } :=
  exchange_first_complete sampleCrypto [] rfl (.inl ⟨rfl, rfl⟩) (by decide +kernel)

theorem sample_final (proof oldNonce oldProof oldText : Bytes) (sized : proof.length = 32) :
    scramExchange sampleCrypto (withFinal (sampleSalted authMethod) oldNonce oldProof oldText)
        (sampleFinal proof).random (sampleFinal proof).payload =
      .ok (finalReply sampleCrypto (sampleJudged authMethod proof)) := by
  have noData : BindingData (samplePort authMethod) 'n'.toUInt8 [] :=
    binding_data_absent (by decide)
  have bound : checkChannelBinding (withFinal (sampleSalted authMethod) oldNonce oldProof oldText)
      sampleBinding = .ok () :=
    check_channel_binding_complete (.inl ⟨rfl, rfl⟩) noData
  have plainNonce : PlainValue (sampleNonce ++ encodeText []) :=
    plain_value_append (plain_value_printable (by decide +kernel)) (plain_value_encode_text [])
  exact exchange_final_complete sampleCrypto none rfl bound (plain_value_encode_text _) plainNonce
    sized

theorem sample_verify (proof : Bytes) :
    verifyClientProof sampleCrypto (sampleJudged authMethod proof) =
      decide (scramH sampleCrypto .sha256 (xorBytes proof (replicate 32 0)) =
        replicate 32 0) := rfl

theorem sample_accepts : finalReply sampleCrypto (sampleJudged authMethod (replicate 32 0)) =
    { result := .exchangeSuccess
      state := { sampleJudged authMethod (replicate 32 0) with state := .finished }
      output := some (buildServerFinalMessage sampleCrypto
        (sampleJudged authMethod (replicate 32 0))) } :=
  final_reply_success (by rw [sample_verify]; decide +kernel) rfl

theorem sample_refuses :
    (finalReply sampleCrypto (sampleJudged authMethod (replicate 32 1))).result =
      .exchangeFailure ∧
    (finalReply sampleCrypto (sampleJudged authMethod (replicate 32 1))).state =
      sampleJudged authMethod (replicate 32 1) := by
  exact ⟨rfl, rfl⟩

theorem sample_judges (proof : Bytes) (sized : proof.length = 32) :
    scramExchange sampleCrypto (sampleSalted authMethod) (sampleFinal proof).random
        (sampleFinal proof).payload =
      .ok (finalReply sampleCrypto (sampleJudged authMethod proof)) :=
  sample_final authMethod proof [] [] [] sized

theorem sample_accepted :
    saslLoop sampleCrypto (sampleStart authMethod)
        [sampleFirst, sampleFinal (replicate 32 0)] =
      .ok (.accepted { sampleJudged authMethod (replicate 32 0) with state := .finished }
        []) := by
  simp only [saslLoop, sample_first, sample_judges _ (replicate 32 0) rfl, ok_then, sample_accepts]

end Sample

/-- A comma behind the proof changes nothing. -/
theorem trailing_comma_accepted :
    readClientFinalMessage (sampleSalted .uaSCRAM)
        (clientFinal sampleBinding sampleNonce (List.replicate 32 0) ++ [comma]) =
      .ok (withFinal (sampleSalted .uaSCRAM) sampleNonce (List.replicate 32 0)
        (clientFinalWithoutProof sampleBinding sampleNonce)) := by
  have proofRead : readProof (attrVal 'p'.toUInt8 (encodeText (replicate 32 0)) ++ [comma]) =
      .ok (_, encodeText (replicate 32 0), []) :=
    read_proof_found (read_any_attr_complete (by decide) ⟨encode_text_clean _, .inl rfl⟩)
  have bindingRead : readAttrValue 'c'.toUInt8
      (clientFinal sampleBinding sampleNonce (replicate 32 0) ++ [comma]) =
        .ok (sampleBinding, attrVal 'r'.toUInt8 sampleNonce ++ comma ::
          (attrVal 'p'.toUInt8 (encodeText (replicate 32 0)) ++ [comma])) := by
    decide +kernel
  have nonceRead : readAttrValue 'r'.toUInt8 (attrVal 'r'.toUInt8 sampleNonce ++ comma ::
      (attrVal 'p'.toUInt8 (encodeText (replicate 32 0)) ++ [comma])) = .ok (sampleNonce, _) :=
    read_attr_more (by decide +kernel)
  rw [readClientFinalMessage, bindingRead]
  simp only [nonceRead, proofRead, ok_then]
  rfl

/-- Fed directly, `scram_exchange` accepts a right proof behind a wrong one. -/
theorem success_after_failure :
    ∃ start last,
      scramInit sampleCrypto [] (samplePort .uaSCRAM) scramSha256Name (some sampleShadow) =
        .ok start ∧
      exchangeAll sampleCrypto start
        [sampleFirst, sampleFinal (List.replicate 32 1), sampleFinal (List.replicate 32 0)] =
          .ok (last, [.exchangeContinue, .exchangeFailure, .exchangeSuccess]) := by
  refine ⟨sampleStart .uaSCRAM,
    { sampleJudged .uaSCRAM (replicate 32 0) with state := .finished },
    sample_init .uaSCRAM (by decide), ?_⟩
  have again : scramExchange sampleCrypto (sampleJudged .uaSCRAM (replicate 32 1))
      (sampleFinal (replicate 32 0)).random (sampleFinal (replicate 32 0)).payload = _ :=
    sample_final .uaSCRAM (replicate 32 0) _ _ _ rfl
  simp only [exchangeAll, sample_first, sample_judges _ (replicate 32 1) rfl, again, ok_then,
    sample_refuses, sample_accepts]

/-- The sample client is accepted with the zero proof. -/
theorem sample_login_sound :
    scramInit sampleCrypto [] (samplePort .uaSCRAM) scramSha256Name (some sampleShadow) =
        .ok (sampleStart .uaSCRAM) ∧
      ∃ state, saslLoop sampleCrypto (sampleStart .uaSCRAM)
          [sampleFirst, sampleFinal (List.replicate 32 0)] = .ok (.accepted state []) ∧
        ∃ seen, [sampleFirst, sampleFinal (List.replicate 32 0)] = seen ++ [] ∧
          (payloads seen).length = 2 ∧
          ∀ other, saslLoop sampleCrypto (sampleStart .uaSCRAM) (seen ++ other) =
            .ok (.accepted state other) := by
  have init := sample_init .uaSCRAM (by decide)
  have sound := server_success_sound sampleCrypto [] scramSha256Name (samplePort .uaSCRAM)
    (some sampleShadow) (sampleStart .uaSCRAM) init
  exact ⟨init, _, sample_accepted .uaSCRAM, sound.2.1 _ _ _ (sample_accepted .uaSCRAM)⟩

end FortressQL.Scram.ServerRuns
