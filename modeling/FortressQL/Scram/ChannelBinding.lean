import FortressQL.Lib.Runs
import FortressQL.Scram.ClientAnswers

/-!
# What a client takes for a bound channel

`scram_channel_bound` looks at the mechanism's name at the end, the messages are built by
comparisons of their own. Both are followed through every sequence of server messages.
-/

namespace FortressQL.Scram.ChannelBinding

open Common.Base64 Lib.ByteStrings Lib.Runs Lib.Scan Scram.Keys Scram.Messages Scram.Client
open Scram.ClientAnswers List

variable {state read : FeScramState}

def setup (state : FeScramState) : Bytes × Except String Bytes :=
  (state.saslMechanism, state.conn.peerCertificateHash)

structure SameFrame (before after : FeScramState) : Prop where
  sameSetup : setup after = setup before
  sameState : after.state = before.state

theorem same_frame_trans {first second third : FeScramState} (before : SameFrame first second)
    (after : SameFrame second third) : SameFrame first third :=
  ⟨after.sameSetup.trans before.sameSetup, after.sameState.trans before.sameState⟩

def KeepsFrame {Value : Type} (state : FeScramState) (stateOf : Value → FeScramState)
    (result : FeResult Value) : Prop :=
  match result with
  | .error failed => SameFrame state failed
  | .ok value => SameFrame state (stateOf value)

theorem keeps_frame_from {Value : Type} {start : FeScramState} (state : FeScramState)
    {stateOf : Value → FeScramState} {result : FeResult Value} (same : SameFrame start state)
    (kept : KeepsFrame state stateOf result) : KeepsFrame start stateOf result := by
  cases result with
  | error failed => exact same_frame_trans same kept
  | ok value => exact same_frame_trans same kept

section Readers

variable (state : FeScramState) (input : Bytes)

theorem read_server_nonce_keeps : KeepsFrame state Prod.fst (readServerNonce state input) := by
  unfold readServerNonce
  split
  · exact ⟨rfl, rfl⟩
  · split_ifs <;> exact ⟨rfl, rfl⟩

theorem read_server_salt_keeps : KeepsFrame state Prod.fst (readServerSalt state input) := by
  unfold readServerSalt
  split
  · exact ⟨rfl, rfl⟩
  · split <;> exact ⟨rfl, rfl⟩

theorem read_server_iterations_keeps :
    KeepsFrame state Prod.fst (readServerIterations state input) := by
  unfold readServerIterations
  split
  · exact ⟨rfl, rfl⟩
  · simp only
    split_ifs <;> exact ⟨rfl, rfl⟩

theorem keeps_frame_then {Value Result : Type} {stateOf : Value → FeScramState}
    {resultOf : Result → FeScramState} {before : FeResult Value} {next : Value → FeResult Result}
    (first : KeepsFrame state stateOf before)
    (second : ∀ value, KeepsFrame (stateOf value) resultOf (next value)) :
    KeepsFrame state resultOf (before >>= next) := by
  cases before with
  | error failed => exact first
  | ok value => exact keeps_frame_from _ first (second value)

theorem read_server_first_keeps :
    KeepsFrame state id (readServerFirstMessage state input) := by
  have nonceKept : KeepsFrame state Prod.fst
      (readServerNonce { state with serverFirstMessage := input } input) :=
    keeps_frame_from { state with serverFirstMessage := input } ⟨rfl, rfl⟩
      (read_server_nonce_keeps _ input)
  apply keeps_frame_then state nonceKept
  intro nonceRead
  apply keeps_frame_then _ (read_server_salt_keeps _ _)
  intro saltRead
  apply keeps_frame_then _ (read_server_iterations_keeps _ _)
  intro iterationsRead
  simp only
  split_ifs <;> exact ⟨rfl, rfl⟩

theorem report_garbage_keeps : SameFrame state (reportGarbage state input) := by
  unfold reportGarbage
  split_ifs <;> exact ⟨rfl, rfl⟩

theorem read_server_final_keeps :
    KeepsFrame state id (readServerFinalMessage state input) := by
  have garbage (rest : Bytes) :=
    report_garbage_keeps { state with serverFinalMessage := input } rest
  simp only [readServerFinalMessage]
  split_ifs
  · split <;> exact ⟨rfl, rfl⟩
  · split
    · exact ⟨rfl, rfl⟩
    · split
      · exact ⟨(garbage _).sameSetup, (garbage _).sameState⟩
      · split_ifs <;> exact ⟨(garbage _).sameSetup, (garbage _).sameState⟩

theorem build_client_first_keeps (random : Option Bytes) :
    KeepsFrame state Prod.fst (buildClientFirstMessage state random) := by
  unfold buildClientFirstMessage
  split <;> exact ⟨rfl, rfl⟩

theorem build_client_final_keeps (crypto : Crypto) :
    KeepsFrame state Prod.fst (buildClientFinalMessage crypto state) := by
  unfold buildClientFinalMessage
  split <;> exact ⟨rfl, rfl⟩

theorem fe_verify_finishes (crypto : Crypto) :
    setup (feVerify crypto state).state = setup state ∧
      (feVerify crypto state).output = none ∧ (feVerify crypto state).state.state = .finished := by
  simp only [feVerify]
  split_ifs <;> exact ⟨rfl, rfl, rfl⟩

end Readers

/-- A call that sends nothing either stays where it is or ends the exchange. -/
def SendsNothing (state : FeScramState) (reply : FeReply) : Prop :=
  reply.output = none ∧ (reply.state.state = state.state ∨
    (state.state = .proofSent ∧ reply.state.state = .finished))

def SendsFirst (state : FeScramState) (reply : FeReply) : Prop :=
  state.state = .init ∧ reply.state.state = .nonceSent ∧ ∃ first, reply.output = some first

/-- The client-final-message begins with the channel binding of the same setup. -/
def SendsFinal (state : FeScramState) (reply : FeReply) : Prop :=
  state.state = .nonceSent ∧ reply.state.state = .proofSent ∧
    ∃ read binding rest, setup read = setup state ∧ channelBindingValue read = .ok binding ∧
      reply.output = some (attrVal 'c'.toUInt8 binding ++ comma :: rest)

/-- A reply keeps the setup and sends something only at its time. -/
def Orderly (state : FeScramState) (reply : FeReply) : Prop :=
  setup reply.state = setup state ∧
    (SendsNothing state reply ∨ SendsFirst state reply ∨ SendsFinal state reply)

theorem fe_failed_orderly {failed : FeScramState} (kept : SameFrame state failed) :
    Orderly state (feFailed failed) :=
  ⟨kept.sameSetup, .inl ⟨rfl, .inl kept.sameState⟩⟩

theorem build_client_final_binding {crypto : Crypto} {after : FeScramState} {output : Bytes}
    (built : buildClientFinalMessage crypto read = .ok (after, output)) :
    ∃ binding rest, channelBindingValue read = .ok binding ∧
      output = attrVal 'c'.toUInt8 binding ++ comma :: rest := by
  unfold buildClientFinalMessage at built
  split at built
  · cases built
  · rename_i binding value
    refine ⟨binding, attrVal 'r'.toUInt8 read.nonce ++ comma :: attrVal 'p'.toUInt8
      (encodeText (calculateClientProof crypto read
        (clientFinalWithoutProof binding read.nonce))), value, ?_⟩
    rw [← (Prod.mk.inj (Except.ok.inj built)).2, clientFinal, clientFinalWithoutProof, append_assoc]
    rfl

theorem first_message_orderly (random : Option Bytes) (phase : state.state = .init) :
    Orderly state (feContinue .nonceSent (buildClientFirstMessage state random)) := by
  have kept := build_client_first_keeps state random
  cases built : buildClientFirstMessage state random with
  | error failed =>
    rw [built] at kept
    exact fe_failed_orderly kept
  | ok next =>
    rw [built] at kept
    exact ⟨kept.sameSetup, .inr (.inl ⟨phase, rfl, next.2, rfl⟩)⟩

variable (crypto : Crypto)

theorem final_message_orderly (input : Bytes) (phase : state.state = .nonceSent) :
    Orderly state (feContinue .proofSent
      (readServerFirstMessage state input >>= buildClientFinalMessage crypto)) := by
  have readKept := read_server_first_keeps state input
  cases readFirst : readServerFirstMessage state input with
  | error failed =>
    rw [readFirst] at readKept
    exact fe_failed_orderly readKept
  | ok read =>
    rw [readFirst] at readKept
    change Orderly state (feContinue .proofSent (buildClientFinalMessage crypto read))
    have kept := keeps_frame_from read readKept (build_client_final_keeps read crypto)
    cases built : buildClientFinalMessage crypto read with
    | error failed =>
      rw [built] at kept
      exact fe_failed_orderly kept
    | ok next =>
      rw [built] at kept
      obtain ⟨binding, rest, value, output⟩ := build_client_final_binding built
      exact ⟨kept.sameSetup, .inr (.inr ⟨phase, rfl, read, binding, rest,
        readKept.sameSetup, value, congrArg some output⟩)⟩

theorem verification_orderly (input : Bytes) (phase : state.state = .proofSent) :
    Orderly state (match readServerFinalMessage state input with
      | .error failed => feFailed failed
      | .ok read => feVerify crypto read) := by
  have kept := read_server_final_keeps state input
  cases readFinal : readServerFinalMessage state input with
  | error failed =>
    rw [readFinal] at kept
    exact fe_failed_orderly kept
  | ok read =>
    rw [readFinal] at kept
    have finished := fe_verify_finishes read crypto
    exact ⟨finished.1.trans kept.sameSetup, .inl ⟨finished.2.1, .inr ⟨phase, finished.2.2⟩⟩⟩

theorem fe_exchange_orderly (state : FeScramState) (random : Option Bytes) (input : Bytes) :
    Orderly state (feScramExchange crypto state random input) := by
  have sameError (text : String) : SameFrame state (state.appendError text) := ⟨rfl, rfl⟩
  unfold feScramExchange
  split_ifs
  · exact fe_failed_orderly (sameError _)
  · exact fe_failed_orderly (sameError _)
  · split
    · exact first_message_orderly random ‹_›
    · exact final_message_orderly crypto input ‹_›
    · exact verification_orderly crypto input ‹_›
    · exact fe_failed_orderly (sameError _)

structure ClientRun where
  state : FeScramState
  sent : List Bytes

structure ClientCall where
  input : Bytes
  random : Option Bytes

def clientStep (crypto : Crypto) (run : ClientRun) (call : ClientCall) : ClientRun :=
  let reply := feScramExchange crypto run.state call.random call.input
  { state := reply.state, sent := run.sent ++ reply.output.toList }

theorem client_step_reply {crypto : Crypto} (before : ClientRun) (call : ClientCall)
    {reply : FeReply}
    (replied : feScramExchange crypto before.state call.random call.input = reply) :
    clientStep crypto before call = ⟨reply.state, before.sent ++ reply.output.toList⟩ := by
  rw [clientStep, replied]

def clientRun (crypto : Crypto) (conn : PgConn) (password saslMechanism : Bytes)
    (calls : List ClientCall) : ClientRun :=
  run (clientStep crypto) ⟨feScramInit crypto conn password saslMechanism, []⟩ calls

def FinalBound (conn : PgConn) (sent : List Bytes) : Prop :=
  ∃ hash first rest, conn.peerCertificateHash = .ok hash ∧
    sent = [first, attrVal 'c'.toUInt8 (encodeText (cbindInputHeader ++ hash)) ++ comma :: rest]

def SentIn (conn : PgConn) : FeScramStateEnum → List Bytes → Prop
  | .init, sent => sent = []
  | .nonceSent, sent => ∃ first, sent = [first]
  | .proofSent, sent => FinalBound conn sent
  | .finished, sent => FinalBound conn sent

def SentSoFar (conn : PgConn) (run : ClientRun) : Prop :=
  setup run.state = (scramSha256PlusName, conn.peerCertificateHash) ∧
    SentIn conn run.state.state run.sent

theorem channel_binding_plus {conn : PgConn} {binding : Bytes}
    (sameSetup : setup read = (scramSha256PlusName, conn.peerCertificateHash))
    (value : channelBindingValue read = .ok binding) :
    ∃ hash, conn.peerCertificateHash = .ok hash ∧
      binding = encodeText (cbindInputHeader ++ hash) := by
  obtain ⟨mechanism, peer⟩ := Prod.mk.inj sameSetup
  rw [channelBindingValue, if_pos mechanism, peer] at value
  cases certificate : conn.peerCertificateHash with
  | error text =>
    rw [certificate] at value
    cases value
  | ok hash =>
    rw [certificate] at value
    exact ⟨hash, rfl, (Except.ok.inj value).symm⟩

variable (conn : PgConn)

theorem sent_so_far_step (before : ClientRun) (call : ClientCall)
    (sentBefore : SentSoFar conn before) : SentSoFar conn (clientStep crypto before call) := by
  obtain ⟨sameSetup, sent⟩ := sentBefore
  obtain ⟨keptSetup, sends⟩ := fe_exchange_orderly crypto before.state call.random call.input
  refine ⟨keptSetup.trans sameSetup, ?_⟩
  simp only [clientStep]
  rcases sends with ⟨nothing, phase⟩ | ⟨initial, next, first, output⟩ |
    ⟨nonceSent, next, read, binding, rest, readSetup, value, output⟩
  · rw [nothing, Option.toList_none, append_nil]
    rcases phase with same | ⟨proofSent, finished⟩
    · rw [same]
      exact sent
    · rw [finished]
      rw [proofSent] at sent
      exact sent
  · rw [initial] at sent
    rw [next, output, sent]
    exact ⟨first, rfl⟩
  · rw [nonceSent] at sent
    obtain ⟨first, sentFirst⟩ := sent
    obtain ⟨hash, peer, bound⟩ := channel_binding_plus (readSetup.trans sameSetup) value
    rw [next, output, sentFirst, bound]
    exact ⟨hash, first, rest, peer, rfl⟩

theorem sha256_plus_bound (password : Bytes) (calls : List ClientCall)
    (finished :
      (clientRun crypto conn password scramSha256PlusName calls).state.state = .finished) :
    FinalBound conn (clientRun crypto conn password scramSha256PlusName calls).sent := by
  have sentAll : SentSoFar conn (clientRun crypto conn password scramSha256PlusName calls) :=
    run_invariant_always (clientStep crypto) (SentSoFar conn) (sent_so_far_step crypto conn) _ calls
      ⟨rfl, rfl⟩
  have sent := sentAll.2
  rw [finished] at sent
  exact sent

theorem client_run_mechanism (password saslMechanism : Bytes) (calls : List ClientCall) :
    (clientRun crypto conn password saslMechanism calls).state.saslMechanism = saslMechanism := by
  apply run_invariant_always (clientStep crypto)
    (fun reached => reached.state.saslMechanism = saslMechanism)
  · intro before call same
    have kept := (fe_exchange_orderly crypto before.state call.random call.input).1
    exact (congrArg Prod.fst kept).trans same
  · rfl

def unboundValue (conn : PgConn) : Bytes :=
  if supportsBinding conn then ascii "eSws" else ascii "biws"

theorem channel_binding_unbound (other : state.saslMechanism ≠ scramSha256PlusName) :
    channelBindingValue state = .ok (unboundValue state.conn) := by
  rw [channelBindingValue, if_neg other, unboundValue]
  split_ifs <;> rfl

def endingCalls (crypto : Crypto) (conn : PgConn) (password saslMechanism : Bytes) :
    List ClientCall :=
  [⟨[], some []⟩,
    ⟨serverFirst (encodeText [] ++ []) (encodeText []) (1 : Nat), none⟩,
    ⟨attrVal 'v'.toUInt8 (encodeText (List.replicate
      (feScramInit crypto conn password saslMechanism).keyLength 0)), none⟩]

theorem ending_calls_finish (crypto : Crypto) (conn : PgConn) (password saslMechanism : Bytes)
    (other : saslMechanism ≠ scramSha256PlusName) :
    let ended := clientRun crypto conn password saslMechanism
      (endingCalls crypto conn password saslMechanism)
    ended.state.state = .finished ∧ ∃ first proof, ended.sent =
      [first, clientFinal (unboundValue conn) (encodeText [] ++ []) proof] := by
  let start := feScramInit crypto conn password saslMechanism
  let first := cbindFlagText start ++ comma :: comma :: clientFirstBare (encodeText [])
  let waiting :=
    proofSent crypto (nonceSent start []) (unboundValue conn) (encodeText [] ++ []) [] 1
  let proof := finalProof crypto (nonceSent start []) (unboundValue conn) (encodeText [] ++ []) [] 1
  let signature := replicate start.keyLength (0 : UInt8)
  have plain : PlainValue (encodeText [] ++ []) := by
    exact plain_value_encode_text []
  have firstStep : clientStep crypto ⟨start, []⟩ ⟨[], some []⟩ = ⟨nonceSent start [], [first]⟩ :=
    client_step_reply ⟨start, []⟩ ⟨[], some []⟩ (fe_first_reply crypto start [] [] rfl)
  have secondStep : clientStep crypto ⟨nonceSent start [], [first]⟩
      ⟨serverFirst (encodeText [] ++ []) (encodeText []) (1 : Nat), none⟩ =
        ⟨waiting, [first, clientFinal (unboundValue conn) (encodeText [] ++ []) proof]⟩ :=
    client_step_reply ⟨nonceSent start [], [first]⟩ ⟨_, none⟩
      (fe_second_reply crypto (nonceSent start []) none [] [] rfl plain one_pos (by decide)
        (channel_binding_unbound other))
  -- Whatever the verdict on the signature is, the state is finished behind it.
  have third := fe_third_reply crypto waiting none signature rfl length_replicate
  have verified := fe_verify_finishes { waiting with
    serverFinalMessage := attrVal 'v'.toUInt8 (encodeText signature)
    serverSignature := signature } crypto
  rw [← third] at verified
  intro ended
  have endedIs : ended = clientStep crypto (clientStep crypto (clientStep crypto ⟨start, []⟩
      ⟨[], some []⟩) ⟨serverFirst (encodeText [] ++ []) (encodeText []) (1 : Nat), none⟩)
        ⟨attrVal 'v'.toUInt8 (encodeText signature), none⟩ := rfl
  rw [endedIs, firstStep, secondStep]
  refine ⟨verified.2.2, first, proof, ?_⟩
  rw [clientStep, verified.2.1]
  rfl

/-- No certificate hash makes the binding one of the short ones. -/
theorem unbound_not_bound {conn : PgConn} {first nonce proof : Bytes}
    (sent : FinalBound conn [first, clientFinal (unboundValue conn) nonce proof]) : False := by
  obtain ⟨hash, _, rest, _, same⟩ := sent
  have finals := (cons.inj (cons.inj same).2).1
  have values : unboundValue conn ++ comma :: (attrVal 'r'.toUInt8 nonce ++ comma ::
      attrVal 'p'.toUInt8 (encodeText proof)) =
        encodeText (cbindInputHeader ++ hash) ++ comma :: rest := by
    simpa [clientFinal, clientFinalWithoutProof, attrVal] using finals
  have short : comma ∉ unboundValue conn ∧ (unboundValue conn).length = 4 := by
    unfold unboundValue
    split_ifs <;> decide +kernel
  have valueIs := congrArg (takeUntil comma) values
  rw [take_until_stop comma _ _ short.1, take_until_stop comma _ _ (encode_text_clean _)] at valueIs
  have lengths := congrArg length valueIs
  have header : cbindInputHeader.length = 24 := by decide +kernel
  rw [encode_text_length, pgB64EncLen, length_append] at lengths
  omega

/-- A client that takes its channel for bound has sent the hash of the peer's certificate,
for every mechanism but SCRAM-SHA-384-PLUS. -/
theorem channel_bound_iff (crypto : Crypto) (conn : PgConn) (password saslMechanism : Bytes) :
    (∀ calls, scramChannelBound (clientRun crypto conn password saslMechanism calls).state = true →
      FinalBound conn (clientRun crypto conn password saslMechanism calls).sent) ↔
        saslMechanism ≠ scramSha384PlusName := by
  constructor
  · intro sound isSha384Plus
    have other : saslMechanism ≠ scramSha256PlusName := by
      rw [isSha384Plus]
      decide +kernel
    obtain ⟨finished, first, proof, sent⟩ := ending_calls_finish crypto conn password
      saslMechanism other
    have bound := sound (endingCalls crypto conn password saslMechanism)
    rw [scramChannelBound, finished, client_run_mechanism, isSha384Plus] at bound
    have sentBound := bound (by simp)
    rw [← isSha384Plus, sent] at sentBound
    exact unbound_not_bound sentBound
  · intro notSha384Plus calls bound
    simp only [scramChannelBound, client_run_mechanism, Bool.and_eq_true, Bool.or_eq_true,
      decide_eq_true_eq] at bound
    rcases bound with ⟨finished, isSha256Plus | isSha384Plus⟩
    · rw [isSha256Plus] at finished ⊢
      exact sha256_plus_bound crypto conn password calls finished
    · exact absurd isSha384Plus notSha384Plus

def sampleConn : PgConn :=
  { sslInUse := true
    channelBinding := .require
    hostPassword := some (ascii "secret")
    pgpass := none
    peerCertificateHash := .ok (List.replicate 32 171) }

/-- Its SCRAM-SHA-384-PLUS client takes the channel for bound without having sent the hash. -/
theorem sha384_plus_unbound :
    ∃ calls,
      scramChannelBound (clientRun sampleCrypto sampleConn (ascii "secret") scramSha384PlusName
        calls).state = true ∧
      ¬FinalBound sampleConn (clientRun sampleCrypto sampleConn (ascii "secret")
        scramSha384PlusName calls).sent := by
  obtain ⟨finished, first, proof, sent⟩ := ending_calls_finish sampleCrypto sampleConn
    (ascii "secret") scramSha384PlusName (by decide +kernel)
  refine ⟨endingCalls sampleCrypto sampleConn (ascii "secret") scramSha384PlusName, ?_, ?_⟩
  · rw [scramChannelBound, finished, client_run_mechanism]
    simp
  · rw [sent]
    exact unbound_not_bound

end FortressQL.Scram.ChannelBinding
