import FortressQL.Scram.Answers
import FortressQL.Scram.ClientAnswers

/-!
# The exchange between an honest client and an honest server

Both ends run against each other. Which sessions end in authentication is decided by the mechanism
and by the hash of the stored secret.
-/

namespace FortressQL.Scram.HonestExchange

open List Common.Base64 Elog Lib.ByteStrings Scram.Keys Scram.Messages Scram.Secret Scram.Server
open Scram.Acceptance Scram.Answers Scram.Client Scram.ClientAnswers

variable {salt plus plain : Bytes} {conn : PgConn} {port : Port} {crypto : Crypto}
  {server : ScramState} {client : FeScramState}

inductive SessionEnd where
  | clientRefused (conn : PgConn)
  | serverRaised (report : ErrorReport)
  | serverRejected
  | clientFailed (client : FeScramState)
  /-- The server has returned `PG_SASL_EXCHANGE_SUCCESS` and the client has verified its
  signature. -/
  | authenticated (server : ScramState) (client : FeScramState)
  | unfinished

/-- The two loops, from a message of the client on; `random` is the server's. -/
def converse (crypto : Crypto) (random : Option Bytes) :
    Nat → ScramState → FeScramState → Bytes → SessionEnd
  | 0, _, _, _ => .unfinished
  | fuel + 1, server, client, message =>
    match scramExchange crypto server random (some message) with
    | .error report => .serverRaised report
    | .ok reply =>
      let final := decide (reply.result = .exchangeSuccess)
      if reply.result = .exchangeFailure then .serverRejected
      else
        match pgSaslContinue crypto client none (reply.output.getD []) final with
        | .error failed => .clientFailed failed
        | .ok (next, response) =>
          if final then .authenticated reply.state next
          else
            match response with
            | none => .unfinished
            | some answer => converse crypto random fuel reply.state next answer

/-- A whole session: `CheckSASLAuth` against `pg_SASL_init` and `pg_SASL_continue`. -/
def session (crypto : Crypto) (mockAuthNonce : Bytes) (port : Port) (conn : PgConn)
    (shadowPass clientRandom serverRandom : Option Bytes) (fuel : Nat) : SessionEnd :=
  match pgSaslInit crypto conn clientRandom (scramGetMechanisms port) with
  | .error refused => .clientRefused refused
  | .ok start =>
    match scramInit crypto mockAuthNonce port start.selectedMechanism shadowPass with
    | .error report => .serverRaised report
    | .ok server =>
      match start.initialResponse with
      | none => .unfinished
      | some message => converse crypto serverRandom fuel server start.state message

/-- What `password_encryption` and `scram_iterations` make of a password. -/
inductive SecretFormat where
  | sha256 (iterations : Nat)
  | sha384
  deriving DecidableEq, Repr

def SecretFormat.parameters : SecretFormat → HashParameters
  | .sha256 _ => sha256Parameters
  | .sha384 => sha384Parameters

def SecretFormat.iterations : SecretFormat → Nat
  | .sha256 iterations => iterations
  | .sha384 => 4096

def SecretFormat.InRange (format : SecretFormat) : Prop :=
  0 < format.iterations ∧ format.iterations < 2147483648

def buildShadow (crypto : Crypto) (salt password : Bytes) : SecretFormat → Bytes
  | .sha256 iterations => pgBeScramBuildSecret crypto iterations salt password
  | .sha384 => pgBeScramBuildSecretSha384 crypto salt password

theorem stored_secret_shadow (crypto : Crypto) (password : Bytes) (format : SecretFormat)
    (salted : salt ≠ []) (inRange : format.InRange) :
    storedSecret (some (buildShadow crypto salt password format)) =
      some (builtSecret crypto format.parameters salt format.iterations
        (crypto.prepared password)) := by
  cases format with
  | sha256 iterations =>
    exact stored_secret_build crypto sha256Parameters salt (crypto.prepared password) iterations
      (.inl rfl) salted inRange.2
  | sha384 =>
    exact stored_secret_build crypto sha384Parameters salt (crypto.prepared password) 4096
      (.inr rfl) salted inRange.2

/-- The mechanism that an honest client selects from an honest server's offer. -/
def agreedMechanism (port : Port) (conn : PgConn) : Bytes :=
  if port.authMethod = .uaPQCSCRAM then
    if supportsBinding conn then scramSha384PlusName else scramSha384Name
  else
    if supportsBinding conn then scramSha256PlusName else scramSha256Name

def NamePair (plus plain : Bytes) : Prop :=
  (plus = scramSha384PlusName ∧ plain = scramSha384Name) ∨
    (plus = scramSha256PlusName ∧ plain = scramSha256Name)

theorem consider_plus (pair : NamePair plus plain) (ssl : conn.sslInUse = true) :
    considerMechanism conn none plus = .ok (if supportsBinding conn then some plus else none) := by
  have names := mechanism_names_distinct
  rcases pair with ⟨rfl, rfl⟩ | ⟨rfl, rfl⟩
  · rw [considerMechanism, supportsBinding, ssl]
    by_cases disabled : conn.channelBinding = .disable <;> simp [disabled]
  · rw [considerMechanism, if_neg names.2.1.2, supportsBinding, ssl]
    by_cases disabled : conn.channelBinding = .disable <;> simp [disabled]

theorem consider_plain (conn : PgConn) (selected : Option Bytes) (pair : NamePair plus plain) :
    considerMechanism conn selected plain = .ok (some (selected.getD plain)) := by
  have names := mechanism_names_distinct
  rcases pair with ⟨rfl, rfl⟩ | ⟨rfl, rfl⟩
  · rw [considerMechanism, if_neg names.2.2, if_neg (Ne.symm names.2.1.1)]
    cases selected with
    | none => exact if_pos ⟨rfl, rfl⟩
    | some chosen =>
      rfl
  · rw [considerMechanism, if_neg names.1.2.2, if_neg names.1.1,
      if_neg (fun both => names.1.2.1 both.1)]
    cases selected with
    | none => exact if_pos ⟨rfl, rfl⟩
    | some chosen =>
      rfl

theorem offer_pair (port : Port) (conn : PgConn) :
    ∃ plus plain, NamePair plus plain ∧
      scramGetMechanisms port = (if port.sslInUse then [plus] else []) ++ [plain] ∧
      agreedMechanism port conn = if supportsBinding conn then plus else plain := by
  by_cases pqc : port.authMethod = .uaPQCSCRAM
  · exact ⟨scramSha384PlusName, scramSha384Name, .inl ⟨rfl, rfl⟩, if_pos pqc, if_pos pqc⟩
  · exact ⟨scramSha256PlusName, scramSha256Name, .inr ⟨rfl, rfl⟩, if_neg pqc, if_neg pqc⟩

theorem offer_folds (sameTls : port.sslInUse = conn.sslInUse) :
    (scramGetMechanisms port).foldlM (considerMechanism conn) none =
      .ok (some (agreedMechanism port conn)) := by
  obtain ⟨plus, plain, pair, offer, agreed⟩ := offer_pair port conn
  rw [offer, agreed, sameTls]
  cases ssl : conn.sslInUse with
  | true =>
    have first := consider_plus pair ssl
    have second := consider_plain conn (if supportsBinding conn then some plus else none) pair
    rw [if_pos rfl, singleton_append, foldlM_cons, first, ok_then, foldlM_cons, second]
    by_cases supported : supportsBinding conn = true
    · rw [if_pos supported, if_pos supported]
      rfl
    · rw [if_neg supported, if_neg supported]
      rfl
  | false =>
    have unsupported : ¬supportsBinding conn = true := by
      simp [supportsBinding, ssl]
    rw [if_neg Bool.false_ne_true, nil_append, foldlM_cons, consider_plain conn none pair,
      if_neg unsupported]
    rfl

theorem select_mechanism_agreed {mechanism : Bytes} (sameTls : port.sslInUse = conn.sslInUse)
    (selected : selectMechanism conn (scramGetMechanisms port) = .ok mechanism) :
    mechanism = agreedMechanism port conn := by
  rw [selectMechanism, offer_folds sameTls, ok_then] at selected
  simp only at selected
  split_ifs at selected
  exact (Except.ok.inj selected).symm

def startClient (crypto : Crypto) (port : Port) (conn : PgConn) : FeScramState :=
  feScramInit crypto { conn with saslState := true } conn.suppliedPassword
    (agreedMechanism port conn)

theorem sasl_init_start {clientRandom : Bytes} {start : SaslStart}
    (sameTls : port.sslInUse = conn.sslInUse)
    (init : pgSaslInit crypto conn (some clientRandom) (scramGetMechanisms port) = .ok start) :
    start.selectedMechanism = agreedMechanism port conn ∧
      start.state = nonceSent (startClient crypto port conn) clientRandom ∧
      start.initialResponse = some (cbindFlagText (startClient crypto port conn) ++ comma ::
        comma :: clientFirstBare (encodeText clientRandom)) := by
  cases selected : selectMechanism conn (scramGetMechanisms port) with
  | error text =>
    simp only [pgSaslInit, selected] at init
    split_ifs at init
  | ok mechanism =>
    have agreed := select_mechanism_agreed sameTls selected
    subst agreed
    have first := fe_first_reply crypto (startClient crypto port conn) clientRandom [] rfl
    simp only [pgSaslInit, selected] at init
    split_ifs at init with required duplicate empty failed
    rw [← Except.ok.inj init]
    exact ⟨rfl, rfl, rfl⟩

section Converse

variable {random : Option Bytes} {message : Bytes} {reply : ExchangeReply}

theorem converse_raised (fuel : Nat) {report : ErrorReport}
    (raised : scramExchange crypto server random (some message) = .error report) :
    converse crypto random (fuel + 1) server client message = .serverRaised report := by
  rw [converse, raised]

section

variable {next : FeScramState} {challenge : Bytes} (fuel : Nat)
  (exchanged : scramExchange crypto server random (some message) = .ok reply)

include fuel exchanged

theorem converse_continue {answer : Bytes} (continues : reply.result = .exchangeContinue)
    (sent : reply.output = some challenge)
    (answered : feScramExchange crypto client none challenge =
      { status := .saslContinue, state := next, output := some answer }) :
    converse crypto random (fuel + 1) server client message =
      converse crypto random fuel reply.state next answer := by
  have continued : pgSaslContinue crypto client none challenge false = .ok (next, some answer) := by
    simp [pgSaslContinue, answered]
  simp [converse, exchanged, continues, sent, continued]

theorem converse_success (succeeds : reply.result = .exchangeSuccess)
    (sent : reply.output = some challenge)
    (answered : feScramExchange crypto client none challenge =
      { status := .saslComplete, state := next }) :
    converse crypto random (fuel + 1) server client message =
      .authenticated reply.state next := by
  have continued : pgSaslContinue crypto client none challenge true = .ok (next, none) := by
    simp [pgSaslContinue, answered]
  simp [converse, exchanged, succeeds, sent, continued]

end

end Converse

/-- Both ends start with the same secret and the same view of the channel. -/
structure HonestRun (crypto : Crypto) where
  server : ScramState
  client : FeScramState
  parameters : HashParameters
  salt : Bytes
  iterations : Nat
  flag : UInt8
  data : Bytes
  clientRandom : Bytes
  serverRandom : Bytes
  serverInit : server.state = .init
  notDoomed : server.doomed = false
  secret : server.toScramSecret = builtSecret crypto parameters salt iterations client.password
  iterationsPositive : 0 < iterations
  iterationsSmall : iterations < 2147483648
  flagAllowed : FlagAllowed server flag
  flagText : cbindFlagText client ++ [comma, comma] = gs2Header flag
  bindingData : BindingData server.port flag data
  bindingValue : channelBindingValue client = .ok (encodeText (gs2Header flag ++ data))

namespace HonestRun

variable (run : HonestRun crypto)

def nonce : Bytes := encodeText run.clientRandom ++ encodeText run.serverRandom

theorem nonce_plain : PlainValue run.nonce :=
  plain_value_append (plain_value_encode_text _) (plain_value_encode_text _)

def binding : Bytes := encodeText (gs2Header run.flag ++ run.data)

def challenge : Bytes := serverFirst run.nonce (encodeText run.salt) run.iterations

def waitingClient : FeScramState := nonceSent run.client run.clientRandom

def proof : Bytes :=
  finalProof crypto run.waitingClient run.binding run.nonce run.salt run.iterations

def finalMessage : Bytes := clientFinal run.binding run.nonce run.proof

def provingClient : FeScramState :=
  proofSent crypto run.waitingClient run.binding run.nonce run.salt run.iterations

def saltedServer : ScramState :=
  salted run.server run.flag (clientFirstBare (encodeText run.clientRandom)) []
    (encodeText run.clientRandom) run.serverRandom

theorem challenge_text :
    serverFirstText run.server.toScramSecret (encodeText run.clientRandom)
      (encodeText run.serverRandom) = run.challenge := by
  rw [run.secret]
  rfl

variable (fuel : Nat)

theorem first_round :
    converse crypto (some run.serverRandom) (fuel + 1) run.server run.waitingClient
        (cbindFlagText run.client ++ comma :: comma ::
          clientFirstBare (encodeText run.clientRandom)) =
      converse crypto (some run.serverRandom) fuel run.saltedServer run.provingClient
        run.finalMessage := by
  have firstText : cbindFlagText run.client ++ comma :: comma ::
      clientFirstBare (encodeText run.clientRandom) =
        gs2Header run.flag ++ clientFirstBare (encodeText run.clientRandom) := by
    rw [← run.flagText, append_assoc]
    rfl
  have exchanged := exchange_first_complete crypto run.serverRandom run.serverInit
    run.flagAllowed (encode_text_printable run.clientRandom)
  have answered := fe_second_reply crypto run.waitingClient none (encodeText run.serverRandom)
    run.salt rfl run.nonce_plain run.iterationsPositive run.iterationsSmall run.bindingValue
  rw [firstText]
  exact converse_continue fuel exchanged rfl (congrArg some run.challenge_text) answered

theorem salted_binding : checkChannelBinding run.saltedServer run.binding = .ok () :=
  check_channel_binding_complete run.flagAllowed run.bindingData

theorem proof_length : run.proof.length = run.client.hashType.digestLength := by
  have keyLength := crypto.hmacLength run.client.hashType
  rw [proof, finalProof, calculateClientProof, xor_bytes_length]
  · exact keyLength _ _
  · exact (keyLength _ _).trans (keyLength _ _).symm

theorem salted_key_length : run.saltedServer.keyLength = run.parameters.keyLength :=
  congrArg (fun secret => secret.keyLength) run.secret

theorem second_round_other_hash
    (other : run.client.hashType.digestLength ≠ run.parameters.keyLength) :
    converse crypto (some run.serverRandom) (fuel + 1) run.saltedServer run.provingClient
        run.finalMessage =
      .serverRaised (malformed "Malformed proof in client-final-message.") := by
  apply converse_raised
  apply exchange_final_wrong_length crypto _ rfl run.salted_binding (plain_value_encode_text _)
    run.nonce_plain
  rw [proof_length, salted_key_length]
  exact other

def clientSalted : Bytes :=
  scramSaltedPassword crypto run.client.hashType run.client.password run.salt run.iterations

def signedMessage : Bytes :=
  authMessage (clientFirstBare (encodeText run.clientRandom)) run.challenge
    (clientFinalWithoutProof run.binding run.nonce)

def judgingServer : ScramState :=
  withFinal run.saltedServer run.nonce run.proof (clientFinalWithoutProof run.binding run.nonce)

theorem server_signs : run.judgingServer.authMessage = run.signedMessage := by
  rw [signedMessage, ← challenge_text]
  rfl

section

variable (sameHash : run.client.toHashParameters = run.parameters)

include sameHash

theorem same_secret : run.server.toScramSecret =
    builtSecret crypto run.client.toHashParameters run.salt run.iterations run.client.password :=
  sameHash ▸ run.secret

theorem same_hash_type : run.server.hashType = run.client.hashType :=
  congrArg (fun secret => secret.hashType) (run.same_secret sameHash)

theorem proof_verifies : verifyClientProof crypto run.judgingServer = true := by
  have hashIs := run.same_hash_type sameHash
  have storedIs := congrArg ScramSecret.storedKey (run.same_secret sameHash)
  apply verify_client_proof_complete crypto
    (scramClientKey crypto run.client.hashType run.clientSalted)
  · change _ = run.server.hashType.digestLength
    rw [hashIs]
    exact crypto.hmacLength _ _ _
  · change run.server.storedKey = scramH crypto run.server.hashType _
    rw [hashIs]
    exact storedIs
  · rw [server_signs]
    change _ = xorBytes _ (crypto.hmac run.server.hashType run.server.storedKey _)
    rw [hashIs, storedIs]
    rfl

theorem second_round_same_hash :
    ∃ serverEnd clientEnd, converse crypto (some run.serverRandom) (fuel + 1) run.saltedServer
        run.provingClient run.finalMessage = .authenticated serverEnd clientEnd := by
  have sized : run.proof.length = run.saltedServer.keyLength := by
    rw [proof_length, salted_key_length, ← sameHash]
    exact run.client.keyLengthMatches.symm
  have exchanged : scramExchange crypto run.saltedServer (some run.serverRandom)
      (some run.finalMessage) = .ok (finalReply crypto run.judgingServer) :=
    exchange_final_complete crypto (some run.serverRandom) rfl run.salted_binding
      (plain_value_encode_text _) run.nonce_plain sized
  have verdict := final_reply_success (run.proof_verifies sameHash) run.notDoomed
  let signature := crypto.hmac run.client.hashType
    (scramServerKey crypto run.client.hashType run.clientSalted) run.signedMessage
  -- The server signs with the key of the secret, which is the one the client derives.
  have challenge : buildServerFinalMessage crypto run.judgingServer =
      attrVal 'v'.toUInt8 (encodeText signature) := by
    have keyIs : run.server.serverKey = scramServerKey crypto run.client.hashType
        run.clientSalted := congrArg ScramSecret.serverKey (run.same_secret sameHash)
    rw [buildServerFinalMessage, server_signs]
    change attrVal _ (encodeText (crypto.hmac run.server.hashType run.server.serverKey _)) = _
    rw [run.same_hash_type sameHash, keyIs]
  have answered := fe_third_reply crypto run.provingClient none signature rfl
    ((crypto.hmacLength _ _ _).trans run.client.keyLengthMatches.symm)
  rw [fe_verify_complete (decide_eq_true rfl), ← challenge] at answered
  rw [verdict] at exchanged
  exact ⟨_, _, converse_success fuel exchanged rfl rfl answered⟩

end

end HonestRun

theorem select_mech_agreed (sameTls : port.sslInUse = conn.sslInUse) :
    ∃ hashType, selectMech port (agreedMechanism port conn) =
      .ok ⟨supportsBinding conn, hashType⟩ := by
  have secure (supported : supportsBinding conn = true) : port.sslInUse = true := by
    simp only [supportsBinding, Bool.and_eq_true] at supported
    rw [sameTls]
    exact supported.2
  by_cases pqc : port.authMethod = .uaPQCSCRAM
  · cases supported : supportsBinding conn with
    | true =>
      rw [agreedMechanism, if_pos pqc, supported]
      exact ⟨_, select_mech_sha384_plus (secure supported)⟩
    | false =>
      rw [agreedMechanism, if_pos pqc, supported]
      exact ⟨_, select_mech_sha384 port⟩
  · cases supported : supportsBinding conn with
    | true =>
      rw [agreedMechanism, if_neg pqc, supported]
      exact ⟨_, select_mech_sha256_plus pqc (secure supported)⟩
    | false =>
      rw [agreedMechanism, if_neg pqc, supported]
      exact ⟨_, select_mech_sha256 pqc⟩

def SameCertificate (port : Port) (conn : PgConn) : Prop :=
  conn.sslInUse = true → ∃ hash, hash ≠ [] ∧ port.certificateHash = some hash ∧
    conn.peerCertificateHash = .ok hash

theorem channel_views_agree (crypto : Crypto) (sameCertificate : SameCertificate port conn)
    (notSha384Plus : agreedMechanism port conn ≠ scramSha384PlusName) (server : ScramState)
    (samePort : server.port = port) (inUse : server.channelBindingInUse = supportsBinding conn) :
    ∃ flag data, FlagAllowed server flag ∧
      cbindFlagText (startClient crypto port conn) ++ [comma, comma] = gs2Header flag ∧
      BindingData server.port flag data ∧
      channelBindingValue (startClient crypto port conn) =
        .ok (encodeText (gs2Header flag ++ data)) := by
  cases supported : supportsBinding conn with
  | true =>
    have isSha256Plus : agreedMechanism port conn = scramSha256PlusName := by
      unfold agreedMechanism at notSha384Plus ⊢
      -- Under `uaPQCSCRAM` the server offers the SHA-384 names only.
      by_cases pqc : port.authMethod = .uaPQCSCRAM
      · rw [if_pos pqc, if_pos supported] at notSha384Plus
        exact absurd rfl notSha384Plus
      · rw [if_neg pqc, if_pos supported]
    obtain ⟨hash, nonempty, serverHash, clientHash⟩ := sameCertificate (by
      simp only [supportsBinding, Bool.and_eq_true] at supported
      exact supported.2)
    have mechanism : (startClient crypto port conn).saslMechanism = scramSha256PlusName :=
      isSha256Plus
    refine ⟨'p'.toUInt8, hash, .inr (.inr ⟨rfl, inUse.trans supported⟩), ?_, ?_, ?_⟩
    · rw [cbindFlagText, if_pos mechanism]
      decide +kernel
    · rw [samePort]
      exact ⟨serverHash, nonempty⟩
    · have peer : (startClient crypto port conn).conn.peerCertificateHash = .ok hash := clientHash
      rw [channelBindingValue, if_pos mechanism, peer]
      rfl
  | false =>
    have unsupported : supportsBinding (startClient crypto port conn).conn = false := supported
    have mechanism : (startClient crypto port conn).saslMechanism ≠ scramSha256PlusName := by
      change agreedMechanism port conn ≠ scramSha256PlusName
      unfold agreedMechanism
      rw [supported]
      by_cases pqc : port.authMethod = .uaPQCSCRAM
      · rw [if_pos pqc]
        decide +kernel
      · rw [if_neg pqc]
        decide +kernel
    refine ⟨'n'.toUInt8, [], .inl ⟨rfl, inUse.trans supported⟩, ?_,
      binding_data_absent (by decide), ?_⟩
    · rw [cbindFlagText, if_neg mechanism, unsupported]
      decide +kernel
    · rw [channelBindingValue, if_neg mechanism, unsupported]
      exact congrArg Except.ok (by decide +kernel)

def startServer (crypto : Crypto) (port : Port) (conn : PgConn) (salt : Bytes)
    (format : SecretFormat) (hashType : PgCryptohashType) : ScramState :=
  startState port ⟨supportsBinding conn, hashType⟩
    (builtSecret crypto format.parameters salt format.iterations
      (crypto.prepared conn.suppliedPassword)) false
    (secretLogdetail port (some (buildShadow crypto salt conn.suppliedPassword format)))

section Session

variable {crypto : Crypto} {mockAuthNonce salt clientRandom : Bytes} {port : Port} {conn : PgConn}
  {format : SecretFormat} {start : SaslStart} (serverRandom : Bytes) (fuel : Nat)

section

variable (sameTls : port.sslInUse = conn.sslInUse) (salted : salt ≠ []) (inRange : format.InRange)
  (init : pgSaslInit crypto conn (some clientRandom) (scramGetMechanisms port) = .ok start)

include sameTls salted inRange init

theorem session_converses :
    ∃ hashType, session crypto mockAuthNonce port conn
        (some (buildShadow crypto salt conn.suppliedPassword format)) (some clientRandom)
        (some serverRandom) fuel = converse crypto (some serverRandom) fuel
        (startServer crypto port conn salt format hashType)
        (nonceSent (startClient crypto port conn) clientRandom)
        (cbindFlagText (startClient crypto port conn) ++ comma :: comma ::
          clientFirstBare (encodeText clientRandom)) := by
  obtain ⟨mechanism, state, response⟩ := sasl_init_start sameTls init
  obtain ⟨hashType, selected⟩ := select_mech_agreed sameTls
  have stored := stored_secret_shadow crypto conn.suppliedPassword format salted inRange
  refine ⟨hashType, ?_⟩
  simp only [session, init, mechanism, scram_init_stored crypto mockAuthNonce selected stored,
    response, state]
  rfl

theorem sha384_plus_refused (sha384Plus : agreedMechanism port conn = scramSha384PlusName) :
    session crypto mockAuthNonce port conn
        (some (buildShadow crypto salt conn.suppliedPassword format)) (some clientRandom)
        (some serverRandom) (fuel + 1) = .serverRaised bindingNotIncluded := by
  obtain ⟨hashType, converses⟩ := session_converses serverRandom (fuel + 1) sameTls salted inRange
    init
  have supported : supportsBinding conn = true := by
    by_contra unsupported
    unfold agreedMechanism at sha384Plus
    split_ifs at sha384Plus <;> exact absurd sha384Plus (by decide +kernel)
  have flagText : cbindFlagText (startClient crypto port conn) = ascii "y" := by
    have mechanism : (startClient crypto port conn).saslMechanism ≠ scramSha256PlusName := by
      change agreedMechanism port conn ≠ _
      rw [sha384Plus]
      decide +kernel
    rw [cbindFlagText, if_neg mechanism]
    exact if_pos supported
  rw [converses, flagText]
  apply converse_raised
  exact exchange_first_unbound crypto (some serverRandom) _ rfl supported
    (plain_value_encode_text _)

end

/-- The two ends of a session that does not select SCRAM-SHA-384-PLUS. -/
theorem session_run (sameCertificate : SameCertificate port conn)
    (inRange : format.InRange) (hashType : PgCryptohashType)
    (notSha384Plus : agreedMechanism port conn ≠ scramSha384PlusName) :
    ∃ run : HonestRun crypto, run.server = startServer crypto port conn salt format hashType ∧
      run.client = startClient crypto port conn ∧ run.parameters = format.parameters ∧
      run.clientRandom = clientRandom ∧ run.serverRandom = serverRandom := by
  obtain ⟨flag, data, allowed, text, bindingData, bindingValue⟩ :=
    channel_views_agree crypto sameCertificate notSha384Plus
      (startServer crypto port conn salt format hashType) rfl rfl
  exact ⟨⟨_, _, _, _, _, flag, data, _, _, rfl, rfl, rfl, inRange.1, inRange.2, allowed, text,
    bindingData, bindingValue⟩, rfl, rfl, rfl, rfl, rfl⟩

theorem other_hash_other_length
    (other : mechanismParameters (agreedMechanism port conn) ≠ format.parameters) :
    (startClient crypto port conn).hashType.digestLength ≠ format.parameters.keyLength := by
  change (mechanismParameters (agreedMechanism port conn)).hashType.digestLength ≠ _
  unfold mechanismParameters at other ⊢
  have lengths : scramSha384KeyLen ≠ scramSha256KeyLen := by decide
  split_ifs at other ⊢
  · cases format with
    | sha256 iterations => exact lengths
    | sha384 => exact absurd rfl other
  · cases format with
    | sha256 iterations => exact absurd rfl other
    | sha384 => exact lengths.symm

/-- An honest session succeeds exactly if the selected mechanism is not SCRAM-SHA-384-PLUS
and is for the hash of the stored secret. -/
theorem honest_session_iff (sameTls : port.sslInUse = conn.sslInUse)
    (sameCertificate : SameCertificate port conn) (salted : salt.length = scramDefaultSaltLen)
    (inRange : format.InRange)
    (init : pgSaslInit crypto conn (some clientRandom) (scramGetMechanisms port) = .ok start) :
    (∃ server client, session crypto mockAuthNonce port conn
        (some (buildShadow crypto salt conn.suppliedPassword format)) (some clientRandom)
        (some serverRandom) (fuel + 2) = .authenticated server client) ↔
      start.selectedMechanism ≠ scramSha384PlusName ∧
        mechanismParameters start.selectedMechanism = format.parameters := by
  have saltNonempty : salt ≠ [] := by
    intro empty
    rw [empty] at salted
    cases salted
  rw [(sasl_init_start sameTls init).1]
  by_cases sha384Plus : agreedMechanism port conn = scramSha384PlusName
  · rw [sha384_plus_refused serverRandom (fuel + 1) sameTls saltNonempty inRange init sha384Plus]
    constructor
    · intro authenticated
      obtain ⟨server, client, same⟩ := authenticated
      cases same
    · intro both
      exact absurd sha384Plus both.1
  · obtain ⟨hashType, converses⟩ := session_converses serverRandom (fuel + 2) sameTls saltNonempty
      inRange init
    rw [converses]
    obtain ⟨run, serverIs, clientIs, parametersAre, rfl, rfl⟩ :=
      @session_run crypto salt clientRandom port conn format serverRandom sameCertificate inRange
        hashType sha384Plus
    rw [← serverIs, ← clientIs]
    change (∃ server client, converse _ _ (fuel + 1 + 1) _ run.waitingClient _ = _) ↔ _
    rw [run.first_round]
    by_cases sameHash : mechanismParameters (agreedMechanism port conn) = format.parameters
    · have accepted := run.second_round_same_hash fuel
        (by rw [clientIs, parametersAre]; exact sameHash)
      exact ⟨fun _ => ⟨sha384Plus, sameHash⟩, fun _ => accepted⟩
    · rw [run.second_round_other_hash fuel
        (by rw [clientIs, parametersAre]; exact other_hash_other_length sameHash)]
      constructor
      · intro authenticated
        obtain ⟨server, client, same⟩ := authenticated
        cases same
      · intro both
        exact absurd both.2 sameHash

end Session

theorem sasl_init_agreed (crypto : Crypto) (clientRandom : Bytes)
    (sameTls : port.sslInUse = conn.sslInUse) (fresh : conn.saslState = false)
    (supplied : conn.suppliedPassword ≠ []) (notRequired : conn.channelBinding ≠ .require) :
    ∃ start, pgSaslInit crypto conn (some clientRandom) (scramGetMechanisms port) = .ok start := by
  have selected : selectMechanism conn (scramGetMechanisms port) =
      .ok (agreedMechanism port conn) := by
    rw [selectMechanism, offer_folds sameTls]
    exact if_neg fun both => notRequired both.1
  have first := fe_first_reply crypto (startClient crypto port conn) clientRandom [] rfl
  refine ⟨⟨agreedMechanism port conn, nonceSent (startClient crypto port conn) clientRandom,
    some (cbindFlagText (startClient crypto port conn) ++ comma :: comma ::
      clientFirstBare (encodeText clientRandom))⟩, ?_⟩
  rw [pgSaslInit, if_neg fun both => notRequired both.1, fresh, selected]
  simp only [if_neg supplied]
  rfl

def sampleTlsPort (authMethod : UserAuth) : Port :=
  { authMethod := authMethod
    sslInUse := true
    userName := ascii "alice"
    certificateHash := some (List.replicate 32 171) }

def sampleTlsConn : PgConn :=
  { sslInUse := true
    channelBinding := .prefer
    hostPassword := some (ascii "secret")
    pgpass := none
    peerCertificateHash := .ok (List.replicate 32 171) }

variable (authMethod : UserAuth)

theorem sample_tls_init :
    ∃ start, pgSaslInit sampleCrypto sampleTlsConn (some [])
      (scramGetMechanisms (sampleTlsPort authMethod)) = .ok start :=
  sasl_init_agreed sampleCrypto [] rfl rfl (by decide +kernel) (by decide)

theorem sample_tls_certificate : SameCertificate (sampleTlsPort authMethod) sampleTlsConn :=
  fun _ => ⟨replicate 32 171, by decide, rfl, rfl⟩

/-- Over TLS an honest client with a SHA-384 secret is refused under `uaPQCSCRAM`. -/
theorem honest_sha384_plus_refused :
    ∃ start, pgSaslInit sampleCrypto sampleTlsConn (some [])
        (scramGetMechanisms (sampleTlsPort .uaPQCSCRAM)) = .ok start ∧
      session sampleCrypto [] (sampleTlsPort .uaPQCSCRAM) sampleTlsConn
        (some (buildShadow sampleCrypto (List.replicate 16 7) sampleTlsConn.suppliedPassword
          .sha384)) (some []) (some []) 2 = .serverRaised bindingNotIncluded := by
  obtain ⟨start, init⟩ := sample_tls_init .uaPQCSCRAM
  exact ⟨start, init, sha384_plus_refused [] 1 rfl (by decide) ⟨by decide, by decide⟩ init rfl⟩

/-- Over TLS an honest client with a SHA-256 secret is accepted under `uaSCRAM`. -/
theorem honest_sha256_plus_accepted :
    ∃ start, pgSaslInit sampleCrypto sampleTlsConn (some [])
        (scramGetMechanisms (sampleTlsPort .uaSCRAM)) = .ok start ∧
      start.selectedMechanism = scramSha256PlusName ∧
      ∃ server client, session sampleCrypto [] (sampleTlsPort .uaSCRAM) sampleTlsConn
        (some (buildShadow sampleCrypto (List.replicate 16 7) sampleTlsConn.suppliedPassword
          (.sha256 4096))) (some []) (some []) 2 = .authenticated server client := by
  obtain ⟨start, init⟩ := sample_tls_init .uaSCRAM
  have mechanism : start.selectedMechanism = scramSha256PlusName := (sasl_init_start rfl init).1
  refine ⟨start, init, mechanism, ?_⟩
  apply (honest_session_iff [] 0 rfl (sample_tls_certificate .uaSCRAM) rfl
    ⟨by decide, by decide⟩ init).mpr
  rw [mechanism]
  exact ⟨by decide +kernel, if_neg (by decide +kernel)⟩

end FortressQL.Scram.HonestExchange
