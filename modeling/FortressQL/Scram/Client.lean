import FortressQL.Scram.Messages
import FortressQL.Scram.Secret

/-!
# The client side of a SCRAM exchange

`fe-auth-scram.c`, and `pg_SASL_init` and `pg_SASL_continue` of `fe-auth.c`. A failing function
leaves the state as far as it got, so failures carry the state.
-/

namespace FortressQL.Scram.Client

open Common.Base64 Lib.ByteStrings Lib.Decimal Scram.Keys Scram.Messages Scram.Secret

inductive ChannelBinding where
  | disable
  | prefer
  | require
  deriving DecidableEq, Repr

structure PgConn where
  sslInUse : Bool
  channelBinding : ChannelBinding
  hostPassword : Option Bytes
  pgpass : Option Bytes
  /-- What `pgtls_get_peer_certificate_hash` yields, or the text it reports. -/
  peerCertificateHash : Except String Bytes
  /-- Whether a SASL exchange has been started on the connection. -/
  saslState : Bool := false
  errorMessage : String := ""
  clientFinishedAuth : Bool := false

def PgConn.appendError (conn : PgConn) (text : String) : PgConn :=
  { conn with errorMessage := conn.errorMessage ++ text ++ "\n" }

inductive FeScramStateEnum where
  | init
  | nonceSent
  | proofSent
  | finished
  deriving DecidableEq, Repr

structure FeScramState extends HashParameters where
  state : FeScramStateEnum
  conn : PgConn
  password : Bytes
  saslMechanism : Bytes
  -- We construct these
  saltedPassword : Bytes := []
  clientNonce : Bytes := []
  clientFirstMessageBare : Bytes := []
  clientFinalMessageWithoutProof : Bytes := []
  -- These come from the server-first message
  serverFirstMessage : Bytes := []
  salt : Bytes := []
  iterations : Int := 0
  nonce : Bytes := []
  -- These come from the server-final message
  serverFinalMessage : Bytes := []
  serverSignature : Bytes := []

def FeScramState.appendError (state : FeScramState) (text : String) : FeScramState :=
  { state with conn := state.conn.appendError text }

abbrev FeResult := Except FeScramState

def feScramInit (crypto : Crypto) (conn : PgConn) (password saslMechanism : Bytes) :
    FeScramState :=
  { toHashParameters := mechanismParameters saslMechanism
    state := .init
    conn := conn
    password := crypto.prepared password
    saslMechanism := saslMechanism }

def scramChannelBound (state : FeScramState) : Bool :=
  decide (state.state = .finished) &&
    (decide (state.saslMechanism = scramSha256PlusName) ||
      decide (state.saslMechanism = scramSha384PlusName))

def readAttrValue (attr : UInt8) (input : Bytes) : Except String (Bytes × Bytes) :=
  readAttr
    ("malformed SCRAM message (attribute \"" ++ textOf [attr] ++ "\" expected)")
    ("malformed SCRAM message (expected character \"=\" for attribute \"" ++ textOf [attr] ++ "\")")
    attr input

def supportsBinding (conn : PgConn) : Bool :=
  decide (conn.channelBinding ≠ .disable) && conn.sslInUse

def cbindFlagText (state : FeScramState) : Bytes :=
  if state.saslMechanism = scramSha256PlusName then ascii "p=tls-server-end-point"
  else if supportsBinding state.conn then ascii "y"
  else ascii "n"

def buildClientFirstMessage (state : FeScramState) (random : Option Bytes) :
    FeResult (FeScramState × Bytes) :=
  match random with
  | none => .error (state.appendError "could not generate nonce")
  | some rawNonce =>
    .ok ({ state with
        clientNonce := encodeText rawNonce
        clientFirstMessageBare := clientFirstBare (encodeText rawNonce) },
      cbindFlagText state ++ comma :: comma :: clientFirstBare (encodeText rawNonce))

def cbindInputHeader : Bytes := ascii "p=tls-server-end-point,,"

def channelBindingValue (state : FeScramState) : Except String Bytes :=
  if state.saslMechanism = scramSha256PlusName then
    match state.conn.peerCertificateHash with
    | .error text => .error text
    | .ok hash => .ok (encodeText (cbindInputHeader ++ hash))
  else if supportsBinding state.conn then .ok (ascii "eSws")
  else .ok (ascii "biws")

def FeScramState.authMessage (state : FeScramState) (withoutProof : Bytes) : Bytes :=
  Keys.authMessage state.clientFirstMessageBare state.serverFirstMessage withoutProof

def FeScramState.saltPassword (crypto : Crypto) (state : FeScramState) : Bytes :=
  scramSaltedPassword crypto state.hashType state.password state.salt state.iterations

def calculateClientProof (crypto : Crypto) (state : FeScramState) (withoutProof : Bytes) : Bytes :=
  let clientKey := scramClientKey crypto state.hashType (state.saltPassword crypto)
  let storedKey := scramH crypto state.hashType clientKey
  xorBytes clientKey (crypto.hmac state.hashType storedKey (state.authMessage withoutProof))

def buildClientFinalMessage (crypto : Crypto) (state : FeScramState) :
    FeResult (FeScramState × Bytes) :=
  match channelBindingValue state with
  | .error text =>
    .error { state with
      conn := { state.conn with errorMessage := state.conn.errorMessage ++ text } }
  | .ok binding =>
    .ok ({ state with
        clientFinalMessageWithoutProof := clientFinalWithoutProof binding state.nonce
        saltedPassword := state.saltPassword crypto },
      clientFinal binding state.nonce
        (calculateClientProof crypto state (clientFinalWithoutProof binding state.nonce)))

def readServerNonce (state : FeScramState) (input : Bytes) : FeResult (FeScramState × Bytes) :=
  match readAttrValue 'r'.toUInt8 input with
  | .error text => .error (state.appendError text)
  | .ok (nonce, rest) =>
    if nonce.length < state.clientNonce.length ∨
        nonce.take state.clientNonce.length ≠ state.clientNonce then
      .error (state.appendError "invalid SCRAM response (nonce mismatch)")
    else .ok ({ state with nonce := nonce }, rest)

def readServerSalt (state : FeScramState) (input : Bytes) : FeResult (FeScramState × Bytes) :=
  match readAttrValue 's'.toUInt8 input with
  | .error text => .error (state.appendError text)
  | .ok (encodedSalt, rest) =>
    match decodeText encodedSalt with
    | none => .error (state.appendError "malformed SCRAM message (invalid salt)")
    | some salt => .ok ({ state with salt := salt }, rest)

def readServerIterations (state : FeScramState) (input : Bytes) :
    FeResult (FeScramState × Bytes) :=
  match readAttrValue 'i'.toUInt8 input with
  | .error text => .error (state.appendError text)
  | .ok (iterationsText, rest) =>
    let read := strtol iterationsText
    let iterations := intOfLong read.value
    let state := { state with iterations := iterations }
    if read.rest ≠ [] ∨ iterations < 1 then
      .error (state.appendError "malformed SCRAM message (invalid iteration count)")
    else .ok (state, rest)

/-- `read_server_first_message`. Garbage at the end is reported but not refused. -/
def readServerFirstMessage (state : FeScramState) (input : Bytes) : FeResult FeScramState := do
  let (state, input) ← readServerNonce { state with serverFirstMessage := input } input
  let (state, input) ← readServerSalt state input
  let (state, input) ← readServerIterations state input
  if input ≠ [] then
    .ok (state.appendError "malformed SCRAM message (garbage at end of server-first-message)")
  else .ok state

def reportGarbage (state : FeScramState) (input : Bytes) : FeScramState :=
  if input ≠ [] then
    state.appendError "malformed SCRAM message (garbage at end of server-final-message)"
  else state

def readServerFinalMessage (state : FeScramState) (input : Bytes) : FeResult FeScramState :=
  let state := { state with serverFinalMessage := input }
  if peek input = 'e'.toUInt8 then
    match readAttrValue 'e'.toUInt8 input with
    | .error text => .error (state.appendError text)
    | .ok (errmsg, _) =>
      .error (state.appendError
        ("error received from server in SCRAM exchange: " ++ textOf errmsg))
  else
    match readAttrValue 'v'.toUInt8 input with
    | .error text => .error (state.appendError text)
    | .ok (encodedSignature, rest) =>
      let state := reportGarbage state rest
      match decodeText encodedSignature with
      | none => .error (state.appendError "malformed SCRAM message (invalid server signature)")
      | some serverSignature =>
        if serverSignature.length ≠ state.keyLength then
          .error (state.appendError "malformed SCRAM message (invalid server signature)")
        else .ok { state with serverSignature := serverSignature }

def verifyServerSignature (crypto : Crypto) (state : FeScramState) : Bool :=
  let serverKey := scramServerKey crypto state.hashType state.saltedPassword
  decide (crypto.hmac state.hashType serverKey
    (state.authMessage state.clientFinalMessageWithoutProof) = state.serverSignature)

inductive SaslStatus where
  | saslContinue
  | saslComplete
  | saslFailed
  deriving DecidableEq, Repr

structure FeReply where
  status : SaslStatus
  state : FeScramState
  output : Option Bytes := none

def feFailed (state : FeScramState) : FeReply := { status := .saslFailed, state := state }

def feContinue (next : FeScramStateEnum) : FeResult (FeScramState × Bytes) → FeReply
  | .error state => feFailed state
  | .ok (state, output) =>
    { status := .saslContinue, state := { state with state := next }, output := some output }

def feVerify (crypto : Crypto) (state : FeScramState) : FeReply :=
  let finish (state : FeScramState) : FeScramState :=
    { state with state := .finished, conn := { state.conn with clientFinishedAuth := true } }
  if verifyServerSignature crypto state then { status := .saslComplete, state := finish state }
  else feFailed (finish (state.appendError "incorrect server signature"))

def feScramExchange (crypto : Crypto) (state : FeScramState) (random : Option Bytes)
    (input : Bytes) : FeReply :=
  if state.state ≠ .init ∧ input = [] then
    feFailed (state.appendError "malformed SCRAM message (empty message)")
  else if state.state ≠ .init ∧ 0 ∈ input then
    feFailed (state.appendError "malformed SCRAM message (length mismatch)")
  else
    match state.state with
    | .init => feContinue .nonceSent (buildClientFirstMessage state random)
    | .nonceSent =>
      feContinue .proofSent
        (readServerFirstMessage state input >>= buildClientFinalMessage crypto)
    | .proofSent =>
      match readServerFinalMessage state input with
      | .error failed => feFailed failed
      | .ok read => feVerify crypto read
    | .finished => feFailed (state.appendError "invalid SCRAM exchange state")

def considerMechanism (conn : PgConn) (selected : Option Bytes) (offered : Bytes) :
    Except String (Option Bytes) :=
  if offered = scramSha384PlusName then
    if conn.sslInUse then
      if conn.channelBinding ≠ .disable then .ok (some scramSha384PlusName) else .ok selected
    else .error "server offered SCRAM-SHA-384-PLUS authentication over a non-SSL connection"
  else if offered = scramSha256PlusName then
    if conn.sslInUse then
      if conn.channelBinding ≠ .disable ∧ selected ≠ some scramSha384PlusName then
        .ok (some scramSha256PlusName)
      else .ok selected
    else .error "server offered SCRAM-SHA-256-PLUS authentication over a non-SSL connection"
  else if offered = scramSha384Name ∧ selected = none then .ok (some scramSha384Name)
  else if offered = scramSha256Name ∧ selected = none then .ok (some scramSha256Name)
  else .ok selected

def selectMechanism (conn : PgConn) (mechanisms : List Bytes) : Except String Bytes := do
  let selected ← mechanisms.foldlM (considerMechanism conn) none
  match selected with
  | none => .error "none of the server's SASL authentication mechanisms are supported"
  | some mechanism =>
    if conn.channelBinding = .require ∧ mechanism ≠ scramSha256PlusName ∧
        mechanism ≠ scramSha384PlusName then
      .error ("channel binding is required, but server did not offer an authentication " ++
        "method that supports channel binding")
    else .ok mechanism

structure SaslStart where
  selectedMechanism : Bytes
  state : FeScramState
  initialResponse : Option Bytes

/-- The password of the host's entry, or the connection's; none is as good as empty. -/
def PgConn.suppliedPassword (conn : PgConn) : Bytes :=
  (conn.hostPassword.orElse fun _ => conn.pgpass).getD []

/-- `pg_SASL_init`; a failure leaves the connection with its error message. -/
def pgSaslInit (crypto : Crypto) (conn : PgConn) (random : Option Bytes)
    (mechanisms : List Bytes) : Except PgConn SaslStart :=
  if conn.channelBinding = .require ∧ !conn.sslInUse then
    .error (conn.appendError "channel binding required, but SSL not in use")
  else if conn.saslState then
    .error (conn.appendError "duplicate SASL authentication request")
  else
    match selectMechanism conn mechanisms with
    | .error text => .error (conn.appendError text)
    | .ok mechanism =>
      if conn.suppliedPassword = [] then
        .error (conn.appendError "fe_sendauth: no password supplied")
      else
        let start :=
          feScramInit crypto { conn with saslState := true } conn.suppliedPassword mechanism
        let reply := feScramExchange crypto start random []
        if reply.status = .saslFailed then .error reply.state.conn
        else .ok ⟨mechanism, reply.state, reply.output⟩

/-- `pg_SASL_continue`: the state and the response to send. -/
def pgSaslContinue (crypto : Crypto) (state : FeScramState) (random : Option Bytes)
    (challenge : Bytes) (final : Bool) : FeResult (FeScramState × Option Bytes) :=
  let reply := feScramExchange crypto state random challenge
  if final ∧ reply.status = .saslContinue then
    .error (reply.state.appendError ("AuthenticationSASLFinal received from server, " ++
      "but SASL authentication was not completed"))
  else if reply.output = none ∧ reply.status = .saslContinue then
    .error (reply.state.appendError "no client response found after SASL exchange success")
  else if reply.status = .saslFailed then .error reply.state
  else .ok (reply.state, reply.output)

end FortressQL.Scram.Client
