import FortressQL.Elog
import FortressQL.Scram.Messages
import FortressQL.Scram.Secret

/-!
# The server side of a SCRAM exchange

`auth-scram.c`, and the loop of `CheckSASLAuth` that drives it. A report of level `ERROR`
ends the connection, so the state behind one is not represented.
-/

namespace FortressQL.Scram.Server

open List Common.Base64 Elog Lib.ByteStrings Lib.Scan Scram.Keys Scram.Messages Scram.Secret

inductive UserAuth where
  | uaReject
  | uaImplicitReject
  | uaTrust
  | uaIdent
  | uaPassword
  | uaMD5
  | uaSCRAM
  | uaGSS
  | uaSSPI
  | uaPAM
  | uaBSD
  | uaLDAP
  | uaCert
  | uaRADIUS
  | uaPeer
  | uaPQCCert
  | uaPQCSCRAM
  deriving DecidableEq, Repr

structure Port where
  authMethod : UserAuth
  sslInUse : Bool
  userName : Bytes
  /-- What `be_tls_get_certificate_hash` returns. -/
  certificateHash : Option Bytes

def scramGetMechanisms (port : Port) : List Bytes :=
  if port.authMethod = .uaPQCSCRAM then
    (if port.sslInUse then [scramSha384PlusName] else []) ++ [scramSha384Name]
  else
    (if port.sslInUse then [scramSha256PlusName] else []) ++ [scramSha256Name]

inductive ScramStateEnum where
  | init
  | saltSent
  | finished
  deriving DecidableEq, Repr

structure ScramState extends ScramSecret where
  state : ScramStateEnum
  port : Port
  channelBindingInUse : Bool
  -- Fields of the first message from client
  cbindFlag : UInt8 := 0
  clientFirstMessageBare : Bytes := []
  clientUsername : Bytes := []
  clientNonce : Bytes := []
  -- Fields from the last message from client
  clientFinalMessageWithoutProof : Bytes := []
  clientFinalNonce : Bytes := []
  clientProof : Bytes := []
  -- Fields generated in the server
  serverFirstMessage : Bytes := []
  serverNonce : Bytes := []
  doomed : Bool
  logdetail : Option String

structure MechChoice where
  channelBindingInUse : Bool
  hashType : PgCryptohashType

/-- The mechanism tests of `scram_init`. The SHA-256 names leave `hash_type` to the secret. -/
def selectMech (port : Port) (selectedMech : Bytes) : Raises MechChoice :=
  if selectedMech = scramSha384PlusName ∧ port.sslInUse then .ok ⟨true, .sha384⟩
  else if selectedMech = scramSha384Name then .ok ⟨false, .sha384⟩
  else if port.authMethod = .uaPQCSCRAM then
    .error
      { elevel := .error
        errcode := .protocolViolation
        errmsg := "client must use SCRAM-SHA-384 when pqc-scram-sha-384 authentication is required"
        errdetail := "Client selected \"" ++ textOf selectedMech ++
          "\" but only SCRAM-SHA-384 is accepted." }
  else if selectedMech = scramSha256PlusName ∧ port.sslInUse then .ok ⟨true, .md5⟩
  else if selectedMech = scramSha256Name then .ok ⟨false, .md5⟩
  else
    .error
      { elevel := .error
        errcode := .protocolViolation
        errmsg := "client selected an invalid SASL authentication mechanism" }

def isScramType (passwordType : PasswordType) : Bool :=
  passwordType == .scramSha256 || passwordType == .scramSha384

def storedSecret (shadowPass : Option Bytes) : Option ScramSecret :=
  match shadowPass with
  | none => none
  | some shadow => if isScramType (getPasswordType shadow) then parseScramSecret shadow else none

def secretLogdetail (port : Port) (shadowPass : Option Bytes) : Option String :=
  match shadowPass with
  | none => none
  | some shadow =>
    if isScramType (getPasswordType shadow) then none
    else some ("User \"" ++ textOf port.userName ++ "\" does not have a valid SCRAM secret.")

def mockParameters (hashType : PgCryptohashType) : HashParameters :=
  if hashType = .sha384 then sha384Parameters else sha256Parameters

def mockScramSecret (crypto : Crypto) (mockAuthNonce userName : Bytes)
    (hashType : PgCryptohashType) : ScramSecret :=
  let parameters := mockParameters hashType
  let rawSalt := crypto.hash parameters.hashType (userName ++ mockAuthNonce)
  { toHashParameters := parameters
    iterations :=
      if parameters.hashType = .sha384 then scramSha384DefaultIterations
      else scramSha256DefaultIterations
    salt := encodeText (rawSalt.take scramDefaultSaltLen)
    storedKey := List.replicate parameters.keyLength 0
    serverKey := List.replicate parameters.keyLength 0
    storedKeyLength := List.length_replicate
    serverKeyLength := List.length_replicate }

def startState (port : Port) (choice : MechChoice) (secret : ScramSecret) (doomed : Bool)
    (logdetail : Option String) : ScramState :=
  { toScramSecret := secret
    state := .init
    port := port
    channelBindingInUse := choice.channelBindingInUse
    doomed := doomed
    logdetail := logdetail }

def scramInit (crypto : Crypto) (mockAuthNonce : Bytes) (port : Port) (selectedMech : Bytes)
    (shadowPass : Option Bytes) : Raises ScramState := do
  let choice ← selectMech port selectedMech
  let logdetail := secretLogdetail port shadowPass
  match storedSecret shadowPass with
  | some secret => .ok (startState port choice secret false logdetail)
  | none =>
    let mock := mockScramSecret crypto mockAuthNonce port.userName choice.hashType
    .ok (startState port choice mock true logdetail)

def malformed (detail : String) : ErrorReport :=
  { elevel := .error
    errcode := .protocolViolation
    errmsg := "malformed SCRAM message"
    errdetail := detail }

def missingEquals (attr : UInt8) : ErrorReport :=
  malformed ("Expected character \"=\" for attribute \"" ++ textOf [attr] ++ "\".")

def readAttrValue (attr : UInt8) (input : Bytes) : Raises (Bytes × Bytes) :=
  readAttr
    (malformed ("Expected attribute \"" ++ textOf [attr] ++ "\" but found \"" ++
      sanitizeChar (peek input) ++ "\"."))
    (missingEquals attr) attr input

def isAlpha (char : UInt8) : Bool :=
  decide ('A'.toUInt8 ≤ char ∧ char ≤ 'Z'.toUInt8) ||
    decide ('a'.toUInt8 ≤ char ∧ char ≤ 'z'.toUInt8)

def readAnyAttr (input : Bytes) : Raises (UInt8 × Bytes × Bytes) :=
  let attr := peek input
  if attr = 0 then .error (malformed "Attribute expected, but found end of string.")
  else if !isAlpha attr then
    .error (malformed ("Attribute expected, but found invalid character \"" ++
      sanitizeChar attr ++ "\"."))
  else if peek (input.drop 1) ≠ equals then .error (missingEquals attr)
  else .ok (attr, takeUntil comma (input.drop 2), afterFirst comma (input.drop 2))

variable {input value rest : Bytes} {attr : UInt8}

theorem read_any_attr_sound (read : readAnyAttr input = .ok (attr, value, rest)) :
    isAlpha attr = true ∧ ∃ text, input = attrVal attr text ∧ Delimited text value rest := by
  simp only [readAnyAttr] at read
  split_ifs at read with nonzero alpha second
  rw [not_not] at second
  have parts := Prod.mk.inj (Except.ok.inj read)
  have values := Prod.mk.inj parts.2
  refine ⟨by simpa [parts.1] using alpha, input.drop 2, ?_, values.1 ▸ values.2 ▸ delimited_scan _⟩
  have head := peek_cons parts.1 (parts.1 ▸ nonzero)
  have tail := peek_cons second (by decide)
  rw [head, tail]
  rfl

theorem read_any_attr_complete {text : Bytes} (alpha : isAlpha attr = true)
    (delimited : Delimited text value rest) :
    readAnyAttr (attrVal attr text) = .ok (attr, value, rest) := by
  have scanned := scan_delimited delimited
  have nonzero : attr ≠ 0 := by
    intro zero
    rw [zero] at alpha
    exact absurd alpha (by decide)
  simp [readAnyAttr, attrVal, peek, scanned, nonzero, alpha]

theorem read_any_attr_shorter (read : readAnyAttr input = .ok (attr, value, rest)) :
    rest.length < input.length := by
  obtain ⟨-, text, shape, delimited⟩ := read_any_attr_sound read
  rw [shape, attrVal, length_cons, length_cons]
  rcases delimited.shape with more | ended
  · rw [more, length_append, length_cons]
    omega
  · rw [ended.2, length_nil]
    omega

/-- The loop over the extensions behind the nonce in `read_client_first_message`. -/
def skipExtensions (input : Bytes) : Raises Unit :=
  if input = [] then .ok ()
  else
    match _ : readAnyAttr input with
    | .error report => .error report
    | .ok (_, _, rest) => skipExtensions rest
termination_by input.length
decreasing_by exact read_any_attr_shorter ‹_›

def readComma (input : Bytes) : Raises Bytes :=
  if peek input ≠ comma then
    .error (malformed ("Comma expected, but found character \"" ++
      sanitizeChar (peek input) ++ "\"."))
  else .ok (input.drop 1)

def tlsServerEndPoint : Bytes := ascii "tls-server-end-point"

def bindingNotIncluded : ErrorReport :=
  malformed ("The client selected SCRAM-SHA-256-PLUS, but the SCRAM message " ++
    "does not include channel binding data.")

/-- The gs2-cbind-flag of a client-first-message; what follows it is returned. -/
def readCbindFlag (state : ScramState) (input : Bytes) : Raises Bytes :=
  if peek input = 'n'.toUInt8 then
    if state.channelBindingInUse then .error bindingNotIncluded else readComma (input.drop 1)
  else if peek input = 'y'.toUInt8 then
    if state.channelBindingInUse then .error bindingNotIncluded
    else if state.port.sslInUse then
      .error
        { elevel := .error
          errcode := .invalidAuthorizationSpecification
          errmsg := "SCRAM channel binding negotiation error"
          errdetail := "The client supports SCRAM channel binding but thinks the server does " ++
            "not.  However, this server does support channel binding." }
    else readComma (input.drop 1)
  else if peek input = 'p'.toUInt8 then
    if !state.channelBindingInUse then
      .error (malformed ("The client selected SCRAM-SHA-256 without channel binding, but the " ++
        "SCRAM message includes channel binding data."))
    else do
      let (channelBindingType, rest) ← readAttrValue 'p'.toUInt8 input
      ensure (channelBindingType = tlsServerEndPoint)
        { elevel := .error
          errcode := .protocolViolation
          errmsg := "unsupported SCRAM channel-binding type \"" ++
            sanitizeStr channelBindingType ++ "\"" }
      .ok rest
  else
    .error (malformed ("Unexpected channel-binding flag \"" ++ sanitizeChar (peek input) ++ "\"."))

/-- An authorization identity is refused; the bare message follows the comma. -/
def readAuthzid (input : Bytes) : Raises Bytes :=
  if peek input = 'a'.toUInt8 then
    .error
      { elevel := .error
        errcode := .featureNotSupported
        errmsg := "client uses authorization identity, but it is not supported" }
  else if peek input ≠ comma then
    .error (malformed ("Unexpected attribute \"" ++ sanitizeChar (peek input) ++
      "\" in client-first-message."))
  else .ok (input.drop 1)

def readClientFirstMessage (state : ScramState) (input : Bytes) : Raises ScramState := do
  let afterFlag ← readCbindFlag state input
  let bare ← readAuthzid afterFlag
  ensure (peek bare ≠ 'm'.toUInt8)
    { elevel := .error
      errcode := .featureNotSupported
      errmsg := "client requires an unsupported SCRAM extension" }
  let (clientUsername, afterUsername) ← readAttrValue 'n'.toUInt8 bare
  let (clientNonce, afterNonce) ← readAttrValue 'r'.toUInt8 afterUsername
  ensure (isScramPrintable clientNonce)
    { elevel := .error
      errcode := .protocolViolation
      errmsg := "non-printable characters in SCRAM nonce" }
  skipExtensions afterNonce
  .ok { state with
    cbindFlag := peek input
    clientFirstMessageBare := bare
    clientUsername := clientUsername
    clientNonce := clientNonce }

def internalError (message : String) : ErrorReport :=
  { elevel := .error, errcode := .internalError, errmsg := message }

def serverFirstText (secret : ScramSecret) (clientNonce serverNonce : Bytes) : Bytes :=
  serverFirst (clientNonce ++ serverNonce) secret.salt secret.iterations

/-- `build_server_first_message`; `random` is what `pg_strong_random` yields, if it does. -/
def buildServerFirstMessage (state : ScramState) (random : Option Bytes) : Raises ScramState :=
  match random with
  | none => .error (internalError "could not generate random nonce")
  | some rawNonce =>
    .ok { state with
      serverNonce := encodeText rawNonce
      serverFirstMessage :=
        serverFirstText state.toScramSecret state.clientNonce (encodeText rawNonce) }

def cbindHeader : Bytes := ascii "p=tls-server-end-point,,"

/-- The check of the `c` attribute in `read_client_final_message`. -/
def checkChannelBinding (state : ScramState) (channelBinding : Bytes) : Raises Unit :=
  if state.channelBindingInUse then
    let certificateHash := state.port.certificateHash.getD []
    if certificateHash = [] then .error (internalError "could not get server certificate hash")
    else
      ensure (channelBinding = encodeText (cbindHeader ++ certificateHash))
        { elevel := .error
          errcode := .invalidAuthorizationSpecification
          errmsg := "SCRAM channel binding check failed" }
  else
    ensure ((channelBinding = ascii "biws" ∧ state.cbindFlag = 'n'.toUInt8) ∨
        (channelBinding = ascii "eSws" ∧ state.cbindFlag = 'y'.toUInt8))
      { elevel := .error
        errcode := .protocolViolation
        errmsg := "unexpected SCRAM channel-binding attribute in client-final-message" }

/-- The loop that skips to the proof: the text from the proof's attribute on, the proof
and what follows it. -/
def readProof (input : Bytes) : Raises (Bytes × Bytes × Bytes) :=
  match _ : readAnyAttr input with
  | .error report => .error report
  | .ok (attr, value, rest) =>
    if attr = 'p'.toUInt8 then .ok (input, value, rest) else readProof rest
termination_by input.length
decreasing_by exact read_any_attr_shorter ‹_›

theorem read_proof_error {report : ErrorReport} (read : readAnyAttr input = .error report) :
    readProof input = .error report := by
  rw [readProof]
  split <;> simp_all

theorem read_proof_found (read : readAnyAttr input = .ok ('p'.toUInt8, value, rest)) :
    readProof input = .ok (input, value, rest) := by
  rw [readProof]
  split <;> simp_all

theorem read_proof_skip (read : readAnyAttr input = .ok (attr, value, rest))
    (other : attr ≠ 'p'.toUInt8) : readProof input = readProof rest := by
  rw [readProof]
  split <;> simp_all

def decodeProof (keyLength : Nat) (value : Bytes) : Raises Bytes :=
  match decodeText value with
  | none => .error (malformed "Malformed proof in client-final-message.")
  | some clientProof =>
    if clientProof.length ≠ keyLength then
      .error (malformed "Malformed proof in client-final-message.")
    else .ok clientProof

def readClientFinalMessage (state : ScramState) (input : Bytes) : Raises ScramState := do
  let (channelBinding, afterBinding) ← readAttrValue 'c'.toUInt8 input
  checkChannelBinding state channelBinding
  let (clientFinalNonce, afterNonce) ← readAttrValue 'r'.toUInt8 afterBinding
  let (fromProof, value, rest) ← readProof afterNonce
  let clientProof ← decodeProof state.keyLength value
  ensure (rest = []) (malformed "Garbage found at the end of client-final-message.")
  .ok { state with
    clientFinalNonce := clientFinalNonce
    clientProof := clientProof
    -- everything before the comma in front of the proof
    clientFinalMessageWithoutProof := input.take (input.length - fromProof.length - 1) }

def verifyFinalNonce (state : ScramState) : Bool :=
  decide (state.clientFinalNonce.length = state.clientNonce.length + state.serverNonce.length) &&
    decide (state.clientFinalNonce.take state.clientNonce.length = state.clientNonce) &&
    decide (state.clientFinalNonce.drop state.clientNonce.length = state.serverNonce)

def ScramState.authMessage (state : ScramState) : Bytes :=
  Keys.authMessage state.clientFirstMessageBare state.serverFirstMessage
    state.clientFinalMessageWithoutProof

def verifyClientProof (crypto : Crypto) (state : ScramState) : Bool :=
  let clientSignature := crypto.hmac state.hashType state.storedKey state.authMessage
  let clientKey := xorBytes state.clientProof clientSignature
  decide (scramH crypto state.hashType clientKey = state.storedKey)

def buildServerFinalMessage (crypto : Crypto) (state : ScramState) : Bytes :=
  attrVal 'v'.toUInt8 (encodeText (crypto.hmac state.hashType state.serverKey state.authMessage))

inductive PgSaslExchange where
  | exchangeContinue
  | exchangeSuccess
  | exchangeFailure
  deriving DecidableEq, Repr

structure ExchangeReply where
  result : PgSaslExchange
  state : ScramState
  output : Option Bytes := none
  logdetail : Option String := none

def exchangeFirst (state : ScramState) (random : Option Bytes) (input : Bytes) :
    Raises ExchangeReply := do
  let read ← readClientFirstMessage state input
  let built ← buildServerFirstMessage read random
  .ok { result := .exchangeContinue
        state := { built with state := .saltSent }
        output := some built.serverFirstMessage }

def finalReply (crypto : Crypto) (read : ScramState) : ExchangeReply :=
  if !verifyClientProof crypto read || read.doomed then
    { result := .exchangeFailure, state := read, logdetail := read.logdetail }
  else
    { result := .exchangeSuccess
      state := { read with state := .finished }
      output := some (buildServerFinalMessage crypto read) }

def exchangeFinal (crypto : Crypto) (state : ScramState) (input : Bytes) :
    Raises ExchangeReply := do
  let read ← readClientFinalMessage state input
  ensure (verifyFinalNonce read)
    { elevel := .error
      errcode := .protocolViolation
      errmsg := "invalid SCRAM response"
      errdetail := "Nonce does not match." }
  .ok (finalReply crypto read)

/-- `scram_exchange`; no `input` is a missing initial response. -/
def scramExchange (crypto : Crypto) (state : ScramState) (random input : Option Bytes) :
    Raises ExchangeReply :=
  match input with
  | none => .ok { result := .exchangeContinue, state := state, output := some [] }
  | some message =>
    if message = [] then .error (malformed "The message is empty.")
    else if 0 ∈ message then .error (malformed "Message length does not match input length.")
    else
      match state.state with
      | .init => exchangeFirst state random message
      | .saltSent => exchangeFinal crypto state message
      | .finished => .error (internalError "invalid SCRAM exchange state")

/-- One round of `CheckSASLAuth`: the client's payload and the random bytes at that time. -/
structure SaslMessage where
  payload : Option Bytes
  random : Option Bytes

inductive SaslOutcome where
  /-- `STATUS_OK` -/
  | accepted (state : ScramState) (unread : List SaslMessage)
  /-- `STATUS_ERROR` -/
  | rejected (unread : List SaslMessage)
  /-- `STATUS_EOF` -/
  | disconnected

/-- The loop of `CheckSASLAuth`: it ends with the first result that is not to continue. -/
def saslLoop (crypto : Crypto) : ScramState → List SaslMessage → Raises SaslOutcome
  | _, [] => .ok .disconnected
  | state, message :: later => do
      let reply ← scramExchange crypto state message.random message.payload
      match reply.result with
      | .exchangeContinue => saslLoop crypto reply.state later
      | .exchangeSuccess => .ok (.accepted reply.state later)
      | .exchangeFailure => .ok (.rejected later)

/-- `CheckSASLAuth` with the SCRAM mechanisms. Only the first payload can be absent. -/
def checkSaslAuth (crypto : Crypto) (mockAuthNonce : Bytes) (port : Port)
    (shadowPass : Option Bytes) (selectedMech : Bytes) (initial : SaslMessage)
    (later : List (Bytes × Option Bytes)) : Raises SaslOutcome := do
  let state ← scramInit crypto mockAuthNonce port selectedMech shadowPass
  saslLoop crypto state (initial :: later.map fun message => ⟨some message.1, message.2⟩)

/-- `CheckPWChallengeAuth`, with the MD5 exchange as it may turn out. -/
def checkPwChallengeAuth (crypto : Crypto) (mockAuthNonce : Bytes)
    (checkMd5Auth : Raises SaslOutcome)
    (passwordEncryption : PasswordType) (port : Port) (shadowPass : Option Bytes)
    (selectedMech : Bytes) (initial : SaslMessage) (later : List (Bytes × Option Bytes)) :
    Raises SaslOutcome :=
  let passwordType := (shadowPass.map getPasswordType).getD passwordEncryption
  if port.authMethod = .uaMD5 ∧ passwordType = .md5 then checkMd5Auth
  else checkSaslAuth crypto mockAuthNonce port shadowPass selectedMech initial later

end FortressQL.Scram.Server
