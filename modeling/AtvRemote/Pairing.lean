import AtvRemote.Credentials
import AtvRemote.Texts

namespace AtvRemote.Pairing

open Programs Errors Messages SystemCalls Credentials Texts

abbrev PairingWire : Signature := MessageWire OuterMessage

inductive PublicKey
  | rsa (modulus exponent : Bytes)
  | other
  deriving DecidableEq, Repr

/-- The functions of other libraries that pairing computes with: SHA-256, the
X.509 parser and the Unicode tables of the standard library. -/
structure Library where
  sha256 : Bytes → Vector UInt8 32
  fromDer : Bytes → Except String PublicKey
  toLowercase : String → String
  debug : String → String

def stripLeadingZeros (bytes : Bytes) : Bytes := bytes.dropWhile (· == 0)

def rsaNumbers (lib : Library) (certDer : Bytes) : Except AtvError (Bytes × Bytes) :=
  match lib.fromDer certDer with
  | .error e => .error (.new .protocolError s!"cannot parse certificate: {e}")
  | .ok (.rsa modulus exponent) => .ok (stripLeadingZeros modulus, stripLeadingZeros exponent)
  | .ok .other => .error (.new .protocolError "certificate public key is not RSA")

/-- `u8::from_str_radix(&code[i..j], 16).expect("validated hex")`. -/
def hexByte (code : String) (i j : Nat) : Except Stop UInt8 :=
  match slice code i j with
  | none => .error (.panic "byte index is not a char boundary")
  | some s => match fromStrRadix 16 s with
    | none => .error (.panic "validated hex")
    | some byte => .ok byte

def computePairingSecret (lib : Library) (clientCertDer serverCertDer : Bytes) (code : String) :
    Except Stop Bytes := do
  if code.utf8ByteSize ≠ 6 || !code.toList.all isAsciiHexdigit then
    .error (.error (.new .pairingFailed
      s!"pairing code must be exactly 6 hex digits, got {lib.debug code}"))
  else
    let checksum ← hexByte code 0 2
    let nonce := [← hexByte code 2 4, ← hexByte code 4 6]
    let (clientMod, clientExp) ← (rsaNumbers lib clientCertDer).mapError .error
    let (serverMod, serverExp) ← (rsaNumbers lib serverCertDer).mapError .error
    let digest := lib.sha256 (clientMod ++ clientExp ++ serverMod ++ serverExp ++ nonce)
    if digest.get 0 ≠ checksum then
      .error (.error
        (.new .pairingFailed "pairing code checksum mismatch — was the code mistyped?"))
    else .ok digest.toList

def hex6Encoding : Encoding := { type := EncodingType.hexadecimal, symbolLength := 6 }

structure PairingFlow where
  awaitingCode : Bool
  deriving DecidableEq, Repr

def PairingFlow.new : PairingFlow := ⟨false⟩

def initialMessage : OuterMessage :=
  { protocolVersion := 2
    status := Status.ok.code
    pairingRequest := some { serviceName := "atvremote", clientName := some "atv" } }

def optionsMessage : OuterMessage :=
  { protocolVersion := 2
    status := Status.ok.code
    options := some {
      inputEncodings := [hex6Encoding]
      outputEncodings := []
      preferredRole := some RoleType.input } }

def configurationMessage : OuterMessage :=
  { protocolVersion := 2
    status := Status.ok.code
    configuration := some { encoding := hex6Encoding, clientRole := RoleType.input } }

def secretMessage (secret : Bytes) : OuterMessage :=
  { protocolVersion := 2, status := Status.ok.code, secret := some { secret } }

def statusReported (status : Int32) : AtvError :=
  let desc := match Status.ofCode status with
    | some s => s!"{s.debug} ({status})"
    | none => toString status
  .new .pairingFailed s!"TV reported pairing status {desc} — wrong code or user declined?"

def unexpectedMessage : AtvError := .new .protocolError "unexpected pairing message"

/-- The result for the caller, and the state left behind. -/
def PairingFlow.handle (flow : PairingFlow) (msg : OuterMessage) :
    Except AtvError (Option OuterMessage) × PairingFlow :=
  if msg.status ≠ Status.ok.code then (.error (statusReported msg.status), flow)
  else if msg.pairingRequestAck.isSome then (.ok (some optionsMessage), flow)
  else if msg.options.isSome then (.ok (some configurationMessage), flow)
  else if msg.configurationAck.isSome then (.ok none, { flow with awaitingCode := true })
  else if msg.secretAck.isSome then (.ok none, flow)
  else (.error unexpectedMessage, flow)

structure PairOutput where
  timestamp : String
  host : String
  paired : Bool
  deriving DecidableEq, Repr

def protoErr (e : IoError) : AtvError := .new .protocolError s!"pairing I/O failed: {e}"

/-- The loop of `pair`: one round for each message, until the TV shows the
code. -/
def pairLoop (conn : Conn) : Nat → PairingFlow → Command PairingWire PairingFlow
  | 0, _ => .fail .unfinished
  | fuel + 1, flow =>
      if !flow.awaitingCode then do
        let msg ← orRaise (← readMessage conn) protoErr
        let (result, flow) := flow.handle msg
        match ← propagate result with
        | some reply => orRaise (← writeMessage conn reply) protoErr
        | none => pure ()
        pairLoop conn fuel flow
      else pure flow

/-- From the prompt for the code to the secret computed with it. -/
def readSecret (lib : Library) (tls : TlsClient) (conn : Conn) : Command PairingWire Bytes := do
  ask (.eprintln "Enter the 6-digit code shown on the TV:")
  let code ← orRaise (← ask .readLine)
    (fun e => .new .pairingFailed s!"could not read code from stdin: {e}")
  let code := lib.toLowercase (trim code)
  let serverDer ← peerCertDer conn
  match computePairingSecret lib tls.clientCertDer serverDer code with
  | .ok secret => pure secret
  | .error stop => .fail stop

def sendSecret (host : IpAddr) (conn : Conn) (flow : PairingFlow) (secret : Bytes) :
    Command PairingWire PairOutput := do
  orRaise (← writeMessage conn (secretMessage secret)) protoErr
  let ack ← orRaise (← readMessage conn) (fun e => .new .pairingFailed
    s!"TV closed the connection after the secret — wrong code? ({e})")
  let (result, _) := flow.handle ack
  let _ ← propagate result
  pure { timestamp := ← timestamp, host := host.text, paired := true }

def openPairing (host : IpAddr) (port : UInt16) : Command PairingWire (TlsClient × Conn) := do
  let dir ← credentialDirFromEnv
  ensureIdentity dir
  let tls ← TlsClient.fromCredentialDir dir
  let conn ← tls.connect host port (fromSecs 5)
  pure (tls, conn)

/-- The fuel bounds the rounds of the loop that the TV drives. -/
def pair (lib : Library) (fuel : Nat) (host : IpAddr) (port : UInt16) :
    Command PairingWire PairOutput := do
  let (tls, conn) ← openPairing host port
  orRaise (← writeMessage conn initialMessage) protoErr
  let flow ← pairLoop conn fuel .new
  let secret ← readSecret lib tls conn
  sendSecret host conn flow secret

end AtvRemote.Pairing
