import AtvRemote.Credentials
import AtvRemote.Handshake
import AtvRemote.KeyCodes

namespace AtvRemote.Session

open Programs Errors Messages SystemCalls Credentials Handshake

abbrev SessionWire : Signature := MessageWire RemoteMessage

def keyInjectGrace : Duration := fromSecs 1

def keyMessage (keyCode : Int32) : RemoteMessage :=
  { remoteKeyInject := some { keyCode, direction := RemoteDirection.short } }

def powerKeyMessage : RemoteMessage := keyMessage RemoteKeyCode.keycodePower

def appLinkMessage (appLink : String) : RemoteMessage :=
  { remoteAppLinkLaunchRequest := some { appLink } }

/-- The name of a key code, or its number if it has no name. -/
def keycodeName (keyCode : Int32) : String :=
  match RemoteKeyCode.tryFrom keyCode with
  | some k => k.asStrName
  | none => toString keyCode

/-- A failure before any message has arrived is taken for a rejected client
certificate, a later one for a stalled or misbehaving TV. -/
def mapSessionReadError (e : IoError) (gotAnyMessage : Bool) : AtvError :=
  if !gotAnyMessage then
    .new .authRejected
      s!"TV closed the session immediately — client certificate rejected, re-pair needed ({e})"
  else match e.kind with
  | .timedOut | .wouldBlock =>
      .new .protocolError "TV stopped responding during session handshake"
  | _ => .new .protocolError e.text

def sessionWriteFailed (e : IoError) : AtvError :=
  .new .protocolError s!"session write failed: {e}"

/-- The loop of `readPower`: one round for each message, until the power state
is known. -/
def readPowerLoop (conn : Conn) :
    Nat → SessionHandshake → Bool → Command SessionWire SessionHandshake
  | 0, _, _ => .fail .unfinished
  | fuel + 1, hs, gotAny =>
      if hs.power.isNone then do
        let msg ← orRaise (← readMessage conn) (fun e => mapSessionReadError e gotAny)
        let (result, hs) := hs.handle msg
        match ← propagate result with
        | some reply => orRaise (← writeMessage conn reply) sessionWriteFailed
        | none => pure ()
        readPowerLoop conn fuel hs true
      else pure hs

def openSession (host : IpAddr) (port : UInt16) : Command SessionWire Conn := do
  let dir ← credentialDirFromEnv
  let tls ← TlsClient.fromCredentialDir dir
  tls.connect host port (fromSecs 5)

/-- The fuel bounds the rounds of each loop that the TV or the clock drives. -/
def readPower (fuel : Nat) (host : IpAddr) (port : UInt16) :
    Command SessionWire (Bool × Conn × SessionHandshake) := do
  let conn ← openSession host port
  let hs ← readPowerLoop conn fuel SessionHandshake.new false
  let power ← expect hs.power "loop exits only with power set"
  pure (power, conn, hs)

def powerStr (on : Bool) : String := if on then "on" else "off"

structure StatusOutput where
  timestamp : String
  host : String
  power : String
  deriving DecidableEq, Repr

def status (fuel : Nat) (host : IpAddr) (port : UInt16) : Command SessionWire StatusOutput := do
  let (on, _, _) ← readPower fuel host port
  pure { timestamp := ← timestamp, host := host.text, power := powerStr on }

def keyInterval : Duration := fromMillis 100

def sendSettle : Duration := fromMillis 250

structure KeysOutput where
  timestamp : String
  host : String
  keys : List String
  deriving DecidableEq, Repr

def keyFailed (keyCode : Int32) (e : IoError) : AtvError :=
  .new .protocolError s!"failed to send {keycodeName keyCode}: {e}"

/-- The loop of `sendKeys`, with the number of keys before this one. -/
def sendPresses (conn : Conn) : Nat → List Int32 → Command SessionWire Unit
  | _, [] => pure ()
  | i, code :: keys => do
      if i > 0 then sleep keyInterval
      orRaise (← writeMessage conn (keyMessage code)) (keyFailed code)
      sendPresses conn (i + 1) keys

def sendKeys (fuel : Nat) (host : IpAddr) (port : UInt16) (keys : List Int32) :
    Command SessionWire KeysOutput := do
  let (_, conn, _) ← readPower fuel host port
  sleep keyInjectGrace
  sendPresses conn 0 keys
  sleep sendSettle
  pure { timestamp := ← timestamp, host := host.text, keys := keys.map keycodeName }

structure LaunchOutput where
  timestamp : String
  host : String
  appLink : String
  deriving DecidableEq, Repr

def appLinkFailed (e : IoError) : AtvError :=
  .new .protocolError s!"failed to send app link: {e}"

def sendAppLink (fuel : Nat) (host : IpAddr) (port : UInt16) (appLink : String) :
    Command SessionWire LaunchOutput := do
  let (_, conn, _) ← readPower fuel host port
  sleep keyInjectGrace
  orRaise (← writeMessage conn (appLinkMessage appLink)) appLinkFailed
  sleep sendSettle
  pure { timestamp := ← timestamp, host := host.text, appLink }

def needsPowerKey (currentOn wantOn : Bool) : Bool := currentOn != wantOn

structure PowerOutput where
  timestamp : String
  host : String
  power : String
  changed : Bool
  wol : Option Bool
  deriving DecidableEq, Repr

def powerOnAttempts : Nat := 4

def powerOnRetryBackoff : Duration := fromSecs 2

def shouldRetryPowerOn (wantOn : Bool) (observed : Option Bool) : Bool :=
  wantOn && observed != some true

structure PowerAttempt where
  changed : Bool
  resulting : Bool
  observed : Option Bool
  deriving DecidableEq, Repr

/-- Wait for a fresh `remote_start` until the deadline. A failed read ends the
wait; a failed reply or a reported error does not. -/
def confirmLoop (conn : Conn) (wantOn : Bool) (deadline : Instant) :
    Nat → SessionHandshake → Command SessionWire SessionHandshake
  | 0, _ => .fail .unfinished
  | fuel + 1, hs => do
      if (← now) < deadline then
        match ← readMessage conn with
        | .error _ => pure hs
        | .ok msg =>
            let (result, hs) := hs.handle msg
            match result with
            | .ok (some reply) => let _ ← writeMessage conn reply
            | .ok none | .error _ => pure ()
            if hs.power = some wantOn then pure hs
            else confirmLoop conn wantOn deadline fuel hs
      else pure hs

def powerKeyFailed (e : IoError) : AtvError :=
  .new .protocolError s!"failed to send power key: {e}"

def pressPowerOnce (fuel : Nat) (host : IpAddr) (port : UInt16) (wantOn : Bool) :
    Command SessionWire PowerAttempt := do
  let (current, conn, hs) ← readPower fuel host port
  if needsPowerKey current wantOn then
    sleep keyInjectGrace
    orRaise (← writeMessage conn powerKeyMessage) powerKeyFailed
    let _ ← ask (.setReadTimeout conn.sock (fromSecs 3))
    let deadline := (← now) + fromSecs 5
    let hs ← confirmLoop conn wantOn deadline fuel { hs with power := none }
    pure { changed := true, resulting := hs.power.getD wantOn, observed := hs.power }
  else
    pure { changed := false, resulting := current, observed := some current }

/-- The retry loop of `setPower`; the counter is the number of attempts left.
A failing attempt ends the loop with the last one that did not. -/
def retryPowerOn (fuel : Nat) (host : IpAddr) (port : UInt16) (wantOn : Bool) :
    Nat → PowerAttempt → Bool → Command SessionWire (PowerAttempt × Bool)
  | 0, attempt, changed => pure (attempt, changed)
  | left + 1, attempt, changed =>
      if shouldRetryPowerOn wantOn attempt.observed then do
        sleep powerOnRetryBackoff
        match ← resultOf (pressPowerOnce fuel host port wantOn) with
        | .ok next => retryPowerOn fuel host port wantOn left next (changed || next.changed)
        | .error _ => pure (attempt, changed)
      else pure (attempt, changed)

def setPower (fuel : Nat) (host : IpAddr) (port : UInt16) (wantOn : Bool) :
    Command SessionWire PowerOutput := do
  let attempt ← pressPowerOnce fuel host port wantOn
  let (attempt, changed) ←
    retryPowerOn fuel host port wantOn (powerOnAttempts - 1) attempt attempt.changed
  pure {
    timestamp := ← timestamp
    host := host.text
    power := powerStr attempt.resulting
    changed
    wol := none }

end AtvRemote.Session
