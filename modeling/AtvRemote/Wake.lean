import AtvRemote.Session
import AtvRemote.Texts

namespace AtvRemote.Wake

open Errors Messages SystemCalls Session Texts

abbrev Mac := Vector UInt8 6

/-- The loop of `parseMac` over the bytes from the `i`th on and their parts. -/
def parseParts (err : String) : Mac → Nat → List String → Except String Mac
  | mac, _, [] => .ok mac
  | mac, i, part :: parts =>
      if part.utf8ByteSize ≠ 2 then .error err
      else match fromStrRadix 16 part with
        | some byte => parseParts err (mac.setIfInBounds i byte) (i + 1) parts
        | none => .error err

/-- `debug` is the quoted form of a text in messages. -/
def parseMac (debug : String → String) (s : String) : Except String Mac :=
  let err := s!"invalid MAC address {debug s} (expected aa:bb:cc:dd:ee:ff)"
  let parts := split s [':', '-']
  if parts.length ≠ 6 then .error err
  else parseParts err (Vector.replicate 6 0) 0 parts

/-- The slice `pkt[i..i + 6]` is overwritten. -/
def copyMac (mac : Mac) (pkt : Bytes) (i : Nat) : Bytes :=
  pkt.take i ++ mac.toList ++ pkt.drop (i + 6)

def magicPacket (mac : Mac) : Bytes :=
  (List.range 16).foldl (fun pkt i => copyMac mac pkt (6 + i * 6)) (List.replicate 102 0xff)

def broadcastAddr : SocketAddr := ⟨.v4 #v[255, 255, 255, 255], 9⟩

def wakeSendFailed (e : IoError) : AtvError :=
  .new .protocolError s!"wake-on-lan send failed: {e}"

def sendMagicPacket (mac : Mac) : Command SessionWire Unit := do
  orRaise (← ask .udpBind) wakeSendFailed
  orRaise (← ask .udpSetBroadcast) wakeSendFailed
  orRaise (← ask (.udpSendTo (magicPacket mac) broadcastAddr)) wakeSendFailed

def wolWait : Duration := fromSecs 15

def stillUnreachable (addr : SocketAddr) : AtvError :=
  .new .unreachable (s!"{addr.text} still unreachable after a wake-on-lan magic packet — " ++
    "wrong MAC, or WoL disabled on the TV?")

def waitLoop (addr : SocketAddr) (deadline : Instant) : Nat → Command SessionWire Unit
  | 0 => .fail .unfinished
  | fuel + 1 => do
      if (← now) < deadline then
        match ← ask (.connectTimeout addr (fromSecs 1)) with
        | .ok _ => pure ()
        | .error _ =>
            sleep (fromMillis 500)
            waitLoop addr deadline fuel
      else raise (stillUnreachable addr)

/-- The deadline is in range of the clock: the one budget is `wolWait`. -/
def waitForPort (fuel : Nat) (host : IpAddr) (port : UInt16) (budget : Duration) :
    Command SessionWire Unit := do
  let addr : SocketAddr := ⟨host, port⟩
  let deadline := (← now) + budget
  waitLoop addr deadline fuel

def setPowerWithWake (fuel : Nat) (host : IpAddr) (port : UInt16) (wantOn : Bool)
    (mac : Option Mac) : Command SessionWire PowerOutput := do
  let first ← resultOf (setPower fuel host port wantOn)
  match mac, first with
  | some mac, .error e =>
      if wantOn && e.kind == .unreachable then do
        sendMagicPacket mac
        waitForPort fuel host port wolWait
        let out ← setPower fuel host port wantOn
        pure { out with wol := some true }
      else propagate first
  | _, _ => propagate first

end AtvRemote.Wake
