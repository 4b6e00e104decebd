import AtvRemote.Messages
import Mathlib.Data.List.Basic

namespace AtvRemote.Handshake

open Errors Messages

/-- PING, KEY, POWER and APP_LINK. -/
def features : Int32 := 1 ||| 2 ||| 32 ||| 512

def appVersion : String := "0.1.0"

structure SessionHandshake where
  power : Option Bool
  activeFeatures : Int32
  deriving DecidableEq, Repr

def SessionHandshake.new : SessionHandshake := ⟨none, features⟩

def remoteErrorReported : AtvError := .new .protocolError "TV reported a remote error"

/-- The result for the caller, and the state left behind. -/
def SessionHandshake.handle (hs : SessionHandshake) (msg : RemoteMessage) :
    Except AtvError (Option RemoteMessage) × SessionHandshake :=
  match msg.remoteConfigure with
  | some configure =>
      let code1 := if configure.code1 ≠ 0 then hs.activeFeatures &&& configure.code1
        else hs.activeFeatures
      (.ok (some { remoteConfigure := some {
          code1
          deviceInfo := some {
            model := ""
            vendor := ""
            unknown1 := 1
            unknown2 := "1"
            packageName := "atv"
            appVersion } } }),
        { hs with activeFeatures := code1 })
  | none =>
    if msg.remoteSetActive.isSome then
      (.ok (some { remoteSetActive := some { active := hs.activeFeatures } }), hs)
    else match msg.remotePingRequest with
    | some ping => (.ok (some { remotePingResponse := some { val1 := ping.val1 } }), hs)
    | none => match msg.remoteStart with
      | some start => (.ok none, { hs with power := some start.started })
      | none =>
        if msg.remoteError.isSome then (.error remoteErrorReported, hs)
        else (.ok none, hs)

/-- What a message counts as: the first of its fields that the handshake
looks at. -/
inductive Kind
  | configure (code1 : Int32)
  | setActive
  | ping (val1 : Int32)
  | start (started : Bool)
  | error
  | ignorable
  deriving DecidableEq, Repr

def kind (msg : RemoteMessage) : Kind :=
  match msg.remoteConfigure, msg.remoteSetActive, msg.remotePingRequest, msg.remoteStart,
    msg.remoteError with
  | some c, _, _, _, _ => .configure c.code1
  | none, some _, _, _, _ => .setActive
  | none, none, some p, _, _ => .ping p.val1
  | none, none, none, some s, _ => .start s.started
  | none, none, none, none, some _ => .error
  | none, none, none, none, none => .ignorable

def deviceInfo : RemoteDeviceInfo :=
  { unknown1 := 1, unknown2 := "1", packageName := "atv", appVersion }

def narrow (active : Int32) : Kind → Int32
  | .configure code1 => if code1 = 0 then active else active &&& code1
  | _ => active

def reply (active : Int32) : Kind → Option RemoteMessage
  | .configure _ => some { remoteConfigure := some ⟨active, some deviceInfo⟩ }
  | .setActive => some { remoteSetActive := some ⟨active⟩ }
  | .ping val1 => some { remotePingResponse := some ⟨val1⟩ }
  | .start _ | .error | .ignorable => none

def hear (power : Option Bool) : Kind → Option Bool
  | .start started => some started
  | _ => power

theorem handle_eq (hs : SessionHandshake) (msg : RemoteMessage) :
    hs.handle msg =
      (if kind msg = .error then .error remoteErrorReported
        else .ok (reply (narrow hs.activeFeatures (kind msg)) (kind msg)),
       ⟨hear hs.power (kind msg), narrow hs.activeFeatures (kind msg)⟩) := by
  obtain ⟨configure, setActive, remoteError, ping, pong, key, start, link, others⟩ := msg
  rcases configure with _ | c
  · rcases setActive with _ | a
    · rcases ping with _ | p
      · rcases start with _ | s
        · rcases remoteError with _ | e <;>
            simp [SessionHandshake.handle, kind, hear, narrow, reply]
        · simp [SessionHandshake.handle, kind, hear, narrow, reply]
      · simp [SessionHandshake.handle, kind, hear, narrow, reply]
    · simp [SessionHandshake.handle, kind, hear, narrow, reply]
  · by_cases h : c.code1 = 0 <;>
      simp [SessionHandshake.handle, kind, hear, narrow, reply, deviceInfo, h]

end AtvRemote.Handshake
