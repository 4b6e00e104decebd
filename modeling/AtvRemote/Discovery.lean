import AtvRemote.Clocks
import AtvRemote.SystemCalls
import AtvRemote.Texts

namespace AtvRemote.Discovery

open Programs Errors Texts Clocks
open SystemCalls (IpAddr)

def serviceType : String := "_androidtvremote2._tcp.local."

structure Device where
  name : String
  host : String
  port : UInt16
  deriving DecidableEq, Repr

structure DiscoverOutput where
  timestamp : String
  devices : List Device
  deriving DecidableEq, Repr

/-- What the mDNS library says of a service it has resolved. The addresses are
those of a set, in the order in which it is gone through. -/
structure ServiceInfo where
  fullname : String
  addresses : List IpAddr
  port : UInt16
  deriving DecidableEq, Repr

/-- An event other than a resolved service is never looked at. -/
inductive ServiceEvent
  | serviceResolved (info : ServiceInfo)
  | other
  deriving DecidableEq, Repr

inductive RecvTimeoutError
  | timeout
  | disconnected
  deriving DecidableEq, Repr

/-- What a browse asks of the mDNS library and the clock. -/
inductive BrowseOp
  | serviceDaemon
  | browse (serviceType : String)
  | now
  | recvTimeout (timeout : Duration)
  | shutdown
  | timestamp

@[reducible] def BrowseOp.Answer : BrowseOp → Type
  | .serviceDaemon | .browse _ => Except String Unit
  | .now => Instant
  | .recvTimeout _ => Except RecvTimeoutError ServiceEvent
  | .shutdown => Unit
  | .timestamp => String

abbrev Browsing : Signature := ⟨BrowseOp, BrowseOp.Answer⟩

def ask (o : BrowseOp) : Program Browsing Stop o.Answer := .call o .ret

def mdnsErr (what e : String) : AtvError := .new .protocolError s!"{what}: {e}"

def isIpv4 : IpAddr → Bool
  | .v4 _ => true
  | .v6 _ => false

def chosen (addrs : List IpAddr) : Option IpAddr := (addrs.find? isIpv4).or addrs.head?

def deviceName (fullname : String) : String :=
  (stripSuffix fullname s!".{serviceType}").getD fullname

def deviceOf (info : ServiceInfo) : Option Device :=
  (chosen info.addresses).map fun addr =>
    { name := deviceName info.fullname, host := addr.text, port := info.port }

def Device.key (d : Device) : String := s!"{d.host}:{d.port}"

/-- Devices by their keys, in the order of these. -/
abbrev Devices := Std.ExtTreeMap String Device

/-- The loop of `discover`: one round for each event. -/
def browseLoop (deadline : Instant) : Nat → Devices → Program Browsing Stop Devices
  | 0, _ => .fail .unfinished
  | fuel + 1, devices => do
      match (deadline.checkedDurationSince (← ask .now)).filter (fun d => !d.isZero) with
      | none => pure devices
      | some remaining =>
          match ← ask (.recvTimeout remaining) with
          | .ok (.serviceResolved info) =>
              match deviceOf info with
              | none => browseLoop deadline fuel devices
              | some device => browseLoop deadline fuel (devices.insert device.key device)
          | .ok .other => browseLoop deadline fuel devices
          | .error _ => pure devices

/-- The fuel bounds the rounds of the loop. -/
def discover (fuel : Nat) (timeoutSecs : UInt64) : Program Browsing Stop DiscoverOutput := do
  match ← ask .serviceDaemon with
  | .error e => .fail (.error (mdnsErr "mDNS daemon failed" e))
  | .ok () =>
      match ← ask (.browse serviceType) with
      | .error e => .fail (.error (mdnsErr "mDNS browse failed" e))
      | .ok () =>
          match (← ask .now).checkedAdd (.fromSecs timeoutSecs) with
          | none => .fail (.panic "overflow when adding duration to instant")
          | some deadline =>
              let devices ← browseLoop deadline fuel ∅
              ask .shutdown
              pure { timestamp := ← ask .timestamp, devices := devices.toList.map Prod.snd }

end AtvRemote.Discovery
