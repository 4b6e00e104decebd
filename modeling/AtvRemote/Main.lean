import AtvRemote.Output
import AtvRemote.PingAnswers

namespace AtvRemote.Main

open Programs Errors Messages SystemCalls Session Pairing Discovery Wake JsonTexts Output
open Serialize

def pairingPort : UInt16 := 6467

def sessionPort : UInt16 := 6466

structure HostArgs where
  host : IpAddr
  port : Option UInt16
  deriving DecidableEq, Repr

structure OnArgs where
  target : HostArgs
  mac : Option Mac
  deriving DecidableEq, Repr

structure KeyArgs where
  target : HostArgs
  keys : List Int32
  deriving DecidableEq, Repr

structure LaunchArgs where
  target : HostArgs
  appLink : String
  deriving DecidableEq, Repr

structure DiscoverArgs where
  timeout : UInt64
  deriving DecidableEq, Repr

/-- A command line that was accepted. -/
inductive Command
  | pair (args : HostArgs)
  | status (args : HostArgs)
  | on (args : OnArgs)
  | off (args : HostArgs)
  | key (args : KeyArgs)
  | launch (args : LaunchArgs)
  | discover (args : DiscoverArgs)
  deriving DecidableEq, Repr

def Command.args : Command → Option HostArgs
  | .pair a | .status a | .off a => some a
  | .on o => some o.target
  | .key k => some k.target
  | .launch l => some l.target
  | .discover _ => none

def Command.port (command : Command) : UInt16 :=
  let default := match command with
    | .pair _ => pairingPort
    | _ => sessionPort
  (command.args.bind HostArgs.port).getD default

inductive WireOp
  | pairing (w : MessageOp OuterMessage)
  | session (w : MessageOp RemoteMessage)

@[reducible] def WireOp.Answer : WireOp → Type
  | .pairing w => w.Answer
  | .session w => w.Answer

/-- What the whole process asks of its surroundings. -/
inductive ProcessOp
  | system (o : SystemOp WireOp)
  | browsing (o : BrowseOp)
  | writeln (text : String)
  | flush
  | eprintln (text : String)

@[reducible] def ProcessOp.Answer : ProcessOp → Type
  | .system o => SystemOp.Answer WireOp.Answer o
  | .browsing o => o.Answer
  | .writeln _ | .flush | .eprintln _ => Except IoError Unit

abbrev Surroundings : Signature := ⟨ProcessOp, ProcessOp.Answer⟩

abbrev Process (α : Type) := Program Surroundings Stop α

def request (o : ProcessOp) : Process o.Answer := .call o .ret

/-- The macro panics if the standard error stream is closed. -/
def eprintln (text : String) : Process Unit := do
  match ← request (.eprintln text) with
  | .ok _ => pure ()
  | .error e => .fail (.panic s!"failed printing to stderr: {e}")

def onHost : (o : HostOp) → Process o.Answer
  | .eprintln text => eprintln text
  | o => request (.system (.host o))

def ofPairing :
    (o : SystemOp (MessageOp OuterMessage)) → Process (SystemOp.Answer MessageOp.Answer o)
  | .wire conn w => request (.system (.wire conn (.pairing w)))
  | .host o => onHost o

def ofSession :
    (o : SystemOp (MessageOp RemoteMessage)) → Process (SystemOp.Answer MessageOp.Answer o)
  | .wire conn w => request (.system (.wire conn (.session w)))
  | .host o => onHost o

def ofBrowsing (o : BrowseOp) : Process o.Answer := request (.browsing o)

section Run

variable (lib : Library) (json : SerdeJson)

/-- The results of the two writes are not looked at. -/
def emit {α : Type} [Serialize α] (value : α) : Process Unit := do
  let _ ← request (.writeln (json.toString (serialize value)))
  let _ ← request .flush

/-- The fuel bounds the rounds of each loop that others drive. -/
def run (fuel : Nat) (command : Command) : Process Unit := do
  let port := command.port
  match command with
  | .pair args =>
      let out ← (pair lib fuel args.host port).translate ofPairing
      emit json out
  | .status args =>
      let out ← (status fuel args.host port).translate ofSession
      emit json out
  | .on args =>
      let out ← (setPowerWithWake fuel args.target.host port true args.mac).translate ofSession
      emit json out
  | .off args =>
      let out ← (setPower fuel args.host port false).translate ofSession
      emit json out
  | .key args =>
      let out ← (sendKeys fuel args.target.host port args.keys).translate ofSession
      emit json out
  | .launch args =>
      let out ← (sendAppLink fuel args.target.host port args.appLink).translate ofSession
      emit json out
  | .discover args =>
      let out ← (discover fuel args.timeout).translate ofBrowsing
      emit json out

/-- The exit code of the process, unless it panics. -/
def main (fuel : Nat) (command : Command) : Process Nat := do
  match ← ((run lib json fuel command).attempt : Process (Except Stop Unit)) with
  | .ok () => pure 0
  | .error (.error e) =>
      eprintln (toJson json e)
      pure e.exitCode
  | .error stop => .fail stop

end Run

end AtvRemote.Main
