import AtvRemote.Programs

namespace AtvRemote.Errors

/-- Error kinds with the names and exit codes that callers rely on. -/
inductive ErrorKind
  | unreachable
  | notPaired
  | authRejected
  | pairingFailed
  | protocolError
  | configIo
  deriving DecidableEq, Repr

structure AtvError where
  kind : ErrorKind
  detail : String
  deriving DecidableEq, Repr

def AtvError.new (kind : ErrorKind) (detail : String) : AtvError := ⟨kind, detail⟩

def AtvError.exitCode (e : AtvError) : Nat :=
  match e.kind with
  | .protocolError | .configIo => 1
  | .unreachable => 3
  | .notPaired | .authRejected => 4
  | .pairingFailed => 5

/-- The stable part of `std::io::ErrorKind`. -/
inductive IoErrorKind
  | notFound
  | permissionDenied
  | connectionRefused
  | connectionReset
  | hostUnreachable
  | networkUnreachable
  | connectionAborted
  | notConnected
  | addrInUse
  | addrNotAvailable
  | networkDown
  | brokenPipe
  | alreadyExists
  | wouldBlock
  | invalidInput
  | invalidData
  | timedOut
  | writeZero
  | interrupted
  | unsupported
  | unexpectedEof
  | outOfMemory
  | other
  deriving DecidableEq, Repr

structure IoError where
  kind : IoErrorKind
  text : String
  deriving DecidableEq, Repr

instance : ToString IoError := ⟨IoError.text⟩

/-- Why a command stops before it returns: it reports an error, it panics, or
a loop of it is still going when the number of rounds we follow is used up. -/
inductive Stop
  | error (e : AtvError)
  | panic (text : String)
  | unfinished
  deriving DecidableEq, Repr

end AtvRemote.Errors
