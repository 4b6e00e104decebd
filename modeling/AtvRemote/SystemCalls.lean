import AtvRemote.Messages

namespace AtvRemote.SystemCalls

open Programs Errors Messages

/-- Nanoseconds. -/
abbrev Duration := Nat

def fromMillis (n : Nat) : Duration := n * 1000000

def fromSecs (n : Nat) : Duration := n * 1000000000

/-- Nanoseconds since some fixed moment. -/
abbrev Instant := Nat

inductive IpAddr
  | v4 (octets : Vector UInt8 4)
  | v6 (segments : Vector UInt16 8)
  deriving DecidableEq, Repr

/-- Start and length of the first longest run of zero segments. -/
def longestZeros : Nat → Nat × Nat → Nat × Nat → List UInt16 → Nat × Nat
  | _, _, longest, [] => longest
  | i, current, longest, s :: rest =>
      if s = 0 then
        let current := (if current.2 = 0 then i else current.1, current.2 + 1)
        longestZeros (i + 1) current (if current.2 > longest.2 then current else longest) rest
      else longestZeros (i + 1) (0, 0) longest rest

def dotted (octets : List UInt8) : String :=
  ".".intercalate (octets.map (fun b => toString b.toNat))

def segmentText (segments : List UInt16) : String :=
  ":".intercalate (segments.map (fun s => String.ofList (Nat.toDigits 16 s.toNat)))

/-- `Display` of an address, with the zero run of an IPv6 address compressed
and an IPv4-mapped address shown in dotted form. -/
def IpAddr.text : IpAddr → String
  | .v4 octets => dotted octets.toList
  | .v6 segments =>
      let s := segments.toList
      if s.take 6 = [0, 0, 0, 0, 0, 0xffff] then
        "::ffff:" ++ dotted ((s.drop 6).flatMap (fun x : UInt16 => [(x >>> 8).toUInt8, x.toUInt8]))
      else
        let (start, len) := longestZeros 0 (0, 0) (0, 0) s
        if len > 1 then segmentText (s.take start) ++ "::" ++ segmentText (s.drop (start + len))
        else segmentText s

structure SocketAddr where
  ip : IpAddr
  port : UInt16
  deriving DecidableEq, Repr

def SocketAddr.text (a : SocketAddr) : String :=
  match a.ip with
  | .v4 _ => a.ip.text ++ ":" ++ toString a.port.toNat
  | .v6 _ => "[" ++ a.ip.text ++ "]:" ++ toString a.port.toNat

abbrev TcpStream := Nat

/-- A TLS session over a TCP stream, as `StreamOwned` pairs them. -/
structure Conn where
  sock : TcpStream
  deriving DecidableEq, Repr

/-- What the client asks of the world outside its own code and its
connections: the operating system, the TLS, X.509 and RSA libraries, the clock
and the terminal. -/
inductive HostOp
  | varOs (name : String)
  | isFile (path : String)
  | readFile (path : String)
  | createDirAll (path : String)
  | writeFile (path contents : String)
  | createKeyFile (path : String)
  | writeKeyFile (path contents : String)
  | rsaPrivateKey (bits : Nat)
  | toPkcs8Der (key : Bytes)
  | keyPairFromPkcs8 (der : Bytes)
  | selfSigned (commonName : String) (keyPair : Bytes)
  | toPem (label : String) (der : Bytes)
  | pemCerts (pem : Bytes)
  | pemPrivateKey (pem : Bytes)
  | safeDefaultProtocolVersions
  | clientAuthCert (certs : List Bytes) (key : Bytes)
  | connectTimeout (addr : SocketAddr) (timeout : Duration)
  | setReadTimeout (sock : TcpStream) (timeout : Duration)
  | setWriteTimeout (sock : TcpStream) (timeout : Duration)
  | setNodelay (sock : TcpStream)
  | clientConnection (serverName : IpAddr)
  | peerCertificates (conn : Conn)
  | udpBind
  | udpSetBroadcast
  | udpSendTo (packet : Bytes) (addr : SocketAddr)
  | sleep (d : Duration)
  | now
  | timestamp
  | eprintln (text : String)
  | readLine

@[reducible] def HostOp.Answer : HostOp → Type
  | .varOs _ => Option String
  | .isFile _ => Bool
  | .readFile _ => Except IoError Bytes
  | .createDirAll _ | .writeFile _ _ | .createKeyFile _ | .writeKeyFile _ _ => Except IoError Unit
  | .rsaPrivateKey _ | .toPkcs8Der _ | .keyPairFromPkcs8 _ => Except String Bytes
  | .selfSigned _ _ | .toPem _ _ => Except String String
  | .pemCerts _ => Except String (List Bytes)
  | .pemPrivateKey _ => Except String (Option Bytes)
  | .safeDefaultProtocolVersions | .clientAuthCert _ _ => Except String Unit
  | .connectTimeout _ _ => Except IoError TcpStream
  | .setReadTimeout _ _ | .setWriteTimeout _ _ | .setNodelay _ => Except IoError Unit
  | .clientConnection _ => Except String Unit
  | .peerCertificates _ => Option (List Bytes)
  | .udpBind | .udpSetBroadcast | .udpSendTo _ _ => Except IoError Unit
  | .sleep _ => Unit
  | .now => Instant
  | .timestamp => String
  | .eprintln _ => Unit
  | .readLine => Except IoError String

inductive SystemOp (W : Type)
  | wire (conn : Conn) (w : W)
  | host (o : HostOp)

@[reducible] def SystemOp.Answer {W : Type} (wireAnswer : W → Type) : SystemOp W → Type
  | .wire _ w => wireAnswer w
  | .host o => o.Answer

abbrev System (W : Signature) : Signature := ⟨SystemOp W.Op, SystemOp.Answer W.Answer⟩

inductive MessageOp (M : Type)
  | recv
  | send (m : M)

@[reducible] def MessageOp.Answer {M : Type} : MessageOp M → Type
  | .recv => Except IoError M
  | .send _ => Except IoError Unit

abbrev MessageWire (M : Type) : Signature := ⟨MessageOp M, MessageOp.Answer⟩

inductive ByteOp
  | read (n : Nat)
  | writeAll (bytes : Bytes)

/-- A read hands over at most as many bytes as it was asked for, and none at
the end of the stream. One that is interrupted is made again and is not listed. -/
@[reducible] def ByteOp.Answer : ByteOp → Type
  | .read n => Except IoError {bytes : Bytes // bytes.length ≤ n}
  | .writeAll _ => Except IoError Unit

abbrev ByteWire : Signature := ⟨ByteOp, ByteOp.Answer⟩

abbrev Command (W : Signature) (α : Type) := Program (System W) Stop α

variable {W : Signature} {M ε α : Type}

def raise (e : AtvError) : Command W α := .fail (.error e)

/-- The source's `.map_err(f)?`. -/
def orRaise (r : Except ε α) (f : ε → AtvError) : Command W α :=
  match r with
  | .ok a => pure a
  | .error e => raise (f e)

def propagate (r : Except AtvError α) : Command W α := orRaise r id

def okOrRaise (r : Option α) (e : AtvError) : Command W α :=
  match r with
  | some a => pure a
  | none => raise e

def expect (r : Option α) (text : String) : Command W α :=
  match r with
  | some a => pure a
  | none => .fail (.panic text)

/-- The result of a command as a value, as a `match` on it sees it. Only a
reported error can be caught. -/
def resultOf (p : Command W α) : Command W (Except AtvError α) := do
  match ← (p.attempt : Command W (Except Stop α)) with
  | .ok a => pure (.ok a)
  | .error (.error e) => pure (.error e)
  | .error stop => .fail stop

def request (o : SystemOp W.Op) : Command W (SystemOp.Answer W.Answer o) := .call o .ret

def ask (o : HostOp) : Command W o.Answer := request (.host o)

def readMessage (conn : Conn) : Command (MessageWire M) (Except IoError M) :=
  @request (MessageWire M) (.wire conn .recv)

def writeMessage (conn : Conn) (m : M) : Command (MessageWire M) (Except IoError Unit) :=
  @request (MessageWire M) (.wire conn (.send m))

def sleep (d : Duration) : Command W Unit := ask (.sleep d)

def now : Command W Instant := ask .now

def timestamp : Command W String := ask .timestamp

end AtvRemote.SystemCalls
