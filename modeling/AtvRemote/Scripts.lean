import AtvRemote.SystemCalls

namespace AtvRemote.Scripts

open Programs Errors Messages SystemCalls

/-- What the surroundings still have in store for a client with a valid
identity on disk. Connections are refused once `connects` has run out, reads
then meet the end of the stream, and writes succeed. -/
structure Script (M : Type) where
  connects : List (Except IoError TcpStream) := []
  inbox : List (Except IoError M) := []
  sends : List (Except IoError Unit) := []
  lines : List (Except IoError String) := []
  peer : Option (List Bytes) := none
  clock : Instant := 0

def refused : IoError := ⟨.connectionRefused, "Connection refused (os error 111)"⟩

def endOfStream : IoError := ⟨.unexpectedEof, "failed to fill whole buffer"⟩

def livingRoom : IpAddr := .v4 #v[192, 168, 1, 20]

variable {M : Type}

def Script.hostAnswer : (o : HostOp) → Script M → o.Answer × Script M
  | .varOs _, s => (some "/home/tv", s)
  | .isFile _, s => (true, s)
  | .readFile _, s => (.ok [], s)
  | .createDirAll _, s | .writeFile _ _, s | .createKeyFile _, s | .writeKeyFile _ _, s =>
      (.ok (), s)
  | .rsaPrivateKey _, s | .toPkcs8Der _, s | .keyPairFromPkcs8 _, s => (.ok [], s)
  | .selfSigned _ _, s | .toPem _ _, s => (.ok "", s)
  | .pemCerts _, s => (.ok [[]], s)
  | .pemPrivateKey _, s => (.ok (some []), s)
  | .safeDefaultProtocolVersions, s | .clientAuthCert _ _, s => (.ok (), s)
  | .connectTimeout _ _, s =>
      (s.connects.headD (.error refused), { s with connects := s.connects.tail })
  | .setReadTimeout _ _, s | .setWriteTimeout _ _, s | .setNodelay _, s => (.ok (), s)
  | .clientConnection _, s => (.ok (), s)
  | .peerCertificates _, s => (s.peer, s)
  | .udpBind, s | .udpSetBroadcast, s | .udpSendTo _ _, s => (.ok (), s)
  | .sleep d, s => ((), { s with clock := s.clock + d })
  | .now, s => (s.clock, s)
  | .timestamp, s => ("", s)
  | .eprintln _, s => ((), s)
  | .readLine, s => (s.lines.headD (.ok ""), { s with lines := s.lines.tail })

def Script.answer : (o : SystemOp (MessageOp M)) → Script M →
    SystemOp.Answer MessageOp.Answer o × Script M
  | .wire _ .recv, s => (s.inbox.headD (.error endOfStream), { s with inbox := s.inbox.tail })
  | .wire _ (.send _), s => (s.sends.headD (.ok ()), { s with sends := s.sends.tail })
  | .host o, s => s.hostAnswer o

def started (power : Bool) : Except IoError RemoteMessage := .ok { remoteStart := some ⟨power⟩ }

abbrev Script.play {α : Type} (s : Script M) (p : Command (MessageWire M) α) :
    Trace (System (MessageWire M)) × Except Stop α × Script M :=
  p.exec (S := System (MessageWire M)) Script.answer s

theorem Script.run_play {α : Type} (s : Script M) (p : Command (MessageWire M) α) :
    Run p (s.play p).1 (s.play p).2.1 := run_exec _ p s

end AtvRemote.Scripts
