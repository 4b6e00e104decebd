import AtvRemote.SystemCalls

namespace AtvRemote.Credentials

open Programs Errors Messages SystemCalls

variable {W : Signature}

def join (dir name : String) : String :=
  if dir.isEmpty || dir.endsWith "/" then dir ++ name else dir ++ "/" ++ name

/-- The credential directory from three environment values in order of
priority. Empty values count as unset. -/
def resolveCredentialDir (atvConfigDir xdgConfigHome home : Option String) :
    Except AtvError String :=
  let set (v : Option String) := v.filter (fun s => !s.isEmpty)
  match set atvConfigDir, set xdgConfigHome, set home with
  | some dir, _, _ => .ok dir
  | none, some xdg, _ => .ok (join xdg "atv")
  | none, none, some home => .ok (join (join home ".config") "atv")
  | none, none, none => .error (.new .configIo
      "cannot resolve credential directory — none of ATV_CONFIG_DIR, XDG_CONFIG_HOME, HOME are set")

def credentialDirFromEnv : Command W String := do
  let atvConfigDir ← ask (.varOs "ATV_CONFIG_DIR")
  let xdgConfigHome ← ask (.varOs "XDG_CONFIG_HOME")
  let home ← ask (.varOs "HOME")
  propagate (resolveCredentialDir atvConfigDir xdgConfigHome home)

/-- Both files of the store are looked up, the key only after the certificate
was found. -/
def bothFiles (cert key : String) : Command W Bool := do
  let hasCert : Bool ← ask (.isFile cert)
  if hasCert then ask (.isFile key) else pure false

def ensurePaired (dir : String) : Command W Unit := do
  let found ← bothFiles (join dir "cert.pem") (join dir "key.pem")
  if found then pure ()
  else raise (.new .notPaired
    s!"no client certificate in {dir} — run `atv pair --host <ip>` first")

structure TlsClient where
  clientCertDer : Bytes
  certs : List Bytes
  key : Bytes
  deriving DecidableEq, Repr

def TlsClient.fromCredentialDir (dir : String) : Command W TlsClient := do
  ensurePaired dir
  let certPem ← orRaise (← ask (.readFile (join dir "cert.pem")))
    (fun e => .new .configIo s!"cannot read cert.pem: {e}")
  let keyPem ← orRaise (← ask (.readFile (join dir "key.pem")))
    (fun e => .new .configIo s!"cannot read key.pem: {e}")
  let certs ← orRaise (← ask (.pemCerts certPem))
    (fun e => .new .configIo s!"cert.pem is not valid PEM: {e}")
  let key ← orRaise (← ask (.pemPrivateKey keyPem))
    (fun e => .new .configIo s!"key.pem is not valid PEM: {e}")
  let key ← okOrRaise key (.new .configIo "key.pem contains no private key")
  let clientCertDer ← okOrRaise certs.head? (.new .configIo "cert.pem contains no certificate")
  orRaise (← ask .safeDefaultProtocolVersions) (fun e => .new .configIo s!"TLS config: {e}")
  orRaise (← ask (.clientAuthCert certs key))
    (fun e => .new .configIo s!"client cert rejected by rustls: {e}")
  pure ⟨clientCertDer, certs, key⟩

def unreachable (addr : SocketAddr) (e : IoError) : AtvError :=
  .new .unreachable s!"{addr.text} unreachable — TV powered off without network standby? ({e})"

def TlsClient.connect (_tls : TlsClient) (host : IpAddr) (port : UInt16) (timeout : Duration) :
    Command W Conn := do
  let addr : SocketAddr := ⟨host, port⟩
  let tcp ← orRaise (← ask (.connectTimeout addr timeout)) (unreachable addr)
  orRaise (← ask (.setReadTimeout tcp (fromSecs 10))) (unreachable addr)
  orRaise (← ask (.setWriteTimeout tcp (fromSecs 10))) (unreachable addr)
  let _ ← ask (.setNodelay tcp)
  orRaise (← ask (.clientConnection host)) (fun e => .new .protocolError s!"TLS setup failed: {e}")
  pure ⟨tcp⟩

def peerCertDer (conn : Conn) : Command W Bytes := do
  let certs ← ask (.peerCertificates conn)
  okOrRaise (certs.bind List.head?) (.new .protocolError "server sent no certificate")

def generateIdentity : Command W (String × String) := do
  let key ← orRaise (← ask (.rsaPrivateKey 2048))
    (fun e => .new .configIo s!"RSA key generation failed: {e}")
  let keyDer ← orRaise (← ask (.toPkcs8Der key))
    (fun e => .new .configIo s!"PKCS#8 encoding failed: {e}")
  let keyPair ← orRaise (← ask (.keyPairFromPkcs8 keyDer))
    (fun e => .new .configIo s!"rcgen key import failed: {e}")
  let certPem ← orRaise (← ask (.selfSigned "atv" keyPair))
    (fun e => .new .configIo s!"certificate build failed: {e}")
  let keyPem ← orRaise (← ask (.toPem "PRIVATE KEY" keyDer))
    (fun e => .new .configIo s!"PEM encoding failed: {e}")
  pure (certPem, keyPem)

/-- The key file is created with mode 0600, so it is never readable wider. -/
def writeKeyFile (path contents : String) : Command W Unit := do
  orRaise (← ask (.createKeyFile path)) (fun e => .new .configIo s!"cannot create {path}: {e}")
  orRaise (← ask (.writeKeyFile path contents))
    (fun e => .new .configIo s!"cannot write {path}: {e}")

/-- Keep an existing pair of files, judged by existence only; otherwise write
a new identity, the certificate first. -/
def ensureIdentity (dir : String) : Command W Unit := do
  let certPath := join dir "cert.pem"
  let keyPath := join dir "key.pem"
  let found ← bothFiles certPath keyPath
  if found then pure ()
  else do
    orRaise (← ask (.createDirAll dir)) (fun e => .new .configIo s!"cannot create {dir}: {e}")
    let (certPem, keyPem) ← generateIdentity
    orRaise (← ask (.writeFile certPath certPem))
      (fun e => .new .configIo s!"cannot write {certPath}: {e}")
    writeKeyFile keyPath keyPem

end AtvRemote.Credentials
