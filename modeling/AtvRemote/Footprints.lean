import AtvRemote.PairingRuns
import AtvRemote.PingAnswers

namespace AtvRemote.Footprints

open Programs Contracts CommandRules CredentialRules Errors Messages SystemCalls Credentials
  Handshake Session SessionRules Pairing
  PairingRuns Wake PingAnswers

/-- What a command may reach: one address, the messages it may send there, the
device it may wake, and whether it may store an identity and ask the user. -/
structure Footprint (M : Type) where
  target : SocketAddr
  sends : M → Prop
  mac : Option Mac := none
  pairs : Bool := false

variable {M : Type}

/-- An event that stays within the footprint. -/
def Within (fp : Footprint M) : Event (System (MessageWire M)) → Prop
  | ⟨.wire _ (.send m), _⟩ => fp.sends m
  | ⟨.host (.connectTimeout addr _), _⟩ => addr = fp.target
  | ⟨.host .udpBind, _⟩ | ⟨.host .udpSetBroadcast, _⟩ => fp.mac.isSome = true
  | ⟨.host (.udpSendTo packet addr), _⟩ =>
      (packet, addr) ∈ fp.mac.map fun mac => (magicPacket mac, broadcastAddr)
  | ⟨.host (.createDirAll _), _⟩ | ⟨.host (.writeFile _ _), _⟩ | ⟨.host (.createKeyFile _), _⟩
  | ⟨.host (.writeKeyFile _ _), _⟩ | ⟨.host (.rsaPrivateKey _), _⟩ | ⟨.host (.toPkcs8Der _), _⟩
  | ⟨.host (.keyPairFromPkcs8 _), _⟩ | ⟨.host (.selfSigned _ _), _⟩ | ⟨.host (.toPem _ _), _⟩
  | ⟨.host (.peerCertificates _), _⟩ | ⟨.host .readLine, _⟩ => fp.pairs = true
  | ⟨.host (.eprintln text), _⟩ =>
      fp.pairs = true ∧ text = "Enter the 6-digit code shown on the TV:"
  | _ => True

section Credentials

variable {fp : Footprint M}

theorem bothFiles_within (cert key : String) :
    Throughout (Within fp) (bothFiles cert key : Command (MessageWire M) Bool) :=
  throughout_request_bind.mpr fun found => ⟨trivial, by cases found <;> simp [ask, request, Within]⟩

theorem credentialDirFromEnv_within :
    Throughout (Within fp) (credentialDirFromEnv : Command (MessageWire M) String) := by
  simp [credentialDirFromEnv, ask, request, Within]

theorem fromCredentialDir_within (dir : String) :
    Throughout (Within fp)
      (TlsClient.fromCredentialDir dir : Command (MessageWire M) TlsClient) := by
  have hpaired : Throughout (Within fp) (ensurePaired dir : Command (MessageWire M) Unit) :=
    (bothFiles_within _ _).bind fun found => by cases found <;> simp
  apply hpaired.bind
  intro _
  simp [ask, request, Within]

theorem connect_within (tls : TlsClient) (timeout : Duration) :
    Throughout (Within fp) (tls.connect fp.target.ip fp.target.port timeout : Command
      (MessageWire M) Conn) := by
  simp [TlsClient.connect, ask, request, Within]

theorem ensureIdentity_within (hpairs : fp.pairs = true) (dir : String) :
    Throughout (Within fp) (ensureIdentity dir : Command (MessageWire M) Unit) := by
  have hgenerate :
      Throughout (Within fp) (generateIdentity : Command (MessageWire M) (String × String)) := by
    simp [generateIdentity, ask, request, Within, hpairs]
  have hkey (path contents : String) :
      Throughout (Within fp) (writeKeyFile path contents : Command (MessageWire M) Unit) := by
    simp [writeKeyFile, ask, request, Within, hpairs]
  apply (bothFiles_within _ _).bind
  intro found
  cases found with
  | true => trivial
  | false =>
      refine throughout_request_bind.mpr fun x =>
        ⟨hpairs, throughout_orRaise_bind.mpr fun _ _ => ?_⟩
      apply hgenerate.bind
      rintro ⟨certPem, keyPem⟩
      refine throughout_request_bind.mpr fun y =>
        ⟨hpairs, throughout_orRaise_bind.mpr fun _ _ => ?_⟩
      exact hkey _ _

end Credentials

section Session

variable {J : (α : Type) → Command SessionWire α → Prop} {ok : SystemOp (MessageOp RemoteMessage) →
  Prop} {host : IpAddr} {port : UInt16}

/-- What the commands do on an open session, but for the messages of their own. -/
structure Admits (ok : SystemOp (MessageOp RemoteMessage) → Prop) : Prop where
  recv (conn : Conn) : ok (.wire conn .recv)
  reply (conn : Conn) (active : Int32) (k : Kind) (m : RemoteMessage)
    (h : reply active k = some m) : ok (.wire conn (.send m))
  setReadTimeout (sock : TcpStream) (timeout : Duration) : ok (.host (.setReadTimeout sock timeout))
  sleep (d : Duration) : ok (.host (.sleep d))
  now : ok (.host .now)
  timestamp : ok (.host .timestamp)

variable (hJ : Closed SessionWire J ok) (hok : Admits ok) (hopen : J Conn (openSession host port))
include hJ hok

theorem readPowerLoop_closed (conn : Conn) (fuel : Nat) (hs : SessionHandshake) (any : Bool) :
    J SessionHandshake (readPowerLoop conn fuel hs any) := by
  induction fuel generalizing hs any with
  | zero => exact hJ.fail _
  | succ fuel ih =>
      rw [readPowerLoop]
      split
      · apply hJ.ask (hok.recv conn)
        intro x
        apply hJ.bind (hJ.orRaise _ _)
        intro m
        simp only [Handshake.handle_eq]
        by_cases he : kind m = .error
        · rw [if_pos he]
          exact hJ.fail _
        · rw [if_neg he]
          cases hr : reply (narrow hs.activeFeatures (kind m)) (kind m) with
          | none => exact ih _ _
          | some r =>
              exact hJ.ask (hok.reply conn _ _ _ hr) fun y => hJ.bind
                (hJ.orRaise _ _) fun _ => ih _ _
      · exact hJ.pure _

theorem confirmLoop_closed (conn : Conn) (wantOn : Bool) (deadline : Instant) (fuel : Nat)
    (hs : SessionHandshake) :
    J SessionHandshake (confirmLoop conn wantOn deadline fuel hs) := by
  induction fuel generalizing hs with
  | zero => exact hJ.fail _
  | succ fuel ih =>
      apply hJ.ask hok.now
      intro now
      split
      · apply hJ.ask (hok.recv conn)
        intro x
        cases x with
        | error e => exact hJ.pure _
        | ok m =>
            have hround (hs : SessionHandshake) : J SessionHandshake
                (if hs.power = some wantOn then pure hs
                  else confirmLoop conn wantOn deadline fuel hs) := by
              split
              · exact hJ.pure _
              · exact ih hs
            simp only [Handshake.handle_eq]
            by_cases he : kind m = .error
            · rw [if_pos he]
              exact hround (next hs (kind m))
            · rw [if_neg he]
              cases hr : reply (narrow hs.activeFeatures (kind m)) (kind m) with
              | none => exact hround (next hs (kind m))
              | some r => exact hJ.ask (hok.reply conn _ _ _ hr) fun y => hround (next hs (kind m))
      · exact hJ.pure _

theorem sendPresses_closed (conn : Conn) {keys : List Int32}
    (hkeys : ∀ code ∈ keys, ok (.wire conn (.send (keyMessage code)))) (i : Nat) :
    J Unit (sendPresses conn i keys) := by
  induction keys generalizing i with
  | nil => exact hJ.pure _
  | cons code keys ih =>
      obtain ⟨hcode, hkeys⟩ := List.forall_mem_cons.mp hkeys
      have hpress : J Unit (do
          orRaise (← writeMessage conn (keyMessage code)) (keyFailed code)
          sendPresses conn (i + 1) keys) :=
            hJ.ask hcode fun _ => hJ.bind (hJ.orRaise _ _) fun _ => ih hkeys _
      rw [sendPresses]
      split
      · exact hJ.ask (hok.sleep _) fun _ => hpress
      · exact hpress

include hopen

theorem readPower_closed (fuel : Nat) :
    J (Bool × Conn × SessionHandshake) (readPower fuel host port) := by
  apply hJ.bind hopen
  intro conn
  apply hJ.bind (readPowerLoop_closed hJ hok conn fuel _ _)
  intro hs
  exact hJ.bind (hJ.expect _ _) fun _ => hJ.pure _

theorem status_closed (fuel : Nat) : J StatusOutput (status fuel host port) :=
  hJ.bind (readPower_closed hJ hok hopen fuel) fun _ => hJ.ask hok.timestamp fun _ => hJ.pure _

theorem sendKeys_closed {keys : List Int32}
    (hkeys : ∀ conn, ∀ code ∈ keys, ok (.wire conn (.send (keyMessage code)))) (fuel : Nat) :
    J KeysOutput (sendKeys fuel host port keys) := by
  apply hJ.bind (readPower_closed hJ hok hopen fuel)
  rintro ⟨_, conn, _⟩
  apply hJ.ask (hok.sleep _)
  intro _
  apply hJ.bind (sendPresses_closed hJ hok conn (hkeys conn) 0)
  intro _
  exact hJ.ask (hok.sleep _) fun _ => hJ.ask hok.timestamp fun _ => hJ.pure _

theorem sendAppLink_closed {appLink : String}
    (hlink : ∀ conn, ok (.wire conn (.send (appLinkMessage appLink)))) (fuel : Nat) :
    J LaunchOutput (sendAppLink fuel host port appLink) := by
  apply hJ.bind (readPower_closed hJ hok hopen fuel)
  rintro ⟨_, conn, _⟩
  apply hJ.ask (hok.sleep _)
  intro _
  apply hJ.ask (hlink conn)
  intro x
  apply hJ.bind (hJ.orRaise _ _)
  intro _
  exact hJ.ask (hok.sleep _) fun _ => hJ.ask hok.timestamp fun _ => hJ.pure _

section Power

variable (hkey : ∀ conn, ok (.wire conn (.send powerKeyMessage)))
include hkey

theorem pressPowerOnce_closed (fuel : Nat) (wantOn : Bool) :
    J PowerAttempt (pressPowerOnce fuel host port wantOn) := by
  apply hJ.bind (readPower_closed hJ hok hopen fuel)
  rintro ⟨current, conn, hs⟩
  dsimp only
  split
  · apply hJ.ask (hok.sleep _)
    intro _
    apply hJ.ask (hkey conn)
    intro x
    apply hJ.bind (hJ.orRaise _ _)
    intro _
    apply hJ.ask (hok.setReadTimeout _ _)
    intro _
    apply hJ.ask hok.now
    intro now
    exact hJ.bind (confirmLoop_closed hJ hok _ _ _ _ _) fun hs => hJ.pure _
  · exact hJ.pure _

theorem retryPowerOn_closed (fuel : Nat) (wantOn : Bool) (left : Nat) (attempt : PowerAttempt)
    (changed : Bool) :
    J (PowerAttempt × Bool) (retryPowerOn fuel host port wantOn left attempt changed) := by
  induction left generalizing attempt changed with
  | zero => exact hJ.pure _
  | succ left ih =>
      rw [retryPowerOn]
      split
      · apply hJ.ask (hok.sleep _)
        intro _
        apply hJ.bind (hJ.resultOf (pressPowerOnce_closed hJ hok hopen hkey fuel wantOn))
        intro r
        cases r with
        | ok next => exact ih next _
        | error e => exact hJ.pure _
      · exact hJ.pure _

theorem setPower_closed (fuel : Nat) (wantOn : Bool) :
    J PowerOutput (setPower fuel host port wantOn) := by
  apply hJ.bind (pressPowerOnce_closed hJ hok hopen hkey fuel wantOn)
  intro attempt
  apply hJ.bind (retryPowerOn_closed hJ hok hopen hkey fuel wantOn _ attempt _)
  intro _
  exact hJ.ask hok.timestamp fun _ => hJ.pure _

/-- What the fallback does to wake a device. -/
structure AdmitsWake (ok : SystemOp (MessageOp RemoteMessage) → Prop) (addr : SocketAddr)
    (mac : Mac) : Prop where
  udpBind : ok (.host .udpBind)
  udpSetBroadcast : ok (.host .udpSetBroadcast)
  udpSendTo : ok (.host (.udpSendTo (magicPacket mac) broadcastAddr))
  probe (timeout : Duration) : ok (.host (.connectTimeout addr timeout))

theorem setPowerWithWake_closed {mac : Option Mac} (hwake : ∀ m ∈ mac, AdmitsWake ok ⟨host, port⟩ m)
    (fuel : Nat) (wantOn : Bool) :
    J PowerOutput (setPowerWithWake fuel host port wantOn mac) := by
  apply hJ.bind (hJ.resultOf (setPower_closed hJ hok hopen hkey fuel wantOn))
  intro first
  split
  next mac e =>
    obtain ⟨hbind, hbroadcast, hsend, hprobe⟩ := hwake mac rfl
    split
    · have hpacket : J Unit (sendMagicPacket mac) := by
        apply hJ.ask hbind
        intro x
        apply hJ.bind (hJ.orRaise _ _)
        intro _
        apply hJ.ask hbroadcast
        intro y
        apply hJ.bind (hJ.orRaise _ _)
        intro _
        exact hJ.ask hsend fun z => hJ.orRaise _ _
      have hwait (deadline : Instant) : J Unit (waitLoop ⟨host, port⟩ deadline fuel) := by
        induction fuel with
        | zero => exact hJ.fail _
        | succ fuel ih =>
            apply hJ.ask hok.now
            intro now
            split
            · apply hJ.ask (hprobe _)
              intro x
              cases x with
              | ok sock => exact hJ.pure _
              | error e => exact hJ.ask (hok.sleep _) fun _ => ih
            · exact hJ.fail _
      apply hJ.bind hpacket
      intro _
      apply hJ.bind (hJ.ask hok.now fun now => hwait _)
      intro _
      exact hJ.bind (setPower_closed hJ hok hopen hkey fuel wantOn) fun out => hJ.pure _
    · exact hJ.orRaise _ _
  next => exact hJ.orRaise _ _

end Power

end Session

section Pairing

variable {J : (α : Type) → Command PairingWire α → Prop} {ok : SystemOp (MessageOp OuterMessage) →
  Prop} {lib : Library} {host : IpAddr}
  {port : UInt16}

/-- What `pair` does on an open connection. -/
structure AdmitsPairing (ok : SystemOp (MessageOp OuterMessage) → Prop) : Prop where
  recv (conn : Conn) : ok (.wire conn .recv)
  send (conn : Conn) (m : OuterMessage) : ok (.wire conn (.send m))
  prompt : ok (.host (.eprintln "Enter the 6-digit code shown on the TV:"))
  readLine : ok (.host .readLine)
  peerCertificates (conn : Conn) : ok (.host (.peerCertificates conn))
  timestamp : ok (.host .timestamp)

variable (hJ : Closed PairingWire J ok) (hok : AdmitsPairing ok)
include hJ hok

theorem pairLoop_closed (conn : Conn) (fuel : Nat) (flow : PairingFlow) :
    J PairingFlow (pairLoop conn fuel flow) := by
  induction fuel generalizing flow with
  | zero => exact hJ.fail _
  | succ fuel ih =>
      rw [pairLoop]
      split
      · apply hJ.ask (hok.recv conn)
        intro x
        apply hJ.bind (hJ.orRaise _ _)
        intro m
        apply hJ.bind (hJ.orRaise _ _)
        intro answer
        cases answer with
        | none => exact ih _
        | some r => exact hJ.ask (hok.send conn r) fun y => hJ.bind (hJ.orRaise _ _) fun _ => ih _
      · exact hJ.pure _

theorem readSecret_closed (tls : TlsClient) (conn : Conn) : J Bytes (readSecret lib tls conn) := by
  apply hJ.ask hok.prompt
  intro _
  apply hJ.ask hok.readLine
  intro x
  apply hJ.bind (hJ.orRaise _ _)
  intro line
  apply hJ.bind (hJ.ask (hok.peerCertificates conn) fun certs => hJ.okOrRaise _ _)
  intro serverDer
  split
  · exact hJ.pure _
  · exact hJ.fail _

theorem pair_closed (hopen : J (TlsClient × Conn) (openPairing host port)) (fuel : Nat) :
    J PairOutput (pair lib fuel host port) := by
  apply hJ.bind hopen
  rintro ⟨tls, conn⟩
  apply hJ.ask (hok.send conn _)
  intro x
  apply hJ.bind (hJ.orRaise _ _)
  intro _
  apply hJ.bind (pairLoop_closed hJ hok conn fuel _)
  intro flow
  apply hJ.bind (readSecret_closed hJ hok tls conn)
  intro secret
  apply hJ.ask (hok.send conn _)
  intro y
  apply hJ.bind (hJ.orRaise _ _)
  intro _
  apply hJ.ask (hok.recv conn)
  intro z
  apply hJ.bind (hJ.orRaise _ _)
  intro ack
  exact hJ.bind (hJ.orRaise _ _) fun _ => hJ.ask hok.timestamp fun _ => hJ.pure _

end Pairing

/-- The messages of the command itself, next to the replies of the handshake. -/
def ownMessages : SessionCommand → RemoteMessage → Prop
  | .status, _ => False
  | .on _, m | .off, m => m = powerKeyMessage
  | .key keys, m => ∃ code ∈ keys, m = keyMessage code
  | .launch appLink, m => m = appLinkMessage appLink

def sessionFootprint (target : SocketAddr) (command : SessionCommand) :
    Footprint RemoteMessage where
  target
  sends m := (∃ active k, reply active k = some m) ∨ ownMessages command m
  mac := match command with
    | .on mac => mac
    | _ => none

def pairFootprint (target : SocketAddr) : Footprint OuterMessage where
  target
  sends _ := True
  pairs := true

/-- The commands do nothing but what their parts do. -/
theorem session_closed {J : (α : Type) → Command SessionWire α → Prop}
    {ok : SystemOp (MessageOp RemoteMessage) → Prop} {host : IpAddr}
    {port : UInt16} (hJ : Closed SessionWire J ok) (hok : Admits ok)
    (hopen : J Conn (openSession host port)) {command : SessionCommand}
    (hown : ∀ conn m, ownMessages command m → ok (.wire conn (.send m)))
    (hwake : ∀ mac, command = .on (some mac) → AdmitsWake ok ⟨host, port⟩ mac) (fuel : Nat) :
    J SessionOutput (command.run fuel host port) := by
  cases command with
  | status => exact hJ.bind (status_closed hJ hok hopen fuel) fun _ => hJ.pure _
  | on mac =>
      have hwake : ∀ m ∈ mac, AdmitsWake ok ⟨host, port⟩ m := by
        rintro m rfl
        exact hwake m rfl
      exact hJ.bind
        (setPowerWithWake_closed hJ hok hopen (fun conn => hown conn _ rfl) hwake fuel true)
        fun _ => hJ.pure _
  | off =>
      exact hJ.bind (setPower_closed hJ hok hopen (fun conn => hown conn _ rfl) fuel false)
        fun _ => hJ.pure _
  | key keys =>
      exact hJ.bind
        (sendKeys_closed hJ hok hopen (fun conn code hcode => hown conn _ ⟨code, hcode, rfl⟩) fuel)
        fun _ => hJ.pure _
  | launch appLink =>
      exact hJ.bind (sendAppLink_closed hJ hok hopen (fun conn => hown conn _ rfl) fuel)
        fun _ => hJ.pure _

section Within

variable {lib : Library}

theorem session_within (target : SocketAddr) (command : SessionCommand) (fuel : Nat) :
    Throughout (Within (sessionFootprint target command))
      (command.run fuel target.ip target.port) := by
  have hopen : Throughout (Within (sessionFootprint target command))
      (openSession target.ip target.port) := by
    apply credentialDirFromEnv_within.bind
    intro dir
    apply (fromCredentialDir_within dir).bind
    intro tls
    exact connect_within tls _
  refine session_closed closed_throughout ?_ hopen (fun _ _ hown _ => .inr hown) ?_ fuel
  · constructor
    case reply => exact fun _ active k _ h _ => .inl ⟨active, k, h⟩
    all_goals intros; trivial
  · rintro mac rfl
    constructor
    all_goals intros; rfl

theorem openPairing_within {fp : Footprint OuterMessage} (hpairs : fp.pairs = true) :
    Throughout (Within fp) (openPairing fp.target.ip fp.target.port) := by
  apply credentialDirFromEnv_within.bind
  intro dir
  apply (ensureIdentity_within hpairs dir).bind
  intro _
  apply (fromCredentialDir_within dir).bind
  intro tls
  exact (connect_within tls _).bind fun conn => trivial

theorem pair_within (target : SocketAddr) (fuel : Nat) :
    Throughout (Within (pairFootprint target)) (pair lib fuel target.ip target.port) := by
  refine pair_closed closed_throughout ?_ (@openPairing_within (pairFootprint target) rfl) fuel
  constructor
  case prompt => exact fun _ => ⟨rfl, rfl⟩
  case readLine | peerCertificates => intros; rfl
  all_goals intros; trivial

end Within

end AtvRemote.Footprints
