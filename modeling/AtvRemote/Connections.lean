import AtvRemote.Histories
import AtvRemote.PairingSecrets
import AtvRemote.PingAnswers
import AtvRemote.ProcessRuns

namespace AtvRemote.Connections

open Programs Contracts Histories CommandRules CredentialRules Errors Messages SystemCalls
  Credentials Handshake Session SessionRules
  Pairing PairingSecrets Wake PingAnswers Scripts Footprints JsonTexts Output ProcessRuns
open Main (Surroundings main)
open Serialize

/-- The connection that was opened last, as far as it is set up, and whether
the client certificate for it has been accepted. -/
structure Setup where
  client : Bool := false
  sock : Option TcpStream := none
  readTimeout : Option Duration := none
  writeTimeout : Option Duration := none
  tls : Bool := false

/-- A timeout that cannot be set leaves the one before. -/
def Setup.host (s : Setup) : (o : HostOp) → o.Answer → Setup
  | .clientAuthCert _ _, x => { s with client := x.toBool }
  | .connectTimeout _ _, x => { client := s.client, sock := x.toOption }
  | .setReadTimeout sock d, .ok _ =>
      if s.sock = some sock then { s with readTimeout := some d } else s
  | .setWriteTimeout sock d, .ok _ =>
      if s.sock = some sock then { s with writeTimeout := some d } else s
  | .clientConnection _, .ok _ => { s with tls := true }
  | _, _ => s

def Limited (d : Duration) : Prop := 0 < d ∧ d ≤ fromSecs 10

structure Setup.Open (s : Setup) (sock : TcpStream) : Prop where
  client : s.client = true
  sock : s.sock = some sock
  reads : ∃ d, s.readTimeout = some d ∧ Limited d
  writes : ∃ d, s.writeTimeout = some d ∧ Limited d

/-- Messages go through TLS only, and no operation waits without end. -/
structure Setup.Ready (s : Setup) (conn : Conn) : Prop where
  opened : s.Open conn.sock
  tls : s.tls = true

def FitHost (s : Setup) : HostOp → Prop
  | .connectTimeout _ d => 0 < d ∧ d ≤ fromSecs 5
  | .setReadTimeout sock d | .setWriteTimeout sock d => s.sock = some sock ∧ Limited d
  | .clientConnection _ => (∃ sock, s.Open sock) ∧ s.tls = false
  | .peerCertificates conn => s.Ready conn
  | _ => True

variable {W : Signature}

def Setup.after (s : Setup) : Event (System W) → Setup
  | ⟨.wire _ _, _⟩ => s
  | ⟨.host o, x⟩ => s.host o x

def setup (u : Trace (System W)) : Setup := u.foldl Setup.after {}

/-- What a client may do after a history. -/
def Fit (u : Trace (System W)) : Event (System W) → Prop
  | ⟨.wire conn _, _⟩ => (setup u).Ready conn
  | ⟨.host o, _⟩ => FitHost (setup u) o

@[simp] theorem setup_nil : setup ([] : Trace (System W)) = {} := rfl

@[simp] theorem setup_concat (u : Trace (System W)) (e : Event (System W)) :
    setup (u ++ [e]) = (setup u).after e := by
  simp [setup]

/-- An operation that has nothing to do with connections. -/
def Plain : Event (System W) → Prop
  | ⟨.wire _ _, _⟩ => False
  | ⟨.host (.clientAuthCert _ _), _⟩ | ⟨.host (.connectTimeout _ _), _⟩
  | ⟨.host (.setReadTimeout _ _), _⟩
  | ⟨.host (.setWriteTimeout _ _), _⟩ | ⟨.host (.clientConnection _), _⟩
  | ⟨.host (.peerCertificates _), _⟩ => False
  | _ => True

variable {u : Trace (System W)} {e : Event (System W)} {conn : Conn} {sock : TcpStream}

theorem Plain.after (he : Plain e) (s : Setup) : s.after e = s := by
  obtain ⟨o, x⟩ := e
  cases o with
  | wire => exact he.elim
  | host o =>
      cases o with
      | clientAuthCert | connectTimeout | setReadTimeout | setWriteTimeout | clientConnection =>
          exact he.elim
      | _ => rfl

theorem Plain.fit (he : Plain e) (u : Trace (System W)) : Fit u e := by
  obtain ⟨o, x⟩ := e
  cases o with
  | wire => exact he.elim
  | host o =>
      cases o with
      | connectTimeout | setReadTimeout | setWriteTimeout | clientConnection | peerCertificates =>
          exact he.elim
      | _ => trivial

/-- A history in which every operation was fit. -/
def Orderly (u : Trace (System W)) : Prop := Along Fit u

/-- The connection may be used. -/
structure Connected (conn : Conn) (u : Trace (System W)) : Prop where
  orderly : Orderly u
  ready : (setup u).Ready conn

theorem Orderly.plain (h : Orderly u) (he : Plain e) : Orderly (u ++ [e]) := h.concat (he.fit u)

theorem Connected.plain (h : Connected conn u) (he : Plain e) : Connected conn (u ++ [e]) := by
  refine ⟨h.orderly.plain he, ?_⟩
  rw [setup_concat, he.after]
  exact h.ready

theorem Connected.wire (h : Connected conn u) (w : W.Op) (x : W.Answer w) :
    Connected conn (u ++ [⟨.wire conn w, x⟩]) := by
  refine ⟨h.orderly.concat h.ready, ?_⟩
  rw [setup_concat]
  exact h.ready

theorem Connected.peerCertificates (h : Connected conn u) (x : Option (List Bytes)) :
    Connected conn (u ++ [⟨.host (.peerCertificates conn), x⟩]) := by
  refine ⟨h.orderly.concat h.ready, ?_⟩
  rw [setup_concat]
  exact h.ready

/-- The read timeout of a connection may be changed. -/
theorem Connected.setReadTimeout (h : Connected conn u) {d : Duration} (hd : Limited d)
    (x : Except IoError Unit) :
    Connected conn (u ++ [⟨.host (.setReadTimeout conn.sock d), x⟩]) := by
  obtain ⟨⟨hclient, hsock, hreads, hwrites⟩, htls⟩ := h.ready
  refine ⟨h.orderly.concat ⟨hsock, hd⟩, ?_⟩
  rw [setup_concat]
  cases x with
  | error e => exact h.ready
  | ok _ =>
      rw [Setup.after, Setup.host, if_pos hsock]
      exact ⟨⟨hclient, hsock, ⟨d, rfl, hd⟩, hwrites⟩, htls⟩

section Opening

theorem orderly_plain {α : Type} {p : Command W α} (hp : Throughout Plain p) (hu : Orderly u) :
    Meets Recorded p u (fun _ u' => Orderly u') := by
  apply hp.keeps _ hu
  rintro u e _ hu he rfl
  exact hu.plain he

theorem bothFiles_plain (cert key : String) :
    Throughout Plain (bothFiles cert key : Command W Bool) :=
  throughout_request_bind.mpr fun found => ⟨trivial, by cases found <;> simp [ask, request, Plain]⟩

theorem credentialDirFromEnv_plain :
    Throughout Plain (credentialDirFromEnv : Command W String) := by
  simp [credentialDirFromEnv, ask, request, Plain]

theorem ensureIdentity_plain (dir : String) :
    Throughout Plain (ensureIdentity dir : Command W Unit) := by
  have hgenerate : Throughout Plain (generateIdentity : Command W (String × String)) := by
    simp [generateIdentity, ask, request, Plain]
  have hkey (path contents : String) :
      Throughout Plain (writeKeyFile path contents : Command W Unit) := by
    simp [writeKeyFile, ask, request, Plain]
  apply (bothFiles_plain _ _).bind
  intro found
  cases found with
  | true => trivial
  | false =>
      refine throughout_request_bind.mpr fun x =>
        ⟨trivial, throughout_orRaise_bind.mpr fun _ _ => ?_⟩
      apply hgenerate.bind
      rintro ⟨certPem, keyPem⟩
      refine throughout_request_bind.mpr fun y =>
        ⟨trivial, throughout_orRaise_bind.mpr fun _ _ => ?_⟩
      exact hkey _ _

theorem fromCredentialDir_orderly (dir : String) (hu : Orderly u) :
    Meets Recorded (TlsClient.fromCredentialDir dir) u
    (fun r u' => Orderly u' ∧ ∀ tls, r = .ok tls → (setup u').client = true) := by
  have herror {u : Trace (System W)} {stop : Stop} (hu : Orderly u) :
      Orderly u ∧ ∀ tls : TlsClient, (.error stop : Except Stop TlsClient) = .ok tls →
        (setup u).client = true := by
    exact ⟨hu, fun tls h => by cases h⟩
  have hpaired : Throughout Plain (ensurePaired dir : Command W Unit) :=
    (bothFiles_plain _ _).bind fun found => by cases found <;> simp
  refine (orderly_plain hpaired hu).bind ?_ fun stop u₁ hu₁ => herror hu₁
  intro _ u₁ hu₁
  refine meets_request_bind.mpr ?_
  rintro certPem _ rfl
  have hu₂ := hu₁.plain (e := ⟨.host (.readFile (join dir "cert.pem")), certPem⟩) (by trivial)
  refine meets_orRaise_bind.mpr ⟨fun certPem _ => ?_, fun _ _ => herror hu₂⟩
  refine meets_request_bind.mpr ?_
  rintro keyPem _ rfl
  have hu₃ := hu₂.plain (e := ⟨.host (.readFile (join dir "key.pem")), keyPem⟩) (by trivial)
  refine meets_orRaise_bind.mpr ⟨fun keyPem _ => ?_, fun _ _ => herror hu₃⟩
  refine meets_request_bind.mpr ?_
  rintro certs _ rfl
  have hu₄ := hu₃.plain (e := ⟨.host (.pemCerts certPem), certs⟩) (by trivial)
  refine meets_orRaise_bind.mpr ⟨fun certs _ => ?_, fun _ _ => herror hu₄⟩
  refine meets_request_bind.mpr ?_
  rintro key _ rfl
  have hu₅ := hu₄.plain (e := ⟨.host (.pemPrivateKey keyPem), key⟩) (by trivial)
  refine meets_orRaise_bind.mpr ⟨fun key _ => ?_, fun _ _ => herror hu₅⟩
  cases key with
  | none => exact meets_raise_bind.mpr (herror hu₅)
  | some key =>
      refine meets_some_bind.mpr ?_
      cases hcert : certs.head? with
      | none => exact meets_raise_bind.mpr (herror hu₅)
      | some clientCertDer =>
          refine meets_some_bind.mpr (meets_request_bind.mpr ?_)
          rintro versions _ rfl
          have hu₆ := hu₅.plain (e := ⟨.host .safeDefaultProtocolVersions, versions⟩) (by trivial)
          refine meets_orRaise_bind.mpr
            ⟨fun _ _ => meets_request_bind.mpr ?_, fun _ _ => herror hu₆⟩
          rintro accepted _ rfl
          have hu₇ : Orderly (_ ++ [⟨.host (.clientAuthCert certs key), accepted⟩]) :=
            hu₆.concat (by trivial)
          refine meets_orRaise_bind.mpr ⟨?_, fun _ _ => herror hu₇⟩
          rintro _ rfl
          refine meets_pure.mpr ⟨hu₇, fun _ _ => ?_⟩
          rw [setup_concat]
          rfl

/-- The post-condition of the programs that open a connection. -/
def Opened {α : Type} (conn : α → Conn) (r : Except Stop α) (u : Trace (System W)) : Prop :=
  Orderly u ∧ ∀ a, r = .ok a → Connected (conn a) u

theorem opened_error {α : Type} {f : α → Conn} {stop : Stop} (hu : Orderly u) :
    Opened f (.error stop) u :=
  ⟨hu, fun a h => by cases h⟩

theorem Connected.opened {α : Type} {f : α → Conn} {a : α} (h : Connected (f a) u) :
    Opened f (.ok a) u := by
  refine ⟨h.orderly, ?_⟩
  rintro _ ⟨⟩
  exact h

/-- The history is in order, and leaves the connection in this state. -/
structure Reached (s : Setup) (u : Trace (System W)) : Prop where
  orderly : Orderly u
  setup : setup u = s

theorem Reached.host {s s' : Setup} (h : Reached s u) (o : HostOp) (ho : FitHost s o) {x : o.Answer}
    (hs : s.host o x = s') :
    Reached s' (u ++ [⟨.host o, x⟩]) := by
  obtain ⟨hu, rfl⟩ := h
  refine ⟨hu.concat ho, ?_⟩
  rw [setup_concat]
  exact hs

variable {host : IpAddr} {port : UInt16} {timeout : Duration}

/-- The timeouts are set before TLS starts. -/
theorem connect_orderly (tls : TlsClient) (hu : Orderly u) (hclient : (setup u).client = true)
    (htimeout : 0 < timeout ∧ timeout ≤ fromSecs 5) :
    Meets Recorded (tls.connect host port timeout) u (Opened id) := by
  have hlimited : Limited (fromSecs 10) := ⟨by decide, Nat.le_refl _⟩
  have hstart : Reached (setup u) u := ⟨hu, rfl⟩
  refine meets_request_bind.mpr ?_
  rintro x _ rfl
  have hconnected := hstart.host (.connectTimeout ⟨host, port⟩ timeout) htimeout (x := x) rfl
  refine meets_orRaise_bind.mpr ⟨?_, fun _ _ => opened_error hconnected.orderly⟩
  rintro sock rfl
  replace hconnected : Reached { client := true, sock := some sock } _ :=
    ⟨hconnected.orderly, by rw [hconnected.setup, Setup.host, hclient]; rfl⟩
  refine meets_request_bind.mpr ?_
  rintro reads _ rfl
  have hreads :=
    hconnected.host (.setReadTimeout sock (fromSecs 10)) ⟨rfl, hlimited⟩ (x := reads) rfl
  refine meets_orRaise_bind.mpr ⟨?_, fun _ _ => opened_error hreads.orderly⟩
  rintro _ rfl
  replace hreads : Reached ⟨true, some sock, some (fromSecs 10), none, false⟩ _ :=
    ⟨hreads.orderly, hreads.setup.trans (if_pos rfl)⟩
  refine meets_request_bind.mpr ?_
  rintro writes _ rfl
  have hwrites :=
    hreads.host (.setWriteTimeout sock (fromSecs 10)) ⟨rfl, hlimited⟩ (x := writes) rfl
  refine meets_orRaise_bind.mpr ⟨?_, fun _ _ => opened_error hwrites.orderly⟩
  rintro _ rfl
  replace hwrites : Reached ⟨true, some sock, some (fromSecs 10), some (fromSecs 10), false⟩ _ :=
    ⟨hwrites.orderly, hwrites.setup.trans (if_pos rfl)⟩
  have hopen (tls : Bool) :
      Setup.Open ⟨true, some sock, some (fromSecs 10), some (fromSecs 10), tls⟩ sock :=
    ⟨rfl, rfl, ⟨_, rfl, hlimited⟩, ⟨_, rfl, hlimited⟩⟩
  refine meets_request_bind.mpr ?_
  rintro nodelay _ rfl
  replace hwrites := hwrites.host (.setNodelay sock) trivial (x := nodelay) rfl
  refine meets_request_bind.mpr ?_
  rintro begun _ rfl
  have hbegun := hwrites.host (.clientConnection host) ⟨⟨sock, hopen _⟩, rfl⟩ (x := begun) rfl
  refine meets_orRaise_bind.mpr ⟨?_, fun _ _ => opened_error hbegun.orderly⟩
  rintro _ rfl
  refine meets_pure.mpr (Connected.opened ⟨hbegun.orderly, ?_⟩)
  rw [hbegun.setup]
  exact ⟨hopen _, rfl⟩

end Opening

section Runs

variable {u : Trace (System SessionWire)} {host : IpAddr} {port : UInt16}
  {fuel : Nat} {wantOn : Bool}

theorem openSession_orderly (hu : Orderly u) :
    Meets Recorded (openSession host port) u (Opened id) := by
  refine (orderly_plain credentialDirFromEnv_plain hu).bind ?_ fun _ _ hu₁ => opened_error hu₁
  intro dir u₁ hu₁
  refine (fromCredentialDir_orderly dir hu₁).bind ?_ fun _ _ hu₂ => opened_error hu₂.1
  rintro tls u₂ ⟨hu₂, hclient⟩
  exact connect_orderly tls hu₂ (hclient tls rfl) ⟨by decide, Nat.le_refl _⟩

theorem readPowerLoop_connected {hs : SessionHandshake} {any : Bool} (hu : Connected conn u) :
    Meets Recorded (readPowerLoop conn fuel hs any) u (fun _ u' => Connected conn u') := by
  refine readPowerLoop_meets (I := fun _ _ u => Connected conn u)
    ⟨?_, ?_, ?_, ?_, ?_, ?_, ?_⟩ fuel hu
  · intro hs any u hu
    exact hu
  · intro hs any u hu _
    exact hu
  · rintro hs any u e _ hu _ rfl
    exact hu.wire _ _
  · rintro hs any u m _ hu _ rfl _
    exact hu.wire _ _
  · rintro hs any u m _ hu _ rfl _ _
    exact hu.wire _ _
  · rintro hs any u m _ r _ hu _ rfl _ rfl
    exact (hu.wire _ _).wire _ _
  · rintro hs any u m _ r e _ hu _ rfl _ rfl
    exact (hu.wire _ _).wire _ _

theorem readPower_orderly (hu : Orderly u) :
    Meets Recorded (readPower fuel host port) u (Opened fun out => out.2.1) := by
  refine (openSession_orderly hu).bind ?_ fun _ _ hu₁ => opened_error hu₁.1
  rintro conn u₁ ⟨_, hconn⟩
  refine (readPowerLoop_connected (hconn conn rfl)).bind ?_ fun _ _ hu₂ => opened_error hu₂.orderly
  intro hs u₂ hu₂
  cases hs.power with
  | none => exact meets_fail.mpr (opened_error hu₂.orderly)
  | some power =>
      exact meets_pure.mpr (Connected.opened (f := fun out => out.2.1) (a := (power, conn, hs)) hu₂)

theorem confirmLoop_connected {deadline : Instant} {hs : SessionHandshake} (hu : Connected conn u) :
    Meets Recorded (confirmLoop conn wantOn deadline fuel hs) u
      (fun _ u' => Connected conn u') := by
  refine confirmLoop_meets (I := fun _ u => Connected conn u) ⟨?_, ?_, ?_, ?_, ?_, ?_⟩ fuel hu
  · intro hs u hu
    exact hu
  · rintro hs u now _ hu rfl
    exact hu.plain trivial
  · intro hs u hu
    exact hu
  · rintro hs u e _ hu rfl
    exact hu.wire _ _
  · rintro hs u m _ hu rfl
    exact hu.wire _ _
  · rintro hs u k r x _ hu _ rfl
    exact hu.wire _ _

theorem pressPowerOnce_orderly (hu : Orderly u) :
    Meets Recorded (pressPowerOnce fuel host port wantOn) u (fun _ u' => Orderly u') := by
  refine (readPower_orderly hu).bind ?_ fun _ _ hu₁ => hu₁.1
  rintro ⟨current, conn, hs⟩ u₁ ⟨_, hconn⟩
  have hu₁ : Connected conn u₁ := hconn _ rfl
  dsimp only
  split
  · refine meets_request_bind.mpr ?_
    rintro _ _ rfl
    have hslept : Connected conn (u₁ ++ [⟨.host (.sleep keyInjectGrace), ()⟩]) := hu₁.plain trivial
    refine meets_request_bind.mpr ?_
    rintro x _ rfl
    have hpressed := hslept.wire (.send powerKeyMessage) x
    refine meets_orRaise_bind.mpr
      ⟨fun _ _ => meets_request_bind.mpr ?_, fun _ _ => hpressed.orderly⟩
    rintro limited _ rfl
    refine meets_request_bind.mpr ?_
    rintro now _ rfl
    have hready := (hpressed.setReadTimeout (d := fromSecs 3) ⟨by decide, by decide⟩ limited).plain
      (e := ⟨.host .now, now⟩) trivial
    refine (confirmLoop_connected hready).bind ?_ fun _ _ hu₂ => hu₂.orderly
    intro hs u₂ hu₂
    exact meets_pure.mpr hu₂.orderly
  · exact meets_pure.mpr hu₁.orderly

theorem setPower_orderly (hu : Orderly u) :
    Meets Recorded (setPower fuel host port wantOn) u (fun _ u' => Orderly u') := by
  refine (pressPowerOnce_orderly hu).bind ?_ fun _ _ hu₁ => hu₁
  intro attempt u₁ hu₁
  have hretry :
      Meets Recorded
      (retryPowerOn fuel host port wantOn (powerOnAttempts - 1) attempt attempt.changed) u₁
      (fun _ u' => Orderly u') := by
    refine retryPowerOn_meets (I := fun _ _ _ u => Orderly u) ?_ ?_ _ hu₁
    · intro left attempt changed u hu _
      exact hu
    · rintro left attempt changed u _ hu _ rfl
      have hslept : Orderly (u ++ [⟨.host (.sleep powerOnRetryBackoff), ()⟩]) := hu.plain trivial
      refine (pressPowerOnce_orderly hslept).mono fun r u₂ hu₂ => ?_
      rcases r with (e | text | _) | next <;> exact hu₂
  refine hretry.bind ?_ fun _ _ hu₂ => hu₂
  intro _ u₂ hu₂
  refine meets_request_bind.mpr ?_
  rintro timestamp _ rfl
  exact meets_pure.mpr (hu₂.plain trivial)

/-- A probe opens a connection that is never used. -/
theorem waitForPort_orderly {budget : Duration} (hu : Orderly u) :
    Meets Recorded (waitForPort fuel host port budget) u (fun _ u' => Orderly u') := by
  have hloop (deadline : Instant) {u : Trace (System SessionWire)} (hu : Orderly u) :
      Meets Recorded (waitLoop ⟨host, port⟩ deadline fuel) u (fun _ u' => Orderly u') := by
    induction fuel generalizing u with
    | zero => exact meets_fail.mpr hu
    | succ fuel ih =>
        refine meets_request_bind.mpr ?_
        rintro now _ rfl
        have hnow : Orderly (u ++ [⟨.host .now, now⟩]) := hu.plain trivial
        split
        · refine meets_request_bind.mpr ?_
          rintro x _ rfl
          have hprobed :
              Orderly (u ++ [⟨.host .now, now⟩] ++
              [⟨.host (.connectTimeout ⟨host, port⟩ (fromSecs 1)), x⟩]) :=
            hnow.concat ⟨by decide, by decide⟩
          cases x with
          | ok sock => exact meets_pure.mpr hprobed
          | error e =>
              refine meets_request_bind.mpr ?_
              rintro _ _ rfl
              exact ih (hprobed.plain trivial)
        · exact meets_raise.mpr hnow
  refine meets_request_bind.mpr ?_
  rintro now _ rfl
  exact hloop _ (hu.plain trivial)

theorem setPowerWithWake_orderly {mac : Option Mac} (hu : Orderly u) :
    Meets Recorded (setPowerWithWake fuel host port wantOn mac) u (fun _ u' => Orderly u') := by
  have hfirst : Meets Recorded (resultOf (setPower fuel host port wantOn)) u
      (fun _ u' => Orderly u') :=
    meets_resultOf (setPower_orderly hu)
  refine hfirst.bind ?_ fun _ _ hu₁ => hu₁
  intro first u₁ hu₁
  have hrest : Meets Recorded (propagate first : Command SessionWire PowerOutput) u₁
      (fun _ u' => Orderly u') :=
    meets_propagate.mpr ⟨fun _ _ => hu₁, fun _ _ => hu₁⟩
  split
  next mac e =>
    split
    · have hpacket : Throughout Plain (sendMagicPacket mac) := by
        simp [sendMagicPacket, ask, request, Plain]
      refine (orderly_plain hpacket hu₁).bind ?_ fun _ _ hu₂ => hu₂
      intro _ u₂ hu₂
      refine (waitForPort_orderly hu₂).bind ?_ fun _ _ hu₃ => hu₃
      intro _ u₃ hu₃
      refine (setPower_orderly hu₃).bind ?_ fun _ _ hu₄ => hu₄
      intro out u₄ hu₄
      exact meets_pure.mpr hu₄
    · exact hrest
  next => exact hrest

theorem sendPresses_connected {keys : List Int32} {i : Nat} (hu : Connected conn u) :
    Meets Recorded (sendPresses conn i keys) u (fun _ u' => Connected conn u') := by
  induction keys generalizing i u with
  | nil => exact meets_pure.mpr hu
  | cons code keys ih =>
      have hpress {u : Trace (System SessionWire)} (hu : Connected conn u) : Meets Recorded (do
          orRaise (← writeMessage conn (keyMessage code)) (keyFailed code)
          sendPresses conn (i + 1) keys) u (fun _ u' => Connected conn u') := by
        refine meets_request_bind.mpr ?_
        rintro x _ rfl
        exact meets_orRaise_bind.mpr ⟨fun _ _ => ih (hu.wire _ _), fun _ _ => hu.wire _ _⟩
      rw [sendPresses]
      split
      · refine meets_request_bind.mpr ?_
        rintro _ _ rfl
        exact hpress (hu.plain trivial)
      · exact hpress hu

/-- The end of every command. -/
theorem settle_orderly {α : Type} {f : String → α} (hu : Orderly u) : Meets Recorded (do
    sleep sendSettle
    let timestamp ← timestamp
    pure (f timestamp) : Command SessionWire α) u (fun _ u' => Orderly u') := by
  refine meets_request_bind.mpr ?_
  rintro _ _ rfl
  refine meets_request_bind.mpr ?_
  rintro timestamp _ rfl
  exact meets_pure.mpr ((hu.plain (by trivial)).plain (by trivial))

theorem session_orderly (command : SessionCommand) (hu : Orderly u) :
    Meets Recorded (command.run fuel host port) u (fun _ u' => Orderly u') := by
  cases command with
  | status =>
      refine Meets.bind (P := fun _ u' => Orderly u') ?_ (fun _ _ hu₁ => meets_pure.mpr hu₁)
        fun _ _ hu₁ => hu₁
      refine (readPower_orderly hu).bind ?_ fun _ _ hu₁ => hu₁.1
      rintro ⟨_, conn, _⟩ u₁ ⟨hu₁, _⟩
      refine meets_request_bind.mpr ?_
      rintro timestamp _ rfl
      exact meets_pure.mpr (hu₁.plain trivial)
  | on mac =>
      exact (setPowerWithWake_orderly hu).bind (fun _ _ hu₁ => meets_pure.mpr hu₁) fun _ _ hu₁ =>
        hu₁
  | off => exact (setPower_orderly hu).bind (fun _ _ hu₁ => meets_pure.mpr hu₁) fun _ _ hu₁ => hu₁
  | key keys =>
      refine Meets.bind (P := fun _ u' => Orderly u') ?_ (fun _ _ hu₁ => meets_pure.mpr hu₁)
        fun _ _ hu₁ => hu₁
      refine (readPower_orderly hu).bind ?_ fun _ _ hu₁ => hu₁.1
      rintro ⟨_, conn, _⟩ u₁ ⟨_, hconn⟩
      refine meets_request_bind.mpr ?_
      rintro _ _ rfl
      refine (sendPresses_connected ((hconn _ rfl).plain (by trivial))).bind ?_ fun _ _ hu₂ =>
        hu₂.orderly
      intro _ u₂ hu₂
      exact settle_orderly hu₂.orderly
  | launch appLink =>
      refine Meets.bind (P := fun _ u' => Orderly u') ?_ (fun _ _ hu₁ => meets_pure.mpr hu₁)
        fun _ _ hu₁ => hu₁
      refine (readPower_orderly hu).bind ?_ fun _ _ hu₁ => hu₁.1
      rintro ⟨_, conn, _⟩ u₁ ⟨_, hconn⟩
      have hu₁ : Connected conn u₁ := hconn _ rfl
      refine meets_request_bind.mpr ?_
      rintro _ _ rfl
      refine meets_request_bind.mpr ?_
      rintro x _ rfl
      have hsent :
          Connected conn
          (u₁ ++ [⟨.host (.sleep keyInjectGrace), ()⟩] ++
          [⟨.wire conn (.send (appLinkMessage appLink)), x⟩]) :=
        (hu₁.plain (by trivial)).wire _ _
      exact meets_orRaise_bind.mpr
        ⟨fun _ _ => settle_orderly hsent.orderly, fun _ _ => hsent.orderly⟩

end Runs

section Pairing

variable {u : Trace (System PairingWire)} {lib : Library} {host : IpAddr}
  {port : UInt16} {fuel : Nat}

theorem pairLoop_connected {flow : PairingFlow} (hu : Connected conn u) :
    Meets Recorded (pairLoop conn fuel flow) u (fun _ u' => Connected conn u') := by
  induction fuel generalizing flow u with
  | zero => exact meets_fail.mpr hu
  | succ fuel ih =>
      rw [pairLoop]
      split
      · refine meets_request_bind.mpr ?_
        rintro x _ rfl
        have hread := hu.wire .recv x
        refine meets_orRaise_bind.mpr
          ⟨fun m _ => meets_orRaise_bind.mpr ⟨fun answer _ => ?_, fun _ _ => hread⟩,
          fun _ _ => hread⟩
        cases answer with
        | none => exact ih hread
        | some r =>
            refine meets_request_bind.mpr ?_
            rintro y _ rfl
            exact meets_orRaise_bind.mpr ⟨fun _ _ => ih (hread.wire _ _), fun _ _ => hread.wire _ _⟩
      · exact meets_pure.mpr hu

theorem peerCertDer_connected (hu : Connected conn u) :
    Meets Recorded (peerCertDer conn) u (fun _ u' => Connected conn u') := by
  refine meets_request_bind.mpr ?_
  rintro certs _ rfl
  exact meets_okOrRaise.mpr
    ⟨fun _ _ => hu.peerCertificates certs, fun _ => hu.peerCertificates certs⟩

theorem readSecret_connected {tls : TlsClient} (hu : Connected conn u) :
    Meets Recorded (readSecret lib tls conn) u (fun _ u' => Connected conn u') := by
  refine meets_request_bind.mpr ?_
  rintro _ _ rfl
  refine meets_request_bind.mpr ?_
  rintro line _ rfl
  have hline :=
    (hu.plain
      (e := ⟨.host (.eprintln "Enter the 6-digit code shown on the TV:"), ()⟩) trivial).plain
    (e := ⟨.host .readLine, line⟩) trivial
  refine meets_orRaise_bind.mpr ⟨fun code _ => ?_, fun _ _ => hline⟩
  refine (peerCertDer_connected hline).bind ?_ fun _ _ hu₁ => hu₁
  intro serverDer u₁ hu₁
  split
  · exact meets_pure.mpr hu₁
  · exact meets_fail.mpr hu₁

theorem openPairing_orderly (hu : Orderly u) :
    Meets Recorded (openPairing host port) u (Opened Prod.snd) := by
  refine (orderly_plain credentialDirFromEnv_plain hu).bind ?_ fun _ _ hu₁ => opened_error hu₁
  intro dir u₁ hu₁
  refine (orderly_plain (ensureIdentity_plain dir) hu₁).bind ?_ fun _ _ hu₂ => opened_error hu₂
  intro _ u₂ hu₂
  refine (fromCredentialDir_orderly dir hu₂).bind ?_ fun _ _ hu₃ => opened_error hu₃.1
  rintro tls u₃ ⟨hu₃, hclient⟩
  refine (connect_orderly tls hu₃ (hclient tls rfl) ⟨by decide, Nat.le_refl _⟩).bind ?_
    fun _ _ hu₄ => opened_error hu₄.1
  rintro conn u₄ ⟨_, hconn⟩
  exact meets_pure.mpr (Connected.opened (f := Prod.snd) (a := (tls, conn)) (hconn conn rfl))

theorem pair_orderly (hu : Orderly u) :
    Meets Recorded (pair lib fuel host port) u (fun _ u' => Orderly u') := by
  refine (openPairing_orderly hu).bind ?_ fun _ _ hu₁ => hu₁.1
  rintro ⟨tls, conn⟩ u₁ ⟨_, hconn⟩
  have hu₁ : Connected conn u₁ := hconn _ rfl
  refine meets_request_bind.mpr ?_
  rintro x _ rfl
  have hbegun := hu₁.wire (.send initialMessage) x
  refine meets_orRaise_bind.mpr ⟨fun _ _ => ?_, fun _ _ => hbegun.orderly⟩
  refine (pairLoop_connected hbegun).bind ?_ fun _ _ hu₂ => hu₂.orderly
  intro flow u₂ hu₂
  refine (readSecret_connected hu₂).bind ?_ fun _ _ hu₃ => hu₃.orderly
  intro secret u₃ hu₃
  refine meets_request_bind.mpr ?_
  rintro y _ rfl
  have hsent := hu₃.wire (.send (secretMessage secret)) y
  refine meets_orRaise_bind.mpr ⟨fun _ _ => meets_request_bind.mpr ?_, fun _ _ => hsent.orderly⟩
  rintro z _ rfl
  have hacked := hsent.wire .recv z
  refine meets_orRaise_bind.mpr ⟨fun ack _ => ?_, fun _ _ => hacked.orderly⟩
  refine meets_orRaise_bind.mpr ⟨fun _ _ => meets_request_bind.mpr ?_, fun _ _ => hacked.orderly⟩
  rintro timestamp _ rfl
  exact meets_pure.mpr (hacked.orderly.plain trivial)

end Pairing

section Processes

def Setup.afterAll (s : Setup) : Event Surroundings → Setup
  | ⟨.system (.host o), x⟩ => s.host o x
  | _ => s

def setupAll (t : Trace Surroundings) : Setup := t.foldl Setup.afterAll {}

/-- What a process may do after a history. -/
def FitAll (t : Trace Surroundings) : Event Surroundings → Prop
  | ⟨.system (.wire conn _), _⟩ => (setupAll t).Ready conn
  | ⟨.system (.host o), _⟩ => FitHost (setupAll t) o
  | _ => True

structure Embedding (embed : Event (System W) → Event Surroundings) : Prop where
  after (s : Setup) (e : Event (System W)) : s.afterAll (embed e) = s.after e
  fit {u : Trace (System W)} {t : Trace Surroundings} {e : Event (System W)}
    (h : setupAll t = setup u) (he : Fit u e) : FitAll t (embed e)

theorem afterAll_embedHost (s : Setup) (o : HostOp) (x : o.Answer) :
    s.afterAll (embedHost o x) = s.host o x := by
  cases o <;> rfl

theorem fitAll_embedHost {s : Setup} {t : Trace Surroundings} {o : HostOp} {x : o.Answer}
    (h : setupAll t = s) (ho : FitHost s o) :
    FitAll t (embedHost o x) := by
  subst h
  cases o with
  | eprintln => trivial
  | _ => exact ho

theorem embedding_session : Embedding embedSession where
  after s e := by
    obtain ⟨conn | o, x⟩ := e
    · rfl
    · exact afterAll_embedHost s o x
  fit {u t e} h he := by
    obtain ⟨conn | o, x⟩ := e
    · change (setupAll t).Ready conn
      rw [h]
      exact he
    · exact fitAll_embedHost h he

theorem embedding_pairing : Embedding embedPairing where
  after s e := by
    obtain ⟨conn | o, x⟩ := e
    · rfl
    · exact afterAll_embedHost s o x
  fit {u t e} h he := by
    obtain ⟨conn | o, x⟩ := e
    · change (setupAll t).Ready conn
      rw [h]
      exact he
    · exact fitAll_embedHost h he

variable {embed : Event (System W) → Event Surroundings} {u : Trace (System W)}
  {t : Trace Surroundings}

theorem Embedding.setup_map (h : Embedding embed) (u : Trace (System W)) :
    setupAll (u.map embed) = setup u := by
  rw [setupAll, List.foldl_map, setup]
  congr 1
  funext s e
  exact h.after s e

theorem Embedding.orderly (h : Embedding embed) (hu : Orderly u) : Along FitAll (u.map embed) :=
  hu.map fun v _ he => h.fit (h.setup_map v) he

/-- An event on the standard streams. -/
theorem fitAll_printed {e : Event Surroundings} (he : Printed e) (t : Trace Surroundings) :
    FitAll t e := by
  obtain ⟨o, x⟩ := e
  cases o with
  | system => exact he.elim
  | _ => trivial

variable {lib : Library} {json : SerdeJson} {fuel : Nat} {command : Main.Command}

theorem orderly_of_worked {r : Except Stop Result} (h : Worked lib fuel command t r) :
    Along FitAll t := by
  cases h with
  | pair htask hrun =>
      exact embedding_pairing.orderly (Meets.recorded (pair_orderly along_nil) hrun)
  | unprompted closed htask hrun =>
      have hwhole := Meets.recorded (pair_orderly along_nil) hrun
      refine (embedding_pairing.orderly hwhole.left).append ?_
      exact List.forall_mem_singleton.mpr fun t => trivial
  | session htask hrun =>
      exact embedding_session.orderly (Meets.recorded (session_orderly _ along_nil) hrun)
  | discover htask hrun =>
      refine along_of_forall ?_
      exact List.forall_mem_map.mpr fun _ _ _ => trivial

/-- Whatever happens, messages pass only through the connection that was opened
last, in TLS with the client certificate and under both timeouts. -/
theorem main_connected {r : Except Stop Nat} (h : Run (main lib json fuel command) t r) :
    Along FitAll t := by
  obtain ⟨u, v, q, rfl, hu, hending⟩ := run_main h
  exact (orderly_of_worked (run_work hu)).append fun e he => fitAll_printed
    (printed_of_ending hending e he)

/-- The television is turned off, and confirms it. -/
theorem main_connected_off :
    let played := boot { connects := [.ok 4], inbox := [started true, started false] }
      (main paddedKeys compact 5 (.off ⟨livingRoom, none⟩))
    played.2.1 = .ok 0 ∧ Along FitAll played.1 :=
  ⟨rfl, main_connected (run_boot _ _)⟩

end Processes

end AtvRemote.Connections
