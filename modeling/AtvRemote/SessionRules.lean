import AtvRemote.Session
import AtvRemote.CredentialRules

namespace AtvRemote.SessionRules

open Programs Contracts CommandRules CredentialRules Errors Messages SystemCalls
  Credentials Handshake
  Session

abbrev SessionEvent := Event (System SessionWire)

def next (hs : SessionHandshake) (k : Kind) : SessionHandshake :=
  ⟨hear hs.power k, narrow hs.activeFeatures k⟩

/-- An event of the handshake: the only messages sent are replies. -/
def HandshakeEvent : SessionEvent → Prop
  | ⟨.wire _ (.send m), _⟩ => ∃ active k, reply active k = some m
  | ⟨.host (.udpSendTo _ _), _⟩ | ⟨.host (.sleep _), _⟩ => False
  | _ => True

theorem handshakeEvent_of_local {e : SessionEvent} (h : Local e) : HandshakeEvent e := by
  obtain ⟨o, x⟩ := e
  cases o with
  | wire => exact h.elim
  | host o =>
      cases o with
      | udpSendTo | sleep => exact h.elim
      | _ => trivial

theorem readPowerLoop_events (conn : Conn) (fuel : Nat) (hs : SessionHandshake) (any : Bool) :
    Throughout HandshakeEvent (readPowerLoop conn fuel hs any) := by
  induction fuel generalizing hs any with
  | zero => trivial
  | succ fuel ih =>
      rw [readPowerLoop]
      split
      · refine throughout_request_bind.mpr fun x =>
          ⟨trivial, throughout_orRaise_bind.mpr fun m _ => ?_⟩
        simp only [handle_eq]
        by_cases he : kind m = .error
        · rw [if_pos he]
          trivial
        · rw [if_neg he]
          cases hr : reply (narrow hs.activeFeatures (kind m)) (kind m) with
          | none => exact ih _ _
          | some r =>
              refine throughout_request_bind.mpr fun y => ⟨⟨_, _, hr⟩, ?_⟩
              exact throughout_orRaise_bind.mpr fun _ _ => ih _ _
      · trivial

theorem openSession_events (host : IpAddr) (port : UInt16) :
    Throughout HandshakeEvent (openSession host port) := by
  refine (credentialDirFromEnv_local.mono fun _ => handshakeEvent_of_local).bind fun dir => ?_
  refine ((fromCredentialDir_local dir).mono fun _ => handshakeEvent_of_local).bind fun tls => ?_
  simp [TlsClient.connect, ask, request, HandshakeEvent]

theorem openSession_onHost (host : IpAddr) (port : UInt16) :
    Throughout OnHost (openSession host port) := by
  refine (credentialDirFromEnv_local.mono fun _ => onHost_of_local).bind fun dir => ?_
  refine ((fromCredentialDir_local dir).mono fun _ => onHost_of_local).bind fun tls => ?_
  exact connect_onHost tls host port _

/-- `readPower`, and with it `status`, sends nothing but replies. -/
theorem readPower_events (fuel : Nat) (host : IpAddr) (port : UInt16) :
    Throughout HandshakeEvent (readPower fuel host port) := by
  apply (openSession_events host port).bind
  intro conn
  apply (readPowerLoop_events conn fuel _ _).bind
  intro hs
  exact throughout_expect.bind fun _ => trivial

theorem confirmLoop_events (conn : Conn) (wantOn : Bool) (deadline : Instant) (fuel : Nat)
    (hs : SessionHandshake) :
    Throughout HandshakeEvent (confirmLoop conn wantOn deadline fuel hs) := by
  induction fuel generalizing hs with
  | zero => trivial
  | succ fuel ih =>
      refine throughout_request_bind.mpr fun now => ⟨trivial, ?_⟩
      split
      · refine throughout_request_bind.mpr fun x => ⟨trivial, ?_⟩
        cases x with
        | error e => trivial
        | ok m =>
            have hround (hs : SessionHandshake) : Throughout HandshakeEvent
                (if hs.power = some wantOn then pure hs
                  else confirmLoop conn wantOn deadline fuel hs) := by
              split
              · trivial
              · exact ih hs
            simp only [handle_eq]
            by_cases he : kind m = .error
            · rw [if_pos he]
              exact hround (next hs (kind m))
            · rw [if_neg he]
              cases hr : reply (narrow hs.activeFeatures (kind m)) (kind m) with
              | none => exact hround (next hs (kind m))
              | some r =>
                  exact throughout_request_bind.mpr fun y => ⟨⟨_, _, hr⟩, hround (next hs (kind m))⟩
      · trivial

def PowerEvent : SessionEvent → Prop
  | ⟨.wire _ (.send m), _⟩ => m = powerKeyMessage ∨ ∃ active k, reply active k = some m
  | ⟨.host (.udpSendTo _ _), _⟩ => False
  | _ => True

theorem powerEvent_of_handshake {e : SessionEvent} (h : HandshakeEvent e) : PowerEvent e := by
  obtain ⟨o, x⟩ := e
  cases o with
  | wire conn w =>
      cases w with
      | recv => trivial
      | send m => exact .inr h
  | host o =>
      cases o with
      | udpSendTo => exact h.elim
      | _ => trivial

theorem pressPowerOnce_events (fuel : Nat) (host : IpAddr) (port : UInt16) (wantOn : Bool) :
    Throughout PowerEvent (pressPowerOnce fuel host port wantOn) := by
  refine ((readPower_events fuel host port).mono fun _ => powerEvent_of_handshake).bind ?_
  rintro ⟨current, conn, hs⟩
  dsimp only
  split
  · refine throughout_request_bind.mpr fun _ => ⟨trivial, ?_⟩
    refine throughout_request_bind.mpr fun x =>
      ⟨.inl rfl, throughout_orRaise_bind.mpr fun _ _ => ?_⟩
    refine throughout_request_bind.mpr fun _ => ⟨trivial, ?_⟩
    refine throughout_request_bind.mpr fun now => ⟨trivial, ?_⟩
    exact ((confirmLoop_events _ _ _ _ _).mono fun _ => powerEvent_of_handshake).bind
      fun hs => trivial
  · trivial

theorem retryPowerOn_events (fuel : Nat) (host : IpAddr) (port : UInt16) (wantOn : Bool)
    (left : Nat) (attempt : PowerAttempt) (changed : Bool) :
    Throughout PowerEvent (retryPowerOn fuel host port wantOn left attempt changed) := by
  induction left generalizing attempt changed with
  | zero => trivial
  | succ left ih =>
      rw [retryPowerOn]
      split
      · refine throughout_request_bind.mpr fun _ => ⟨trivial, ?_⟩
        apply (throughout_resultOf (pressPowerOnce_events fuel host port wantOn)).bind
        intro r
        cases r with
        | ok next => exact ih next _
        | error e => trivial
      · trivial

theorem setPower_events (fuel : Nat) (host : IpAddr) (port : UInt16) (wantOn : Bool) :
    Throughout PowerEvent (setPower fuel host port wantOn) := by
  apply (pressPowerOnce_events fuel host port wantOn).bind
  intro attempt
  apply (retryPowerOn_events fuel host port wantOn _ attempt _).bind
  intro _
  exact throughout_request_bind.mpr fun _ => ⟨trivial, trivial⟩

variable {σ : Type} {step : σ → SessionEvent → σ → Prop} {s : σ}

/-- What has to be shown of the loop that waits for the power state: an
invariant of the state before each round, and where each exit leads. -/
structure HandshakeInvariant (step : σ → SessionEvent → σ → Prop) (conn : Conn)
    (I : SessionHandshake → Bool → σ → Prop) (Q : Except Stop SessionHandshake → σ → Prop) :
    Prop where
  unfinished : ∀ hs any s, I hs any s → Q (.error .unfinished) s
  known : ∀ hs any s, I hs any s → hs.power.isSome → Q (.ok hs) s
  readFailed : ∀ hs any s e s', I hs any s → hs.power = none →
    step s ⟨.wire conn .recv, .error e⟩ s' →
    Q (.error (.error (mapSessionReadError e any))) s'
  reported : ∀ hs any s m s', I hs any s → hs.power = none →
    step s ⟨.wire conn .recv, .ok m⟩ s' → kind m = .error →
    Q (.error (.error remoteErrorReported)) s'
  silent : ∀ hs any s m s', I hs any s → hs.power = none →
    step s ⟨.wire conn .recv, .ok m⟩ s' → kind m ≠ .error →
    reply (next hs (kind m)).activeFeatures (kind m) = none → I (next hs (kind m)) true s'
  replied : ∀ hs any s m s' r s'', I hs any s → hs.power = none →
    step s ⟨.wire conn .recv, .ok m⟩ s' →
    reply (next hs (kind m)).activeFeatures (kind m) = some r →
    step s' ⟨.wire conn (.send r), .ok ()⟩ s'' → I (next hs (kind m)) true s''
  refused : ∀ hs any s m s' r e s'', I hs any s → hs.power = none →
    step s ⟨.wire conn .recv, .ok m⟩ s' →
    reply (next hs (kind m)).activeFeatures (kind m) = some r →
    step s' ⟨.wire conn (.send r), .error e⟩ s'' →
    Q (.error (.error (sessionWriteFailed e))) s''

/-- The loop only returns with the power known, so the `expect` after it never
panics. -/
theorem HandshakeInvariant.withPower {conn : Conn} {I : SessionHandshake → Bool → σ → Prop}
    {Q : Except Stop SessionHandshake → σ → Prop} (hI : HandshakeInvariant step conn I Q) :
    HandshakeInvariant step conn I
      (fun r s => Q r s ∧ ∀ hs, r = .ok hs → hs.power.isSome) where
  unfinished hs any s h := ⟨hI.unfinished hs any s h, nofun⟩
  known hs any s h hp := ⟨hI.known hs any s h hp, by rintro _ ⟨rfl⟩; exact hp⟩
  readFailed hs any s e s' h hp hs' := ⟨hI.readFailed hs any s e s' h hp hs', nofun⟩
  reported hs any s m s' h hp hs' he := ⟨hI.reported hs any s m s' h hp hs' he, nofun⟩
  silent := hI.silent
  replied := hI.replied
  refused hs any s m s' r e s'' h hp hs' hr hs'' :=
    ⟨hI.refused hs any s m s' r e s'' h hp hs' hr hs'', nofun⟩

theorem readPowerLoop_meets {conn : Conn} {I : SessionHandshake → Bool → σ → Prop}
    {Q : Except Stop SessionHandshake → σ → Prop} (hI : HandshakeInvariant step conn I Q)
    (fuel : Nat) {hs : SessionHandshake} {any : Bool} (h : I hs any s) :
    Meets step (readPowerLoop conn fuel hs any) s Q := by
  induction fuel generalizing hs any s with
  | zero => exact meets_fail.mpr (hI.unfinished hs any s h)
  | succ fuel ih =>
      rw [readPowerLoop]
      split
      next hp =>
        have hp : hs.power = none := Option.isNone_iff_eq_none.mp hp
        refine meets_request_bind.mpr fun x s' hs' => meets_orRaise_bind.mpr ⟨?_, ?_⟩
        · rintro m rfl
          simp only [handle_eq]
          by_cases he : kind m = .error
          · rw [if_pos he]
            exact meets_raise_bind.mpr (hI.reported hs any s m s' h hp hs' he)
          · rw [if_neg he]
            cases hr : reply (narrow hs.activeFeatures (kind m)) (kind m) with
            | none => exact ih (hI.silent hs any s m s' h hp hs' he hr)
            | some r =>
                refine meets_request_bind.mpr fun y s'' hs'' => meets_orRaise_bind.mpr ⟨?_, ?_⟩
                · rintro _ rfl
                  exact ih (hI.replied hs any s m s' r s'' h hp hs' hr hs'')
                · rintro e rfl
                  exact hI.refused hs any s m s' r e s'' h hp hs' hr hs''
        · rintro e rfl
          exact hI.readFailed hs any s e s' h hp hs'
      next hp =>
        exact meets_pure.mpr (hI.known hs any s h (by simpa [Option.isSome_iff_ne_none] using hp))

/-- What has to be shown of `readPower`: a property `P` up to the attempt to
connect, a property `C` from then on until the handshake starts. -/
structure OpeningInvariant (step : σ → SessionEvent → σ → Prop) (host : IpAddr) (port : UInt16)
    (P C : σ → Prop) (I : Conn → SessionHandshake → Bool → σ → Prop)
    (Q : Except Stop (Bool × Conn × SessionHandshake) → σ → Prop) : Prop where
  before : ∀ s e s', P s → Local e → step s e s' → P s'
  after : ∀ s e s', C s → Local e → step s e s' → C s'
  refused : ∀ s timeout e s', P s →
    step s ⟨.host (.connectTimeout ⟨host, port⟩ timeout), .error e⟩ s' → P s'
  opened : ∀ s timeout sock s', P s →
    step s ⟨.host (.connectTimeout ⟨host, port⟩ timeout), .ok sock⟩ s' → C s'
  failed : ∀ s stop, P s ∨ C s → Q (.error stop) s
  begins : ∀ conn s, C s → I conn SessionHandshake.new false s
  handshake : ∀ conn, HandshakeInvariant step conn (I conn) (fun r s => match r with
    | .ok hs => ∀ power, hs.power = some power → Q (.ok (power, conn, hs)) s
    | .error stop => Q (.error stop) s)

theorem local_meets {α : Type} {p : Command SessionWire α} {P : σ → Prop}
    (hp : Throughout Local p) (hP : ∀ s e s', P s → Local e → step s e s' → P s') (h : P s) :
    Meets step p s (fun _ s' => P s') := hp.keeps hP h

variable {host : IpAddr} {port : UInt16} {P C : σ → Prop}
  {I : Conn → SessionHandshake → Bool → σ → Prop}
  {Q : Except Stop (Bool × Conn × SessionHandshake) → σ → Prop}

theorem connect_meets (hI : OpeningInvariant step host port P C I Q) (tls : TlsClient) (h : P s) :
    Meets step (tls.connect host port (fromSecs 5)) s (fun r s' => match r with
      | .ok _ => C s'
      | .error stop => Q (.error stop) s') := by
  refine meets_request_bind.mpr fun x s' hs' => meets_orRaise_bind.mpr ⟨?_, ?_⟩
  · rintro sock rfl
    refine (local_meets ?_ hI.after (hI.opened s _ sock s' h hs')).mono ?_
    · simp [ask, request, Local]
    · intro r s'' hC
      cases r with
      | ok conn => exact hC
      | error stop => exact hI.failed s'' stop (.inr hC)
  · rintro e rfl
    exact hI.failed s' _ (.inl (hI.refused s _ e s' h hs'))

theorem openSession_meets (hI : OpeningInvariant step host port P C I Q) (h : P s) :
    Meets step (openSession host port) s (fun r s' => match r with
      | .ok _ => C s'
      | .error stop => Q (.error stop) s') := by
  refine (local_meets credentialDirFromEnv_local hI.before h).bind ?_
    (fun e s' hs' => hI.failed s' e (.inl hs'))
  intro dir s' hs'
  refine (local_meets (fromCredentialDir_local dir) hI.before hs').bind ?_
    (fun e s' hs' => hI.failed s' e (.inl hs'))
  intro tls s' hs'
  exact connect_meets hI tls hs'

theorem readPower_meets (hI : OpeningInvariant step host port P C I Q) (fuel : Nat) (h : P s) :
    Meets step (readPower fuel host port) s Q := by
  refine (openSession_meets hI h).bind ?_ (fun e s' hs' => hs')
  intro conn s' hs'
  refine (readPowerLoop_meets (hI.handshake conn).withPower fuel (hI.begins conn s' hs')).bind ?_
    (fun e s' hs' => hs'.1)
  rintro hs s' ⟨hs', hsome⟩
  obtain ⟨power, hp⟩ := Option.isSome_iff_exists.mp (hsome hs rfl)
  rw [hp]
  exact meets_pure.mpr (hs' power hp)

/-- The same for the loop that waits for a confirmation, with properties `K` of
the state before the deadline has passed and `J` of the state after a message.
Only the deadline and a failed read end it early; a failed reply and a reported
error do not. -/
structure RoundInvariant (step : σ → SessionEvent → σ → Prop) (conn : Conn) (wantOn : Bool)
    (deadline : Instant)
    (I K J : SessionHandshake → σ → Prop) (Q : Except Stop SessionHandshake → σ → Prop) : Prop where
  unfinished : ∀ hs s, I hs s → Q (.error .unfinished) s
  tick : ∀ hs s now s', I hs s → step s ⟨.host .now, now⟩ s' → if now < deadline then K hs s'
    else Q (.ok hs) s'
  readFailed : ∀ hs s e s', K hs s → step s ⟨.wire conn .recv, .error e⟩ s' → Q (.ok hs) s'
  received : ∀ hs s m s', K hs s → step s ⟨.wire conn .recv, .ok m⟩ s' → J (next hs (kind m)) s'
  answered : ∀ hs s k r x s', J hs s → reply hs.activeFeatures k = some r →
    step s ⟨.wire conn (.send r), x⟩ s' → J hs s'
  confirmed : ∀ hs s, J hs s → hs.power = some wantOn → Q (.ok hs) s
  again : ∀ hs s, J hs s → hs.power ≠ some wantOn → I hs s

theorem confirmLoop_rounds {conn : Conn} {wantOn : Bool} {deadline : Instant}
    {I K J : SessionHandshake → σ → Prop} {Q : Except Stop SessionHandshake → σ → Prop}
    (hI : RoundInvariant step conn wantOn deadline I K J Q) (fuel : Nat) {hs : SessionHandshake}
    (h : I hs s) : Meets step (confirmLoop conn wantOn deadline fuel hs) s Q := by
  induction fuel generalizing hs s with
  | zero => exact meets_fail.mpr (hI.unfinished hs s h)
  | succ fuel ih =>
      refine meets_request_bind.mpr fun now s' hs' => ?_
      have h := hI.tick hs s now s' h hs'
      split
      next hnow =>
        rw [if_pos hnow] at h
        refine meets_request_bind.mpr fun x s'' hs'' => ?_
        cases x with
        | error e => exact meets_pure.mpr (hI.readFailed hs s' e s'' h hs'')
        | ok m =>
            have h := hI.received hs s' m s'' h hs''
            have hround (s : σ) (h : J (next hs (kind m)) s) :
                Meets step (if (next hs (kind m)).power = some wantOn then pure (next hs (kind m))
                  else confirmLoop conn wantOn deadline fuel (next hs (kind m))) s Q := by
              split
              next hp => exact meets_pure.mpr (hI.confirmed _ s h hp)
              next hp => exact ih (hI.again _ s h hp)
            simp only [handle_eq]
            by_cases he : kind m = .error
            · rw [if_pos he]
              exact hround s'' h
            · rw [if_neg he]
              cases hr : reply (narrow hs.activeFeatures (kind m)) (kind m) with
              | none => exact hround s'' h
              | some r =>
                  refine meets_request_bind.mpr fun x s₃ hs₃ => ?_
                  exact hround s₃ (hI.answered _ s'' (kind m) r x s₃ h hr hs₃)
      next hnow =>
        rw [if_neg hnow] at h
        exact meets_pure.mpr h

/-- The special case of one invariant for all states of the loop. -/
structure ConfirmInvariant (step : σ → SessionEvent → σ → Prop) (conn : Conn) (wantOn : Bool)
    (I : SessionHandshake → σ → Prop) (Q : Except Stop SessionHandshake → σ → Prop) : Prop where
  unfinished : ∀ hs s, I hs s → Q (.error .unfinished) s
  tick : ∀ hs s now s', I hs s → step s ⟨.host .now, now⟩ s' → I hs s'
  stopped : ∀ hs s, I hs s → Q (.ok hs) s
  readFailed : ∀ hs s e s', I hs s → step s ⟨.wire conn .recv, .error e⟩ s' → Q (.ok hs) s'
  received : ∀ hs s m s', I hs s → step s ⟨.wire conn .recv, .ok m⟩ s' → I (next hs (kind m)) s'
  answered : ∀ hs s k r x s', I hs s → reply hs.activeFeatures k = some r →
    step s ⟨.wire conn (.send r), x⟩ s' → I hs s'

theorem confirmLoop_meets {conn : Conn} {wantOn : Bool} {deadline : Instant}
    {I : SessionHandshake → σ → Prop} {Q : Except Stop SessionHandshake → σ → Prop}
    (hI : ConfirmInvariant step conn wantOn I Q) (fuel : Nat) {hs : SessionHandshake}
    (h : I hs s) : Meets step (confirmLoop conn wantOn deadline fuel hs) s Q := by
  have hrounds : RoundInvariant step conn wantOn deadline I I I Q :=
    { unfinished := hI.unfinished
      tick := by
        intro hs s now s' h hs'
        have h := hI.tick hs s now s' h hs'
        split
        · exact h
        · exact hI.stopped hs s' h
      readFailed := hI.readFailed
      received := hI.received
      answered := hI.answered
      confirmed := fun hs s h _ => hI.stopped hs s h
      again := fun _ _ h _ => h }
  exact confirmLoop_rounds hrounds fuel h

/-- The retry loop: it stops with the last successful attempt, after it or
after the failure of the next one. -/
theorem retryPowerOn_meets {fuel : Nat} {host : IpAddr} {port : UInt16} {wantOn : Bool}
    {I : Nat → PowerAttempt → Bool → σ → Prop} {Q : Except Stop (PowerAttempt × Bool) → σ → Prop}
    (stop : ∀ left attempt changed s, I left attempt changed s →
      left = 0 ∨ shouldRetryPowerOn wantOn attempt.observed = false → Q (.ok (attempt, changed)) s)
    (again : ∀ left attempt changed s s', I (left + 1) attempt changed s →
      shouldRetryPowerOn wantOn attempt.observed = true →
      step s ⟨.host (.sleep powerOnRetryBackoff), ()⟩ s' →
      Meets step (pressPowerOnce fuel host port wantOn) s' (fun r s'' => match r with
        | .ok next => I left next (changed || next.changed) s''
        | .error (.error _) => Q (.ok (attempt, changed)) s''
        | .error stop => Q (.error stop) s''))
    (left : Nat) {attempt : PowerAttempt} {changed : Bool} (h : I left attempt changed s) :
    Meets step (retryPowerOn fuel host port wantOn left attempt changed) s Q := by
  induction left generalizing attempt changed s with
  | zero => exact meets_pure.mpr (stop 0 attempt changed s h (.inl rfl))
  | succ left ih =>
      rw [retryPowerOn]
      split
      next hretry =>
        refine meets_request_bind.mpr fun _ s' hs' => ?_
        refine Meets.bind (meets_resultOf (R := fun r s'' => match r with
          | .ok (.ok next) => I left next (changed || next.changed) s''
          | .ok (.error _) => Q (.ok (attempt, changed)) s''
          | .error stop => Q (.error stop) s'')
          ((again left attempt changed s s' h hretry hs').mono ?_)) ?_ ?_
        · intro r s'' hr
          rcases r with (e | _ | _) | next <;> exact hr
        · intro r s'' hr
          cases r with
          | ok next => exact ih hr
          | error e => exact meets_pure.mpr hr
        · intro e s'' hr
          exact hr
      next hretry =>
        exact meets_pure.mpr (stop _ attempt changed s h (.inr (by simpa using hretry)))

end AtvRemote.SessionRules
