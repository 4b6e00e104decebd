import AtvRemote.Footprints
import AtvRemote.PairingSecrets

namespace AtvRemote.Blame

open Programs Contracts CommandRules CredentialRules Errors Messages SystemCalls Credentials
  Handshake Session SessionRules Pairing
  PairingRuns PairingSecrets Texts Wake WakeEffects PingAnswers

section Yields

variable {S : Signature} {ε α β : Type} {p : Program S ε α} {f : α → Program S ε β}
  {A A' : α → Prop} {B : β → Prop} {E E' : ε → Prop}

/-- The program returns or stops as described, whatever happened on the way. -/
def Yields (p : Program S ε α) (A : α → Prop) (E : ε → Prop) : Prop :=
  Ensures p fun _ r => match r with
    | .ok a => A a
    | .error e => E e

@[simp] theorem yields_ret {a : α} : Yields (.ret a : Program S ε α) A E ↔ A a := ensures_ret

@[simp] theorem yields_pure {a : α} : Yields (pure a : Program S ε α) A E ↔ A a := ensures_ret

@[simp] theorem yields_fail {e : ε} : Yields (.fail e : Program S ε α) A E ↔ E e := ensures_fail

@[simp] theorem yields_call {o : S.Op} {k : S.Answer o → Program S ε α} :
    Yields (.call o k) A E ↔ ∀ x, Yields (k x) A E :=
  ensures_call

theorem Yields.bind (hp : Yields p A E) (hf : ∀ a, A a → Yields (f a) B E) : Yields (p >>= f) B E :=
  Ensures.bind hp (fun _ a ha => hf a ha) (fun _ _ he => he)

theorem Yields.mono (hp : Yields p A E) (hA : ∀ a, A a → A' a) (hE : ∀ e, E e → E' e) :
    Yields p A' E' :=
  Ensures.mono hp fun _ r h => match r, h with
    | .ok a, h => hA a h
    | .error e, h => hE e h

end Yields

section Commands

variable {W : Signature} {α β ε : Type} {A : α → Prop} {B : β → Prop} {E : Stop → Prop}

theorem yields_request_bind {o : SystemOp W.Op} {g : _ → Command W β} :
    Yields (request o >>= g) B E ↔ ∀ x, Yields (g x) B E :=
  yields_call

@[simp] theorem yields_raise {e : AtvError} : Yields (raise e : Command W α) A E ↔ E (.error e) :=
  yields_fail

@[simp] theorem yields_orRaise {r : Except ε α} {f : ε → AtvError} :
    Yields (orRaise r f : Command W α) A E ↔ (∀ a, r = .ok a → A a) ∧ ∀ e, r = .error e →
      E (.error (f e)) := by
  cases r <;> simp [orRaise]

@[simp] theorem yields_orRaise_bind {r : Except ε α} {f : ε → AtvError} {g : α → Command W β} :
    Yields (orRaise r f >>= g) B E ↔ (∀ a, r = .ok a → Yields (g a) B E) ∧ ∀ e, r = .error e →
      E (.error (f e)) := by
  cases r <;> simp [orRaise, raise]

@[simp] theorem yields_okOrRaise_bind {r : Option α} {e : AtvError} {g : α → Command W β} :
    Yields (okOrRaise r e >>= g) B E ↔ (∀ a, r = some a → Yields (g a) B E) ∧
      (r = none → E (.error e)) := by
  cases r <;> simp [okOrRaise, raise]

end Commands

/-- An error of one of the kinds, but no panic. -/
def Blamed (kinds : List ErrorKind) : Stop → Prop
  | .error e => e.kind ∈ kinds
  | .panic _ => False
  | .unfinished => True

theorem Blamed.mono {kinds kinds' : List ErrorKind} (h : kinds ⊆ kinds') {stop : Stop}
    (hstop : Blamed kinds stop) :
    Blamed kinds' stop := by
  cases stop with
  | error e => exact h hstop
  | panic text => exact hstop
  | unfinished => trivial

@[simp] theorem blamed_error {kinds : List ErrorKind} {e : AtvError} :
    Blamed kinds (.error e) ↔ e.kind ∈ kinds := Iff.rfl

@[simp] theorem kind_new {kind : ErrorKind} {detail : String} :
    (AtvError.new kind detail).kind = kind := rfl

def Fails {W : Signature} {α : Type} (kinds : List ErrorKind) (p : Command W α) : Prop :=
  Yields p (fun _ => True) (Blamed kinds)

section Credentials

variable {W : Signature}

theorem credentialDirFromEnv_fails :
    Fails [.configIo] (credentialDirFromEnv : Command W String) := by
  have hresolve : ∀ a b c e, resolveCredentialDir a b c = .error e → e.kind = .configIo := by
    intro a b c e h
    unfold resolveCredentialDir at h
    dsimp only at h
    split at h
    all_goals cases h
    rfl
  refine yields_call.mpr fun a => yields_call.mpr fun b => yields_call.mpr fun c => ?_
  exact yields_orRaise.mpr ⟨fun _ _ => trivial, fun e he => List.mem_singleton.mpr
    (hresolve a b c e he)⟩

theorem bothFiles_fails (cert key : String) : Fails [] (bothFiles cert key : Command W Bool) :=
  yields_request_bind.mpr fun found => by cases found <;> simp [ask, request]

theorem fromCredentialDir_fails (dir : String) :
    Fails [.notPaired, .configIo] (TlsClient.fromCredentialDir dir : Command W TlsClient) := by
  have hpaired : Fails [.notPaired, .configIo] (ensurePaired dir : Command W Unit) :=
    ((bothFiles_fails _ _).mono (fun _ h => h) fun _ => Blamed.mono (List.nil_subset _)).bind
      fun found _ => by
      cases found <;> simp
  refine hpaired.bind fun _ _ => ?_
  simp [ask, request]

theorem connect_fails (tls : TlsClient) (host : IpAddr) (port : UInt16) (timeout : Duration) :
    Fails [.unreachable, .protocolError] (tls.connect host port timeout : Command W Conn) := by
  simp [Fails, TlsClient.connect, ask, request, unreachable]

theorem ensureIdentity_fails (dir : String) :
    Fails [.configIo] (ensureIdentity dir : Command W Unit) := by
  have hgenerate : Fails [.configIo] (generateIdentity : Command W (String × String)) := by
    simp [Fails, generateIdentity, ask, request]
  have hkey (path contents : String) :
      Fails [.configIo] (writeKeyFile path contents : Command W Unit) := by
    simp [Fails, writeKeyFile, ask, request]
  refine ((bothFiles_fails _ _).mono (fun _ h => h) fun _ => Blamed.mono (List.nil_subset _)).bind
    fun found _ => ?_
  cases found with
  | true => exact yields_pure.mpr trivial
  | false =>
      refine yields_call.mpr fun x => yields_orRaise_bind.mpr
        ⟨fun _ _ => ?_, fun e _ => List.mem_singleton.mpr rfl⟩
      refine hgenerate.bind ?_
      rintro ⟨certPem, keyPem⟩ _
      refine yields_call.mpr fun y => yields_orRaise_bind.mpr
        ⟨fun _ _ => ?_, fun e _ => List.mem_singleton.mpr rfl⟩
      exact hkey _ _

end Credentials

section Session

variable {host : IpAddr} {port : UInt16}

theorem mapSessionReadError_kind (e : IoError) (any : Bool) :
    (mapSessionReadError e any).kind = if any then .protocolError else .authRejected := by
  unfold mapSessionReadError
  cases any with
  | false => rfl
  | true =>
      simp only [Bool.not_true, Bool.false_eq_true, if_false, if_true]
      split <;> rfl

theorem round_fails {conn : Conn} {fuel : Nat} {A : SessionHandshake → Prop}
    (h : ∀ hs, Yields (readPowerLoop conn fuel hs true) A (Blamed [.protocolError]))
    (hs : SessionHandshake) (m : RemoteMessage) :
    Yields (do
      let (result, hs) := hs.handle m
      match ← propagate result with
      | some reply => orRaise (← writeMessage conn reply) sessionWriteFailed
      | none => pure ()
      readPowerLoop conn fuel hs true) A (Blamed [.protocolError]) := by
  simp only [Handshake.handle_eq]
  by_cases he : kind m = .error
  · rw [if_pos he]
    simp [remoteErrorReported, propagate]
  · rw [if_neg he]
    cases reply (narrow hs.activeFeatures (kind m)) (kind m) with
    | none => exact h _
    | some r =>
        exact yields_request_bind.mpr fun y => yields_orRaise_bind.mpr
          ⟨fun _ _ => h _, fun e _ => List.mem_singleton.mpr rfl⟩

theorem readPowerLoop_fails (conn : Conn) (fuel : Nat) (hs : SessionHandshake) :
    Yields (readPowerLoop conn fuel hs true) (fun hs => hs.power.isSome)
      (Blamed [.protocolError]) := by
  induction fuel generalizing hs with
  | zero => exact yields_fail.mpr trivial
  | succ fuel ih =>
      rw [readPowerLoop]
      split
      next hpower =>
        refine yields_request_bind.mpr fun x => yields_orRaise_bind.mpr
          ⟨fun m _ => round_fails ih hs m, fun e _ => ?_⟩
        rw [blamed_error, mapSessionReadError_kind]
        decide
      next hpower => exact yields_pure.mpr (by simpa [Option.isSome_iff_ne_none] using hpower)

theorem sendPresses_fails (conn : Conn) (keys : List Int32) (i : Nat) :
    Fails [.protocolError] (sendPresses conn i keys) := by
  induction keys generalizing i with
  | nil => exact yields_pure.mpr trivial
  | cons code keys ih =>
      have hpress : Fails [.protocolError] (do
          orRaise (← writeMessage conn (keyMessage code)) (keyFailed code)
          sendPresses conn (i + 1) keys) :=
        yields_request_bind.mpr fun _ => yields_orRaise_bind.mpr
          ⟨fun _ _ => ih _, fun e _ => List.mem_singleton.mpr rfl⟩
      rw [sendPresses]
      split
      · exact yields_request_bind.mpr fun _ => hpress
      · exact hpress

theorem confirmLoop_fails (conn : Conn) (wantOn : Bool) (deadline : Instant) (fuel : Nat)
    (hs : SessionHandshake) :
    Fails [] (confirmLoop conn wantOn deadline fuel hs) := by
  induction fuel generalizing hs with
  | zero => exact yields_fail.mpr trivial
  | succ fuel ih =>
      refine yields_request_bind.mpr fun now => ?_
      split
      · refine yields_request_bind.mpr fun x => ?_
        cases x with
        | error e => exact yields_pure.mpr trivial
        | ok m =>
            have hround (hs : SessionHandshake) : Fails [] (if hs.power = some wantOn then pure hs
                else confirmLoop conn wantOn deadline fuel hs) := by
              split
              · exact yields_pure.mpr trivial
              · exact ih hs
            simp only [Handshake.handle_eq]
            by_cases he : kind m = .error
            · rw [if_pos he]
              exact hround (next hs (kind m))
            · rw [if_neg he]
              cases reply (narrow hs.activeFeatures (kind m)) (kind m) with
              | none => exact hround (next hs (kind m))
              | some r => exact yields_request_bind.mpr fun y => hround (next hs (kind m))
      · exact yields_pure.mpr trivial

theorem resultOf_fails {W : Signature} {α : Type} {kinds : List ErrorKind} {p : Command W α}
    (hp : Fails kinds p) :
    Fails [] (resultOf p) := by
  intro t r h
  obtain ⟨q, hq, rfl⟩ := run_resultOf.mp h
  have hblamed := hp t q hq
  rcases q with (e | text | _) | a
  · trivial
  · exact hblamed
  · trivial
  · trivial

theorem retryPowerOn_fails {kinds : List ErrorKind} {fuel : Nat} {wantOn : Bool}
    (h : Fails kinds (pressPowerOnce fuel host port wantOn))
    (left : Nat) (attempt : PowerAttempt) (changed : Bool) :
    Fails [] (retryPowerOn fuel host port wantOn left attempt changed) := by
  induction left generalizing attempt changed with
  | zero => exact yields_pure.mpr trivial
  | succ left ih =>
      rw [retryPowerOn]
      split
      · refine yields_request_bind.mpr fun _ => (resultOf_fails h).bind fun r _ => ?_
        cases r with
        | ok next => exact ih next _
        | error e => exact yields_pure.mpr trivial
      · exact yields_pure.mpr trivial

end Session

section Judged

variable {M α β : Type}

def Silent : Event (System (MessageWire M)) → Prop
  | ⟨.wire _ (.send _), _⟩ => False
  | _ => True

theorem silent_of_onHost {e : Event (System (MessageWire M))} (h : OnHost e) : Silent e := by
  obtain ⟨o, x⟩ := e
  cases o with
  | wire => exact h.elim
  | host => trivial

/-- The kinds of an error that something may have been sent before. -/
def loud : List ErrorKind := [.protocolError, .pairingFailed]

/-- One of the kinds, and nothing was sent before an error that is not loud. -/
def Judged (kinds : List ErrorKind) (t : Trace (System (MessageWire M))) : Stop → Prop
  | .error e => e.kind ∈ kinds ∧ (e.kind ∈ loud ∨ ∀ e ∈ t, Silent e)
  | .panic _ => False
  | .unfinished => True

def Answers (kinds : List ErrorKind) (p : Command (MessageWire M) α) : Prop :=
  Ensures p fun t r => ∀ stop, r = .error stop → Judged kinds t stop

variable {kinds l : List ErrorKind} {p : Command (MessageWire M) α}
  {f : α → Command (MessageWire M) β}
  {t u : Trace (System (MessageWire M))} {stop : Stop}

theorem judged_of_loud (h : Blamed l stop) (hkinds : l ⊆ kinds) (hloud : l ⊆ loud) :
    Judged kinds t stop := by
  cases stop with
  | error e => exact ⟨hkinds h, .inl (hloud h)⟩
  | panic text => exact h
  | unfinished => trivial

theorem judged_of_silent (h : Blamed l stop) (hkinds : l ⊆ kinds) (ht : ∀ e ∈ t, Silent e) :
    Judged kinds t stop := by
  cases stop with
  | error e => exact ⟨hkinds h, .inr ht⟩
  | panic text => exact h
  | unfinished => trivial

theorem Judged.append (h : Judged kinds t stop) (hu : ∀ e ∈ u, Silent e) :
    Judged kinds (u ++ t) stop := by
  cases stop with
  | error e => exact ⟨h.1, h.2.imp id fun ht => List.forall_mem_append.mpr ⟨hu, ht⟩⟩
  | panic text => exact h
  | unfinished => trivial

theorem Fails.loud {A : α → Prop} (hp : Yields p A (Blamed l)) (hkinds : l ⊆ kinds)
    (hloud : l ⊆ loud) :
    Answers kinds p := by
  rintro t r h stop rfl
  exact judged_of_loud (hp t _ h) hkinds hloud

theorem Fails.silent (hp : Fails l p) (hsilent : Throughout Silent p) (hkinds : l ⊆ kinds) :
    Answers kinds p := by
  rintro t r h stop rfl
  exact judged_of_silent (hp t _ h) hkinds (hsilent.ensures t _ h)

theorem Answers.bind_loud (hp : Answers kinds p) (hf : ∀ a, Fails l (f a)) (hkinds : l ⊆ kinds)
    (hloud : l ⊆ loud) :
    Answers kinds (p >>= f) := by
  refine Ensures.bind hp ?_ ?_
  · rintro u a _ v r hv stop rfl
    exact judged_of_loud (hf a v _ hv) hkinds hloud
  · rintro u e hu stop ⟨⟩
    exact hu e rfl

theorem Answers.bind_silent (hp : Answers kinds p) (hsilent : Throughout Silent p)
    (hf : ∀ a, Answers kinds (f a)) :
    Answers kinds (p >>= f) := by
  intro t r h
  rcases run_bind.mp h with ⟨a, u, v, rfl, hu, hv⟩ | ⟨e, hu, rfl⟩
  · exact fun stop hstop => (hf a v r hv stop hstop).append (hsilent.ensures u _ hu)
  · rintro stop ⟨⟩
    exact hp t _ hu e rfl

theorem Answers.fails (hp : Answers kinds p) : Fails kinds p := by
  intro t r h
  cases r with
  | ok a => trivial
  | error stop =>
      have hjudged := hp t _ h stop rfl
      cases stop with
      | error e => exact hjudged.1
      | panic text => exact hjudged
      | unfinished => trivial

end Judged

/-- The errors of the commands that open a session. -/
def sessionKinds : List ErrorKind :=
  [.configIo, .notPaired, .unreachable, .authRejected, .protocolError]

/-- The errors of `pair`. -/
def pairKinds : List ErrorKind :=
  [.configIo, .notPaired, .unreachable, .pairingFailed, .protocolError]

section Session

variable {host : IpAddr} {port : UInt16}

theorem openSession_silent : Throughout Silent (openSession host port) :=
  (openSession_onHost host port).mono fun _ => silent_of_onHost

theorem openSession_fails : Fails sessionKinds (openSession host port) := by
  refine (credentialDirFromEnv_fails.mono (fun _ h => h) fun _ => Blamed.mono (by decide)).bind
    fun dir _ => ?_
  refine ((fromCredentialDir_fails dir).mono (fun _ h => h) fun _ => Blamed.mono (by decide)).bind
    fun tls _ => ?_
  exact (connect_fails tls host port _).mono (fun _ h => h) fun _ => Blamed.mono (by decide)

/-- A rejection is reported only of the first read. -/
theorem readPowerLoop_answers (conn : Conn) (fuel : Nat) :
    Ensures (readPowerLoop conn fuel .new false) (fun t r => match r with
      | .ok hs => hs.power.isSome
      | .error stop => Judged sessionKinds t stop) := by
  cases fuel with
  | zero => exact ensures_fail.mpr trivial
  | succ fuel =>
      refine ensures_call.mpr fun x => ?_
      cases x with
      | error e =>
          have hkind := mapSessionReadError_kind e false
          refine ensures_fail.mpr ⟨?_, .inr (List.forall_mem_singleton.mpr trivial)⟩
          rw [hkind]
          decide
      | ok m =>
          refine Ensures.mono (round_fails (readPowerLoop_fails conn fuel) .new m) fun t r h => ?_
          cases r with
          | ok hs => exact h
          | error stop => exact judged_of_loud h (by decide) (by decide)

theorem readPower_answers (fuel : Nat) : Answers sessionKinds (readPower fuel host port) := by
  refine (openSession_fails.silent openSession_silent (List.Subset.refl _)).bind_silent
    openSession_silent fun conn => ?_
  refine Ensures.bind (readPowerLoop_answers conn fuel) ?_ ?_
  · intro u hs hpower
    obtain ⟨power, hpower⟩ := Option.isSome_iff_exists.mp hpower
    rw [hpower]
    exact ensures_pure.mpr nofun
  · rintro u e he stop ⟨⟩
    exact he

theorem pressPowerOnce_answers (fuel : Nat) (wantOn : Bool) :
    Answers sessionKinds (pressPowerOnce fuel host port wantOn) := by
  refine (readPower_answers fuel).bind_loud (l := [.protocolError]) ?_ (by decide) (by decide)
  rintro ⟨current, conn, hs⟩
  dsimp only
  split
  · refine yields_request_bind.mpr fun _ => yields_request_bind.mpr fun x => ?_
    refine yields_orRaise_bind.mpr ⟨fun _ _ => ?_, fun e _ => List.mem_singleton.mpr rfl⟩
    refine yields_request_bind.mpr fun _ => yields_request_bind.mpr fun now => ?_
    refine Yields.bind ((confirmLoop_fails _ _ _ _ _).mono (fun _ h => h) fun _ => Blamed.mono
      (List.nil_subset _)) fun hs _ => ?_
    exact yields_pure.mpr trivial
  · exact yields_pure.mpr trivial

theorem setPower_answers (fuel : Nat) (wantOn : Bool) :
    Answers sessionKinds (setPower fuel host port wantOn) := by
  have hpress := @pressPowerOnce_answers host port fuel wantOn
  refine hpress.bind_loud (l := []) (fun attempt => ?_) (List.nil_subset _) (List.nil_subset _)
  refine (retryPowerOn_fails hpress.fails _ _ _).bind fun _ _ => ?_
  exact yields_request_bind.mpr fun _ => yields_pure.mpr trivial

theorem wakeAndSetPower_answers (fuel : Nat) (wantOn : Bool) (mac : Mac) :
    Answers sessionKinds (wakeAndSetPower fuel host port wantOn mac) := by
  have hpacket : Fails [.protocolError] (sendMagicPacket mac) := by
    simp [Fails, sendMagicPacket, ask, request, wakeSendFailed]
  have hsilent : Throughout Silent (sendMagicPacket mac) := by
    simp [sendMagicPacket, ask, request, Silent]
  have hloop (addr : SocketAddr) (deadline : Instant) :
      Fails [.unreachable] (waitLoop addr deadline fuel) := by
    induction fuel with
    | zero => exact yields_fail.mpr trivial
    | succ fuel ih =>
        refine yields_request_bind.mpr fun now => ?_
        split
        · refine yields_request_bind.mpr fun x => ?_
          cases x with
          | ok sock => exact yields_pure.mpr trivial
          | error e => exact yields_request_bind.mpr fun _ => ih
        · exact yields_raise.mpr (List.mem_singleton.mpr rfl)
  have hwait : Fails [.unreachable] (waitForPort fuel host port wolWait) :=
    yields_request_bind.mpr fun now => hloop _ _
  have hwaitSilent : Throughout Silent (waitForPort fuel host port wolWait) := by
    refine (waitForPort_events fuel host port wolWait).mono fun e he => ?_
    obtain ⟨o, x⟩ := e
    cases o with
    | wire => exact he.elim
    | host => trivial
  refine (hpacket.silent hsilent (by decide)).bind_silent hsilent fun _ => ?_
  refine (hwait.silent hwaitSilent (by decide)).bind_silent hwaitSilent fun _ => ?_
  exact (setPower_answers fuel wantOn).bind_loud (fun out => yields_pure.mpr trivial)
    (List.nil_subset _) (List.nil_subset _)

theorem setPowerWithWake_answers (fuel : Nat) (wantOn : Bool) (mac : Option Mac) :
    Answers sessionKinds (setPowerWithWake fuel host port wantOn mac) := by
  intro t r h
  rcases setPowerWithWake_cases h with hset | ⟨m, e, u, v, _, _, hkind, rfl, hu, hv⟩
  · exact setPower_answers fuel wantOn t r hset
  · -- the first attempt has found the TV unreachable, so it has sent nothing
    obtain ⟨_, hloud | hsilent⟩ := setPower_answers fuel wantOn u _ hu _ rfl
    · rw [hkind] at hloud
      exact absurd hloud (by decide)
    · exact fun stop hstop =>
        (wakeAndSetPower_answers fuel wantOn m v r hv stop hstop).append hsilent

theorem session_answers (command : SessionCommand) (fuel : Nat) :
    Answers sessionKinds (command.run fuel host port) := by
  have hpure {α β : Type} {g : α → β} (a : α) : Fails [] (pure (g a) : Command SessionWire β) :=
    yields_pure.mpr trivial
  cases command with
  | status =>
      have hstatus : Answers sessionKinds (status fuel host port) :=
        (readPower_answers fuel).bind_loud (l := [])
          (fun _ => yields_request_bind.mpr fun _ => yields_pure.mpr trivial)
          (List.nil_subset _) (List.nil_subset _)
      exact hstatus.bind_loud hpure (List.nil_subset _) (List.nil_subset _)
  | on mac =>
      exact (setPowerWithWake_answers fuel true mac).bind_loud hpure (List.nil_subset _)
        (List.nil_subset _)
  | off =>
      exact (setPower_answers fuel false).bind_loud hpure (List.nil_subset _) (List.nil_subset _)
  | key keys =>
      have hkeys : Answers sessionKinds (sendKeys fuel host port keys) := by
        refine (readPower_answers fuel).bind_loud (l := [.protocolError]) ?_ (by decide) (by decide)
        rintro ⟨_, conn, _⟩
        refine yields_request_bind.mpr fun _ => (sendPresses_fails conn keys 0).bind fun _ _ => ?_
        exact yields_request_bind.mpr fun _ => yields_request_bind.mpr fun _ =>
          yields_pure.mpr trivial
      exact hkeys.bind_loud hpure (List.nil_subset _) (List.nil_subset _)
  | launch appLink =>
      have hlink : Answers sessionKinds (sendAppLink fuel host port appLink) := by
        refine (readPower_answers fuel).bind_loud (l := [.protocolError]) ?_ (by decide) (by decide)
        rintro ⟨_, conn, _⟩
        refine yields_request_bind.mpr fun _ => yields_request_bind.mpr fun x => ?_
        refine yields_orRaise_bind.mpr ⟨fun _ _ => ?_, fun e _ => List.mem_singleton.mpr rfl⟩
        exact yields_request_bind.mpr fun _ => yields_request_bind.mpr fun _ =>
          yields_pure.mpr trivial
      exact hlink.bind_loud hpure (List.nil_subset _) (List.nil_subset _)

end Session

section Pairing

variable {lib : Library} {host : IpAddr} {port : UInt16}

theorem rsaNumbers_kind {der : Bytes} {e : AtvError} (h : rsaNumbers lib der = .error e) :
    e.kind = .protocolError := by
  unfold rsaNumbers at h
  split at h
  all_goals cases h
  all_goals rfl

theorem computePairingSecret_fails {clientDer serverDer : Bytes} {code : String} {stop : Stop}
    (h : computePairingSecret lib clientDer serverDer code = .error stop) :
    Blamed [.pairingFailed, .protocolError] stop := by
  unfold computePairingSecret at h
  cases hguard : (code.utf8ByteSize ≠ 6 || !code.toList.all isAsciiHexdigit) with
  | true =>
      rw [hguard, if_pos rfl] at h
      cases h
      exact blamed_error.mpr List.mem_cons_self
  | false =>
      obtain ⟨checksum, nonce, _, hchecksum, first, second, _, hfirst, hsecond⟩ :=
        codeBytes_of_guard hguard
      rw [hguard, if_neg Bool.false_ne_true, hchecksum, hfirst, hsecond] at h
      cases hclient : rsaNumbers lib clientDer with
      | error e =>
          rw [hclient] at h
          cases h
          rw [blamed_error, rsaNumbers_kind hclient]
          decide
      | ok client =>
          cases hserver : rsaNumbers lib serverDer with
          | error e =>
              rw [hclient, hserver] at h
              cases h
              rw [blamed_error, rsaNumbers_kind hserver]
              decide
          | ok server =>
              rw [hclient, hserver] at h
              dsimp only [Except.mapError, Bind.bind, Except.bind] at h
              split at h
              all_goals cases h
              exact blamed_error.mpr List.mem_cons_self

theorem rejection_kind {m : OuterMessage} {e : AtvError} (h : rejection m = some e) :
    e.kind ∈ [ErrorKind.pairingFailed, ErrorKind.protocolError] := by
  unfold rejection at h
  split at h
  all_goals cases h
  · exact List.mem_cons_self
  · exact List.mem_cons_of_mem _ List.mem_cons_self

theorem pairLoop_fails (conn : Conn) (fuel : Nat) (flow : PairingFlow) :
    Fails [.pairingFailed, .protocolError] (pairLoop conn fuel flow) := by
  induction fuel generalizing flow with
  | zero => exact yields_fail.mpr trivial
  | succ fuel ih =>
      rw [pairLoop]
      split
      · refine yields_request_bind.mpr fun x => yields_orRaise_bind.mpr
          ⟨fun m _ => ?_, fun e _ => by simp [protoErr]⟩
        simp only [PairingRuns.handle_eq]
        cases hrejection : rejection m with
        | some e => exact yields_fail.mpr (rejection_kind hrejection)
        | none =>
            cases answer m with
            | none => exact ih _
            | some r =>
                exact yields_request_bind.mpr fun y => yields_orRaise_bind.mpr
                  ⟨fun _ _ => ih _, fun e _ => by simp [protoErr]⟩
      · exact yields_pure.mpr trivial

theorem readSecret_fails (tls : TlsClient) (conn : Conn) :
    Fails [.pairingFailed, .protocolError] (readSecret lib tls conn) := by
  refine yields_request_bind.mpr fun _ => yields_request_bind.mpr fun x => ?_
  refine yields_orRaise_bind.mpr ⟨fun line _ => yields_request_bind.mpr fun certs => ?_,
    fun e _ => by simp⟩
  refine yields_okOrRaise_bind.mpr ⟨fun serverDer _ => ?_, fun _ => by simp⟩
  split
  next => exact yields_pure.mpr trivial
  next stop hstop => exact yields_fail.mpr (computePairingSecret_fails hstop)

theorem sendSecret_fails (conn : Conn) (flow : PairingFlow) (secret : Bytes) :
    Fails [.pairingFailed, .protocolError] (sendSecret host conn flow secret) := by
  refine yields_request_bind.mpr fun _ => yields_orRaise_bind.mpr
    ⟨fun _ _ => ?_, fun e _ => by simp [protoErr]⟩
  refine yields_request_bind.mpr fun x => yields_orRaise_bind.mpr
    ⟨fun ack _ => ?_, fun e _ => by simp⟩
  rw [PairingRuns.handle_eq]
  cases hrejection : rejection ack with
  | some e => exact yields_fail.mpr (rejection_kind hrejection)
  | none => exact yields_request_bind.mpr fun _ => yields_pure.mpr trivial

theorem openPairing_answers : Answers pairKinds (openPairing host port) := by
  refine Fails.silent (l := pairKinds) ?_
    ((openPairing_onHost host port).mono fun _ => silent_of_onHost) (List.Subset.refl _)
  refine (credentialDirFromEnv_fails.mono (fun _ h => h) fun _ => Blamed.mono (by decide)).bind
    fun dir _ => ?_
  refine ((ensureIdentity_fails dir).mono (fun _ h => h) fun _ => Blamed.mono (by decide)).bind
    fun _ _ => ?_
  refine ((fromCredentialDir_fails dir).mono (fun _ h => h) fun _ => Blamed.mono (by decide)).bind
    fun tls _ => ?_
  refine ((connect_fails tls host port _).mono (fun _ h => h) fun _ => Blamed.mono (by decide)).bind
    fun conn _ => ?_
  exact yields_pure.mpr trivial

theorem pair_answers (fuel : Nat) : Answers pairKinds (pair lib fuel host port) := by
  refine openPairing_answers.bind_loud (l := [.pairingFailed, .protocolError]) ?_
    (by decide) (by decide)
  rintro ⟨tls, conn⟩
  refine yields_request_bind.mpr fun _ => yields_orRaise_bind.mpr
    ⟨fun _ _ => ?_, fun e _ => by simp [protoErr]⟩
  refine (pairLoop_fails conn fuel _).bind fun flow _ => ?_
  exact (readSecret_fails tls conn).bind fun secret _ => sendSecret_fails conn flow secret

end Pairing

end AtvRemote.Blame
