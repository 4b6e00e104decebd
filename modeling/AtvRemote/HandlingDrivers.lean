import AtvRemote.Handlings
import AtvRemote.PairingRuns
import AtvRemote.SessionRules

namespace AtvRemote.HandlingDrivers

open Programs Contracts CommandRules CredentialRules Errors Messages SystemCalls Credentials
  Handshake Session SessionRules Pairing
  PairingRuns Translations Handlings

variable {α : Type}

/-- The drivers of the session and of pairing, as `Session` and `Pairing` have
them, with their calls of `handle` as operations. -/
abbrev SessionDriver (α : Type) := Driver RemoteMessage SessionHandshake α

abbrev PairingDriver (α : Type) := Driver OuterMessage PairingFlow α

def shownReadPowerLoop (conn : Conn) :
    Nat → SessionHandshake → Bool → SessionDriver SessionHandshake
  | 0, _, _ => .fail .unfinished
  | fuel + 1, hs, gotAny =>
      if hs.power.isNone then do
        let msg ← shown
          (orRaise (← shown (readMessage conn)) (fun e => mapSessionReadError e gotAny))
        let (result, hs) ← handle conn hs msg
        match ← shown (propagate result) with
        | some reply => shown (orRaise (← shown (writeMessage conn reply)) sessionWriteFailed)
        | none => pure ()
        shownReadPowerLoop conn fuel hs true
      else pure hs

def shownReadPower (fuel : Nat) (host : IpAddr) (port : UInt16) :
    SessionDriver (Bool × Conn × SessionHandshake) := do
  let conn ← shown (openSession host port)
  let hs ← shownReadPowerLoop conn fuel SessionHandshake.new false
  let power ← shown (expect hs.power "loop exits only with power set")
  pure (power, conn, hs)

def shownConfirmLoop (conn : Conn) (wantOn : Bool) (deadline : Instant) :
    Nat → SessionHandshake → SessionDriver SessionHandshake
  | 0, _ => .fail .unfinished
  | fuel + 1, hs => do
      if (← shown now) < deadline then
        match ← shown (readMessage conn) with
        | .error _ => pure hs
        | .ok msg =>
            let (result, hs) ← handle conn hs msg
            match result with
            | .ok (some reply) => let _ ← shown (writeMessage conn reply)
            | .ok none | .error _ => pure ()
            if hs.power = some wantOn then pure hs
            else shownConfirmLoop conn wantOn deadline fuel hs
      else pure hs

def shownPressPowerOnce (fuel : Nat) (host : IpAddr) (port : UInt16) (wantOn : Bool) :
    SessionDriver PowerAttempt := do
  let (current, conn, hs) ← shownReadPower fuel host port
  if needsPowerKey current wantOn then
    shown (sleep keyInjectGrace)
    shown (orRaise (← shown (writeMessage conn powerKeyMessage)) powerKeyFailed)
    let _ ← shown (ask (.setReadTimeout conn.sock (fromSecs 3)))
    let deadline := (← shown now) + fromSecs 5
    let hs ← shownConfirmLoop conn wantOn deadline fuel { hs with power := none }
    pure { changed := true, resulting := hs.power.getD wantOn, observed := hs.power }
  else
    pure { changed := false, resulting := current, observed := some current }

def shownPairLoop (conn : Conn) : Nat → PairingFlow → PairingDriver PairingFlow
  | 0, _ => .fail .unfinished
  | fuel + 1, flow =>
      if !flow.awaitingCode then do
        let msg ← shown (orRaise (← shown (readMessage conn)) protoErr)
        let (result, flow) ← handle conn flow msg
        match ← shown (propagate result) with
        | some reply => shown (orRaise (← shown (writeMessage conn reply)) protoErr)
        | none => pure ()
        shownPairLoop conn fuel flow
      else pure flow

def shownSendSecret (host : IpAddr) (conn : Conn) (flow : PairingFlow) (secret : Bytes) :
    PairingDriver PairOutput := do
  shown (orRaise (← shown (writeMessage conn (secretMessage secret))) protoErr)
  let ack ← shown (orRaise (← shown (readMessage conn)) (fun e => .new .pairingFailed
    s!"TV closed the connection after the secret — wrong code? ({e})"))
  let (result, _) ← handle conn flow ack
  let _ ← shown (propagate result)
  pure { timestamp := ← shown timestamp, host := host.text, paired := true }

def shownPair (lib : Library) (fuel : Nat) (host : IpAddr) (port : UInt16) :
    PairingDriver PairOutput := do
  let (tls, conn) ← shown (openPairing host port)
  shown (orRaise (← shown (writeMessage conn initialMessage)) protoErr)
  let flow ← shownPairLoop conn fuel .new
  let secret ← shown (readSecret lib tls conn)
  shownSendSecret host conn flow secret

section Calling

variable {host : IpAddr} {port : UInt16}

theorem translate_readPowerLoop (conn : Conn) (fuel : Nat) (hs : SessionHandshake) (gotAny : Bool) :
    (shownReadPowerLoop conn fuel hs gotAny).translate (calling SessionHandshake.handle) =
    readPowerLoop conn fuel hs gotAny := by
  induction fuel generalizing hs gotAny with
  | zero => rfl
  | succ fuel ih =>
      rw [shownReadPowerLoop, readPowerLoop]
      split
      · simp only [translate_shown_bind, translate_handle_bind]
        refine congrArg _
          (funext fun x => congrArg _ (funext fun msg => congrArg _ (funext fun answer => ?_)))
        cases answer with
        | none => exact ih _ _
        | some reply => simp only [translate_shown_bind, ih]
      · rfl

theorem translate_readPower (fuel : Nat) :
    (shownReadPower fuel host port).translate (calling SessionHandshake.handle) =
    readPower fuel host port := by
  simp only [shownReadPower, readPower, translate_bind, translate_shown,
    translate_readPowerLoop, translate_pure]

theorem translate_confirmLoop (conn : Conn) (wantOn : Bool) (deadline : Instant) (fuel : Nat)
    (hs : SessionHandshake) :
    (shownConfirmLoop conn wantOn deadline fuel hs).translate (calling SessionHandshake.handle) =
      confirmLoop conn wantOn deadline fuel hs := by
  induction fuel generalizing hs with
  | zero => rfl
  | succ fuel ih =>
      rw [shownConfirmLoop, confirmLoop, translate_shown_bind]
      refine congrArg _ (funext fun time => ?_)
      split
      · rw [translate_shown_bind]
        refine congrArg _ (funext fun x => ?_)
        cases x with
        | error e => rfl
        | ok msg =>
            have hround (hs : SessionHandshake) :
                (if hs.power = some wantOn then pure hs
                  else shownConfirmLoop conn wantOn deadline fuel hs :
                  SessionDriver SessionHandshake).translate (calling SessionHandshake.handle) =
                if hs.power = some wantOn then pure hs
                  else confirmLoop conn wantOn deadline fuel hs := by
              split
              · rfl
              · exact ih hs
            dsimp only
            rw [translate_handle_bind]
            rcases hs.handle msg with ⟨e | _ | reply, hs⟩
            · exact hround hs
            · exact hround hs
            · exact (translate_shown_bind _ _).trans (congrArg _ (funext fun _ => hround hs))
      · rfl

theorem translate_pressPowerOnce (fuel : Nat) (wantOn : Bool) :
    (shownPressPowerOnce fuel host port wantOn).translate (calling SessionHandshake.handle) =
      pressPowerOnce fuel host port wantOn := by
  rw [shownPressPowerOnce, pressPowerOnce, translate_bind, translate_readPower]
  refine congrArg _ (funext fun found => ?_)
  obtain ⟨current, conn, hs⟩ := found
  dsimp only
  split
  · simp only [translate_bind, translate_shown, translate_confirmLoop, translate_pure]
  · rfl

theorem translate_pairLoop (conn : Conn) (fuel : Nat) (flow : PairingFlow) :
    (shownPairLoop conn fuel flow).translate (calling PairingFlow.handle) =
    pairLoop conn fuel flow := by
  induction fuel generalizing flow with
  | zero => rfl
  | succ fuel ih =>
      rw [shownPairLoop, pairLoop]
      split
      · simp only [translate_shown_bind, translate_handle_bind]
        refine congrArg _
          (funext fun x => congrArg _ (funext fun msg => congrArg _ (funext fun answer => ?_)))
        cases answer with
        | none => exact ih _
        | some reply => simp only [translate_shown_bind, ih]
      · rfl

theorem translate_sendSecret (conn : Conn) (flow : PairingFlow) (secret : Bytes) :
    (shownSendSecret host conn flow secret).translate (calling PairingFlow.handle) =
    sendSecret host conn flow secret := by
  simp only [shownSendSecret, sendSecret, translate_shown_bind,
    translate_handle_bind, translate_pure]

theorem translate_pair (lib : Library) (fuel : Nat) :
    (shownPair lib fuel host port).translate (calling PairingFlow.handle) =
    pair lib fuel host port := by
  simp only [shownPair, pair, translate_bind, translate_shown, translate_pairLoop,
    translate_sendSecret]

end Calling

section Handles

variable {host : IpAddr} {port : UInt16}

theorem other_of_onHost {M : Type} {e : Event (System (MessageWire M))} (h : OnHost e) :
    Other e := by
  obtain ⟨o, x⟩ := e
  cases o with
  | wire => exact h.elim
  | host => trivial

theorem ask_handles {M St : Type} {o : HostOp} {g : o.Answer → Driver M St α}
    (hg : ∀ x, HandlesAll (g x)) :
    HandlesAll (shown (ask o) >>= g) := by
  have hask : Throughout Other (ask o : Command (MessageWire M) o.Answer) :=
    fun _ => ⟨trivial, trivial⟩
  exact (shown_handles hask).bind hg

theorem write_handles {M St : Type} {conn : Conn} {m : M} {g : Except IoError Unit → Driver M St α}
    (hg : ∀ x, HandlesAll (g x)) :
    HandlesAll (shown (writeMessage conn m) >>= g) := by
  have hwrite : Throughout Other (writeMessage conn m) := fun _ => ⟨trivial, trivial⟩
  exact (shown_handles hwrite).bind hg

theorem orRaise_handles {M St ε β : Type} {r : Except ε α} {f : ε → AtvError}
    {g : α → Driver M St β} (hg : ∀ a, HandlesAll (g a)) :
    HandlesAll (shown (orRaise r f) >>= g) := (shown_handles throughout_orRaise).bind hg

theorem pure_handles {M St : Type} (a : α) : HandlesAll (pure a : Driver M St α) :=
  ensures_pure.mpr handles_nil

theorem unfinished_handles {M St : Type} : HandlesAll (.fail .unfinished : Driver M St α) :=
  ensures_fail.mpr handles_nil

theorem raised_handles {M St ε β : Type} {e : ε} {f : ε → AtvError} {g : α → Driver M St β} :
    HandlesAll (shown (orRaise (.error e) f) >>= g) := ensures_fail.mpr handles_nil

theorem readPowerLoop_handles (conn : Conn) (fuel : Nat) (hs : SessionHandshake) (gotAny : Bool) :
    HandlesAll (shownReadPowerLoop conn fuel hs gotAny) := by
  induction fuel generalizing hs gotAny with
  | zero => exact unfinished_handles
  | succ fuel ih =>
      rw [shownReadPowerLoop]
      split
      · refine read_handles (fun e => raised_handles) (fun m => rfl) ?_
        rintro m ⟨result, hs⟩
        refine orRaise_handles fun answer => ?_
        cases answer with
        | none => exact ih hs true
        | some reply => exact write_handles fun x => orRaise_handles fun _ => ih hs true
      · exact pure_handles hs

theorem readPower_handles (fuel : Nat) : HandlesAll (shownReadPower fuel host port) := by
  refine (shown_handles ((openSession_onHost host port).mono fun _ => other_of_onHost)).bind
    fun conn => ?_
  refine (readPowerLoop_handles conn fuel _ _).bind fun hs => ?_
  exact (shown_handles throughout_expect).bind fun power => pure_handles _

theorem confirmLoop_handles (conn : Conn) (wantOn : Bool) (deadline : Instant) (fuel : Nat)
    (hs : SessionHandshake) :
    HandlesAll (shownConfirmLoop conn wantOn deadline fuel hs) := by
  induction fuel generalizing hs with
  | zero => exact unfinished_handles
  | succ fuel ih =>
      rw [shownConfirmLoop]
      refine ask_handles fun time => ?_
      split
      · have hround (hs : SessionHandshake) : HandlesAll
            (if hs.power = some wantOn then pure hs
              else shownConfirmLoop conn wantOn deadline fuel hs) := by
          split
          · exact pure_handles hs
          · exact ih hs
        refine read_handles (fun e => pure_handles hs) (fun m => rfl) ?_
        rintro m ⟨e | _ | reply, hs⟩
        · exact hround hs
        · exact hround hs
        · exact write_handles fun _ => hround hs
      · exact pure_handles hs

theorem pressPowerOnce_handles (fuel : Nat) (wantOn : Bool) :
    HandlesAll (shownPressPowerOnce fuel host port wantOn) := by
  refine (readPower_handles fuel).bind ?_
  rintro ⟨current, conn, hs⟩
  dsimp only
  split
  · refine ask_handles fun _ => write_handles fun x => orRaise_handles fun _ => ask_handles fun _ =>
      ask_handles fun start => ?_
    exact (confirmLoop_handles conn wantOn _ fuel _).bind fun hs => pure_handles _
  · exact pure_handles _

theorem pairLoop_handles (conn : Conn) (fuel : Nat) (flow : PairingFlow) :
    HandlesAll (shownPairLoop conn fuel flow) := by
  induction fuel generalizing flow with
  | zero => exact unfinished_handles
  | succ fuel ih =>
      rw [shownPairLoop]
      split
      · refine read_handles (fun e => raised_handles) (fun m => rfl) ?_
        rintro m ⟨result, flow⟩
        refine orRaise_handles fun answer => ?_
        cases answer with
        | none => exact ih flow
        | some reply => exact write_handles fun x => orRaise_handles fun _ => ih flow
      · exact pure_handles flow

theorem sendSecret_handles (conn : Conn) (flow : PairingFlow) (secret : Bytes) :
    HandlesAll (shownSendSecret host conn flow secret) := by
  refine write_handles fun x => orRaise_handles fun _ => ?_
  refine read_handles (fun e => raised_handles) (fun m => rfl) ?_
  rintro m ⟨result, flow⟩
  exact orRaise_handles fun answer => ask_handles fun text => pure_handles _

theorem pair_handles (lib : Library) (fuel : Nat) : HandlesAll (shownPair lib fuel host port) := by
  refine (shown_handles ((openPairing_onHost host port).mono fun _ => other_of_onHost)).bind ?_
  rintro ⟨tls, conn⟩
  refine write_handles fun x => orRaise_handles fun _ =>
    (pairLoop_handles conn fuel .new).bind fun flow => ?_
  have hsecret := (readSecret_onHost lib tls conn).mono fun _ => other_of_onHost
  exact (shown_handles hsecret).bind fun secret => sendSecret_handles conn flow secret

end Handles

end AtvRemote.HandlingDrivers
