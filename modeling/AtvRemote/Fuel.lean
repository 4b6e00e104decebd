import AtvRemote.Approximations
import AtvRemote.ExitCodes

namespace AtvRemote.Fuel

open Programs Contracts Approximations CommandRules Errors Messages SystemCalls Credentials
  Handshake Session SessionRules Pairing
  PairingSecrets Texts Wake JsonTexts Output PingAnswers Scripts Blame ProcessRuns ExitCodes
open Main (Surroundings main)
open Discovery (Browsing BrowseOp Device Devices deviceOf discover browseLoop)

variable {M : Type}

/-- The events that keep a loop going: a message that arrives, and a connection
that is refused. -/
def spends : Event (System (MessageWire M)) → Nat
  | ⟨.wire _ .recv, .ok _⟩ | ⟨.host (.connectTimeout _ _), .error _⟩ => 1
  | _ => 0

abbrev Alike {α : Type} (n : Nat) (p q : Command (MessageWire M) α) : Prop :=
  Agree spends Stop.unfinished n p q

section Rules

variable {S : Signature} {w : Event S → Nat} {ε α β : Type} {n : Nat}

/-- A program that has no loop which is driven from outside. -/
def Lasting (p : Program S Stop α) : Prop := Yields p (fun _ => True) (· ≠ .unfinished)

theorem Lasting.agree {p : Program S Stop α} (h : Lasting p) (n : Nat) :
    Agree w Stop.unfinished n p p := by
  induction p generalizing n with
  | ret a => exact .ret n a
  | fail e =>
      have he : e ≠ .unfinished := h [] _ (.fail e)
      exact .fail n he
  | call o k ih => exact .call fun x => ih x (yields_call.mp h x) _

variable {W : Signature} {w : Event (System W) → Nat} {f g : α → Command W β}

theorem agree_request_bind {o : SystemOp W.Op} {f g : _ → Command W β}
    (h : ∀ x, Agree w Stop.unfinished (n - w ⟨o, x⟩) (f x) (g x)) :
    Agree w Stop.unfinished n (request o >>= f) (request o >>= g) := .call h

theorem agree_orRaise_bind {r : Except ε α} {e : ε → AtvError}
    (hf : ∀ a, r = .ok a → Agree w Stop.unfinished n (f a) (g a)) :
    Agree w Stop.unfinished n (orRaise r e >>= f) (orRaise r e >>= g) := by
  cases r with
  | ok a => exact hf a rfl
  | error x => exact .fail n (by simp)

theorem agree_propagate_bind {r : Except AtvError α}
    (hf : ∀ a, r = .ok a → Agree w Stop.unfinished n (f a) (g a)) :
    Agree w Stop.unfinished n (propagate r >>= f) (propagate r >>= g) := agree_orRaise_bind hf

theorem agree_raise {e : AtvError} : Agree w Stop.unfinished n (raise e : Command W α) (raise e) :=
  .fail n (by simp)

theorem agree_resultOf {p q : Command W α} (h : Agree w Stop.unfinished n p q) :
    Agree w Stop.unfinished n (resultOf p) (resultOf q) := by
  refine h.attempt fun r hr => ?_
  rcases r with (e | text | _) | a
  · exact .ret n _
  · exact .fail n (by simp)
  · exact absurd rfl hr
  · exact .ret n _

end Rules

section Credentials

theorem credentialDirFromEnv_lasting :
    Lasting (credentialDirFromEnv : Command (MessageWire M) String) := by
  simp [Lasting, credentialDirFromEnv, propagate, ask, request]

theorem bothFiles_lasting (cert key : String) :
    Lasting (bothFiles cert key : Command (MessageWire M) Bool) :=
  yields_request_bind.mpr fun found => by cases found <;> simp [ask, request]

theorem fromCredentialDir_lasting (dir : String) :
    Lasting (TlsClient.fromCredentialDir dir : Command (MessageWire M) TlsClient) := by
  have hpaired : Lasting (ensurePaired dir : Command (MessageWire M) Unit) :=
    (bothFiles_lasting _ _).bind fun found _ => by cases found <;> simp
  refine hpaired.bind fun _ _ => ?_
  simp [ask, request]

theorem connect_lasting (tls : TlsClient) (host : IpAddr) (port : UInt16) (timeout : Duration) :
    Lasting (tls.connect host port timeout : Command (MessageWire M) Conn) := by
  simp [Lasting, TlsClient.connect, ask, request]

theorem ensureIdentity_lasting (dir : String) :
    Lasting (ensureIdentity dir : Command (MessageWire M) Unit) := by
  have hgenerate : Lasting (generateIdentity : Command (MessageWire M) (String × String)) := by
    simp [Lasting, generateIdentity, ask, request]
  have hkey (path contents : String) :
      Lasting (writeKeyFile path contents : Command (MessageWire M) Unit) := by
    simp [Lasting, writeKeyFile, ask, request]
  refine (bothFiles_lasting _ _).bind fun found _ => ?_
  cases found with
  | true => exact yields_pure.mpr trivial
  | false =>
      refine yields_call.mpr fun x => yields_orRaise_bind.mpr ⟨fun _ _ => ?_, fun e _ => by simp⟩
      refine hgenerate.bind ?_
      rintro ⟨certPem, keyPem⟩ _
      refine yields_call.mpr fun y => yields_orRaise_bind.mpr ⟨fun _ _ => ?_, fun e _ => by simp⟩
      exact hkey _ _

end Credentials

section Session

variable {host : IpAddr} {port : UInt16} {conn : Conn} {n fuel fuel' : Nat} {wantOn : Bool}

theorem openSession_lasting : Lasting (openSession host port) :=
  credentialDirFromEnv_lasting.bind fun dir _ => (fromCredentialDir_lasting dir).bind fun tls _ =>
    connect_lasting tls host port _

theorem readPowerLoop_alike (hn : n ≤ fuel) (hfuel : fuel ≤ fuel')
    (hs : SessionHandshake) (any : Bool) :
    Alike n (readPowerLoop conn fuel hs any) (readPowerLoop conn fuel' hs any) := by
  induction fuel generalizing fuel' n hs any with
  | zero =>
      obtain rfl := Nat.le_zero.mp hn
      exact .past _ _
  | succ fuel ih =>
      obtain ⟨fuel', rfl⟩ : ∃ k, fuel' = k + 1 := ⟨fuel' - 1, by omega⟩
      have hfuel : fuel ≤ fuel' := Nat.le_of_succ_le_succ hfuel
      rw [readPowerLoop, readPowerLoop]
      split
      · refine agree_request_bind fun x => agree_orRaise_bind ?_
        rintro m rfl
        have hnext (hs : SessionHandshake) := ih (Nat.sub_le_of_le_add hn) hfuel hs true
        refine agree_propagate_bind fun answer _ => ?_
        cases answer with
        | none => exact hnext _
        | some r => exact agree_request_bind fun y => agree_orRaise_bind fun _ _ => hnext _
      · exact .ret n _

theorem readPower_alike (hn : n ≤ fuel) (hfuel : fuel ≤ fuel') :
    Alike n (readPower fuel host port) (readPower fuel' host port) := by
  refine (openSession_lasting.agree n).bind fun conn => ?_
  refine (readPowerLoop_alike hn hfuel _ _).bind fun hs => ?_
  cases hs.power with
  | none => exact .fail n (by simp)
  | some power => exact .ret n _

theorem confirmLoop_alike (hn : n ≤ fuel) (hfuel : fuel ≤ fuel') (deadline : Instant)
    (hs : SessionHandshake) :
    Alike n (confirmLoop conn wantOn deadline fuel hs)
      (confirmLoop conn wantOn deadline fuel' hs) := by
  induction fuel generalizing fuel' n hs with
  | zero =>
      obtain rfl := Nat.le_zero.mp hn
      exact .past _ _
  | succ fuel ih =>
      obtain ⟨fuel', rfl⟩ : ∃ k, fuel' = k + 1 := ⟨fuel' - 1, by omega⟩
      have hfuel : fuel ≤ fuel' := Nat.le_of_succ_le_succ hfuel
      refine agree_request_bind fun now => ?_
      split
      · refine agree_request_bind fun x => ?_
        cases x with
        | error e => exact .ret _ hs
        | ok m =>
            have hround (hs : SessionHandshake) : Alike (n - 1)
                (if hs.power = some wantOn then pure hs
                  else confirmLoop conn wantOn deadline fuel hs)
                (if hs.power = some wantOn then pure hs
                  else confirmLoop conn wantOn deadline fuel' hs) := by
              split
              · exact .ret _ hs
              · exact ih (Nat.sub_le_of_le_add hn) hfuel hs
            simp only [handle_eq]
            by_cases he : kind m = .error
            · rw [if_pos he]
              exact hround (next hs (kind m))
            · rw [if_neg he]
              cases hr : reply (narrow hs.activeFeatures (kind m)) (kind m) with
              | none => exact hround (next hs (kind m))
              | some r => exact agree_request_bind fun y => hround (next hs (kind m))
      · exact .ret _ hs

theorem sendPresses_lasting (keys : List Int32) (i : Nat) : Lasting (sendPresses conn i keys) := by
  induction keys generalizing i with
  | nil => exact yields_pure.mpr trivial
  | cons code keys ih =>
      rw [sendPresses]
      split
      · exact yields_call.mpr fun _ => yields_call.mpr fun x => yields_orRaise_bind.mpr
          ⟨fun _ _ => ih _, fun _ _ => by simp⟩
      · exact yields_call.mpr fun x => yields_orRaise_bind.mpr ⟨fun _ _ => ih _, fun _ _ => by simp⟩

theorem status_alike (hn : n ≤ fuel) (hfuel : fuel ≤ fuel') :
    Alike n (status fuel host port) (status fuel' host port) :=
  (readPower_alike hn hfuel).bind fun _ => agree_request_bind fun _ => .ret _ _

theorem sendKeys_alike (hn : n ≤ fuel) (hfuel : fuel ≤ fuel') (keys : List Int32) :
    Alike n (sendKeys fuel host port keys) (sendKeys fuel' host port keys) := by
  refine (readPower_alike hn hfuel).bind fun _ => agree_request_bind fun _ => ?_
  exact ((sendPresses_lasting keys 0).agree _).bind fun _ => agree_request_bind fun _ =>
    agree_request_bind fun _ => .ret _ _

theorem sendAppLink_alike (hn : n ≤ fuel) (hfuel : fuel ≤ fuel') (appLink : String) :
    Alike n (sendAppLink fuel host port appLink) (sendAppLink fuel' host port appLink) :=
  (readPower_alike hn hfuel).bind fun _ => agree_request_bind fun _ => agree_request_bind fun _ =>
    agree_orRaise_bind fun _ _ =>
    agree_request_bind fun _ => agree_request_bind fun _ => .ret _ _

theorem pressPowerOnce_alike (hn : n ≤ fuel) (hfuel : fuel ≤ fuel') :
    Alike n (pressPowerOnce fuel host port wantOn) (pressPowerOnce fuel' host port wantOn) := by
  refine (readPower_alike hn hfuel).bind ?_
  rintro ⟨current, conn, hs⟩
  dsimp only
  split
  · refine agree_request_bind fun _ => agree_request_bind fun x => agree_orRaise_bind fun _ _ =>
      agree_request_bind fun _ => agree_request_bind fun now => ?_
    exact ((confirmLoop_alike hn hfuel _ _).bind fun hs => .ret _ _).mono (Nat.le_refl n)
  · exact .ret _ _

theorem retryPowerOn_alike (hn : n ≤ fuel) (hfuel : fuel ≤ fuel') (left : Nat)
    (attempt : PowerAttempt) (changed : Bool) :
    Alike n (retryPowerOn fuel host port wantOn left attempt changed)
      (retryPowerOn fuel' host port wantOn left attempt changed) := by
  induction left generalizing attempt changed with
  | zero => exact .ret _ _
  | succ left ih =>
      rw [retryPowerOn, retryPowerOn]
      split
      · refine agree_request_bind fun _ => (agree_resultOf (pressPowerOnce_alike hn hfuel)).bind
          fun r => ?_
        cases r with
        | ok next => exact ih next _
        | error e => exact .ret _ _
      · exact .ret _ _

theorem setPower_alike (hn : n ≤ fuel) (hfuel : fuel ≤ fuel') :
    Alike n (setPower fuel host port wantOn) (setPower fuel' host port wantOn) :=
  (pressPowerOnce_alike hn hfuel).bind fun attempt =>
    (retryPowerOn_alike hn hfuel _ attempt _).bind fun _ =>
    agree_request_bind fun _ => .ret _ _

theorem waitLoop_alike (hn : n ≤ fuel) (hfuel : fuel ≤ fuel') (addr : SocketAddr)
    (deadline : Instant) :
    Alike n (waitLoop addr deadline fuel) (waitLoop addr deadline fuel') := by
  induction fuel generalizing fuel' n with
  | zero =>
      obtain rfl := Nat.le_zero.mp hn
      exact .past _ _
  | succ fuel ih =>
      obtain ⟨fuel', rfl⟩ : ∃ k, fuel' = k + 1 := ⟨fuel' - 1, by omega⟩
      have hfuel : fuel ≤ fuel' := Nat.le_of_succ_le_succ hfuel
      refine agree_request_bind fun now => ?_
      split
      · refine agree_request_bind fun x => ?_
        cases x with
        | ok sock => exact .ret _ _
        | error e =>
            have hn : n - 0 - 1 - 0 ≤ fuel := by omega
            exact agree_request_bind fun _ => ih hn hfuel
      · exact agree_raise

theorem setPowerWithWake_alike (hn : n ≤ fuel) (hfuel : fuel ≤ fuel') (mac : Option Mac) :
    Alike n (setPowerWithWake fuel host port wantOn mac)
      (setPowerWithWake fuel' host port wantOn mac) := by
  refine (agree_resultOf (setPower_alike hn hfuel)).bind fun first => ?_
  have hrest : Lasting (propagate first : Command SessionWire PowerOutput) := by
    cases first <;> simp [Lasting, propagate]
  split
  next mac e =>
    split
    · have hpacket : Lasting (sendMagicPacket mac) := by
        simp [Lasting, sendMagicPacket, ask, request]
      refine (hpacket.agree n).bind fun _ => ?_
      refine Agree.bind (p := waitForPort fuel host port wolWait)
        (agree_request_bind fun now => waitLoop_alike hn hfuel _ _) fun _ => ?_
      exact (setPower_alike hn hfuel).bind fun out => .ret _ _
    · exact hrest.agree n
  next => exact hrest.agree n

theorem session_alike (hn : n ≤ fuel) (hfuel : fuel ≤ fuel') (command : SessionCommand) :
    Alike n (command.run fuel host port) (command.run fuel' host port) := by
  cases command with
  | status => exact (status_alike hn hfuel).bind fun out => .ret _ _
  | on mac => exact (setPowerWithWake_alike hn hfuel mac).bind fun out => .ret _ _
  | off => exact (setPower_alike hn hfuel).bind fun out => .ret _ _
  | key keys => exact (sendKeys_alike hn hfuel keys).bind fun out => .ret _ _
  | launch appLink => exact (sendAppLink_alike hn hfuel appLink).bind fun out => .ret _ _

end Session

section Pairing

variable {lib : Library} {host : IpAddr} {port : UInt16} {conn : Conn} {n fuel fuel' : Nat}

theorem pairLoop_alike (hn : n ≤ fuel) (hfuel : fuel ≤ fuel') (flow : PairingFlow) :
    Alike n (pairLoop conn fuel flow) (pairLoop conn fuel' flow) := by
  induction fuel generalizing fuel' n flow with
  | zero =>
      obtain rfl := Nat.le_zero.mp hn
      exact .past _ _
  | succ fuel ih =>
      obtain ⟨fuel', rfl⟩ : ∃ k, fuel' = k + 1 := ⟨fuel' - 1, by omega⟩
      have hfuel : fuel ≤ fuel' := Nat.le_of_succ_le_succ hfuel
      rw [pairLoop, pairLoop]
      split
      · refine agree_request_bind fun x => agree_orRaise_bind ?_
        rintro m rfl
        have hnext (flow : PairingFlow) := ih (Nat.sub_le_of_le_add hn) hfuel flow
        refine agree_propagate_bind fun answer _ => ?_
        cases answer with
        | none => exact hnext _
        | some r => exact agree_request_bind fun y => agree_orRaise_bind fun _ _ => hnext _
      · exact .ret n _

theorem bind_finished {α β : Type} {x : Except Stop α} {f : α → Except Stop β}
    (hx : x ≠ .error .unfinished)
    (hf : ∀ a, f a ≠ .error .unfinished) : x >>= f ≠ .error .unfinished := by
  cases x with
  | ok a => exact hf a
  | error e => simpa [Bind.bind, Except.bind] using hx

theorem hexByte_finished (code : String) (i j : Nat) : hexByte code i j ≠ .error .unfinished := by
  rw [hexByte]
  split
  · simp
  · split <;> simp

theorem mapError_finished {α : Type} (r : Except AtvError α) :
    r.mapError Stop.error ≠ .error .unfinished := by
  cases r <;> simp [Except.mapError]

theorem computePairingSecret_finished (clientDer serverDer : Bytes) (code : String) :
    computePairingSecret lib clientDer serverDer code ≠ .error .unfinished := by
  rw [computePairingSecret]
  split
  · simp
  · refine bind_finished (hexByte_finished _ _ _) fun checksum => ?_
    refine bind_finished (hexByte_finished _ _ _) fun first => ?_
    refine bind_finished (hexByte_finished _ _ _) fun second => ?_
    refine bind_finished (mapError_finished _) fun client => ?_
    refine bind_finished (mapError_finished _) fun server => ?_
    dsimp only
    split <;> simp

theorem readSecret_lasting (tls : TlsClient) : Lasting (readSecret lib tls conn) := by
  refine yields_request_bind.mpr fun _ => yields_request_bind.mpr fun x => ?_
  refine yields_orRaise_bind.mpr ⟨fun code _ => ?_, fun _ _ => by simp⟩
  have hcert : Lasting (peerCertDer conn : Command PairingWire Bytes) := by
    refine yields_request_bind.mpr fun certs => ?_
    cases certs.bind List.head? <;> simp [okOrRaise]
  refine hcert.bind fun serverDer _ => ?_
  split
  next => exact yields_pure.mpr trivial
  next stop hstop =>
    apply yields_fail.mpr
    rintro rfl
    exact computePairingSecret_finished _ _ _ hstop

theorem sendSecret_lasting (flow : PairingFlow) (secret : Bytes) :
    Lasting (sendSecret host conn flow secret) := by
  refine yields_request_bind.mpr fun x => yields_orRaise_bind.mpr
    ⟨fun _ _ => ?_, fun _ _ => by simp⟩
  refine yields_request_bind.mpr fun y => yields_orRaise_bind.mpr
    ⟨fun ack _ => ?_, fun _ _ => by simp⟩
  refine yields_orRaise_bind.mpr ⟨fun _ _ => ?_, fun _ _ => by simp⟩
  exact yields_request_bind.mpr fun timestamp => yields_pure.mpr trivial

theorem pair_alike (hn : n ≤ fuel) (hfuel : fuel ≤ fuel') :
    Alike n (pair lib fuel host port) (pair lib fuel' host port) := by
  have hopen : Lasting (openPairing host port) := by
    refine credentialDirFromEnv_lasting.bind fun dir _ =>
      (ensureIdentity_lasting dir).bind fun _ _ => ?_
    refine (fromCredentialDir_lasting dir).bind fun tls _ => (connect_lasting tls host port _).bind
      fun conn _ => ?_
    exact yields_pure.mpr trivial
  refine (hopen.agree n).bind ?_
  rintro ⟨tls, conn⟩
  refine agree_request_bind fun x => agree_orRaise_bind fun _ _ =>
    (pairLoop_alike hn hfuel _).bind fun flow => ?_
  exact ((readSecret_lasting tls).agree n).bind fun secret =>
    (sendSecret_lasting flow secret).agree n

end Pairing

section Browsing

variable {n fuel fuel' : Nat}

def spendsBrowsing : Event Browsing → Nat
  | ⟨.recvTimeout _, .ok _⟩ => 1
  | _ => 0

theorem agree_ask_bind {α : Type} {o : BrowseOp} {f g : o.Answer → Program Browsing Stop α}
    (h : ∀ x, Agree spendsBrowsing Stop.unfinished (n - spendsBrowsing ⟨o, x⟩) (f x) (g x)) :
    Agree spendsBrowsing Stop.unfinished n (Discovery.ask o >>= f) (Discovery.ask o >>= g) :=
  .call h

theorem browseLoop_alike (hn : n ≤ fuel) (hfuel : fuel ≤ fuel') (deadline : Clocks.Instant)
    (devices : Devices) :
    Agree spendsBrowsing Stop.unfinished n (browseLoop deadline fuel devices)
      (browseLoop deadline fuel' devices) := by
  induction fuel generalizing fuel' n devices with
  | zero =>
      obtain rfl := Nat.le_zero.mp hn
      exact .past _ _
  | succ fuel ih =>
      obtain ⟨fuel', rfl⟩ : ∃ k, fuel' = k + 1 := ⟨fuel' - 1, by omega⟩
      have hfuel : fuel ≤ fuel' := Nat.le_of_succ_le_succ hfuel
      refine agree_ask_bind fun now => ?_
      cases (deadline.checkedDurationSince now).filter (fun d => !d.isZero) with
      | none => exact .ret _ _
      | some remaining =>
          refine agree_ask_bind fun x => ?_
          cases x with
          | error e => exact .ret _ _
          | ok event =>
              have hnext (devices : Devices) := ih (Nat.sub_le_of_le_add hn) hfuel devices
              cases event with
              | other => exact hnext devices
              | serviceResolved info =>
                  dsimp only
                  cases deviceOf info with
                  | none => exact hnext devices
                  | some device => exact hnext _

theorem discover_alike (hn : n ≤ fuel) (hfuel : fuel ≤ fuel') (secs : UInt64) :
    Agree spendsBrowsing Stop.unfinished n (discover fuel secs) (discover fuel' secs) := by
  refine agree_ask_bind fun started => ?_
  cases started with
  | error e => exact .fail _ (by simp)
  | ok _ =>
      refine agree_ask_bind fun browsing => ?_
      cases browsing with
      | error e => exact .fail _ (by simp)
      | ok _ =>
          refine agree_ask_bind fun now => ?_
          cases Clocks.Instant.checkedAdd now (.fromSecs secs) with
          | none => exact .fail _ (by simp)
          | some deadline =>
              refine (browseLoop_alike hn hfuel deadline _).bind fun devices => ?_
              exact agree_ask_bind fun _ => agree_ask_bind fun _ => .ret _ _

end Browsing

section Processes

variable {lib : Library} {json : SerdeJson} {n fuel fuel' : Nat} {command : Main.Command}
  {t : Trace Surroundings}

def spendsAll : Event Surroundings → Nat
  | ⟨.system (.wire _ (.pairing .recv)), .ok _⟩ | ⟨.system (.wire _ (.session .recv)), .ok _⟩ => 1
  | ⟨.system (.host (.connectTimeout _ _)), .error _⟩ => 1
  | ⟨.browsing (.recvTimeout _), .ok _⟩ => 1
  | _ => 0

theorem single_onHost (o : HostOp) :
    Single (@spends M) spendsAll Stop.unfinished (.host o) (Main.onHost o) := by
  intro α n f g h
  cases o with
  | eprintln text =>
      refine .call fun x => ?_
      cases x with
      | ok _ => exact h ()
      | error closed => exact .fail _ (by simp)
  | connectTimeout addr timeout =>
      refine .call fun x => ?_
      cases x with
      | ok sock => exact h (.ok sock)
      | error e => exact h (.error e)
  | _ => exact .call fun x => h x

theorem single_ofSession (o : SystemOp (MessageOp RemoteMessage)) :
    Single spends spendsAll Stop.unfinished o (Main.ofSession o) := by
  intro α n f g h
  cases o with
  | host o => exact single_onHost o h
  | wire conn w =>
      refine .call fun x => ?_
      cases w with
      | send m => exact h x
      | recv =>
          cases x with
          | ok m => exact h (.ok m)
          | error e => exact h (.error e)

theorem single_ofPairing (o : SystemOp (MessageOp OuterMessage)) :
    Single spends spendsAll Stop.unfinished o (Main.ofPairing o) := by
  intro α n f g h
  cases o with
  | host o => exact single_onHost o h
  | wire conn w =>
      refine .call fun x => ?_
      cases w with
      | send m => exact h x
      | recv =>
          cases x with
          | ok m => exact h (.ok m)
          | error e => exact h (.error e)

theorem single_ofBrowsing (o : BrowseOp) :
    Single spendsBrowsing spendsAll Stop.unfinished o (Main.ofBrowsing o) := by
  intro α n f g h
  cases o with
  | recvTimeout timeout =>
      refine .call fun x => ?_
      cases x with
      | ok event => exact h (.ok event)
      | error e => exact h (.error e)
  | _ => exact .call fun x => h x

theorem work_agree (hn : n ≤ fuel) (hfuel : fuel ≤ fuel') :
    Agree spendsAll Stop.unfinished n (work lib fuel command) (work lib fuel' command) := by
  unfold work
  dsimp only
  cases task command with
  | pair => exact ((pair_alike hn hfuel).translate single_ofPairing).bind fun out => .ret _ _
  | session session =>
      exact ((session_alike hn hfuel session).translate single_ofSession).bind fun out => .ret _ _
  | discover timeout =>
      exact ((discover_alike hn hfuel timeout).translate single_ofBrowsing).bind fun out => .ret _ _

theorem main_agree (hn : n ≤ fuel) (hfuel : fuel ≤ fuel') :
    Agree spendsAll Stop.unfinished n (main lib json fuel command)
      (main lib json fuel' command) := by
  rw [main, main, run_eq, run_eq]
  have hrun : Agree spendsAll Stop.unfinished n (work lib fuel command >>= Main.emit json)
      (work lib fuel' command >>= Main.emit json) :=
    (work_agree hn hfuel).bind fun out => .call fun _ => .call fun _ => .ret _ _
  refine hrun.attempt fun r hr => ?_
  rcases r with (e | text | _) | _
  · refine .call fun x => ?_
    cases x with
    | ok _ => exact .ret _ _
    | error closed => exact .fail _ (by simp)
  · exact .fail _ (by simp)
  · exact absurd rfl hr
  · exact .ret _ _

theorem finished_of_ne {r : Except Stop Nat} (h : Run (main lib json fuel command) t r)
    (hr : r ≠ .error .unfinished) :
    (∃ code, r = .ok code) ∨ ∃ text, r = .error (.panic text) := by
  obtain ⟨u, v, q, _, _, hending⟩ := run_main h
  cases hending with
  | printed out written flushed => exact .inl ⟨0, rfl⟩
  | reported e => exact .inl ⟨e.exitCode, rfl⟩
  | unreported e closed => exact .inr ⟨_, rfl⟩
  | panicked text => exact .inr ⟨text, rfl⟩
  | unfinished => exact absurd rfl hr

/-- Messages that arrive and connections that are refused, if there are fewer of
them together than the bound on the rounds of a loop, cannot keep a command from
ending, and it ends alike under every larger bound. -/
theorem main_ends (hspent : weight spendsAll t < fuel) :
    (∀ r, Run (main lib json fuel command) t r → (∃ code, r = .ok code) ∨ ∃ text, r = .error
      (.panic text)) ∧
      ∀ fuel', fuel ≤ fuel' → ∀ r, Run (main lib json fuel command) t r ↔
        Run (main lib json fuel' command) t r := by
  constructor
  · intro r hrun
    exact finished_of_ne hrun
      (((main_agree (Nat.le_refl fuel) (Nat.le_refl fuel)).run hspent).2 hrun)
  · intro fuel' hfuel r
    exact ((main_agree (Nat.le_refl fuel) hfuel).run hspent).1

/-- Two messages are heard. -/
theorem main_ends_off :
    let played := boot { connects := [.ok 4], inbox := [started true, started false] }
      (main paddedKeys compact 5 (.off ⟨livingRoom, none⟩))
    (∀ r, Run (main paddedKeys compact 5 (.off ⟨livingRoom, none⟩)) played.1 r →
      (∃ code, r = .ok code) ∨ ∃ text, r = .error (.panic text)) ∧
      ∀ fuel', 5 ≤ fuel' →
        ∀ r, Run (main paddedKeys compact 5 (.off ⟨livingRoom, none⟩)) played.1 r ↔
        Run (main paddedKeys compact fuel' (.off ⟨livingRoom, none⟩)) played.1 r := by
  intro played
  have hspent : weight spendsAll played.1 = 2 := by rfl
  exact main_ends (by rw [hspent]; decide)

end Processes

end AtvRemote.Fuel
