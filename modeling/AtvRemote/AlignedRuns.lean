import AtvRemote.FrameAlignment
import AtvRemote.HandlingDrivers
import AtvRemote.PairingSecrets
import AtvRemote.ReadPowerRuns

namespace AtvRemote.AlignedRuns

open Programs Contracts CommandRules CredentialRules Errors Messages SystemCalls Credentials
  Framing FrameAlignment
  Handshake Session SessionRules Pairing PairingRuns PairingSecrets Translations Streams Links
    Handlings HandlingDrivers
  ReadPowerRuns Scripts

variable {M α : Type} {host : IpAddr} {port : UInt16}

def Observed (reads : Reads) (e : Event (System (MessageWire M))) (reads' : Reads) : Prop :=
  reads' = observe reads e

theorem observed_onHost {reads reads' : Reads} {e : Event (System (MessageWire M))} (h : OnHost e)
    (hstep : Observed reads e reads') : reads' = reads := by
  obtain ⟨o, x⟩ := e
  cases o with
  | wire => exact h.elim
  | host => cases reads <;> exact hstep

def StopsAtError (r : Except Stop α) (reads : Reads) : Prop :=
  reads ≠ .again ∧ ∀ a, r = .ok a → reads = .clean

theorem stopsAtError_clean (r : Except Stop α) : StopsAtError r .clean := ⟨nofun, fun _ _ => rfl⟩

theorem stopsAtError_failed (stop : Stop) : StopsAtError (.error stop : Except Stop α) .failed :=
  ⟨nofun, nofun⟩

theorem onHost_stops {p : Command (MessageWire M) α} (hp : Throughout OnHost p) :
    Meets Observed p .clean StopsAtError := by
  refine (hp.meets fun e reads => observed_onHost).mono ?_
  rintro r _ rfl
  exact stopsAtError_clean r

theorem stopsAtError_bind {β : Type} {p : Command (MessageWire M) α}
    {f : α → Command (MessageWire M) β}
    (hp : Meets Observed p .clean StopsAtError)
    (hf : ∀ a, Meets Observed (f a) .clean StopsAtError) :
    Meets Observed (p >>= f) .clean StopsAtError := by
  refine hp.bind ?_ (fun e reads h => ⟨h.1, nofun⟩)
  intro a reads h
  rw [h.2 a rfl]
  exact hf a

theorem readPower_opening : OpeningInvariant Observed host port (fun reads => reads = .clean)
    (fun reads => reads = .clean) (fun _ _ _ reads => reads = .clean) StopsAtError where
  before := by
    rintro _ e reads' rfl he hstep
    exact observed_onHost (onHost_of_local he) hstep
  after := by
    rintro _ e reads' rfl he hstep
    exact observed_onHost (onHost_of_local he) hstep
  refused := by
    rintro _ timeout e reads' rfl hstep
    exact hstep
  opened := by
    rintro _ timeout sock reads' rfl hstep
    exact hstep
  failed := by
    rintro _ stop (rfl | rfl) <;> exact stopsAtError_clean _
  begins := by
    rintro conn _ rfl
    rfl
  handshake conn := {
    unfinished := by
      rintro hs any _ rfl
      exact stopsAtError_clean _
    known := by
      rintro hs any _ rfl _ power _
      exact stopsAtError_clean _
    readFailed := by
      rintro hs any _ e _ rfl _ rfl
      exact stopsAtError_failed _
    reported := by
      rintro hs any _ m _ rfl _ rfl _
      exact stopsAtError_clean _
    silent := by
      rintro hs any _ m _ rfl _ rfl _ _
      rfl
    replied := by
      rintro hs any _ m _ r _ rfl _ rfl _ rfl
      rfl
    refused := by
      rintro hs any _ m _ r e _ rfl _ rfl _ rfl
      exact stopsAtError_clean _ }

theorem readPower_stops (fuel : Nat) :
    Meets Observed (readPower fuel host port) .clean StopsAtError :=
  readPower_meets readPower_opening fuel rfl

theorem confirmLoop_stops (conn : Conn) (wantOn : Bool) (deadline : Instant) (fuel : Nat)
    (hs : SessionHandshake) :
    Meets Observed (confirmLoop conn wantOn deadline fuel hs) .clean
      (fun _ reads => reads ≠ .again) := by
  refine confirmLoop_meets (I := fun _ reads => reads = .clean) ?_ fuel rfl
  refine ⟨?_, ?_, ?_, ?_, ?_, ?_⟩
  · rintro hs _ rfl
    nofun
  · rintro hs _ now _ rfl rfl
    rfl
  · rintro hs _ rfl
    nofun
  · rintro hs _ e _ rfl rfl
    nofun
  · rintro hs _ m _ rfl rfl
    rfl
  · rintro hs _ k r x _ rfl _ rfl
    rfl

/-- The confirmation loop ignores errors, but not a failed read. -/
theorem pressPowerOnce_stops (fuel : Nat) (wantOn : Bool) :
    Meets Observed (pressPowerOnce fuel host port wantOn) .clean
      (fun _ reads => reads ≠ .again) := by
  refine (readPower_stops fuel).bind ?_ (fun e reads h => h.1)
  rintro ⟨current, conn, hs⟩ reads h
  obtain rfl := h.2 _ rfl
  dsimp only
  split
  · refine meets_request_bind.mpr ?_
    rintro _ _ rfl
    refine meets_request_bind.mpr ?_
    rintro x _ rfl
    refine meets_orRaise_bind.mpr ⟨fun _ _ => ?_, fun _ _ => nofun⟩
    refine meets_request_bind.mpr ?_
    rintro _ _ rfl
    refine meets_request_bind.mpr ?_
    rintro now _ rfl
    refine (confirmLoop_stops _ _ _ _ _).bind ?_ (fun e reads h => h)
    exact fun hs reads h => meets_pure.mpr h
  · exact meets_pure.mpr nofun

theorem pairLoop_stops (conn : Conn) (fuel : Nat) (flow : PairingFlow) :
    Meets Observed (pairLoop conn fuel flow) .clean StopsAtError := by
  induction fuel generalizing flow with
  | zero => exact meets_fail.mpr (stopsAtError_clean _)
  | succ fuel ih =>
      rw [pairLoop]
      split
      · refine meets_request_bind.mpr ?_
        rintro (e | m) _ rfl
        · exact meets_raise_bind.mpr (stopsAtError_failed _)
        · rw [meets_ok_bind]
          simp only [PairingRuns.handle_eq]
          cases rejection m with
          | some e => exact meets_raise_bind.mpr (stopsAtError_clean _)
          | none =>
              cases answer m with
              | none => exact ih _
              | some reply =>
                  refine meets_request_bind.mpr ?_
                  rintro x _ rfl
                  exact meets_orRaise_bind.mpr ⟨fun _ _ => ih _, fun _ _ => stopsAtError_clean _⟩
      · exact meets_pure.mpr (stopsAtError_clean _)

theorem sendSecret_stops (conn : Conn) (flow : PairingFlow) (secret : Bytes) :
    Meets Observed (sendSecret host conn flow secret) .clean StopsAtError := by
  intro t r h reads hreads
  have hend := run_sendSecret h
  obtain rfl := path_fold.mp hreads
  cases hend with
  | readFailed e reported => exact stopsAtError_failed _
  | _ => exact stopsAtError_clean _

theorem pair_stops (lib : Library) (fuel : Nat) :
    Meets Observed (pair lib fuel host port) .clean StopsAtError := by
  apply stopsAtError_bind (onHost_stops (openPairing_onHost host port))
  rintro ⟨tls, conn⟩
  refine meets_request_bind.mpr ?_
  rintro x _ rfl
  refine meets_orRaise_bind.mpr ⟨fun _ _ => ?_, fun _ _ => stopsAtError_clean _⟩
  apply stopsAtError_bind (pairLoop_stops conn fuel .new)
  intro flow
  exact stopsAtError_bind (onHost_stops (readSecret_onHost lib tls conn))
    (sendSecret_stops conn flow)

/-- Every connection of `readPower`, of `pressPowerOnce` with the loop that
takes its connection over, and of `pair` stays aligned: whatever is delivered,
`handle` is called on the first frames, in order and once on each. -/
theorem connections_aligned (remoteCodec : Codec RemoteMessage) (outerCodec : Codec OuterMessage)
    (lib : Library)
    (fuel : Nat) (host : IpAddr) (port : UInt16) (wantOn : Bool) :
    StaysAligned remoteCodec SessionHandshake.handle (readPower fuel host port)
      (shownReadPower fuel host port) ∧
      StaysAligned remoteCodec SessionHandshake.handle (pressPowerOnce fuel host port wantOn)
        (shownPressPowerOnce fuel host port wantOn) ∧
      StaysAligned outerCodec PairingFlow.handle (pair lib fuel host port)
        (shownPair lib fuel host port) := by
  refine ⟨?_, ?_, ?_⟩
  · refine staysAligned (translate_readPower fuel) (readPower_handles fuel) ?_
    exact (readPower_stops fuel).mono fun _ _ h => h.1
  · exact staysAligned (translate_pressPowerOnce fuel wantOn) (pressPowerOnce_handles fuel wantOn)
      (pressPowerOnce_stops fuel wantOn)
  · refine staysAligned (translate_pair lib fuel) (pair_handles lib fuel) ?_
    exact (pair_stops lib fuel).mono fun _ _ h => h.1

theorem delivers_of_duplex {e : Event (System ByteWire)} {s s' : Conn → Tape}
    (h : Each Duplex s e s') :
    Each FramingRules.Delivers (fun c => (s c).unread) e (fun c => (s' c).unread) := by
  obtain ⟨⟨conn, w⟩ | o, x⟩ := e
  · obtain ⟨⟨hflows, _⟩, hothers⟩ := h
    exact ⟨hflows.1, fun c hc => congrArg Tape.unread (hothers c hc)⟩
  · obtain rfl : s' = s := h
    rfl

/-- The frames of a ping and of a start are handled. -/
theorem connections_aligned_pinging :
    let played := playBytes (readPower 3 livingRoom 6466) pinging
    played.2.1 = .ok (true, ⟨7⟩, ⟨some true, features⟩) ∧
      ∃ w, Run (shownReadPower 3 livingRoom 6466) w played.2.1 ∧
      Realizes (calling SessionHandshake.handle) w (own w) ∧ Realizes (overBytes pingCodec)
        (own w) played.1 ∧
      Aligned pingCodec (fun c => (pinging.2 c).unread) w played.1 := by
  intro played
  refine ⟨rfl, ?_⟩
  have hpath := path_exec (f := fun s : Script Unit × (Conn → Tape) => fun c => (s.2 c).unread)
    (fun o s => delivers_of_duplex (answerBytes_duplex o s))
      ((readPower 3 livingRoom 6466).translate (overBytes pingCodec)) pinging
  have haligned := connections_aligned pingCodec foreignCodec paddedKeys 3 livingRoom 6466 true
  exact haligned.1.aligned _ _ _ _ (run_exec _ _ pinging) hpath

end AtvRemote.AlignedRuns
