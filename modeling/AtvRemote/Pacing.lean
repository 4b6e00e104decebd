import AtvRemote.Footprints
import AtvRemote.Histories
import AtvRemote.PingAnswers

namespace AtvRemote.Pacing

open Programs Contracts Histories CommandRules CredentialRules Errors Messages SystemCalls Handshake
  Session SessionRules Wake WakeEffects
  PingAnswers Footprints Scripts
open Freshness (isStart isStart_of_kind)

def pause : SessionEvent → Duration
  | ⟨.host (.sleep d), _⟩ => d
  | _ => 0

/-- The time that the client has slept. Everything else it does takes longer
than nothing, so that at least this much time has passed. -/
def slept : Trace (System SessionWire) → Duration
  | [] => 0
  | e :: t => pause e + slept t

theorem slept_concat (t : Trace (System SessionWire)) (e : SessionEvent) :
    slept (t ++ [e]) = slept t + pause e := by
  induction t with
  | nil => simp [slept]
  | cons e' t ih => simp [slept, ih, Nat.add_assoc]

def Hears : SessionEvent → Prop
  | ⟨.wire _ .recv, _⟩ => True
  | _ => False

/-- A key or an app link is sent. -/
def Acts : SessionEvent → Prop
  | ⟨.wire _ (.send m), _⟩ => acts m = true
  | _ => False

/-- The latest that was heard is a start, on this connection. -/
def Started (conn : Conn) (u : Trace (System SessionWire)) : Prop :=
  ∃ m z, Since Hears u ⟨.wire conn .recv, .ok m⟩ z ∧ isStart m = true

/-- And the grace period has passed since. -/
def Settled (conn : Conn) (u : Trace (System SessionWire)) : Prop :=
  ∃ m z, Since Hears u ⟨.wire conn .recv, .ok m⟩ z ∧ isStart m = true ∧ keyInjectGrace ≤ slept z

/-- So much time has passed since a key or an app link was sent. -/
def Spaced (d : Duration) (u : Trace (System SessionWire)) : Prop :=
  ∀ e z, Since Acts u e z → d ≤ slept z

/-- What a client may do after a history: send a key or an app link, or
connect. -/
def Paced (u : Trace (System SessionWire)) : SessionEvent → Prop
  | ⟨.wire conn (.send m), _⟩ => acts m = true → Settled conn u ∧ Spaced keyInterval u
  | ⟨.host (.connectTimeout _ _), _⟩ => Spaced powerOnRetryBackoff u
  | _ => True

variable {u : Trace (System SessionWire)} {e : SessionEvent} {conn : Conn} {d d' : Duration}

theorem since_of_concat {p : SessionEvent → Prop} {e' : SessionEvent}
    {z : Trace (System SessionWire)}
    (h : Since p (u ++ [e]) e' z) (he : ¬p e) : ∃ z', z = z' ++ [e] ∧ Since p u e' z' := by
  obtain ⟨hp, hz, w, heq⟩ := h
  rcases List.eq_nil_or_concat z with rfl | ⟨z', last, rfl⟩
  · obtain ⟨_, hlast⟩ := List.append_inj' heq rfl
    obtain rfl := List.singleton_inj.mp hlast
    exact absurd hp he
  · rw [List.concat_eq_append, ← List.cons_append, ← List.append_assoc] at heq
    obtain ⟨rfl, hlast⟩ := List.append_inj' heq rfl
    obtain rfl := List.singleton_inj.mp hlast
    rw [List.concat_eq_append] at hz ⊢
    exact ⟨z', rfl, hp, fun e he => hz e (List.mem_append_left _ he), w, rfl⟩

theorem Spaced.mono (h : Spaced d u) (hd : d' ≤ d) : Spaced d' u :=
  fun e z hsince => Nat.le_trans hd (h e z hsince)

theorem Spaced.concat (h : Spaced d u) (he : ¬Acts e) : Spaced d (u ++ [e]) := by
  intro e' z hsince
  obtain ⟨z', rfl, hsince'⟩ := since_of_concat hsince he
  rw [slept_concat]
  exact Nat.le_add_right_of_le (h e' z' hsince')

/-- A pause keeps whatever was sent before at its distance. -/
theorem spaced_sleep (d : Duration) (u : Trace (System SessionWire)) :
    Spaced d (u ++ [⟨.host (.sleep d), ()⟩]) := by
  intro e z hsince
  obtain ⟨z', rfl, _⟩ := since_of_concat hsince id
  rw [slept_concat]
  exact Nat.le_add_left _ _

theorem Started.concat (h : Started conn u) (he : ¬Hears e) : Started conn (u ++ [e]) := by
  obtain ⟨m, z, hsince, hstart⟩ := h
  exact ⟨m, z ++ [e], hsince.concat he, hstart⟩

theorem Started.sleep (h : Started conn u) :
    Settled conn (u ++ [⟨.host (.sleep keyInjectGrace), ()⟩]) := by
  obtain ⟨m, z, hsince, hstart⟩ := h
  refine ⟨m, z ++ [_], hsince.concat id, hstart, ?_⟩
  rw [slept_concat]
  exact Nat.le_add_left _ _

theorem Settled.concat (h : Settled conn u) (he : ¬Hears e) : Settled conn (u ++ [e]) := by
  obtain ⟨m, z, hsince, hstart, hgrace⟩ := h
  refine ⟨m, z ++ [e], hsince.concat he, hstart, ?_⟩
  rw [slept_concat]
  exact Nat.le_add_right_of_le hgrace

/-- An event that neither sends a key or an app link nor connects. -/
def Aside : SessionEvent → Prop
  | ⟨.wire _ (.send m), _⟩ => acts m = false
  | ⟨.host (.connectTimeout _ _), _⟩ => False
  | _ => True

theorem not_acts_of_aside (he : Aside e) : ¬Acts e := by
  obtain ⟨o, x⟩ := e
  rcases o with ⟨conn, _ | m⟩ | o
  · exact id
  · exact fun hact => Bool.false_ne_true (he.symm.trans hact)
  · exact id

theorem paced_aside (he : Aside e) : Paced u e := by
  obtain ⟨o, x⟩ := e
  rcases o with ⟨conn, _ | m⟩ | o
  · trivial
  · exact fun hact => absurd (he.symm.trans hact) Bool.false_ne_true
  · cases o with
    | connectTimeout => exact he.elim
    | _ => trivial

/-- A history that keeps the pace, ready for a further attempt. -/
structure Waited (u : Trace (System SessionWire)) : Prop where
  paced : Along Paced u
  spaced : Spaced powerOnRetryBackoff u

theorem Waited.concat (h : Waited u) (he : Aside e) : Waited (u ++ [e]) :=
  ⟨h.paced.concat (paced_aside he), h.spaced.concat (not_acts_of_aside he)⟩

theorem Waited.connect (h : Waited u) (addr : SocketAddr) (timeout : Duration)
    (x : Except IoError TcpStream) :
    Waited (u ++ [⟨.host (.connectTimeout addr timeout), x⟩]) :=
  ⟨h.paced.concat h.spaced, h.spaced.concat id⟩

theorem aside_local (h : Local e) : Aside e := by
  obtain ⟨o, x⟩ := e
  cases o with
  | wire => exact h.elim
  | host o =>
      cases o with
      | connectTimeout => exact h.elim
      | _ => trivial

theorem aside_reply {active : Int32} {k : Kind} {r : RemoteMessage} (hr : reply active k = some r)
    (x : Except IoError Unit) :
    Aside ⟨.wire conn (.send r), x⟩ := by
  cases k with
  | configure _ | setActive | ping _ =>
      obtain rfl := Option.some.inj hr
      rfl
  | start _ | error | ignorable => cases hr

section Runs

variable {fuel : Nat} {host : IpAddr} {port : UInt16} {wantOn : Bool}

/-- In a handshake: once the power is known, a start was heard last. -/
def Shaking (conn : Conn) (hs : SessionHandshake) (u : Trace (System SessionWire)) : Prop :=
  Waited u ∧ (hs.power.isSome → Started conn u)

theorem isStart_of_next {hs : SessionHandshake} {m : RemoteMessage} (hnone : hs.power = none)
    (hsome : (next hs (kind m)).power.isSome) : isStart m = true := by
  cases hk : kind m with
  | start started => exact isStart_of_kind hk
  | configure _ | setActive | ping _ | error | ignorable =>
      rw [hk, next, hnone] at hsome
      cases hsome

theorem readPower_paced (hu : Waited u) :
    Meets Recorded (readPower fuel host port) u (fun r u' => match r with
    | .ok (_, conn, _) => Waited u' ∧ Started conn u'
    | .error _ => Waited u') := by
  have hheard {u : Trace (System SessionWire)} (hu : Waited u) (conn : Conn)
      (x : Except IoError RemoteMessage) :
      Waited (u ++ [⟨.wire conn .recv, x⟩]) := hu.concat trivial
  refine readPower_meets (P := Waited) (C := Waited)
    (I := fun conn hs _ u => Shaking conn hs u) ?_ fuel hu
  refine {
    before := ?_, after := ?_, refused := ?_, opened := ?_, failed := ?_, begins := ?_, handshake :=
      fun conn => {
      unfinished := ?_, known := ?_, readFailed := ?_, reported := ?_, silent := ?_, replied :=
        ?_, refused := ?_ } }
  · rintro u e _ hu he rfl
    exact hu.concat (aside_local he)
  · rintro u e _ hu he rfl
    exact hu.concat (aside_local he)
  · rintro u timeout e _ hu rfl
    exact hu.connect _ _ _
  · rintro u timeout sock _ hu rfl
    exact hu.connect _ _ _
  · rintro u stop (hu | hu) <;> exact hu
  · intro conn u hu
    exact ⟨hu, nofun⟩
  · intro hs any u hu
    exact hu.1
  · intro hs any u hu hsome power _
    exact ⟨hu.1, hu.2 hsome⟩
  · rintro hs any u e _ hu _ rfl
    exact hheard hu.1 conn _
  · rintro hs any u m _ hu _ rfl _
    exact hheard hu.1 conn _
  · rintro hs any u m _ hu hnone rfl _ _
    exact ⟨hheard hu.1 conn _, fun hsome =>
      ⟨m, [], since_concat trivial, isStart_of_next hnone hsome⟩⟩
  · rintro hs any u m _ r _ hu hnone rfl hr rfl
    refine ⟨(hheard hu.1 conn _).concat (aside_reply hr _), fun hsome => ?_⟩
    have hstarted : Started conn (u ++ [⟨.wire conn .recv, .ok m⟩]) :=
      ⟨m, [], since_concat trivial, isStart_of_next hnone hsome⟩
    exact hstarted.concat id
  · rintro hs any u m _ r e _ hu _ rfl hr rfl
    exact (hheard hu.1 conn _).concat (aside_reply hr _)

/-- The grace period makes a started connection ready for what is to be sent. -/
theorem Waited.settle (hu : Waited u) (hstarted : Started conn u) :
    let u' := u ++ [⟨.host (.sleep keyInjectGrace), ()⟩]
    Along Paced u' ∧ Settled conn u' ∧ Spaced keyInterval u' := by
  have hwaited : Waited (u ++ [⟨.host (.sleep keyInjectGrace), ()⟩]) := hu.concat trivial
  exact ⟨hwaited.paced, hstarted.sleep, hwaited.spaced.mono (by decide)⟩

theorem sendPresses_paced {keys : List Int32} {i : Nat} (hu : Along Paced u)
    (hsettled : Settled conn u)
    (hspaced : i = 0 → Spaced keyInterval u) :
    Meets Recorded (sendPresses conn i keys) u (fun _ u' => Along Paced u') := by
  induction keys generalizing i u with
  | nil => exact meets_pure.mpr hu
  | cons code keys ih =>
      have hpress {u : Trace (System SessionWire)} (hu : Along Paced u) (hsettled : Settled conn u)
          (hspaced : Spaced keyInterval u) :
          Meets Recorded (do
            orRaise (← writeMessage conn (keyMessage code)) (keyFailed code)
            sendPresses conn (i + 1) keys) u (fun _ u' => Along Paced u') := by
        refine meets_request_bind.mpr ?_
        rintro x _ rfl
        have hsent : Along Paced (u ++ [⟨.wire conn (.send (keyMessage code)), x⟩]) :=
          hu.concat fun _ => ⟨hsettled, hspaced⟩
        exact meets_orRaise_bind.mpr ⟨fun _ _ => ih hsent (hsettled.concat id) nofun,
          fun _ _ => hsent⟩
      rw [sendPresses]
      split
      next hi =>
        refine meets_request_bind.mpr ?_
        rintro _ _ rfl
        exact hpress (hu.concat trivial) (hsettled.concat id) (spaced_sleep _ _)
      next hi => exact hpress hu hsettled (hspaced (by omega))

/-- What is sent last has the time to settle before the connection is dropped. -/
def Concluded {α : Type} (r : Except Stop α) (u : Trace (System SessionWire)) : Prop :=
  Along Paced u ∧ ∀ out, r = .ok out → Spaced sendSettle u

theorem concluded_error {α : Type} (stop : Stop) (hu : Along Paced u) :
    Concluded (.error stop : Except Stop α) u := ⟨hu, nofun⟩

/-- The end of `sendKeys` and of `sendAppLink`. -/
theorem settle_concluded {α : Type} {f : String → α} (hu : Along Paced u) :
    Meets Recorded (do
      sleep sendSettle
      let timestamp ← timestamp
      pure (f timestamp) : Command SessionWire α) u Concluded := by
  refine meets_request_bind.mpr ?_
  rintro _ _ rfl
  refine meets_request_bind.mpr ?_
  rintro timestamp _ rfl
  have hslept : Along Paced (u ++ [⟨.host (.sleep sendSettle), ()⟩]) := hu.concat trivial
  exact meets_pure.mpr ⟨hslept.concat trivial, fun _ _ => (spaced_sleep _ u).concat id⟩

theorem sendKeys_paced (keys : List Int32) (hu : Waited u) :
    Meets Recorded (sendKeys fuel host port keys) u Concluded := by
  refine (readPower_paced hu).bind ?_ fun stop u₁ hu₁ => concluded_error stop hu₁.paced
  rintro ⟨_, conn, _⟩ u₁ ⟨hu₁, hstarted⟩
  refine meets_request_bind.mpr ?_
  rintro _ _ rfl
  obtain ⟨hpaced, hsettled, hspaced⟩ := hu₁.settle hstarted
  refine (sendPresses_paced hpaced hsettled fun _ => hspaced).bind ?_ fun stop u₂ hu₂ =>
    concluded_error stop hu₂
  intro _ u₂ hu₂
  exact settle_concluded hu₂

theorem sendAppLink_paced (appLink : String) (hu : Waited u) :
    Meets Recorded (sendAppLink fuel host port appLink) u Concluded := by
  refine (readPower_paced hu).bind ?_ fun stop u₁ hu₁ => concluded_error stop hu₁.paced
  rintro ⟨_, conn, _⟩ u₁ ⟨hu₁, hstarted⟩
  refine meets_request_bind.mpr ?_
  rintro _ _ rfl
  obtain ⟨hpaced, hsettled, hspaced⟩ := hu₁.settle hstarted
  refine meets_request_bind.mpr ?_
  rintro x _ rfl
  have hsent : Along Paced (u₁ ++ [_] ++ [⟨.wire conn (.send (appLinkMessage appLink)), x⟩]) :=
    hpaced.concat fun _ => ⟨hsettled, hspaced⟩
  exact meets_orRaise_bind.mpr
    ⟨fun _ _ => settle_concluded hsent, fun e _ => concluded_error _ hsent⟩

/-- How the power commands leave a history: at the pace, and ready for a
further attempt if the TV was not reached. -/
def Attempted {α : Type} (r : Except Stop α) (u : Trace (System SessionWire)) : Prop :=
  Along Paced u ∧ ∀ e, r = .error (.error e) → e.kind = .unreachable → Waited u

theorem confirmLoop_paced {deadline : Instant} {hs : SessionHandshake} (hu : Along Paced u) :
    Meets Recorded (confirmLoop conn wantOn deadline fuel hs) u Attempted := by
  refine confirmLoop_meets (I := fun _ u => Along Paced u) ⟨?_, ?_, ?_, ?_, ?_, ?_⟩ fuel hu
  · intro hs u hu
    exact ⟨hu, nofun⟩
  · rintro hs u now _ hu rfl
    exact hu.concat trivial
  · intro hs u hu
    exact ⟨hu, nofun⟩
  · rintro hs u e _ hu rfl
    exact ⟨hu.concat trivial, nofun⟩
  · rintro hs u m _ hu rfl
    exact hu.concat trivial
  · rintro hs u k r x _ hu hr rfl
    exact hu.concat (paced_aside (aside_reply hr x))

theorem pressPowerOnce_paced (hu : Waited u) :
    Meets Recorded (pressPowerOnce fuel host port wantOn) u Attempted := by
  refine (readPower_paced hu).bind ?_ fun stop u₁ hu₁ => ⟨hu₁.paced, fun _ _ _ => hu₁⟩
  rintro ⟨current, conn, hs⟩ u₁ ⟨hu₁, hstarted⟩
  dsimp only
  split
  · refine meets_request_bind.mpr ?_
    rintro _ _ rfl
    obtain ⟨hpaced, hsettled, hspaced⟩ := hu₁.settle hstarted
    refine meets_request_bind.mpr ?_
    rintro x _ rfl
    have hsent : Along Paced (u₁ ++ [_] ++ [⟨.wire conn (.send powerKeyMessage), x⟩]) :=
      hpaced.concat fun _ => ⟨hsettled, hspaced⟩
    refine meets_orRaise_bind.mpr ⟨fun _ _ => ?_, fun e _ => ⟨hsent, ?_⟩⟩
    · refine meets_request_bind.mpr ?_
      rintro _ _ rfl
      refine meets_request_bind.mpr ?_
      rintro now _ rfl
      refine (confirmLoop_paced ((hsent.concat (by trivial)).concat (by trivial))).bind ?_
        fun stop u₂ hu₂ => ⟨hu₂.1, ?_⟩
      · intro hs u₂ hu₂
        exact meets_pure.mpr ⟨hu₂.1, nofun⟩
      · rintro e ⟨⟩ hkind
        exact hu₂.2 e rfl hkind
    · rintro _ ⟨⟩ hkind
      cases hkind
  · exact meets_pure.mpr ⟨hu₁.paced, nofun⟩

theorem setPower_paced (hu : Waited u) :
    Meets Recorded (setPower fuel host port wantOn) u Attempted := by
  refine (pressPowerOnce_paced hu).bind ?_ fun stop u₁ hu₁ => ⟨hu₁.1, ?_⟩
  · intro attempt u₁ hu₁
    have hretry :
        Meets Recorded
        (retryPowerOn fuel host port wantOn (powerOnAttempts - 1) attempt attempt.changed) u₁
        (fun r u' => Along Paced u' ∧ ∀ e, r ≠ .error (.error e)) := by
      refine retryPowerOn_meets (I := fun _ _ _ u => Along Paced u) ?_ ?_ _ hu₁.1
      · intro left attempt changed u hu _
        exact ⟨hu, nofun⟩
      · rintro left attempt changed u _ hu _ rfl
        have hwaited : Waited (u ++ [⟨.host (.sleep powerOnRetryBackoff), ()⟩]) :=
          ⟨hu.concat trivial, spaced_sleep _ u⟩
        refine (pressPowerOnce_paced hwaited).mono fun r u₂ hu₂ => ?_
        rcases r with (e | text | _) | next
        · exact ⟨hu₂.1, nofun⟩
        · exact ⟨hu₂.1, nofun⟩
        · exact ⟨hu₂.1, nofun⟩
        · exact hu₂.1
    refine hretry.bind ?_ ?_
    · rintro _ u₂ ⟨hu₂, _⟩
      refine meets_request_bind.mpr ?_
      rintro timestamp _ rfl
      exact meets_pure.mpr ⟨hu₂.concat trivial, nofun⟩
    · rintro stop u₂ ⟨hu₂, hne⟩
      refine ⟨hu₂, ?_⟩
      rintro e ⟨⟩ _
      exact absurd rfl (hne e)
  · rintro e ⟨⟩ hkind
    exact hu₁.2 e rfl hkind

theorem waitForPort_paced {budget : Duration} (hu : Waited u) :
    Meets Recorded (waitForPort fuel host port budget) u (fun _ u' => Waited u') := by
  have hloop (deadline : Instant) {u : Trace (System SessionWire)} (hu : Waited u) :
      Meets Recorded (waitLoop ⟨host, port⟩ deadline fuel) u (fun _ u' => Waited u') := by
    induction fuel generalizing u with
    | zero => exact meets_fail.mpr hu
    | succ fuel ih =>
        refine meets_request_bind.mpr ?_
        rintro now _ rfl
        have hnow : Waited (u ++ [⟨.host .now, now⟩]) := hu.concat trivial
        split
        · refine meets_request_bind.mpr ?_
          rintro x _ rfl
          have hprobed := hnow.connect ⟨host, port⟩ (fromSecs 1) x
          cases x with
          | ok sock => exact meets_pure.mpr hprobed
          | error e =>
              refine meets_request_bind.mpr ?_
              rintro _ _ rfl
              exact ih (hprobed.concat trivial)
        · exact meets_raise.mpr hnow
  refine meets_request_bind.mpr ?_
  rintro now _ rfl
  exact hloop _ (hu.concat trivial)

theorem setPowerWithWake_paced {mac : Option Mac} (hu : Waited u) :
    Meets Recorded (setPowerWithWake fuel host port wantOn mac) u (fun _ u' => Along Paced u') := by
  have hfirst : Meets Recorded (resultOf (setPower fuel host port wantOn)) u
      (fun r u' => Along Paced u' ∧
      ∀ e, r = .ok (.error e) → e.kind = .unreachable → Waited u') := by
    refine meets_resultOf ((setPower_paced hu).mono fun r u' hu' => ⟨hu'.1, fun e he => ?_⟩)
    rcases r with (e' | text | _) | out
    · cases he
      exact hu'.2 e rfl
    · cases he
    · cases he
    · cases he
  refine hfirst.bind ?_ fun _ u₁ hu₁ => hu₁.1
  rintro first u₁ ⟨hu₁, hwaited⟩
  have hrest : Meets Recorded (propagate first : Command SessionWire PowerOutput) u₁
      (fun _ u' => Along Paced u') :=
    meets_propagate.mpr ⟨fun _ _ => hu₁, fun _ _ => hu₁⟩
  split
  next mac e =>
    split
    next hwake =>
      have hkind : e.kind = .unreachable := by
        rw [Bool.and_eq_true, beq_iff_eq] at hwake
        exact hwake.2
      have hpacket : Throughout Aside (sendMagicPacket mac) := by
        simp [sendMagicPacket, ask, request, Aside]
      have hkeeps : Meets Recorded (sendMagicPacket mac) u₁ (fun _ u' => Waited u') := by
        refine hpacket.keeps ?_ (hwaited e rfl hkind)
        rintro u e _ hu he rfl
        exact hu.concat he
      refine hkeeps.bind ?_ fun _ _ hu₂ => hu₂.paced
      intro _ u₂ hu₂
      refine (waitForPort_paced hu₂).bind ?_ fun _ _ hu₃ => hu₃.paced
      intro _ u₃ hu₃
      refine (setPower_paced hu₃).bind ?_ fun _ _ hu₄ => hu₄.1
      intro out u₄ hu₄
      exact meets_pure.mpr hu₄.1
    next => exact hrest
  next => exact hrest

theorem status_paced (hu : Waited u) :
    Meets Recorded (status fuel host port) u (fun _ u' => Along Paced u') := by
  refine (readPower_paced hu).bind ?_ fun _ _ hu₁ => hu₁.paced
  rintro ⟨_, conn, _⟩ u₁ ⟨hu₁, _⟩
  refine meets_request_bind.mpr ?_
  rintro timestamp _ rfl
  exact meets_pure.mpr (hu₁.paced.concat trivial)

/-- The commands that wait before they drop the connection. -/
def Settles : SessionCommand → Prop
  | .key _ | .launch _ => True
  | _ => False

/-- Every command with a session keeps the pace, whatever the television does
and however often it is tried. -/
theorem session_paced {command : SessionCommand} {t : Trace (System SessionWire)}
    {r : Except Stop SessionOutput}
    (h : Run (command.run fuel host port) t r) :
    Along Paced t ∧ (Settles command → ∀ out, r = .ok out → Spaced sendSettle t) := by
  have hstart : Waited [] := by
    refine ⟨along_nil, ?_⟩
    rintro e z ⟨_, _, w, heq⟩
    simp at heq
  have hmeets : Meets Recorded (command.run fuel host port) [] (fun r t =>
      Along Paced t ∧ (Settles command → ∀ out, r = .ok out → Spaced sendSettle t)) := by
    cases command with
    | status =>
        refine (status_paced hstart).bind ?_ fun _ _ hu => ⟨hu, False.elim⟩
        exact fun _ _ hu => meets_pure.mpr ⟨hu, False.elim⟩
    | on mac =>
        refine (setPowerWithWake_paced hstart).bind ?_ fun _ _ hu => ⟨hu, False.elim⟩
        exact fun _ _ hu => meets_pure.mpr ⟨hu, False.elim⟩
    | off =>
        refine (setPower_paced hstart).bind ?_ fun _ _ hu => ⟨hu.1, False.elim⟩
        exact fun _ _ hu => meets_pure.mpr ⟨hu.1, False.elim⟩
    | key keys =>
        refine (sendKeys_paced keys hstart).bind ?_ fun _ _ hu => ⟨hu.1, nofun⟩
        exact fun out _ hu => meets_pure.mpr ⟨hu.1, fun _ _ _ => hu.2 out rfl⟩
    | launch appLink =>
        refine (sendAppLink_paced appLink hstart).bind ?_ fun _ _ hu => ⟨hu.1, nofun⟩
        exact fun out _ hu => meets_pure.mpr ⟨hu.1, fun _ _ _ => hu.2 out rfl⟩
  exact Meets.recorded hmeets h

example : keyInjectGrace = fromSecs 1 ∧ keyInterval = fromMillis 100 ∧
      powerOnRetryBackoff = fromSecs 2 ∧
    sendSettle = fromMillis 250 := ⟨rfl, rfl, rfl, rfl⟩

def twoKeys : Script RemoteMessage := { connects := [.ok 4], inbox := [started true] }

theorem session_paced_twice :
    let played := twoKeys.play (SessionCommand.run 5 livingRoom 6466 (.key [24, 24]))
    (∃ out, played.2.1 = .ok out) ∧ Along Paced played.1 ∧
      (Settles (.key [24, 24]) → ∀ out, played.2.1 = .ok out → Spaced sendSettle played.1) :=
  ⟨⟨_, rfl⟩, session_paced
    (twoKeys.run_play (SessionCommand.run 5 livingRoom 6466 (.key [24, 24])))⟩

end Runs

end AtvRemote.Pacing
