import AtvRemote.Connections
import AtvRemote.PairingRuns

namespace AtvRemote.Conversations

open Programs Contracts Histories CommandRules CredentialRules Errors Messages SystemCalls Handshake
  Session SessionRules
  Pairing PairingRuns Wake WakeEffects PingAnswers JsonTexts Output ProcessRuns Connections
open Main (Surroundings WireOp main)

inductive Message
  | pairing (m : OuterMessage)
  | session (m : RemoteMessage)
  deriving DecidableEq, Repr

/-- What was read and written on a connection since it was opened, and whether
a read on it has failed. -/
structure Conversation where
  sock : TcpStream
  heard : List Message := []
  said : List Message := []
  ended : Bool := false
  deriving DecidableEq, Repr

def Conversation.hear (c : Conversation) : Except IoError Message → Conversation
  | .ok m => { c with heard := c.heard ++ [m] }
  | .error _ => { c with ended := true }

def Conversation.say (c : Conversation) (m : Message) : Except IoError Unit → Conversation
  | .ok _ => { c with said := c.said ++ [m] }
  | .error _ => c

def Conversation.take (c : Conversation) : (w : WireOp) → w.Answer → Conversation
  | .pairing .recv, x => c.hear (x.map .pairing)
  | .pairing (.send m), x => c.say (.pairing m) x
  | .session .recv, x => c.hear (x.map .session)
  | .session (.send m), x => c.say (.session m) x

/-- The last conversation comes first. -/
def follow : List Conversation → Event Surroundings → List Conversation
  | cs, ⟨.system (.host (.connectTimeout _ _)), .ok sock⟩ => { sock } :: cs
  | c :: cs, ⟨.system (.wire conn w), x⟩ => if c.sock = conn.sock then c.take w x :: cs else c :: cs
  | cs, _ => cs

def conversations (t : Trace Surroundings) : List Conversation := t.foldl follow []

@[simp] theorem conversations_nil : conversations [] = [] := rfl

@[simp] theorem conversations_concat (t : Trace Surroundings) (e : Event Surroundings) :
    conversations (t ++ [e]) = follow (conversations t) e := by
  simp [conversations]

@[simp] theorem Conversation.take_sock (c : Conversation) (w : WireOp) (x : w.Answer) :
    (c.take w x).sock = c.sock := by
  rcases w with (_ | m) | (_ | m) <;> cases x <;> rfl

/-- No read on the current connection has failed, or one has, or a connection
was used even after that. -/
inductive Use
  | sound
  | failed
  | abused
  deriving DecidableEq, Repr

def Use.after : Use → Event Surroundings → Use
  | .abused, _ => .abused
  | _, ⟨.system (.host (.connectTimeout _ _)), .ok _⟩ => .sound
  | .failed, ⟨.system (.wire _ _), _⟩ => .abused
  | .sound, ⟨.system (.wire _ (.session .recv)), .error _⟩ => .failed
  | .sound, ⟨.system (.wire _ (.pairing .recv)), .error _⟩ => .failed
  | use, _ => use

def uses (t : Trace Surroundings) : Use := t.foldl Use.after .sound

@[simp] theorem uses_nil : uses [] = .sound := rfl

@[simp] theorem uses_concat (t : Trace Surroundings) (e : Event Surroundings) :
    uses (t ++ [e]) = (uses t).after e := by
  simp [uses]

theorem after_abused (t : Trace Surroundings) : t.foldl Use.after .abused = .abused := by
  induction t with
  | nil => rfl
  | cons e t ih => exact ih

theorem uses_left {t t' : Trace Surroundings} (h : uses (t ++ t') ≠ .abused) :
    uses t ≠ .abused := by
  intro habused
  rw [uses, List.foldl_append] at h
  change t.foldl Use.after .sound = .abused at habused
  rw [habused] at h
  exact h (after_abused t')

variable {s : Use} {e : Event Surroundings}

/-- An event that is neither on a connection nor opens one. -/
def Apart : Event Surroundings → Prop
  | ⟨.system (.wire _ _), _⟩ | ⟨.system (.host (.connectTimeout _ _)), _⟩ => False
  | _ => True

/-- The three kinds of events, as far as conversations are concerned. -/
theorem apart_or (e : Event Surroundings) :
    Apart e ∨ (∃ conn w x, e = ⟨.system (.wire conn w), x⟩) ∨
    ∃ addr d x, e = ⟨.system (.host (.connectTimeout addr d)), x⟩ := by
  obtain ⟨(⟨conn, w⟩ | o) | o | _ | _ | _, x⟩ := e
  · exact .inr (.inl ⟨conn, w, x, rfl⟩)
  · cases o with
    | connectTimeout addr d => exact .inr (.inr ⟨addr, d, x, rfl⟩)
    | _ => exact .inl trivial
  all_goals exact .inl trivial

theorem apart_of_printed (he : Printed e) : Apart e := by
  obtain ⟨o, x⟩ := e
  cases o with
  | system => exact he.elim
  | _ => trivial

theorem Apart.follow (he : Apart e) (cs : List Conversation) : follow cs e = cs := by
  obtain ⟨o, x⟩ := e
  cases o with
  | system o =>
      cases o with
      | wire => exact he.elim
      | host o =>
          cases o with
          | connectTimeout => exact he.elim
          | _ => cases cs <;> rfl
  | _ => cases cs <;> rfl

theorem Apart.after (he : Apart e) (s : Use) : s.after e = s := by
  obtain ⟨o, x⟩ := e
  cases o with
  | system o =>
      cases o with
      | wire => exact he.elim
      | host o =>
          cases o with
          | connectTimeout => exact he.elim
          | _ => cases s <;> rfl
  | _ => cases s <;> rfl

theorem Apart.sock (he : Apart e) (s : Setup) : (s.afterAll e).sock = s.sock := by
  obtain ⟨o, x⟩ := e
  cases o with
  | system o =>
      cases o with
      | wire => exact he.elim
      | host o =>
          cases o with
          | connectTimeout => exact he.elim
          | setReadTimeout sock d | setWriteTimeout sock d =>
              cases x with
              | error e => rfl
              | ok _ =>
                  change (if s.sock = some sock then _ else s).sock = s.sock
                  split <;> rfl
          | clientConnection => cases x <;> rfl
          | _ => rfl
  | _ => rfl

theorem after_embedHost (hs : s ≠ .abused) (o : HostOp) (x : o.Answer) :
    s.after (embedHost o x) = s ∨ s.after (embedHost o x) = .sound := by
  cases o with
  | connectTimeout =>
      cases s with
      | abused => exact absurd rfl hs
      | sound | failed =>
          cases x with
          | ok sock => exact .inr rfl
          | error e => exact .inl rfl
  | _ => cases s <;> exact .inl rfl

/-- The outcome of a program that ends with a connection on which no read has
failed. -/
def Sound {α : Type} (r : Except Stop α) (s : Use) : Prop :=
  s ≠ .abused ∧ ∀ a, r = .ok a → s = .sound

theorem sound_error {α : Type} {stop : Stop} (hs : s ≠ .abused) :
    Sound (.error stop : Except Stop α) s :=
  ⟨hs, fun a h => by cases h⟩

theorem sound_sound {α : Type} (r : Except Stop α) : Sound r .sound :=
  ⟨Use.noConfusion, fun _ _ => rfl⟩

section Session

/-- How a command with a session moves the use of its connections. -/
def Moves (s : Use) (e : SessionEvent) (s' : Use) : Prop := s' = s.after (embedSession e)

variable {host : IpAddr} {port : UInt16} {fuel : Nat} {wantOn : Bool} {conn : Conn}

theorem moves_onHost {e : SessionEvent} {s s' : Use} (hs : s ≠ .abused) (he : OnHost e)
    (hstep : Moves s e s') : s' ≠ .abused := by
  obtain ⟨o, x⟩ := e
  cases o with
  | wire => exact he.elim
  | host o =>
      have hstep : s' = s.after (embedHost o x) := hstep
      rw [hstep]
      rcases after_embedHost hs o x with h | h
      · rw [h]
        exact hs
      · rw [h]
        exact Use.noConfusion

theorem moves_onHost_sound {e : SessionEvent} {s s' : Use} (hs : s = .sound) (he : OnHost e)
    (hstep : Moves s e s') : s' = .sound := by
  subst hs
  obtain rfl := hstep
  obtain ⟨o, x⟩ := e
  cases o with
  | wire => exact he.elim
  | host o => exact (after_embedHost Use.noConfusion o x).elim id id

theorem readPower_opening :
    OpeningInvariant Moves host port (fun s => s ≠ .abused) (fun s => s = .sound)
    (fun _ _ _ s => s = .sound) Sound where
  before s e s' hs he hstep := moves_onHost hs (onHost_of_local he) hstep
  after s e s' hs he hstep := moves_onHost_sound hs (onHost_of_local he) hstep
  refused s timeout e s' hs hstep := moves_onHost hs (by trivial) hstep
  opened := by
    rintro s timeout sock _ hs rfl
    cases s with
    | abused => exact absurd rfl hs
    | sound | failed => rfl
  failed s stop hs := by
    rcases hs with hs | rfl
    · exact sound_error hs
    · exact sound_sound _
  begins _ _ hs := hs
  handshake conn := {
    unfinished := by
      rintro hs any _ rfl
      exact sound_sound _
    known := by
      rintro hs any _ rfl _ power _
      exact sound_sound _
    readFailed := by
      rintro hs any _ e _ rfl _ rfl
      exact sound_error Use.noConfusion
    reported := by
      rintro hs any _ m _ rfl _ rfl _
      exact sound_sound _
    silent := by
      rintro hs any _ m _ rfl _ rfl _ _
      rfl
    replied := by
      rintro hs any _ m _ r _ rfl _ rfl _ rfl
      rfl
    refused := by
      rintro hs any _ m _ r e _ rfl _ rfl _ rfl
      exact sound_sound _ }

theorem readPower_sound (hs : s ≠ .abused) : Meets Moves (readPower fuel host port) s Sound :=
  readPower_meets readPower_opening fuel hs

/-- A failed reply does not stop the loop, but a failed read does. -/
theorem confirmLoop_sound {deadline : Instant} {hs : SessionHandshake} :
    Meets Moves (confirmLoop conn wantOn deadline fuel hs) .sound (fun _ s => s ≠ .abused) := by
  refine confirmLoop_meets (I := fun _ s => s = .sound) ⟨?_, ?_, ?_, ?_, ?_, ?_⟩ fuel rfl
  · rintro hs _ rfl
    simp
  · rintro hs _ now _ rfl rfl
    rfl
  · rintro hs _ rfl
    simp
  · rintro hs _ e _ rfl rfl
    exact Use.noConfusion
  · rintro hs _ m _ rfl rfl
    rfl
  · rintro hs _ k r x _ rfl _ rfl
    rfl

theorem pressPowerOnce_sound (hs : s ≠ .abused) :
    Meets Moves (pressPowerOnce fuel host port wantOn) s (fun _ s' => s' ≠ .abused) := by
  refine (readPower_sound hs).bind ?_ fun _ _ h => h.1
  rintro ⟨current, conn, handshake⟩ s₁ h
  obtain rfl := h.2 _ rfl
  dsimp only
  split
  · refine meets_request_bind.mpr ?_
    rintro _ _ rfl
    refine meets_request_bind.mpr ?_
    rintro x _ rfl
    refine meets_orRaise_bind.mpr ⟨fun _ _ => meets_request_bind.mpr ?_, fun _ _ => Use.noConfusion⟩
    rintro limited _ rfl
    refine meets_request_bind.mpr ?_
    rintro now _ rfl
    refine confirmLoop_sound.bind ?_ fun _ _ h => h
    intro handshake s₂ h
    exact meets_pure.mpr h
  · exact meets_pure.mpr Use.noConfusion

theorem setPower_sound (hs : s ≠ .abused) :
    Meets Moves (setPower fuel host port wantOn) s (fun _ s' => s' ≠ .abused) := by
  refine (pressPowerOnce_sound hs).bind ?_ fun _ _ h => h
  intro attempt s₁ h
  have hretry :
      Meets Moves
      (retryPowerOn fuel host port wantOn (powerOnAttempts - 1) attempt attempt.changed) s₁
      (fun _ s' => s' ≠ .abused) := by
    refine retryPowerOn_meets (I := fun _ _ _ s => s ≠ .abused) ?_ ?_ _ h
    · intro left attempt changed s hs _
      exact hs
    · intro left attempt changed s s' hs _ hslept
      refine (pressPowerOnce_sound (moves_onHost hs (by trivial) hslept)).mono fun r s'' h => ?_
      rcases r with (e | text | _) | next <;> exact h
  refine hretry.bind ?_ fun _ _ h => h
  intro _ s₂ h
  refine meets_request_bind.mpr fun timestamp s₃ hstep => ?_
  exact meets_pure.mpr (moves_onHost h (by trivial) hstep)

theorem onHost_of_wait {e : SessionEvent} (h : WaitEvent e) : OnHost e := by
  obtain ⟨o, x⟩ := e
  cases o with
  | wire => exact h.elim
  | host => trivial

theorem setPowerWithWake_sound {mac : Option Mac} (hs : s ≠ .abused) :
    Meets Moves (setPowerWithWake fuel host port wantOn mac) s (fun _ s' => s' ≠ .abused) := by
  have hfirst : Meets Moves (resultOf (setPower fuel host port wantOn)) s
      (fun _ s' => s' ≠ .abused) :=
    meets_resultOf (setPower_sound hs)
  refine hfirst.bind ?_ fun _ _ h => h
  intro first s₁ h₁
  have hrest : Meets Moves (propagate first : Command SessionWire PowerOutput) s₁
      (fun _ s' => s' ≠ .abused) :=
    meets_propagate.mpr ⟨fun _ _ => h₁, fun _ _ => h₁⟩
  split
  next mac e =>
    split
    · have hpacket : Throughout OnHost (sendMagicPacket mac) := by
        simp [sendMagicPacket, ask, request, OnHost]
      have hwait : Throughout OnHost (waitForPort fuel host port wolWait) :=
        (waitForPort_events fuel host port wolWait).mono fun _ => onHost_of_wait
      have hkeeps {p : Command SessionWire Unit} {s : Use} (hp : Throughout OnHost p)
          (hs : s ≠ .abused) :
          Meets Moves p s (fun _ s' => s' ≠ .abused) := hp.keeps (fun _ _ _ => moves_onHost) hs
      refine (hkeeps hpacket h₁).bind ?_ fun _ _ h => h
      intro _ s₂ h₂
      refine (hkeeps hwait h₂).bind ?_ fun _ _ h => h
      intro _ s₃ h₃
      exact (setPower_sound h₃).bind (fun out s₄ h₄ => meets_pure.mpr h₄) fun _ _ h => h
    · exact hrest
  next => exact hrest

theorem sendPresses_sound {keys : List Int32} {i : Nat} :
    Meets Moves (sendPresses conn i keys) .sound (fun _ s => s = .sound) := by
  induction keys generalizing i with
  | nil => exact meets_pure.mpr rfl
  | cons code keys ih =>
      have hpress : Meets Moves (do
          orRaise (← writeMessage conn (keyMessage code)) (keyFailed code)
          sendPresses conn (i + 1) keys) .sound (fun _ s => s = .sound) := by
        refine meets_request_bind.mpr ?_
        rintro x _ rfl
        exact meets_orRaise_bind.mpr ⟨fun _ _ => ih, fun _ _ => rfl⟩
      rw [sendPresses]
      split
      · refine meets_request_bind.mpr ?_
        rintro _ _ rfl
        exact hpress
      · exact hpress

/-- The end of every command. -/
theorem settle_sound {α : Type} {f : String → α} : Meets Moves (do
    sleep sendSettle
    let timestamp ← timestamp
    pure (f timestamp) : Command SessionWire α) .sound (fun _ s => s ≠ .abused) := by
  refine meets_request_bind.mpr ?_
  rintro _ _ rfl
  refine meets_request_bind.mpr ?_
  rintro timestamp _ rfl
  exact meets_pure.mpr Use.noConfusion

theorem session_sound (command : SessionCommand) (hs : s ≠ .abused) :
    Meets Moves (command.run fuel host port) s (fun _ s' => s' ≠ .abused) := by
  cases command with
  | status =>
      refine Meets.bind (P := fun _ s' => s' ≠ .abused) ?_
        (fun _ _ h => meets_pure.mpr h) fun _ _ h => h
      refine (readPower_sound hs).bind ?_ fun _ _ h => h.1
      rintro ⟨_, conn, _⟩ s₁ ⟨h, _⟩
      refine meets_request_bind.mpr fun timestamp s₂ hstep => ?_
      exact meets_pure.mpr (moves_onHost h (by trivial) hstep)
  | on mac => exact (setPowerWithWake_sound hs).bind (fun _ _ h => meets_pure.mpr h) fun _ _ h => h
  | off => exact (setPower_sound hs).bind (fun _ _ h => meets_pure.mpr h) fun _ _ h => h
  | key keys =>
      refine Meets.bind (P := fun _ s' => s' ≠ .abused) ?_
        (fun _ _ h => meets_pure.mpr h) fun _ _ h => h
      refine (readPower_sound hs).bind ?_ fun _ _ h => h.1
      rintro ⟨_, conn, _⟩ s₁ h
      obtain rfl := h.2 _ rfl
      refine meets_request_bind.mpr ?_
      rintro _ _ rfl
      refine sendPresses_sound.bind ?_ ?_
      · rintro _ _ rfl
        exact settle_sound
      · rintro stop _ rfl
        exact Use.noConfusion
  | launch appLink =>
      refine Meets.bind (P := fun _ s' => s' ≠ .abused) ?_
        (fun _ _ h => meets_pure.mpr h) fun _ _ h => h
      refine (readPower_sound hs).bind ?_ fun _ _ h => h.1
      rintro ⟨_, conn, _⟩ s₁ h
      obtain rfl := h.2 _ rfl
      refine meets_request_bind.mpr ?_
      rintro _ _ rfl
      refine meets_request_bind.mpr ?_
      rintro x _ rfl
      exact meets_orRaise_bind.mpr ⟨fun _ _ => settle_sound, fun _ _ => Use.noConfusion⟩

end Session

section Pairing

/-- The same for pairing. -/
def PairingMoves (s : Use) (e : Event (System PairingWire)) (s' : Use) : Prop :=
  s' = s.after (embedPairing e)

variable {lib : Library} {host : IpAddr} {port : UInt16} {fuel : Nat} {conn : Conn}

theorem onHost_sound {α : Type} {p : Command PairingWire α} (hp : Throughout OnHost p) :
    Meets PairingMoves p .sound (fun _ s => s = .sound) := by
  refine hp.keeps ?_ rfl
  rintro _ ⟨o, x⟩ _ rfl he rfl
  cases o with
  | wire => exact he.elim
  | host o => exact (after_embedHost Use.noConfusion o x).elim id id

theorem pairLoop_sound {flow : PairingFlow} :
    Meets PairingMoves (pairLoop conn fuel flow) .sound Sound := by
  induction fuel generalizing flow with
  | zero => exact meets_fail.mpr (sound_sound _)
  | succ fuel ih =>
      rw [pairLoop]
      split
      · refine meets_request_bind.mpr ?_
        rintro x _ rfl
        cases x with
        | error e => exact meets_raise_bind.mpr (sound_error Use.noConfusion)
        | ok m =>
            refine meets_ok_bind.mpr
              (meets_orRaise_bind.mpr ⟨fun answer _ => ?_, fun _ _ => sound_sound _⟩)
            cases answer with
            | none => exact ih
            | some r =>
                refine meets_request_bind.mpr ?_
                rintro y _ rfl
                exact meets_orRaise_bind.mpr ⟨fun _ _ => ih, fun _ _ => sound_sound _⟩
      · exact meets_pure.mpr (sound_sound _)

theorem sendSecret_sound {flow : PairingFlow} {secret : Bytes} :
    Meets PairingMoves (sendSecret host conn flow secret) .sound (fun _ s => s ≠ .abused) := by
  refine meets_request_bind.mpr ?_
  rintro y _ rfl
  refine meets_orRaise_bind.mpr ⟨fun _ _ => meets_request_bind.mpr ?_, fun _ _ => Use.noConfusion⟩
  rintro z _ rfl
  cases z with
  | error e => exact meets_raise_bind.mpr Use.noConfusion
  | ok ack =>
      refine meets_ok_bind.mpr
        (meets_orRaise_bind.mpr ⟨fun _ _ => meets_request_bind.mpr ?_, fun _ _ => Use.noConfusion⟩)
      rintro timestamp _ rfl
      exact meets_pure.mpr Use.noConfusion

theorem pair_sound :
    Meets PairingMoves (pair lib fuel host port) .sound (fun _ s => s ≠ .abused) := by
  have habused {s : Use} (h : s = .sound) : s ≠ .abused := by
    rw [h]
    exact Use.noConfusion
  refine (onHost_sound (openPairing_onHost host port)).bind ?_ fun _ _ h => habused h
  rintro ⟨tls, conn⟩ _ rfl
  refine meets_request_bind.mpr ?_
  rintro x _ rfl
  refine meets_orRaise_bind.mpr ⟨fun _ _ => ?_, fun _ _ => Use.noConfusion⟩
  refine pairLoop_sound.bind ?_ fun _ _ h => h.1
  intro flow s h
  obtain rfl := h.2 _ rfl
  refine (onHost_sound (readSecret_onHost lib tls conn)).bind ?_ fun _ _ h => habused h
  rintro secret _ rfl
  exact sendSecret_sound

end Pairing

section Processes

variable {lib : Library} {json : SerdeJson} {fuel : Nat} {command : Main.Command}
  {t : Trace Surroundings}

theorem uses_map {W : Signature} {embed : Event (System W) → Event Surroundings}
    (u : Trace (System W)) :
    Path (fun s e s' => s' = Use.after s (embed e)) .sound u (uses (u.map embed)) := by
  rw [uses, List.foldl_map]
  exact path_fold.mpr rfl

theorem uses_of_worked {r : Except Stop Result} (h : Worked lib fuel command t r) :
    uses t ≠ .abused := by
  cases h with
  | pair htask hrun => exact pair_sound _ _ hrun _ (uses_map _)
  | @unprompted u v q text closed htask hrun =>
      have hwhole := pair_sound _ _ hrun _ (uses_map _)
      rw [List.map_append] at hwhole
      rw [uses_concat, Apart.after (by trivial)]
      exact uses_left hwhole
  | session htask hrun => exact session_sound _ Use.noConfusion _ _ hrun _ (uses_map _)
  | @discover timeout u q htask hrun =>
      have hnone : uses (u.map embedBrowsing) = .sound := by
        rw [uses, List.foldl_map]
        refine List.foldlRecOn (motive := fun s => s = Use.sound) u _ rfl ?_
        rintro _ rfl e _
        rfl
      rw [hnone]
      exact Use.noConfusion

/-- No connection is used after a read on it has failed. -/
theorem uses_of_run {r : Except Stop Nat} (h : Run (main lib json fuel command) t r) :
    uses t ≠ .abused := by
  obtain ⟨u, v, q, rfl, hu, hending⟩ := run_main h
  have hv := printed_of_ending hending
  have hsame : uses (u ++ v) = uses u := by
    rw [uses, List.foldl_append]
    refine List.foldlRecOn (motive := fun s => s = uses u) v _ rfl ?_
    rintro _ rfl e he
    exact (apart_of_printed (hv e he)).after _
  rw [hsame]
  exact uses_of_worked (run_work hu)

theorem wire_sound {conn : Conn} {w : WireOp} {x : w.Answer}
    (h : uses (t ++ [⟨.system (.wire conn w), x⟩]) ≠ .abused) :
    uses t = .sound := by
  rw [uses_concat] at h
  cases hs : uses t with
  | sound => rfl
  | failed | abused =>
      rw [hs] at h
      exact absurd rfl h

theorem take_going {c : Conversation} (hc : c.ended = false) {conn : Conn}
    {w : WireOp} {x : w.Answer}
    (h : Use.sound.after ⟨.system (.wire conn w), x⟩ = .sound) : (c.take w x).ended = false := by
  rcases w with (_ | m) | (_ | m)
  · cases x with
    | error e => cases h
    | ok m => exact hc
  · cases x <;> exact hc
  · cases x with
    | error e => cases h
    | ok m => exact hc
  · cases x <;> exact hc

theorem follow_refused (cs : List Conversation) (addr : SocketAddr) (d : Duration) (e : IoError) :
    follow cs ⟨.system (.host (.connectTimeout addr d)), .error e⟩ = cs := by
  cases cs <;> rfl

theorem after_refused (s : Use) (addr : SocketAddr) (d : Duration) (e : IoError) :
    s.after ⟨.system (.host (.connectTimeout addr d)), .error e⟩ = s := by
  cases s <;> rfl

/-- Unless a read has failed, the last conversation goes on. -/
theorem going_of_sound {c : Conversation} {cs : List Conversation} (huses : uses t = .sound)
    (ht : conversations t = c :: cs) :
    c.ended = false := by
  induction t using List.reverseRecOn generalizing c cs with
  | nil => cases ht
  | append_singleton t e ih =>
      rw [conversations_concat] at ht
      rcases apart_or e with he | ⟨conn, w, x, rfl⟩ | ⟨addr, d, x, rfl⟩
      · rw [he.follow] at ht
        rw [uses_concat, he.after] at huses
        exact ih huses ht
      · have hsound : uses t = .sound := by
          apply wire_sound
          rw [huses]
          exact Use.noConfusion
        rw [uses_concat, hsound] at huses
        cases hcs : conversations t with
        | nil =>
            rw [hcs] at ht
            cases ht
        | cons c₀ cs₀ =>
            rw [hcs, follow] at ht
            have hgoing := ih hsound hcs
            split at ht
            · obtain ⟨rfl, _⟩ := List.cons.inj ht
              exact take_going hgoing huses
            · obtain ⟨rfl, _⟩ := List.cons.inj ht
              exact hgoing
      · cases x with
        | ok sock =>
            obtain ⟨rfl, rfl⟩ := List.cons.inj ht
            rfl
        | error e =>
            rw [follow_refused] at ht
            rw [uses_concat, after_refused] at huses
            exact ih huses ht

/-- The connection that is set up is that of the last conversation. -/
theorem last_of_sock {sock : TcpStream} (h : (setupAll t).sock = some sock) :
    ∃ c cs, conversations t = c :: cs ∧ c.sock = sock := by
  induction t using List.reverseRecOn generalizing sock with
  | nil => cases h
  | append_singleton t e ih =>
      rw [setupAll, List.foldl_append] at h
      change ((setupAll t).afterAll e).sock = some sock at h
      rw [conversations_concat]
      rcases apart_or e with he | ⟨conn, w, x, rfl⟩ | ⟨addr, d, x, rfl⟩
      · rw [he.sock] at h
        rw [he.follow]
        exact ih h
      · obtain ⟨c, cs, hcs, hsock⟩ := ih h
        rw [hcs, follow]
        split
        · exact ⟨_, cs, rfl, by rwa [Conversation.take_sock]⟩
        · exact ⟨c, cs, rfl, hsock⟩
      · cases x with
        | ok sock' =>
            obtain rfl := Option.some.inj h
            exact ⟨_, _, rfl, rfl⟩
        | error e => cases h

end Processes

end AtvRemote.Conversations
