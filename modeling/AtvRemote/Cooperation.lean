import AtvRemote.PingAnswers
import AtvRemote.ReadPowerRuns
import AtvRemote.Readiness

namespace AtvRemote.Cooperation

open Programs Contracts CommandRules Errors Messages SystemCalls Handshake Session SessionRules
  PowerEffects PingAnswers Wake Readiness
open ReadPowerRuns (settle settle_hear settle_error readPowerLoop_known)

/-- A television that does what it is told. It keeps the keys and app links
that it has received, and the messages that the client has not read yet. -/
structure Television where
  power : Bool
  inbox : List RemoteMessage := []
  obeyed : List RemoteMessage := []

def Television.obey (tv : Television) (m : RemoteMessage) : Television :=
  { tv with
    power := if carriesPowerKey m then !tv.power else tv.power
    obeyed := tv.obeyed ++ [m] }

/-- The power is announced once, among other messages that are not errors. -/
def Announces (n : Nat) (power : Bool) (talk : List RemoteMessage) : Prop :=
  ∃ before m after, talk = before ++ m :: after ∧ kind m = .start power ∧
    (before ++ after).length ≤ n ∧
    ∀ m ∈ before ++ after, settle (kind m) = none

/-- The television accepts every connection, announces its power on it and
again when a power key has come in. The host has an identity. -/
def Cooperates (n : Nat) (der : Bytes) (tv : Television) : SessionEvent → Television → Prop
  | ⟨.host (.connectTimeout _ _), x⟩, tv' =>
      (∃ sock, x = .ok sock) ∧ ∃ inbox, Announces n tv.power inbox ∧ tv' = { tv with inbox }
  | ⟨.wire _ .recv, x⟩, tv' =>
      ∀ m inbox, tv.inbox = m :: inbox → x = .ok m ∧ tv' = { tv with inbox }
  | ⟨.wire _ (.send m), x⟩, tv' => x = .ok () ∧
      if acts m then ∃ talk, (carriesPowerKey m → Announces n (tv.obey m).power talk) ∧
        tv' = { tv.obey m with inbox := tv.inbox ++ talk }
      else tv' = tv
  | ⟨.host (.isFile _), x⟩, tv' => x = true ∧ tv' = tv
  | ⟨.host o, x⟩, tv' => Ready der o x ∧ tv' = tv

variable {n fuel : Nat} {der : Bytes} {tv : Television} {conn : Conn} {host : IpAddr}
  {port : UInt16} {wantOn : Bool}

theorem cooperates_steady : Steady der (Cooperates n der) := by
  intro tv o x tv' ho hstep
  cases o with
  | connectTimeout | isFile => exact ho.elim
  | _ => exact hstep

theorem cooperates_found (path : String) : Found (Cooperates n der) tv path :=
  fun _ _ hstep => hstep

theorem acts_reply {active : Int32} {k : Kind} {r : RemoteMessage} (h : reply active k = some r) :
    acts r = false := by
  cases k with
  | configure _ | setActive | ping _ =>
      obtain rfl := Option.some.inj h
      rfl
  | start _ | error | ignorable => cases h

theorem cooperates_reply {active : Int32} {k : Kind} {r : RemoteMessage} {x : Except IoError Unit}
    {tv' : Television}
    (h : reply active k = some r) (hstep : Cooperates n der tv ⟨.wire conn (.send r), x⟩ tv') :
    x = .ok () ∧ tv' = tv := by
  obtain ⟨hx, hstep⟩ := hstep
  rw [acts_reply h] at hstep
  exact ⟨hx, hstep⟩

/-- The announcement is what the client waits for. -/
theorem readPowerLoop_cooperative {power : Bool} {before after : List RemoteMessage}
    {m : RemoteMessage} (hm : kind m = .start power)
    {hs : SessionHandshake} {any : Bool} (hinbox : tv.inbox = before ++ m :: after)
    (hbefore : ∀ m ∈ before, settle (kind m) = none)
    (hfuel : before.length + 1 < fuel) (hs' : hs.power = none) :
    Meets (Cooperates n der) (readPowerLoop conn fuel hs any) tv
      (fun r tv' => tv' = { tv with inbox := after } ∧ ∃ hs, r = .ok hs ∧ hs.power =
        some power) := by
  induction before generalizing fuel hs any tv with
  | nil =>
      obtain ⟨fuel, rfl⟩ : ∃ k, fuel = k + 2 := Nat.exists_eq_add_of_le' hfuel
      rw [readPowerLoop, if_pos (by rw [hs']; rfl)]
      refine meets_request_bind.mpr ?_
      intro x tv₁ hstep
      obtain ⟨rfl, rfl⟩ := hstep m after hinbox
      refine meets_ok_bind.mpr ?_
      rw [handle_eq, hm, if_neg (by simp)]
      change Meets _ (readPowerLoop conn (fuel + 1) ⟨some power, hs.activeFeatures⟩ true) _ _
      rw [readPowerLoop_known rfl]
      exact meets_pure.mpr ⟨rfl, _, rfl, rfl⟩
  | cons b before ih =>
      obtain ⟨fuel, rfl⟩ : ∃ k, fuel = k + 1 := Nat.exists_eq_add_of_le' (by omega)
      obtain ⟨hb, hbefore⟩ := List.forall_mem_cons.mp hbefore
      rw [readPowerLoop, if_pos (by rw [hs']; rfl)]
      refine meets_request_bind.mpr ?_
      intro x tv₁ hstep
      obtain ⟨rfl, rfl⟩ := hstep b (before ++ m :: after) hinbox
      refine meets_ok_bind.mpr ?_
      rw [handle_eq, if_neg (settle_error hb), settle_hear hb]
      have hnext :=
        @ih fuel { tv with inbox := before ++ m :: after }
          ⟨hs.power, narrow hs.activeFeatures (kind b)⟩ true rfl hbefore
        (Nat.lt_of_succ_lt_succ hfuel) hs'
      cases hr : reply (narrow hs.activeFeatures (kind b)) (kind b) with
      | none => exact hnext
      | some r =>
          refine meets_request_bind.mpr ?_
          intro y tv₂ hsent
          obtain ⟨rfl, rfl⟩ := cooperates_reply hr hsent
          exact hnext

theorem readPower_cooperative (hfuel : n + 1 < fuel) :
    Meets (Cooperates n der) (readPower fuel host port) tv
    (fun r tv' => (∃ conn hs, r = .ok (tv.power, conn, hs)) ∧ ∃ after, tv' =
      { tv with inbox := after } ∧ after.length ≤ n ∧
      ∀ m ∈ after, settle (kind m) = none) := by
  have hopen : Meets (Cooperates n der) (openSession host port) tv
      (fun r tv' => (∃ inbox, Announces n tv.power inbox ∧ tv' = { tv with inbox }) ∧
        ∃ conn, r = .ok conn) := by
    refine Done.bind (credentialDirFromEnv_done cooperates_steady) fun dir => ?_
    refine (fromCredentialDir_done cooperates_steady (cooperates_found _)
      (cooperates_found _)).bind ?_ ?_
    · rintro tls _ ⟨rfl, _⟩
      exact connect_done cooperates_steady tls host port _ fun x tv' hstep => hstep
    · rintro e _ ⟨_, tls, ⟨⟩, _⟩
  refine hopen.bind ?_ ?_
  · rintro conn tv₁ ⟨⟨inbox, ⟨before, m, after, rfl, hm, hlength, htalk⟩, rfl⟩, _⟩
    obtain ⟨hbefore, hafter⟩ := List.forall_mem_append.mp htalk
    rw [List.length_append] at hlength
    refine (readPowerLoop_cooperative hm rfl hbefore (by omega) rfl).bind ?_ ?_
    · rintro hs tv₂ ⟨rfl, _, ⟨⟩, hpower⟩
      rw [hpower]
      exact meets_pure.mpr ⟨⟨conn, hs, rfl⟩, after, rfl, by omega, hafter⟩
    · rintro e tv₂ ⟨_, hs, ⟨⟩, _⟩
  · rintro e tv₁ ⟨_, conn, ⟨⟩⟩

/-- The television does what was sent. -/
theorem act_cooperative {β : Type} {m : RemoteMessage} (hm : acts m = true)
    {failed : IoError → AtvError} {g : Command SessionWire β}
    {R : Except Stop β → Television → Prop}
    (h : ∀ talk, (carriesPowerKey m → Announces n (tv.obey m).power talk) →
      Meets (Cooperates n der) g { tv.obey m with inbox := tv.inbox ++ talk } R) :
    Meets (Cooperates n der) (do
      orRaise (← writeMessage conn m) failed
      g) tv R := by
  refine meets_request_bind.mpr ?_
  rintro x tv' ⟨rfl, hstep⟩
  rw [if_pos hm] at hstep
  obtain ⟨talk, htalk, rfl⟩ := hstep
  exact meets_ok_bind.mpr (h talk htalk)

def Television.obeyAll (tv : Television) (ms : List RemoteMessage) : Television :=
  ms.foldl Television.obey tv

/-- The television is as if it had received these messages, whatever it has
sent itself. -/
def Obeyed (tv : Television) (ms : List RemoteMessage) (tv' : Television) : Prop :=
  tv'.power = (tv.obeyAll ms).power ∧ tv'.obeyed = (tv.obeyAll ms).obeyed

theorem obeyAll_inbox (tv : Television) (inbox : List RemoteMessage) (ms : List RemoteMessage) :
    ({ tv with inbox } : Television).obeyAll ms = { tv.obeyAll ms with inbox } := by
  induction ms generalizing tv with
  | nil => rfl
  | cons m ms ih => exact ih (tv.obey m)

theorem Obeyed.inbox {ms : List RemoteMessage} {tv' : Television} {inbox : List RemoteMessage}
    (h : Obeyed { tv with inbox } ms tv') : Obeyed tv ms tv' := by
  rw [Obeyed, obeyAll_inbox] at h
  exact h

theorem step_now {x : Instant} {tv' : Television} (h : Cooperates n der tv ⟨.host .now, x⟩ tv') :
    tv = tv' := h.2.symm

theorem step_sleep {d : Duration} {x : Unit} {tv' : Television}
    (h : Cooperates n der tv ⟨.host (.sleep d), x⟩ tv') : tv = tv' := h.2.symm

theorem step_timestamp {x : String} {tv' : Television}
    (h : Cooperates n der tv ⟨.host .timestamp, x⟩ tv') : tv = tv' := h.2.symm

theorem sendPresses_cooperative (keys : List Int32) (i : Nat) :
    Meets (Cooperates n der) (sendPresses conn i keys) tv
    (fun r tv' => r = .ok () ∧ Obeyed tv (keys.map keyMessage) tv') := by
  induction keys generalizing i tv with
  | nil => exact meets_pure.mpr ⟨rfl, rfl, rfl⟩
  | cons code keys ih =>
      have hpress : Meets (Cooperates n der) (do
          orRaise (← writeMessage conn (keyMessage code)) (keyFailed code)
          sendPresses conn (i + 1) keys) tv
            (fun r tv' => r = .ok () ∧ Obeyed tv ((code :: keys).map keyMessage) tv') := by
        refine act_cooperative (m := keyMessage code) rfl ?_
        intro talk _
        refine (ih (i + 1)).mono ?_
        rintro r tv' ⟨rfl, hobeyed⟩
        exact ⟨rfl, @Obeyed.inbox (tv.obey (keyMessage code)) _ _ _ hobeyed⟩
      rw [sendPresses]
      split
      · refine meets_request_bind.mpr ?_
        intro _ tv₁ hslept
        obtain rfl := step_sleep hslept
        exact hpress
      · exact hpress

/-- The wait for a confirmation ends with it, or with the deadline. -/
theorem confirmLoop_cooperative {deadline : Instant} {before after : List RemoteMessage}
    {m : RemoteMessage}
    (hm : kind m = .start wantOn) {hs : SessionHandshake} (hinbox : tv.inbox = before ++ m :: after)
    (hbefore : ∀ m ∈ before, settle (kind m) = none) (hfuel : before.length < fuel)
    (hs' : hs.power = none) :
    Meets (Cooperates n der) (confirmLoop conn wantOn deadline fuel hs) tv
      (fun r tv' => Obeyed tv [] tv' ∧
      ∃ hs, r = .ok hs ∧ (hs.power = none ∨ hs.power = some wantOn)) := by
  induction before generalizing fuel hs tv with
  | nil =>
      obtain ⟨fuel, rfl⟩ : ∃ k, fuel = k + 1 := Nat.exists_eq_add_of_le' hfuel
      refine meets_request_bind.mpr ?_
      intro now tv₁ hnow
      obtain rfl := step_now hnow
      split
      · refine meets_request_bind.mpr ?_
        intro x tv₂ hstep
        obtain ⟨rfl, rfl⟩ := hstep m after hinbox
        dsimp only
        rw [handle_eq, hm, if_neg (by simp)]
        change Meets _ (if some wantOn = some wantOn then pure _ else _) _ _
        rw [if_pos rfl]
        exact meets_pure.mpr ⟨⟨rfl, rfl⟩, _, rfl, .inr rfl⟩
      · exact meets_pure.mpr ⟨⟨rfl, rfl⟩, _, rfl, .inl hs'⟩
  | cons b before ih =>
      obtain ⟨fuel, rfl⟩ : ∃ k, fuel = k + 1 := Nat.exists_eq_add_of_le' (by omega)
      obtain ⟨hb, hbefore⟩ := List.forall_mem_cons.mp hbefore
      refine meets_request_bind.mpr ?_
      intro now tv₁ hnow
      obtain rfl := step_now hnow
      split
      · refine meets_request_bind.mpr ?_
        intro x tv₂ hstep
        obtain ⟨rfl, rfl⟩ := hstep b (before ++ m :: after) hinbox
        have hnext : Meets (Cooperates n der)
            (if hs.power = some wantOn then pure ⟨hs.power, narrow hs.activeFeatures (kind b)⟩
              else confirmLoop conn wantOn deadline fuel
                ⟨hs.power, narrow hs.activeFeatures (kind b)⟩)
            { tv with inbox := before ++ m :: after } (fun r tv' => Obeyed tv [] tv' ∧
              ∃ hs, r = .ok hs ∧ (hs.power = none ∨ hs.power = some wantOn)) := by
          rw [if_neg (by simp [hs'])]
          exact @ih fuel { tv with inbox := before ++ m :: after } _ rfl hbefore
            (Nat.lt_of_succ_lt_succ hfuel) hs'
        dsimp only
        rw [handle_eq, if_neg (settle_error hb), settle_hear hb]
        cases hr : reply (narrow hs.activeFeatures (kind b)) (kind b) with
        | none => exact hnext
        | some r =>
            refine meets_request_bind.mpr ?_
            intro y tv₃ hsent
            obtain ⟨_, rfl⟩ := cooperates_reply hr hsent
            exact hnext
      · exact meets_pure.mpr ⟨⟨rfl, rfl⟩, _, rfl, .inl hs'⟩

theorem Obeyed.trans {ms ms' : List RemoteMessage} {tv₁ tv₂ : Television} (h : Obeyed tv ms tv₁)
    (h' : Obeyed tv₁ ms' tv₂) :
    Obeyed tv (ms ++ ms') tv₂ := by
  have htv₁ : tv₁ = { tv.obeyAll ms with inbox := tv₁.inbox } := by
    obtain ⟨power, inbox, obeyed⟩ := tv₁
    obtain ⟨hpower, hobeyed⟩ := h
    cases hpower
    cases hobeyed
    rfl
  rw [htv₁] at h'
  have hall : tv.obeyAll (ms ++ ms') = (tv.obeyAll ms).obeyAll ms' := List.foldl_append
  rw [Obeyed, hall]
  exact h'.inbox

/-- The power keys that lead to the wanted power. -/
def presses (wantOn power : Bool) : List RemoteMessage :=
  if needsPowerKey power wantOn then [powerKeyMessage] else []

theorem presses_idle : presses wantOn wantOn = [] := by cases wantOn <;> rfl

theorem Obeyed.wanted {tv' : Television} (h : Obeyed tv (presses wantOn tv.power) tv') :
    tv'.power = wantOn := by
  rw [h.1]
  by_cases hneeds : needsPowerKey tv.power wantOn
  · rw [presses, if_pos hneeds]
    have hne : tv.power ≠ wantOn := by simpa [needsPowerKey] using hneeds
    change (!tv.power) = wantOn
    cases hpower : tv.power <;> cases wantOn <;> simp_all
  · rw [presses, if_neg hneeds]
    change tv.power = wantOn
    simpa [needsPowerKey] using hneeds

/-- The outcome of an attempt. -/
def Attempts (wantOn changed : Bool) (r : Except Stop PowerAttempt) : Prop :=
  ∃ attempt, r = .ok attempt ∧ attempt.changed = changed ∧ attempt.resulting = wantOn

theorem pressPowerOnce_cooperative (hfuel : 2 * n + 1 < fuel) :
    Meets (Cooperates n der) (pressPowerOnce fuel host port wantOn) tv
    (fun r tv' => Obeyed tv (presses wantOn tv.power) tv' ∧ Attempts wantOn
      (needsPowerKey tv.power wantOn) r) := by
  refine (readPower_cooperative (by omega)).bind ?_ ?_
  · rintro _ tv₁ ⟨⟨conn, hs, ⟨rfl⟩⟩, after, rfl, hlength, hafter⟩
    dsimp only
    split
    next hneeds =>
      refine meets_request_bind.mpr ?_
      intro _ tv₁ hslept
      obtain rfl := step_sleep hslept
      refine act_cooperative (m := powerKeyMessage) rfl ?_
      intro talk htalk
      obtain ⟨before, m, rest, rfl, hm, hlength', htalk'⟩ := htalk rfl
      refine meets_request_bind.mpr ?_
      intro _ tv₁ htimeout
      obtain ⟨_, rfl⟩ := htimeout
      refine meets_request_bind.mpr ?_
      intro now tv₁ hnow
      obtain rfl := step_now hnow
      have hpresses : presses wantOn tv.power = [powerKeyMessage] := if_pos hneeds
      have hwanted : (tv.obey powerKeyMessage).power = wantOn := by
        have hobeyed : Obeyed tv (presses wantOn tv.power) (tv.obey powerKeyMessage) := by
          rw [hpresses]
          exact ⟨rfl, rfl⟩
        exact hobeyed.wanted
      obtain ⟨hbefore, _⟩ := List.forall_mem_append.mp htalk'
      rw [List.length_append] at hlength'
      have hm : kind m = .start wantOn := by
        rw [hm]
        exact congrArg Kind.start hwanted
      refine (confirmLoop_cooperative hm (List.append_assoc _ _ _).symm
        (List.forall_mem_append.mpr ⟨hafter, hbefore⟩)
        (by rw [List.length_append]; omega) rfl).bind ?_ ?_
      · rintro _ tv₂ ⟨hobeyed, hs, ⟨⟩, hpower⟩
        refine meets_pure.mpr ⟨?_, _, rfl, hneeds.symm, ?_⟩
        · rw [hpresses]
          exact ⟨hobeyed.1, hobeyed.2⟩
        · rcases hpower with hpower | hpower <;> simp [hpower]
      · rintro e tv₂ ⟨_, hs, ⟨⟩, _⟩
    next hneeds =>
      have hpower : tv.power = wantOn := by simpa [needsPowerKey] using hneeds
      refine meets_pure.mpr ⟨?_, _, rfl, (Bool.not_eq_true _ ▸ hneeds).symm, hpower⟩
      rw [presses, if_neg hneeds]
      exact ⟨rfl, rfl⟩
  · rintro e tv₁ ⟨⟨conn, hs, ⟨⟩⟩, _⟩

/-- Once the power is the wanted one, the retries only see it. -/
theorem retryPowerOn_cooperative (hfuel : 2 * n + 1 < fuel) (hpower : tv.power = wantOn)
    (left : Nat) {attempt : PowerAttempt}
    (hresulting : attempt.resulting = wantOn) (changed : Bool) :
    Meets (Cooperates n der) (retryPowerOn fuel host port wantOn left attempt changed) tv
      (fun r tv' =>
      Obeyed tv [] tv' ∧ ∃ attempt, r = .ok (attempt, changed) ∧ attempt.resulting = wantOn) := by
  refine retryPowerOn_meets (I := fun _ attempt c tv' => Obeyed tv [] tv' ∧ attempt.resulting =
    wantOn ∧ c = changed) ?_ ?_ left
    ⟨⟨rfl, rfl⟩, hresulting, rfl⟩
  · rintro _ attempt _ tv' ⟨hobeyed, hresulting, rfl⟩ _
    exact ⟨hobeyed, attempt, rfl, hresulting⟩
  · rintro left attempt _ tv₁ tv₂ ⟨hobeyed, hresulting, rfl⟩ _ hslept
    obtain rfl := step_sleep hslept
    have hpower₁ : tv₁.power = wantOn := hobeyed.1.trans hpower
    refine (pressPowerOnce_cooperative hfuel).mono ?_
    rintro _ tv₂ ⟨hobeyed', next, rfl, hchanged, hresulting'⟩
    rw [hpower₁] at hobeyed' hchanged
    rw [presses_idle] at hobeyed'
    have hidle : needsPowerKey wantOn wantOn = false := by cases wantOn <;> rfl
    exact ⟨hobeyed.trans hobeyed', hresulting', by rw [hchanged, hidle, Bool.or_false]⟩

theorem setPower_cooperative (hfuel : 2 * n + 1 < fuel) :
    Meets (Cooperates n der) (setPower fuel host port wantOn) tv (fun r tv' =>
    Obeyed tv (presses wantOn tv.power) tv' ∧
      ∃ timestamp, r =
        .ok ⟨timestamp, host.text, powerStr wantOn, needsPowerKey tv.power wantOn, none⟩) := by
  refine (pressPowerOnce_cooperative hfuel).bind ?_ ?_
  · rintro attempt tv₁ ⟨hobeyed, _, ⟨⟩, hchanged, hresulting⟩
    refine (retryPowerOn_cooperative hfuel hobeyed.wanted _ hresulting _).bind ?_ ?_
    · rintro _ tv₂ ⟨hobeyed', attempt', ⟨rfl⟩, hresulting'⟩
      refine meets_request_bind.mpr ?_
      intro timestamp tv₃ hstep
      obtain rfl := step_timestamp hstep
      refine meets_pure.mpr ⟨?_, timestamp, ?_⟩
      · rw [← List.append_nil (presses wantOn tv.power)]
        exact hobeyed.trans hobeyed'
      · rw [hchanged, hresulting']
    · rintro e tv₂ ⟨_, _, ⟨⟩, _⟩
  · rintro e tv₁ ⟨_, _, ⟨⟩, _⟩

theorem setPowerWithWake_cooperative (hfuel : 2 * n + 1 < fuel) (mac : Option Mac) :
    Meets (Cooperates n der) (setPowerWithWake fuel host port wantOn mac) tv (fun r tv' =>
      Obeyed tv (presses wantOn tv.power) tv' ∧
        ∃ timestamp, r =
          .ok ⟨timestamp, host.text, powerStr wantOn, needsPowerKey tv.power wantOn, none⟩) := by
  refine Meets.bind (meets_resultOf (R := fun r tv' => Obeyed tv (presses wantOn tv.power) tv' ∧
    ∃ timestamp, r =
      .ok (.ok ⟨timestamp, host.text, powerStr wantOn, needsPowerKey tv.power wantOn, none⟩))
    ((setPower_cooperative hfuel).mono ?_)) ?_ ?_
  · rintro _ tv₁ ⟨hobeyed, timestamp, rfl⟩
    exact ⟨hobeyed, timestamp, rfl⟩
  · rintro _ tv₁ ⟨hobeyed, timestamp, ⟨rfl⟩⟩
    cases mac <;> exact meets_pure.mpr ⟨hobeyed, timestamp, rfl⟩
  · rintro e tv₁ ⟨_, timestamp, ⟨⟩⟩

/-- The messages of its own that a command has to send. -/
def acting (power : Bool) : SessionCommand → List RemoteMessage
  | .status => []
  | .on _ => presses true power
  | .off => presses false power
  | .key keys => keys.map keyMessage
  | .launch appLink => [appLinkMessage appLink]

/-- What a command has to report. -/
def Reports (host : IpAddr) (power : Bool) : SessionCommand → SessionOutput → Prop
  | .status, .status out => out.host = host.text ∧ out.power = powerStr power
  | .on _, .power out =>
      out.host = host.text ∧ out.power = "on" ∧ out.changed = !power ∧ out.wol = none
  | .off, .power out =>
      out.host = host.text ∧ out.power = "off" ∧ out.changed = power ∧ out.wol = none
  | .key keys, .keys out => out.host = host.text ∧ out.keys = keys.map keycodeName
  | .launch appLink, .launch out => out.host = host.text ∧ out.appLink = appLink
  | _, _ => False

def sets : SessionCommand → Option Bool
  | .on _ => some true
  | .off => some false
  | _ => none

/-- A command has done what it is for. -/
structure Succeeds (host : IpAddr) (command : SessionCommand) (tv : Television)
    (out : SessionOutput) (tv' : Television) : Prop where
  obeyed : Obeyed tv (acting tv.power command) tv'
  power : ∀ wantOn ∈ sets command, tv'.power = wantOn
  reports : Reports host tv.power command out

theorem status_cooperative (hfuel : n + 1 < fuel) :
    Meets (Cooperates n der) (status fuel host port) tv
    (fun r tv' => Obeyed tv [] tv' ∧ ∃ timestamp, r =
      .ok ⟨timestamp, host.text, powerStr tv.power⟩) := by
  refine (readPower_cooperative hfuel).bind ?_ ?_
  · rintro _ tv₁ ⟨⟨conn, hs, ⟨rfl⟩⟩, after, rfl, _, _⟩
    refine meets_request_bind.mpr ?_
    intro timestamp tv₂ hstep
    obtain rfl := step_timestamp hstep
    exact meets_pure.mpr ⟨⟨rfl, rfl⟩, timestamp, rfl⟩
  · rintro e tv₁ ⟨⟨conn, hs, ⟨⟩⟩, _⟩

/-- The end of `sendKeys` and of `sendAppLink`. -/
theorem settle_cooperative {α : Type} (f : String → α) : Meets (Cooperates n der) (do
    sleep sendSettle
    let timestamp ← timestamp
    pure (f timestamp) : Command SessionWire α) tv
      (fun r tv' => tv' = tv ∧ ∃ timestamp, r = .ok (f timestamp)) := by
  refine meets_request_bind.mpr ?_
  intro _ tv₁ hslept
  obtain rfl := step_sleep hslept
  refine meets_request_bind.mpr ?_
  intro timestamp tv₁ hstep
  obtain rfl := step_timestamp hstep
  exact meets_pure.mpr ⟨rfl, timestamp, rfl⟩

theorem sendKeys_cooperative (hfuel : n + 1 < fuel) (keys : List Int32) :
    Meets (Cooperates n der) (sendKeys fuel host port keys) tv
    (fun r tv' => Obeyed tv (keys.map keyMessage) tv' ∧ ∃ timestamp, r =
      .ok ⟨timestamp, host.text, keys.map keycodeName⟩) := by
  refine (readPower_cooperative hfuel).bind ?_ ?_
  · rintro _ tv₁ ⟨⟨conn, hs, ⟨rfl⟩⟩, after, rfl, _, _⟩
    refine meets_request_bind.mpr ?_
    intro _ tv₂ hslept
    obtain rfl := step_sleep hslept
    refine (sendPresses_cooperative keys 0).bind ?_ ?_
    · rintro _ tv₂ ⟨_, hobeyed⟩
      refine (settle_cooperative _).mono ?_
      rintro r tv₃ ⟨rfl, hr⟩
      exact ⟨hobeyed.inbox, hr⟩
    · rintro e tv₂ ⟨⟨⟩, _⟩
  · rintro e tv₁ ⟨⟨conn, hs, ⟨⟩⟩, _⟩

theorem sendAppLink_cooperative (hfuel : n + 1 < fuel) (appLink : String) :
    Meets (Cooperates n der) (sendAppLink fuel host port appLink) tv
      (fun r tv' => Obeyed tv [appLinkMessage appLink] tv' ∧ ∃ timestamp, r =
        .ok ⟨timestamp, host.text, appLink⟩) := by
  refine (readPower_cooperative hfuel).bind ?_ ?_
  · rintro _ tv₁ ⟨⟨conn, hs, ⟨rfl⟩⟩, after, rfl, _, _⟩
    refine meets_request_bind.mpr ?_
    intro _ tv₂ hslept
    obtain rfl := step_sleep hslept
    refine act_cooperative (m := appLinkMessage appLink) rfl ?_
    intro talk _
    refine (settle_cooperative _).mono ?_
    rintro r tv₃ ⟨rfl, hr⟩
    exact ⟨⟨rfl, rfl⟩, hr⟩
  · rintro e tv₁ ⟨⟨conn, hs, ⟨⟩⟩, _⟩

/-- Whatever the television talks besides, every command comes to its end and
does what it is for. -/
theorem session_cooperative (hfuel : 2 * n + 1 < fuel) (command : SessionCommand) :
    Meets (Cooperates n der) (command.run fuel host port) tv
      (fun r tv' => ∃ out, r = .ok out ∧ Succeeds host command tv out tv') := by
  have hrounds : n + 1 < fuel := by omega
  cases command with
  | status =>
      refine (status_cooperative hrounds).bind ?_ ?_
      · rintro _ tv₁ ⟨hobeyed, timestamp, ⟨rfl⟩⟩
        exact meets_pure.mpr ⟨_, rfl, hobeyed, by simp [sets], rfl, rfl⟩
      · rintro e tv₁ ⟨_, timestamp, ⟨⟩⟩
  | on mac =>
      refine (setPowerWithWake_cooperative hfuel mac).bind ?_ ?_
      · rintro _ tv₁ ⟨hobeyed, timestamp, ⟨rfl⟩⟩
        refine meets_pure.mpr ⟨_, rfl, hobeyed, ?_, rfl, rfl, ?_, rfl⟩
        · rintro _ ⟨rfl⟩
          exact hobeyed.wanted
        · simp [needsPowerKey]
      · rintro e tv₁ ⟨_, timestamp, ⟨⟩⟩
  | off =>
      refine (setPower_cooperative hfuel).bind ?_ ?_
      · rintro _ tv₁ ⟨hobeyed, timestamp, ⟨rfl⟩⟩
        refine meets_pure.mpr ⟨_, rfl, hobeyed, ?_, rfl, rfl, ?_, rfl⟩
        · rintro _ ⟨rfl⟩
          exact hobeyed.wanted
        · simp [needsPowerKey]
      · rintro e tv₁ ⟨_, timestamp, ⟨⟩⟩
  | key keys =>
      refine (sendKeys_cooperative hrounds keys).bind ?_ ?_
      · rintro _ tv₁ ⟨hobeyed, timestamp, ⟨rfl⟩⟩
        exact meets_pure.mpr ⟨_, rfl, hobeyed, by simp [sets], rfl, rfl⟩
      · rintro e tv₁ ⟨_, timestamp, ⟨⟩⟩
  | launch appLink =>
      refine (sendAppLink_cooperative hrounds appLink).bind ?_ ?_
      · rintro _ tv₁ ⟨hobeyed, timestamp, ⟨rfl⟩⟩
        exact meets_pure.mpr ⟨_, rfl, hobeyed, by simp [sets], rfl, rfl⟩
      · rintro e tv₁ ⟨_, timestamp, ⟨⟩⟩

end AtvRemote.Cooperation
