import AtvRemote.PowerEffects
import AtvRemote.Scripts

namespace AtvRemote.PowerSafety

open Programs Contracts CommandRules CredentialRules Errors Messages SystemCalls Handshake
  Session SessionRules
  PowerEffects Scripts

/-- A power key as it reached the TV: the power at that moment, and whether
the TV followed it. -/
structure Receipt where
  power : Bool
  applied : Bool
  deriving DecidableEq, Repr

structure Tv where
  power : Bool
  announced : Bool := false
  received : List Receipt := []
  deriving DecidableEq, Repr

def Tv.receive (tv : Tv) (applied : Bool) : Tv :=
  { tv with
    power := if applied then !tv.power else tv.power
    received := ⟨tv.power, applied⟩ :: tv.received }

/-- How the TV takes part in an event; `none` is an event it never takes part
in. The first start on a connection is true, later ones may be anything. -/
def Tv.react (tv : Tv) (applied : Bool) : SessionEvent → Option Tv
  | ⟨.host (.connectTimeout _ _), .ok _⟩ => some { tv with announced := false }
  | ⟨.wire _ .recv, .ok m⟩ => match kind m with
      | .start b =>
          if tv.announced || b == tv.power then some { tv with announced := true } else none
      | _ => some tv
  | ⟨.wire _ (.send m), _⟩ => if carriesPowerKey m then some (tv.receive applied) else some tv
  | _ => some tv

def TvStep (tv : Tv) (e : SessionEvent) (tv' : Tv) : Prop :=
  ∃ applied, tv.react applied e = some tv'

def powerKeySent : SessionEvent → Bool
  | ⟨.wire _ (.send m), _⟩ => carriesPowerKey m
  | _ => false

def Same (tv tv' : Tv) : Prop := tv'.power = tv.power ∧ tv'.received = tv.received

theorem Same.trans {tv tv' tv'' : Tv} (h : Same tv tv') (h' : Same tv' tv'') : Same tv tv'' :=
  ⟨h'.1.trans h.1, h'.2.trans h.2⟩

theorem step_local {tv tv' : Tv} {e : SessionEvent} (he : Local e) (h : TvStep tv e tv') :
    tv' = tv := by
  obtain ⟨o, x⟩ := e
  obtain ⟨applied, h⟩ := h
  cases o with
  | wire => exact he.elim
  | host o =>
      cases o with
      | connectTimeout | udpSendTo | sleep => exact he.elim
      | _ => exact (Option.some.inj h).symm

theorem step_recv {tv tv' : Tv} {conn : Conn} {m : RemoteMessage}
    (h : TvStep tv ⟨.wire conn .recv, .ok m⟩ tv') :
    Same tv tv' ∧ (tv' = tv ∧ (∀ p, hear p (kind m) = p) ∨
      ∃ b, kind m = .start b ∧ (tv.announced = false → b = tv.power)) := by
  obtain ⟨applied, h⟩ := h
  simp only [Tv.react] at h
  cases hk : kind m with
  | start b =>
      rw [hk] at h
      dsimp only at h
      split at h
      next htrue =>
        obtain rfl := Option.some.inj h
        refine ⟨⟨rfl, rfl⟩, .inr ⟨b, rfl, fun hnew => ?_⟩⟩
        rw [hnew, Bool.false_or] at htrue
        exact eq_of_beq htrue
      next => cases h
  | _ =>
      rw [hk] at h
      obtain rfl := Option.some.inj h
      exact ⟨⟨rfl, rfl⟩, .inl ⟨rfl, fun _ => rfl⟩⟩

theorem step_reply {tv tv' : Tv} {conn : Conn} {active : Int32} {k : Kind} {r : RemoteMessage}
    {x : Except IoError Unit} (hr : reply active k = some r)
    (h : TvStep tv ⟨.wire conn (.send r), x⟩ tv') : tv' = tv := by
  obtain ⟨applied, h⟩ := h
  simp only [Tv.react, carriesPowerKey_reply hr] at h
  exact (Option.some.inj h).symm

variable {fuel : Nat} {host : IpAddr} {port : UInt16} {wantOn : Bool}

def Announced (tv : Tv) (hs : SessionHandshake) (tv' : Tv) : Prop :=
  Same tv tv' ∧ (hs.power = none → tv'.announced = false) ∧ ∀ power, hs.power = some power →
    power = tv.power

theorem announced_recv {tv tv' tv'' : Tv} {hs : SessionHandshake} {conn : Conn} {m : RemoteMessage}
    (h : Announced tv hs tv') (hp : hs.power = none)
    (hstep : TvStep tv' ⟨.wire conn .recv, .ok m⟩ tv'') :
    Announced tv (next hs (kind m)) tv'' := by
  obtain ⟨hsame, hnew, _⟩ := h
  obtain ⟨hsame', ⟨rfl, hquiet⟩ | ⟨b, hk, htrue⟩⟩ := step_recv hstep
  · have hnext : (next hs (kind m)).power = none := (hquiet hs.power).trans hp
    refine ⟨hsame, fun _ => hnew hp, fun power hpower => ?_⟩
    rw [hnext] at hpower
    cases hpower
  · have hnext : (next hs (kind m)).power = some b := by rw [hk]; rfl
    refine ⟨hsame.trans hsame', fun hnone => ?_, fun power hpower => ?_⟩
    · rw [hnext] at hnone
      cases hnone
    · rw [hnext] at hpower
      obtain rfl := Option.some.inj hpower
      exact (htrue (hnew hp)).trans hsame.1

/-- The power that `readPower` returns is the actual one. -/
theorem readPower_announced (tv : Tv) : Meets TvStep (readPower fuel host port) tv
    (fun r tv' => Same tv tv' ∧ ∀ power conn hs, r = .ok (power, conn, hs) → power = tv.power) := by
  refine readPower_meets (P := Same tv) (C := fun tv' => Same tv tv' ∧ tv'.announced = false)
    (I := fun _ hs _ tv' => Announced tv hs tv') ⟨?_, ?_, ?_, ?_, ?_, ?_, ?_⟩ fuel ⟨rfl, rfl⟩
  · intro tv' e tv'' h he hstep
    rwa [step_local he hstep]
  · intro tv' e tv'' h he hstep
    rwa [step_local he hstep]
  · rintro tv' timeout e tv'' h ⟨applied, ⟨⟩⟩
    exact h
  · rintro tv' timeout sock tv'' h ⟨applied, ⟨⟩⟩
    exact ⟨h, rfl⟩
  · rintro tv' stop (h | ⟨h, _⟩)
    · exact ⟨h, nofun⟩
    · exact ⟨h, nofun⟩
  · rintro conn tv' ⟨h, hnew⟩
    exact ⟨h, fun _ => hnew, nofun⟩
  · intro conn
    refine ⟨?_, ?_, ?_, ?_, ?_, ?_, ?_⟩
    · rintro hs any tv' ⟨h, _⟩
      exact ⟨h, nofun⟩
    · rintro hs any tv' ⟨h, _, htrue⟩ hsome power hp
      refine ⟨h, ?_⟩
      rintro power' conn' hs' ⟨rfl⟩
      exact htrue _ hp
    · rintro hs any tv' e tv'' ⟨h, _⟩ hp ⟨applied, ⟨⟩⟩
      exact ⟨h, nofun⟩
    · intro hs any tv' m tv'' h hp hstep hk
      exact ⟨h.1.trans (step_recv hstep).1, nofun⟩
    · intro hs any tv' m tv'' h hp hstep hk hr
      exact announced_recv h hp hstep
    · intro hs any tv' m tv'' r tv₃ h hp hstep hr hreply
      rw [step_reply hr hreply]
      exact announced_recv h hp hstep
    · intro hs any tv' m tv'' r e tv₃ h hp hstep hr hreply
      rw [step_reply hr hreply]
      exact ⟨h.1.trans (step_recv hstep).1, nofun⟩

theorem confirmLoop_same {conn : Conn} {deadline : Instant} (hs : SessionHandshake) (tv : Tv) :
    Meets TvStep (confirmLoop conn wantOn deadline fuel hs) tv (fun _ tv' => Same tv tv') := by
  refine confirmLoop_meets (I := fun _ tv' => Same tv tv') ⟨?_, ?_, ?_, ?_, ?_, ?_⟩ fuel ⟨rfl, rfl⟩
  · exact fun hs tv' h => h
  · rintro hs tv' now tv'' h ⟨applied, ⟨⟩⟩
    exact h
  · exact fun hs tv' h => h
  · rintro hs tv' e tv'' h ⟨applied, ⟨⟩⟩
    exact h
  · intro hs tv' m tv'' h hstep
    exact h.trans (step_recv hstep).1
  · intro hs tv' k r x tv'' h hr hstep
    rwa [step_reply hr hstep]

/-- An attempt leaves the TV alone, or it sends one key while the power is not
the wanted one. -/
theorem pressPowerOnce_same_or_receive (tv : Tv) :
    Meets TvStep (pressPowerOnce fuel host port wantOn) tv (fun r tv' =>
      (Same tv tv' ∧ ∀ attempt, r = .ok attempt → attempt.changed = false) ∨
        tv.power ≠ wantOn ∧ ∃ applied, Same (tv.receive applied) tv') := by
  refine (readPower_announced tv).bind ?_ ?_
  · rintro ⟨current, conn, hs⟩ tv' ⟨hsame, htrue⟩
    obtain rfl := htrue current conn hs rfl
    dsimp only
    split
    next hneeds =>
      have hne : tv.power ≠ wantOn := by simpa [needsPowerKey] using hneeds
      refine meets_request_bind.mpr fun _ tv₁ hgrace => meets_request_bind.mpr fun x tv₂ hkey => ?_
      have hreceive : ∃ applied, Same (tv.receive applied) tv₂ := by
        obtain ⟨_, ⟨⟩⟩ := hgrace
        obtain ⟨applied, ⟨⟩⟩ := hkey
        refine ⟨applied, ?_⟩
        obtain ⟨hpower, hreceived⟩ := hsame
        simp only [Same, Tv.receive, hpower, hreceived, and_self]
      refine meets_orRaise_bind.mpr ⟨fun _ _ => ?_, fun e _ => .inr ⟨hne, hreceive⟩⟩
      refine meets_request_bind.mpr fun _ tv₃ htimeout => meets_request_bind.mpr fun now tv₄ hnow =>
        ?_
      obtain ⟨_, ⟨⟩⟩ := htimeout
      obtain ⟨_, ⟨⟩⟩ := hnow
      obtain ⟨applied, hreceive⟩ := hreceive
      refine (confirmLoop_same _ tv₂).bind ?_ ?_
      · intro hs tv₅ hsame'
        exact meets_pure.mpr (.inr ⟨hne, applied, hreceive.trans hsame'⟩)
      · intro e tv₅ hsame'
        exact .inr ⟨hne, applied, hreceive.trans hsame'⟩
    next hneeds =>
      refine meets_pure.mpr (.inl ⟨hsame, ?_⟩)
      rintro _ ⟨rfl⟩
      rfl
  · intro e tv' h
    exact .inl ⟨h.1, nofun⟩

/-- The power was never the wanted one when a key came in, so at most one key
was followed and it led to the wanted power. -/
structure Safe (initial wantOn : Bool) (tv : Tv) : Prop where
  useful : ∀ k ∈ tv.received, k.power ≠ wantOn
  once : tv.received.countP Receipt.applied ≤ 1
  power : tv.power = if initial = wantOn ∨ tv.received.any Receipt.applied then wantOn else initial

theorem Safe.same {initial : Bool} {tv tv' : Tv} (h : Safe initial wantOn tv)
    (hsame : Same tv tv') :
    Safe initial wantOn tv' := by
  obtain ⟨hpower, hreceived⟩ := hsame
  refine ⟨?_, ?_, ?_⟩
  · rw [hreceived]
    exact h.useful
  · rw [hreceived]
    exact h.once
  · rw [hreceived, hpower]
    exact h.power

theorem Safe.receive {initial : Bool} {tv : Tv} (h : Safe initial wantOn tv)
    (hne : tv.power ≠ wantOn)
    (applied : Bool) : Safe initial wantOn (tv.receive applied) := by
  have hunused : ¬(initial = wantOn ∨ tv.received.any Receipt.applied = true) := by
    intro hused
    exact hne (h.power.trans (if_pos hused))
  have hinitial : tv.power = initial := h.power.trans (if_neg hunused)
  obtain ⟨hne', hany⟩ := not_or.mp hunused
  have hnone : tv.received.countP Receipt.applied = 0 := by
    refine List.countP_eq_zero.mpr fun k hk happlied => hany ?_
    exact List.any_eq_true.mpr ⟨k, hk, happlied⟩
  refine ⟨?_, ?_, ?_⟩
  · intro k hk
    rcases List.mem_cons.mp hk with rfl | hk
    · exact hne
    · exact h.useful k hk
  · have hcount : (tv.receive applied).received.countP Receipt.applied ≤
        tv.received.countP Receipt.applied + 1 := by
      simp only [Tv.receive, List.countP_cons]
      split <;> omega
    omega
  · have hbool : tv.received.any Receipt.applied = false := by simpa using hany
    cases applied with
    | true =>
        have hflip : (!initial) = wantOn := by cases initial <;> cases wantOn <;> simp_all
        simp [Tv.receive, hinitial, hflip]
    | false => simp [Tv.receive, hinitial, hne', hbool]

theorem pressPowerOnce_safe {initial : Bool} {tv : Tv} (h : Safe initial wantOn tv) :
    Meets TvStep (pressPowerOnce fuel host port wantOn) tv
      (fun _ tv' => Safe initial wantOn tv') := by
  refine (pressPowerOnce_same_or_receive tv).mono ?_
  rintro r tv' (⟨hsame, _⟩ | ⟨hne, applied, hreceive⟩)
  · exact h.same hsame
  · exact (h.receive hne applied).same hreceive

theorem setPower_keeps {J : Tv → Prop} {D : Bool → Prop} (hor : ∀ a b, D a → D b → D (a || b))
    (hpress : ∀ tv, J tv → Meets TvStep (pressPowerOnce fuel host port wantOn) tv
      (fun r tv' => J tv' ∧ ∀ attempt, r = .ok attempt → D attempt.changed))
    {tv : Tv} (h : J tv) : Meets TvStep (setPower fuel host port wantOn) tv
      (fun r tv' => J tv' ∧ ∀ out, r = .ok out → D out.changed) := by
  refine (hpress tv h).bind ?_ (fun e tv' h => ⟨h.1, nofun⟩)
  rintro attempt tv' ⟨hJ, hD⟩
  refine Meets.bind (P := fun r tv' => J tv' ∧ ∀ attempt changed, r = .ok (attempt, changed) →
    D changed)
    (retryPowerOn_meets (I := fun _ _ changed tv' => J tv' ∧ D changed) ?_ ?_ _
      ⟨hJ, hD attempt rfl⟩) ?_ (fun e tv' h => ⟨h.1, nofun⟩)
  · rintro left attempt changed tv' ⟨hJ, hD⟩ _
    refine ⟨hJ, ?_⟩
    rintro _ _ ⟨rfl⟩
    exact hD
  · rintro left attempt changed tv₁ tv₂ ⟨hJ, hD⟩ _ ⟨_, ⟨⟩⟩
    refine (hpress tv₁ hJ).mono ?_
    rintro ((e | _ | _) | next) tv₃ ⟨hJ', hD'⟩
    · refine ⟨hJ', ?_⟩
      rintro _ _ ⟨rfl⟩
      exact hD
    · exact ⟨hJ', nofun⟩
    · exact ⟨hJ', nofun⟩
    · exact ⟨hJ', hor _ _ hD (hD' next rfl)⟩
  · rintro ⟨attempt, changed⟩ tv₁ ⟨hJ, hD⟩
    refine meets_request_bind.mpr fun text tv₂ hstep => meets_pure.mpr ?_
    obtain ⟨_, ⟨⟩⟩ := hstep
    refine ⟨hJ, ?_⟩
    rintro _ ⟨rfl⟩
    exact hD attempt changed rfl

theorem setPower_safe {initial : Bool} {tv : Tv} (h : Safe initial wantOn tv) :
    Meets TvStep (setPower fuel host port wantOn) tv (fun _ tv' => Safe initial wantOn tv') := by
  refine (setPower_keeps (J := Safe initial wantOn) (D := fun _ => True)
    (fun _ _ _ _ => trivial) ?_ h).mono
    fun r tv' h => h.1
  intro tv h
  exact (pressPowerOnce_safe h).mono fun r tv' h => ⟨h, fun _ _ => trivial⟩

theorem setPower_idle {tv : Tv} (h : tv.power = wantOn) :
    Meets TvStep (setPower fuel host port wantOn) tv
      (fun r tv' => Same tv tv' ∧ ∀ out, r = .ok out → out.changed = false) := by
  refine setPower_keeps (J := Same tv) (D := fun changed => changed = false) ?_ ?_ ⟨rfl, rfl⟩
  · rintro _ _ rfl rfl
    rfl
  · intro tv₁ hsame
    refine (pressPowerOnce_same_or_receive tv₁).mono ?_
    rintro r tv₂ (⟨hsame', hchanged⟩ | ⟨hne, _⟩)
    · exact ⟨hsame.trans hsame', hchanged⟩
    · exact absurd (hsame.1.trans h) hne

theorem received_length {tv tv' : Tv} {t : Trace (System SessionWire)} (h : Path TvStep tv t tv') :
    tv'.received.length = tv.received.length + t.countP powerKeySent := by
  induction h with
  | nil => rfl
  | @cons tv tv₁ tv₂ e t hstep _ ih =>
      obtain ⟨applied, hreact⟩ := hstep
      have hone : tv₁.received.length = tv.received.length + (if powerKeySent e then 1 else 0) := by
        obtain ⟨o, x⟩ := e
        cases o with
        | wire conn w =>
            cases w with
            | recv =>
                cases x with
                | error e =>
                    obtain rfl := Option.some.inj hreact
                    rfl
                | ok m =>
                    rw [(step_recv ⟨applied, hreact⟩).1.2]
                    rfl
            | send m =>
                simp only [Tv.react] at hreact
                split at hreact
                next hkey =>
                  obtain rfl := Option.some.inj hreact
                  simp [Tv.receive, powerKeySent, hkey]
                next hkey =>
                  obtain rfl := Option.some.inj hreact
                  simp [powerKeySent, hkey]
        | host o =>
            cases o with
            | connectTimeout =>
                cases x <;> obtain rfl := Option.some.inj hreact <;> rfl
            | _ =>
                obtain rfl := Option.some.inj hreact
                rfl
      rw [ih, hone, List.countP_cons]
      omega

/-- No power key is sent to a TV in the wanted state; at most one is followed,
and then the power is the wanted one; a second run changes nothing. -/
theorem setPower_never_leaves_wanted {t : Trace (System SessionWire)} {r : Except Stop PowerOutput}
    {tv tv' : Tv} (hrun : Run (setPower fuel host port wantOn) t r) (hpath : Path TvStep tv t tv')
    (hfresh : tv.received = []) :
    (∀ k ∈ tv'.received, k.power ≠ wantOn) ∧
      tv'.received.length = t.countP powerKeySent ∧
      tv'.received.countP Receipt.applied ≤ 1 ∧
      tv'.power = (if tv.power = wantOn ∨ tv'.received.any Receipt.applied then wantOn
        else tv.power) ∧
      (tv'.power = wantOn → ∀ fuel host port u s tv'', Run (setPower fuel host port wantOn) u s →
        Path TvStep tv' u tv'' → u.countP powerKeySent = 0 ∧ ∀ out, s = .ok out →
          out.changed = false) := by
  have hinit : Safe tv.power wantOn tv := by
    refine ⟨?_, ?_, ?_⟩ <;> simp [hfresh]
  have hsafe := setPower_safe hinit t r hrun tv' hpath
  refine ⟨hsafe.useful, ?_, hsafe.once, hsafe.power, ?_⟩
  · have hlength := received_length hpath
    rw [hfresh] at hlength
    simpa using hlength
  · intro hwanted fuel host port u s tv'' hrun' hpath'
    obtain ⟨⟨_, hreceived⟩, hchanged⟩ := setPower_idle hwanted u s hrun' tv'' hpath'
    have hlength := received_length hpath'
    rw [hreceived] at hlength
    exact ⟨by omega, hchanged⟩

def obeys : Script RemoteMessage := { connects := [.ok 1], inbox := [started false, started true] }

def standby : Tv := { power := false }

def turnedOn : Tv := { power := true, announced := true, received := [⟨false, true⟩] }

theorem setPower_never_leaves_wanted_obeys :
    let t := (obeys.play (setPower 9 livingRoom 6466 true)).1
    (∀ k ∈ turnedOn.received, k.power ≠ true) ∧
      turnedOn.received.length = t.countP powerKeySent ∧
      turnedOn.received.countP Receipt.applied ≤ 1 ∧
      turnedOn.power =
        (if standby.power = true ∨ turnedOn.received.any Receipt.applied then true
          else standby.power) ∧
      (turnedOn.power = true → ∀ fuel host port u s tv'', Run (setPower fuel host port true) u s →
        Path TvStep turnedOn u tv'' → u.countP powerKeySent = 0 ∧ ∀ out, s = .ok out →
          out.changed = false) := by
  refine setPower_never_leaves_wanted (obeys.run_play (setPower 9 livingRoom 6466 true)) ?_ rfl
  exact (path_foldlM.mpr rfl : Path (fun tv e tv' => tv.react true e = some tv') _ _ _).mono
    fun _ _ _ h => ⟨true, h⟩

end AtvRemote.PowerSafety
