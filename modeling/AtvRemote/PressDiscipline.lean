import AtvRemote.PowerReport
import AtvRemote.PowerSafety
import AtvRemote.WakeEffects
import AtvRemote.Histories

namespace AtvRemote.PressDiscipline

open Programs Contracts Histories CommandRules CredentialRules Errors Messages SystemCalls
  Credentials Handshake
  Session Wake SessionRules PowerEffects PowerSafety PowerReport WakeEffects Scripts

def Opens : SessionEvent → Prop
  | ⟨.host (.connectTimeout _ _), _⟩ => True
  | _ => False

/-- Every attempt begins with the first lookup of the credential directory. -/
def Begins : SessionEvent → Prop
  | ⟨.host (.varOs name), _⟩ => name = "ATV_CONFIG_DIR"
  | _ => False

def startOn (conn : Conn) : SessionEvent → Option Bool
  | ⟨.wire c .recv, .ok m⟩ => if c = conn then hear none (kind m) else none
  | _ => none

/-- The connection was opened last, the first effective start on it was as
given, and no power key has been sent since. -/
def Announced (conn : Conn) (power : Option Bool) (u : Trace (System SessionWire)) : Prop :=
  ∃ addr timeout z, Since Opens u ⟨.host (.connectTimeout addr timeout), .ok conn.sock⟩ z ∧
    (z.filterMap (startOn conn)).head? = power ∧ z.any powerKeySent = false

/-- The latest attempt has written a power key. -/
def Pressed (u : Trace (System SessionWire)) : Prop :=
  ∃ e z, Since Begins u e z ∧ z.any keyWritten = true

/-- A magic packet has been sent since the latest attempt. -/
def Woken (u : Trace (System SessionWire)) : Prop := ∃ e z, Since Begins u e z ∧ packets z ≠ []

/-- What a client with press discipline may do after a history: send a power
key, or begin an attempt. -/
def Allowed (wantOn : Bool) (u : Trace (System SessionWire)) : SessionEvent → Prop
  | ⟨.wire conn (.send m), _⟩ => carriesPowerKey m = true → Announced conn (some !wantOn) u
  | ⟨.host (.varOs name), _⟩ => name = "ATV_CONFIG_DIR" →
      (∀ e ∈ u, startOf e ≠ some wantOn) ∧ (u = [] ∨ Pressed u ∨ Woken u)
  | _ => True

theorem allowed_of {wantOn : Bool} {u : Trace (System SessionWire)} {e : SessionEvent}
    (hsent : powerKeySent e = false) (hbegins : ¬Begins e) : Allowed wantOn u e := by
  obtain ⟨o, x⟩ := e
  rcases o with ⟨conn, _ | m⟩ | o
  · trivial
  · intro hkey
    exact absurd (hsent.symm.trans hkey) Bool.false_ne_true
  · cases o with
    | varOs name => exact fun hname => absurd hname hbegins
    | _ => trivial

/-- An event that neither sends a power key, nor begins an attempt, nor brings
a start. -/
structure Aside (e : SessionEvent) : Prop where
  sent : powerKeySent e = false
  begins : ¬Begins e
  start : startOf e = none

theorem aside_local {e : SessionEvent} (h : Local e) (hbegins : ¬Begins e) : Aside e := by
  obtain ⟨o, x⟩ := e
  cases o with
  | wire => exact h.elim
  | host o => exact ⟨rfl, hbegins, rfl⟩

theorem aside_reply {conn : Conn} {active : Int32} {k : Kind} {r : RemoteMessage}
    (hr : reply active k = some r)
    (x : Except IoError Unit) : Aside ⟨.wire conn (.send r), x⟩ :=
  ⟨carriesPowerKey_reply hr, id, rfl⟩

theorem aside_wait {e : SessionEvent} (h : WaitEvent e) : Aside e := by
  obtain ⟨o, x⟩ := e
  cases o with
  | wire => exact h.elim
  | host o =>
      cases o with
      | now | connectTimeout | sleep => exact ⟨rfl, id, rfl⟩
      | _ => exact h.elim

theorem startOn_of_startOf {e : SessionEvent} (h : startOf e = none) (conn : Conn) :
    startOn conn e = none := by
  obtain ⟨o, x⟩ := e
  rcases o with ⟨c, _ | m⟩ | o
  · cases x with
    | error e => rfl
    | ok m =>
        have hm : hear none (kind m) = none := h
        simp [startOn, hm]
  · rfl
  · rfl

theorem any_concat {p : SessionEvent → Bool} {z : Trace (System SessionWire)} {e : SessionEvent} :
    (z ++ [e]).any p = (z.any p || p e) := by
  simp

theorem Announced.concat {conn : Conn} {power : Option Bool} {u : Trace (System SessionWire)}
    {e : SessionEvent}
    (h : Announced conn power u) (hopens : ¬Opens e) (he : Aside e) :
    Announced conn power (u ++ [e]) := by
  obtain ⟨addr, timeout, z, hsince, hstarts, hkeys⟩ := h
  refine ⟨addr, timeout, z ++ [e], hsince.concat hopens, ?_, ?_⟩
  · rw [List.filterMap_append, List.filterMap_cons, startOn_of_startOf he.start, List.filterMap_nil,
      List.append_nil]
    exact hstarts
  · rw [any_concat, hkeys, he.sent, Bool.or_self]

theorem Announced.hear {conn : Conn} {u : Trace (System SessionWire)} (h : Announced conn none u)
    (m : RemoteMessage) :
    Announced conn (hear none (kind m)) (u ++ [⟨.wire conn .recv, .ok m⟩]) := by
  obtain ⟨addr, timeout, z, hsince, hstarts, hkeys⟩ := h
  refine ⟨addr, timeout, z ++ [_], hsince.concat id, ?_, ?_⟩
  · rw [List.filterMap_append, List.head?_eq_none_iff.mp hstarts, List.nil_append]
    have hstart : startOn conn ⟨.wire conn .recv, .ok m⟩ = Handshake.hear none (kind m) :=
      if_pos rfl
    rw [List.filterMap_cons, hstart]
    cases Handshake.hear none (kind m) <;> rfl
  · rw [any_concat, hkeys]
    rfl

theorem Pressed.concat {u : Trace (System SessionWire)} {e : SessionEvent} (h : Pressed u)
    (he : ¬Begins e) :
    Pressed (u ++ [e]) := by
  obtain ⟨b, z, hsince, hkey⟩ := h
  exact ⟨b, z ++ [e], hsince.concat he, by rw [any_concat, hkey, Bool.true_or]⟩

/-- A history with press discipline, at most so many power keys and no start
that announced the state wanted, unless it is the one that is known. -/
structure Disciplined (wantOn : Bool) (n : Nat) (power : Option Bool)
    (u : Trace (System SessionWire)) : Prop where
  allowed : Along (Allowed wantOn) u
  count : u.countP powerKeySent ≤ n
  heard : ∀ e ∈ u, startOf e = some wantOn → power = some wantOn

section Disciplined

variable {wantOn : Bool} {n : Nat} {power : Option Bool} {u : Trace (System SessionWire)}
  {e : SessionEvent}

/-- An event without a start leaves what was heard as it is. -/
theorem Disciplined.heard_concat (h : Disciplined wantOn n power u) (he : startOf e = none) :
    ∀ e' ∈ u ++ [e], startOf e' = some wantOn → power = some wantOn := by
  intro e' hmem hstart
  rcases List.mem_append.mp hmem with hmem | hmem
  · exact h.heard e' hmem hstart
  · obtain rfl := List.mem_singleton.mp hmem
    rw [he] at hstart
    cases hstart

theorem Disciplined.concat (h : Disciplined wantOn n power u) (he : Aside e) :
    Disciplined wantOn n power (u ++ [e]) := by
  refine ⟨h.allowed.concat (allowed_of he.sent he.begins), ?_, h.heard_concat he.start⟩
  rw [List.countP_append, List.countP_singleton, he.sent]
  exact h.count

theorem Disciplined.hear (h : Disciplined wantOn n power u)
    (hpower : power ≠ some wantOn) (conn : Conn)
    (m : RemoteMessage) :
    Disciplined wantOn n (hear power (kind m)) (u ++ [⟨.wire conn .recv, .ok m⟩]) := by
  refine ⟨h.allowed.concat trivial, ?_, ?_⟩
  · rw [List.countP_append, List.countP_singleton]
    exact h.count
  · intro e' hmem hstart
    rcases List.mem_append.mp hmem with hmem | hmem
    · exact absurd (h.heard e' hmem hstart) hpower
    · obtain rfl := List.mem_singleton.mp hmem
      have hm : Handshake.hear none (kind m) = some wantOn := hstart
      rw [hear_or, hm, Option.some_or]

theorem Disciplined.unheard (h : Disciplined wantOn n power u) (hpower : power ≠ some wantOn) :
    Disciplined wantOn n none u :=
  ⟨h.allowed, h.count, fun e he hstart => absurd (h.heard e he hstart) hpower⟩

theorem Disciplined.mono {n' : Nat} (h : Disciplined wantOn n power u) (hn : n ≤ n') :
    Disciplined wantOn n' power u :=
  ⟨h.allowed, Nat.le_trans h.count hn, h.heard⟩

theorem Disciplined.begin (h : Disciplined wantOn n none u) (hdue : u = [] ∨ Pressed u ∨ Woken u)
    (x : Option String) :
    Disciplined wantOn n none (u ++ [⟨.host (.varOs "ATV_CONFIG_DIR"), x⟩]) := by
  have hunheard : ∀ e ∈ u, startOf e ≠ some wantOn := fun e he hstart => nomatch h.heard e he hstart
  refine ⟨h.allowed.concat fun _ => ⟨hunheard, hdue⟩, ?_, h.heard_concat rfl⟩
  rw [List.countP_append, List.countP_singleton]
  exact h.count

theorem Disciplined.press (h : Disciplined wantOn n none u) {conn : Conn}
    (hconn : Announced conn (some !wantOn) u)
    (x : Except IoError Unit) :
    Disciplined wantOn (n + 1) none (u ++ [⟨.wire conn (.send powerKeyMessage), x⟩]) := by
  refine ⟨h.allowed.concat fun _ => hconn, ?_, h.heard_concat rfl⟩
  rw [List.countP_append, List.countP_singleton]
  have hcount := h.count
  split <;> omega

end Disciplined

section Opening

variable {σ : Type} {step : σ → SessionEvent → σ → Prop} {host : IpAddr} {port : UInt16}
  {P B : σ → Prop}
  {C : Conn → σ → Prop} {s : σ}

/-- What has to be shown of the way to an open connection: `P` before it, `B`
from its first event on, `C` of the connection once it is open. -/
structure Beginning (step : σ → SessionEvent → σ → Prop) (host : IpAddr) (port : UInt16)
    (P B : σ → Prop)
    (C : Conn → σ → Prop) : Prop where
  begins : ∀ s x s', P s → step s ⟨.host (.varOs "ATV_CONFIG_DIR"), x⟩ s' → B s'
  before : ∀ s e s', B s → Local e ∧ ¬Begins e → step s e s' → B s'
  refused :
    ∀ s e s', B s → step s ⟨.host (.connectTimeout ⟨host, port⟩ (fromSecs 5)), .error e⟩ s' → B s'
  opened : ∀ s sock s', B s → step s ⟨.host (.connectTimeout ⟨host, port⟩ (fromSecs 5)), .ok sock⟩
    s' → C ⟨sock⟩ s'
  after : ∀ conn s e s', C conn s → Local e ∧ ¬Begins e → step s e s' → C conn s'
  lost : ∀ conn s, C conn s → B s

theorem fromCredentialDir_aside (dir : String) :
    Throughout (fun e => Local e ∧ ¬Begins e)
      (TlsClient.fromCredentialDir dir : Command SessionWire TlsClient) := by
  have hfiles (cert key : String) :
      Throughout (fun e => Local e ∧ ¬Begins e) (bothFiles cert key : Command SessionWire Bool) :=
    throughout_request_bind.mpr fun found =>
      ⟨⟨trivial, id⟩, by cases found <;> simp [ask, request, Local, Begins]⟩
  have hpaired : Throughout (fun e => Local e ∧ ¬Begins e)
      (ensurePaired dir : Command SessionWire Unit) :=
    (hfiles _ _).bind fun found => by cases found <;> simp
  apply hpaired.bind
  intro _
  simp [ask, request, Local, Begins]

theorem connect_begins (hC : Beginning step host port P B C) (tls : TlsClient) (h : B s) :
    Meets step (tls.connect host port (fromSecs 5)) s (fun r s' => match r with
      | .ok conn => C conn s'
      | .error _ => B s') := by
  refine meets_request_bind.mpr fun x s₁ hs₁ => meets_orRaise_bind.mpr ⟨?_, ?_⟩
  · rintro sock rfl
    have h₁ := hC.opened s sock s₁ h hs₁
    have hafter {s s' : σ} {e : SessionEvent} (hs : C ⟨sock⟩ s) (hstep : step s e s')
        (he : Local e ∧ ¬Begins e) :
        C ⟨sock⟩ s' := hC.after ⟨sock⟩ s e s' hs he hstep
    refine meets_request_bind.mpr fun x₂ s₂ hs₂ => ?_
    have h₂ := hafter h₁ hs₂ ⟨trivial, id⟩
    refine meets_orRaise_bind.mpr ⟨fun _ _ => ?_, fun _ _ => hC.lost _ _ h₂⟩
    refine meets_request_bind.mpr fun x₃ s₃ hs₃ => ?_
    have h₃ := hafter h₂ hs₃ ⟨trivial, id⟩
    refine meets_orRaise_bind.mpr ⟨fun _ _ => ?_, fun _ _ => hC.lost _ _ h₃⟩
    refine meets_request_bind.mpr fun x₄ s₄ hs₄ => meets_request_bind.mpr fun x₅ s₅ hs₅ => ?_
    have h₄ := hafter h₃ hs₄ ⟨trivial, id⟩
    have h₅ := hafter h₄ hs₅ ⟨trivial, id⟩
    exact meets_orRaise_bind.mpr ⟨fun _ _ => meets_pure.mpr h₅, fun _ _ => hC.lost _ _ h₅⟩
  · rintro e rfl
    exact hC.refused s e s₁ h hs₁

theorem openSession_begins (hC : Beginning step host port P B C) (h : P s) :
    Meets step (openSession host port) s (fun r s' => match r with
      | .ok conn => C conn s'
      | .error _ => B s') := by
  have hdir : Meets step (credentialDirFromEnv : Command SessionWire String) s
      (fun _ s' => B s') := by
    refine meets_request_bind.mpr fun x s' hs' => ?_
    have hrest : Throughout (fun e => Local e ∧ ¬Begins e) (do
        let xdgConfigHome ← ask (.varOs "XDG_CONFIG_HOME")
        let home ← ask (.varOs "HOME")
        propagate (resolveCredentialDir x xdgConfigHome home) : Command SessionWire String) := by
      simp [ask, request, Local, Begins]
    exact hrest.keeps hC.before (hC.begins s x s' h hs')
  refine hdir.bind ?_ (fun _ _ hs' => hs')
  intro dir s' hs'
  refine ((fromCredentialDir_aside dir).keeps hC.before hs').bind ?_ (fun _ _ hs'' => hs'')
  intro tls s'' hs''
  exact connect_begins hC tls hs''

end Opening

variable {fuel : Nat} {host : IpAddr} {port : UInt16} {wantOn : Bool} {n : Nat}
  {u : Trace (System SessionWire)}

def Begun (u : Trace (System SessionWire)) : Prop := ∃ e z, Since Begins u e z

theorem Begun.concat {e : SessionEvent} (h : Begun u) (he : ¬Begins e) : Begun (u ++ [e]) := by
  obtain ⟨b, z, hsince⟩ := h
  exact ⟨b, z ++ [e], hsince.concat he⟩

/-- In an attempt that has not sent its key. -/
def Unpressed (wantOn : Bool) (n : Nat) (power : Option Bool) (u : Trace (System SessionWire)) :
    Prop :=
  Disciplined wantOn n power u ∧ Begun u

theorem Unpressed.concat {power : Option Bool} {e : SessionEvent} (h : Unpressed wantOn n power u)
    (he : Aside e) :
    Unpressed wantOn n power (u ++ [e]) :=
  ⟨h.1.concat he, h.2.concat he.begins⟩

/-- An attempt ready for its handshake, or in it. -/
def Shaking (wantOn : Bool) (n : Nat) (conn : Conn) (power : Option Bool)
    (u : Trace (System SessionWire)) : Prop :=
  Unpressed wantOn n power u ∧ Announced conn power u

theorem Shaking.concat {conn : Conn} {power : Option Bool} {e : SessionEvent}
    (h : Shaking wantOn n conn power u)
    (hopens : ¬Opens e) (he : Aside e) : Shaking wantOn n conn power (u ++ [e]) :=
  ⟨h.1.concat he, h.2.concat hopens he⟩

theorem Shaking.hear {conn : Conn} (h : Shaking wantOn n conn none u) (m : RemoteMessage) :
    Shaking wantOn n conn (hear none (kind m)) (u ++ [⟨.wire conn .recv, .ok m⟩]) :=
  ⟨⟨h.1.1.hear nofun conn m, h.1.2.concat id⟩, h.2.hear m⟩

theorem not_opens_of_local {e : SessionEvent} (h : Local e) : ¬Opens e := by
  obtain ⟨o, x⟩ := e
  cases o with
  | wire => exact h.elim
  | host o =>
      cases o with
      | connectTimeout => exact h.elim
      | _ => exact id

theorem openSession_disciplined (h : Disciplined wantOn n none u)
    (hdue : u = [] ∨ Pressed u ∨ Woken u) :
    Meets Recorded (openSession host port) u (fun r u' => match r with
      | .ok conn => Shaking wantOn n conn none u'
      | .error _ => Unpressed wantOn n none u') := by
  refine openSession_begins (P := fun u' => u' = u) ⟨?_, ?_, ?_, ?_, ?_, ?_⟩ rfl
  · rintro _ x _ rfl rfl
    exact ⟨h.begin hdue x, _, _, since_concat rfl⟩
  · rintro u₁ e _ h₁ ⟨he, hbegins⟩ rfl
    exact h₁.concat (aside_local he hbegins)
  · rintro u₁ e _ h₁ rfl
    exact h₁.concat ⟨rfl, id, rfl⟩
  · rintro u₁ sock _ h₁ rfl
    exact ⟨h₁.concat ⟨rfl, id, rfl⟩, _, _, [], since_concat trivial, rfl, rfl⟩
  · rintro conn u₁ e _ h₁ ⟨he, hbegins⟩ rfl
    exact h₁.concat (not_opens_of_local he) (aside_local he hbegins)
  · rintro conn u₁ h₁
    exact h₁.1

/-- A run that follows the discipline and ended by a panic or was not followed
to its end. -/
def Cut (wantOn : Bool) (n : Nat) (u : Trace (System SessionWire)) : Prop :=
  ∃ power, Disciplined wantOn n power u

/-- How a handshake ends: with what it has heard, in an error before any key,
or cut off. -/
def Shaken (wantOn : Bool) (n : Nat) (conn : Conn) :
    Except Stop SessionHandshake → Trace (System SessionWire) → Prop
  | .ok hs, u => Shaking wantOn n conn hs.power u
  | .error (.error _), u => Unpressed wantOn n none u
  | .error _, u => Cut wantOn n u

theorem readPower_disciplined (h : Disciplined wantOn n none u)
    (hdue : u = [] ∨ Pressed u ∨ Woken u) :
    Meets Recorded (readPower fuel host port) u (fun r u' => match r with
      | .ok (power, conn, _) => Shaking wantOn n conn (some power) u'
      | .error (.error _) => Unpressed wantOn n none u'
      | .error _ => Cut wantOn n u') := by
  refine (openSession_disciplined h hdue).bind ?_ ?_
  · intro conn u₁ h₁
    have hI : HandshakeInvariant Recorded conn (fun hs _ u' => Shaking wantOn n conn hs.power u')
        (Shaken wantOn n conn) := by
      refine ⟨?_, ?_, ?_, ?_, ?_, ?_, ?_⟩
      · intro hs any u' h'
        exact ⟨hs.power, h'.1.1⟩
      · intro hs any u' h' _
        exact h'
      · rintro hs any u' e _ h' hp rfl
        rw [hp] at h'
        exact h'.1.concat ⟨rfl, id, rfl⟩
      · rintro hs any u' m _ h' hp rfl hk
        rw [hp] at h'
        have hheard := (h'.hear m).1
        rwa [hk] at hheard
      · rintro hs any u' m _ h' hp rfl _ _
        rw [next, hp]
        rw [hp] at h'
        exact h'.hear m
      · rintro hs any u' m _ r _ h' hp rfl hr rfl
        rw [next, hp]
        rw [hp] at h'
        exact (h'.hear m).concat id (aside_reply hr (.ok ()))
      · rintro hs any u' m _ r e _ h' hp rfl hr rfl
        rw [hp] at h'
        have hheard := (h'.hear m).1
        rw [hear_quiet hr] at hheard
        exact hheard.concat (aside_reply hr (.error e))
    refine (readPowerLoop_meets hI.withPower fuel h₁).bind ?_ ?_
    · rintro hs u' ⟨h', hsome⟩
      obtain ⟨power, hp⟩ := Option.isSome_iff_exists.mp (hsome hs rfl)
      have h' : Shaking wantOn n conn hs.power u' := h'
      rw [hp] at h' ⊢
      exact meets_pure.mpr h'
    · rintro (e | _ | _) u' h'
      · exact h'.1
      · exact h'.1
      · exact h'.1
  · rintro (e | _ | _) u₁ h₁
    · exact h₁
    · exact ⟨none, h₁.1⟩
    · exact ⟨none, h₁.1⟩

theorem confirmLoop_disciplined {conn : Conn} {deadline : Instant} (hs : SessionHandshake)
    (h : Disciplined wantOn n none u) (hpressed : Pressed u) (hp : hs.power = none) :
    Meets Recorded (confirmLoop conn wantOn deadline fuel hs) u (fun r u' => match r with
      | .ok hs => Disciplined wantOn n hs.power u' ∧ Pressed u'
      | .error (.error _) => False
      | .error _ => Cut wantOn n u') := by
  refine confirmLoop_rounds
    (I := fun hs u' => hs.power ≠ some wantOn ∧ Disciplined wantOn n none u' ∧ Pressed u')
    (K := fun hs u' => hs.power ≠ some wantOn ∧ Disciplined wantOn n none u' ∧ Pressed u')
    (J := fun hs u' => Disciplined wantOn n hs.power u' ∧ Pressed u')
    ⟨?_, ?_, ?_, ?_, ?_, ?_, ?_⟩ fuel ⟨by rw [hp]; exact nofun, h, hpressed⟩
  · rintro hs u' ⟨_, h', _⟩
    exact ⟨none, h'⟩
  · rintro hs u' now _ ⟨hne, h', hpressed'⟩ rfl
    have h' := h'.concat (e := ⟨.host .now, now⟩) ⟨rfl, id, rfl⟩
    have hpressed' := hpressed'.concat (e := ⟨.host .now, now⟩) id
    split
    · exact ⟨hne, h', hpressed'⟩
    · exact ⟨⟨h'.allowed, h'.count, fun e he hstart => nomatch h'.heard e he hstart⟩, hpressed'⟩
  · rintro hs u' e _ ⟨hne, h', hpressed'⟩ rfl
    have h' := h'.concat (e := ⟨.wire conn .recv, .error e⟩) ⟨rfl, id, rfl⟩
    exact ⟨⟨h'.allowed, h'.count, fun e he hstart => nomatch h'.heard e he hstart⟩,
      hpressed'.concat id⟩
  · rintro hs u' m _ ⟨hne, h', hpressed'⟩ rfl
    have hheard : Disciplined wantOn n hs.power u' :=
      ⟨h'.allowed, h'.count, fun e he hstart => nomatch h'.heard e he hstart⟩
    exact ⟨hheard.hear hne conn m, hpressed'.concat id⟩
  · rintro hs u' k r x _ ⟨h', hpressed'⟩ hr rfl
    exact ⟨h'.concat (aside_reply hr x), hpressed'.concat id⟩
  · rintro hs u' h' _
    exact h'
  · rintro hs u' ⟨h', hpressed'⟩ hne
    exact ⟨hne, h'.unheard hne, hpressed'⟩

/-- An attempt sends at most one power key. It leaves no start that announced
the state wanted, unless it observed it; it ends unreachable only before its key. -/
theorem pressPowerOnce_disciplined (fuel : Nat) (host : IpAddr) (port : UInt16)
    (h : Disciplined wantOn n none u)
    (hdue : u = [] ∨ Pressed u ∨ Woken u) :
    Meets Recorded (pressPowerOnce fuel host port wantOn) u (fun r u' => match r with
      | .ok attempt => Disciplined wantOn (n + 1) attempt.observed u' ∧
          (attempt.observed ≠ some wantOn → Pressed u')
      | .error (.error e) =>
          Cut wantOn (n + 1) u' ∧ (e.kind = .unreachable → Unpressed wantOn n none u')
      | .error _ => Cut wantOn (n + 1) u') := by
  refine (readPower_disciplined h hdue).bind ?_ ?_
  · rintro ⟨current, conn, hs⟩ u₁ h₁
    dsimp only
    split
    next hneeds =>
      obtain rfl := needsPowerKey_eq_true.mp hneeds
      refine meets_request_bind.mpr fun _ u₂ hgrace => meets_request_bind.mpr fun x u₃ hkey => ?_
      have h₂ : Shaking wantOn n conn (some !wantOn) u₂ := by
        rw [hgrace]
        exact h₁.concat id ⟨rfl, id, rfl⟩
      have hne : (some !wantOn) ≠ some wantOn := by simp
      have h₃ : Disciplined wantOn (n + 1) none u₃ := by
        rw [hkey]
        exact (h₂.1.1.unheard hne).press h₂.2 x
      refine meets_orRaise_bind.mpr ⟨?_, fun e _ => ⟨⟨none, h₃⟩, nofun⟩⟩
      rintro _ rfl
      have hpressed : Pressed u₃ := by
        obtain ⟨b, z, hsince⟩ := h₂.1.2
        rw [hkey]
        exact ⟨b, z ++ [_], hsince.concat id, by rw [any_concat]; exact Bool.or_true _⟩
      refine meets_request_bind.mpr fun y u₄ htimeout => meets_request_bind.mpr fun now u₅ hnow =>
        ?_
      have h₄ : Disciplined wantOn (n + 1) none u₄ := by
        rw [htimeout]
        exact h₃.concat ⟨rfl, id, rfl⟩
      have h₅ : Disciplined wantOn (n + 1) none u₅ := by
        rw [hnow]
        exact h₄.concat ⟨rfl, id, rfl⟩
      have hpressed₅ : Pressed u₅ := by
        rw [hnow, htimeout]
        exact (hpressed.concat id).concat id
      refine (confirmLoop_disciplined { hs with power := none } h₅ hpressed₅ rfl).bind ?_ ?_
      · rintro hs u' ⟨h', hpressed'⟩
        exact meets_pure.mpr ⟨h', fun _ => hpressed'⟩
      · rintro (e | _ | _) u' h'
        · exact h'.elim
        · exact h'
        · exact h'
    next hneeds =>
      have hsame : current = wantOn := by simpa [needsPowerKey] using hneeds
      exact meets_pure.mpr ⟨h₁.1.1.mono (Nat.le_succ n), fun hne => absurd (by rw [hsame]) hne⟩
  · rintro (e | _ | _) u₁ h₁
    · exact ⟨⟨none, h₁.1.mono (Nat.le_succ n)⟩, fun _ => h₁⟩
    · obtain ⟨power, h₁⟩ := h₁
      exact ⟨power, h₁.mono (Nat.le_succ n)⟩
    · obtain ⟨power, h₁⟩ := h₁
      exact ⟨power, h₁.mono (Nat.le_succ n)⟩

def keyLimit (wantOn : Bool) : Nat := if wantOn then powerOnAttempts else 1

theorem setPower_disciplined (fuel : Nat) (host : IpAddr) (port : UInt16)
    (h : Disciplined wantOn n none u)
    (hdue : u = [] ∨ Pressed u ∨ Woken u) :
    Meets Recorded (setPower fuel host port wantOn) u
      (fun r u' => Cut wantOn (n + keyLimit wantOn) u' ∧
      ∀ e, r = .error (.error e) → e.kind = .unreachable → Unpressed wantOn n none u') := by
  have hone : n + 1 ≤ n + keyLimit wantOn := by
    cases wantOn <;> simp [keyLimit, powerOnAttempts]
  refine (pressPowerOnce_disciplined fuel host port h hdue).bind ?_ ?_
  · rintro attempt u₁ ⟨h₁, hpressed₁⟩
    refine Meets.bind (P := fun r u' => Cut wantOn (n + keyLimit wantOn) u' ∧
      ∀ e, r ≠ .error (.error e))
      (retryPowerOn_meets (I := fun left attempt _ u' => left ≤ 3 ∧ (wantOn = false → left = 3) ∧
        Disciplined wantOn (n + 4 - left) attempt.observed u' ∧
          (attempt.observed ≠ some wantOn → Pressed u'))
        ?_ ?_ _ ⟨Nat.le_refl 3, fun _ => rfl, h₁, hpressed₁⟩) ?_ ?_
    · rintro left attempt changed u' ⟨hleft, hoff, h', _⟩ _
      refine ⟨⟨attempt.observed, h'.mono ?_⟩, by rintro _ ⟨⟩⟩
      cases wantOn with
      | true => exact Nat.sub_le _ _
      | false =>
          obtain rfl := hoff rfl
          exact Nat.le_refl (n + 1)
    · rintro left attempt changed u' _ ⟨hleft, hoff, h', hpressed'⟩ hretry rfl
      obtain ⟨rfl, hne⟩ : wantOn = true ∧ attempt.observed ≠ some true := by
        simpa [shouldRetryPowerOn] using hretry
      have hquiet : Aside ⟨.host (.sleep powerOnRetryBackoff), ()⟩ := ⟨rfl, id, rfl⟩
      have hnext := pressPowerOnce_disciplined fuel host port
        ((h'.unheard hne).concat hquiet) (.inr (.inl ((hpressed' hne).concat id)))
      have hcount : n + 4 - (left + 1) + 1 = n + 4 - left := by omega
      rw [hcount] at hnext
      refine hnext.mono ?_
      rintro ((e | _ | _) | following) u'' h''
      · obtain ⟨⟨power, h''⟩, _⟩ := h''
        exact ⟨⟨power, h''.mono (Nat.sub_le _ _)⟩, by rintro _ ⟨⟩⟩
      · obtain ⟨power, h''⟩ := h''
        exact ⟨⟨power, h''.mono (Nat.sub_le _ _)⟩, by rintro _ ⟨⟩⟩
      · obtain ⟨power, h''⟩ := h''
        exact ⟨⟨power, h''.mono (Nat.sub_le _ _)⟩, by rintro _ ⟨⟩⟩
      · exact ⟨by omega, by rintro ⟨⟩, h''⟩
    · rintro ⟨last, changed⟩ u' ⟨⟨power, h'⟩, _⟩
      refine meets_request_bind.mpr fun text u'' hstep => meets_pure.mpr
        ⟨⟨power, ?_⟩, by rintro _ ⟨⟩⟩
      rw [hstep]
      exact h'.concat ⟨rfl, id, rfl⟩
    · rintro e u' ⟨h', hne⟩
      refine ⟨h', ?_⟩
      rintro e' ⟨rfl⟩
      exact absurd rfl (hne e')
  · rintro (e | _ | _) u₁ h₁
    · obtain ⟨⟨power, hcut⟩, hunreachable⟩ := h₁
      refine ⟨⟨power, hcut.mono hone⟩, ?_⟩
      rintro _ ⟨rfl⟩ hkind
      exact hunreachable hkind
    · obtain ⟨power, hcut⟩ := h₁
      exact ⟨⟨power, hcut.mono hone⟩, by rintro _ ⟨⟩⟩
    · obtain ⟨power, hcut⟩ := h₁
      exact ⟨⟨power, hcut.mono hone⟩, by rintro _ ⟨⟩⟩

theorem sendMagicPacket_disciplined (mac : Mac) (h : Unpressed wantOn n none u) :
    Meets Recorded (sendMagicPacket mac) u (fun r u' => Unpressed wantOn n none u' ∧
      (r = .ok () → Woken u')) := by
  refine meets_request_bind.mpr fun x₁ u₁ hbind => ?_
  have h₁ : Unpressed wantOn n none u₁ := by
    rw [hbind]
    exact h.concat ⟨rfl, id, rfl⟩
  refine meets_orRaise_bind.mpr ⟨fun _ _ => ?_, fun _ _ => ⟨h₁, nofun⟩⟩
  refine meets_request_bind.mpr fun x₂ u₂ hbroadcast => ?_
  have h₂ : Unpressed wantOn n none u₂ := by
    rw [hbroadcast]
    exact h₁.concat ⟨rfl, id, rfl⟩
  refine meets_orRaise_bind.mpr ⟨fun _ _ => ?_, fun _ _ => ⟨h₂, nofun⟩⟩
  refine meets_request_bind.mpr fun x₃ u₃ hsend => ?_
  have h₃ : Unpressed wantOn n none u₃ := by
    rw [hsend]
    exact h₂.concat ⟨rfl, id, rfl⟩
  refine meets_orRaise.mpr ⟨fun _ hx => ⟨h₃, fun _ => ?_⟩, fun _ _ => ⟨h₃, nofun⟩⟩
  obtain ⟨b, z, hsince⟩ := h₂.2
  refine ⟨b, z ++ [_], by rw [hsend]; exact hsince.concat id, ?_⟩
  rw [packets_append, hx]
  simp [packets]

theorem waitForPort_disciplined (budget : Duration) (h : Unpressed wantOn n none u)
    (hwoken : Woken u) :
    Meets Recorded (waitForPort fuel host port budget) u
      (fun _ u' => Unpressed wantOn n none u' ∧ Woken u') := by
  have hwait : Throughout Aside (waitForPort fuel host port budget) :=
    (waitForPort_events fuel host port budget).mono fun _ => aside_wait
  refine hwait.keeps (I := fun u' => Unpressed wantOn n none u' ∧ Woken u') ?_ ⟨h, hwoken⟩
  rintro u₁ e _ ⟨h₁, b, z, hsince, hpackets⟩ he rfl
  refine ⟨h₁.concat he, b, z ++ [e], hsince.concat he.begins, ?_⟩
  rw [packets_append]
  exact fun hnil => hpackets (List.append_eq_nil_iff.mp hnil).1

theorem wakeAndSetPower_disciplined (fuel : Nat) (host : IpAddr) (port : UInt16) (mac : Mac)
    (h : Unpressed wantOn n none u) :
    Meets Recorded (wakeAndSetPower fuel host port wantOn mac) u
      (fun _ u' => Cut wantOn (n + keyLimit wantOn) u') := by
  have hleft {u' : Trace (System SessionWire)} (h' : Unpressed wantOn n none u') :
      Cut wantOn (n + keyLimit wantOn) u' :=
    ⟨none, h'.1.mono (Nat.le_add_right _ _)⟩
  refine (sendMagicPacket_disciplined mac h).bind ?_ (fun _ u₁ h₁ => hleft h₁.1)
  rintro _ u₁ ⟨h₁, hwoken₁⟩
  refine (waitForPort_disciplined wolWait h₁ (hwoken₁ rfl)).bind ?_ (fun _ u₂ h₂ => hleft h₂.1)
  rintro _ u₂ ⟨h₂, hwoken₂⟩
  refine (setPower_disciplined fuel host port h₂.1 (.inr (.inr hwoken₂))).bind ?_
    (fun _ u₃ h₃ => h₃.1)
  rintro out u₃ ⟨h₃, _⟩
  exact meets_pure.mpr h₃

/-- Whatever the TV does, power keys are sent and attempts begun only as the
history allows, and the keys stay within the limit, also when the TV is woken. -/
theorem power_press_discipline (mac : Option Mac) (t : Trace (System SessionWire))
    (r : Except Stop PowerOutput)
    (h : Run (setPowerWithWake fuel host port wantOn mac) t r) :
    Along (Allowed wantOn) t ∧ t.countP powerKeySent ≤ keyLimit wantOn := by
  have hstart : Disciplined wantOn 0 none [] := ⟨along_nil, Nat.le_refl 0, fun e he => by cases he⟩
  have hset := setPower_disciplined fuel host port hstart (.inl rfl)
  rw [Nat.zero_add] at hset
  rcases setPowerWithWake_cases h with hrun | ⟨m, e, u, v, _, _, hkind, rfl, hu, hv⟩
  · obtain ⟨⟨power, hcut⟩, _⟩ := Meets.recorded hset hrun
    exact ⟨hcut.allowed, hcut.count⟩
  · have hfirst := (Meets.recorded hset hu).2 e rfl hkind
    have hwake := wakeAndSetPower_disciplined fuel host port m hfirst
    rw [Nat.zero_add] at hwake
    obtain ⟨power, hcut⟩ := hwake v r hv (u ++ v) (path_recorded.mpr rfl)
    exact ⟨hcut.allowed, hcut.count⟩

theorem power_press_discipline_deepStandby :
    let t := (deepStandby.play (setPowerWithWake 9 livingRoom 6466 true (some deepStandbyMac))).1
    (Along (Allowed true) t ∧ t.countP powerKeySent ≤ 4) ∧ t.countP powerKeySent = 1 :=
  ⟨power_press_discipline (some deepStandbyMac) _ _ (deepStandby.run_play _), by rfl⟩

end AtvRemote.PressDiscipline
