import AtvRemote.Wake
import AtvRemote.SessionRules

namespace AtvRemote.PowerEffects

open Programs Contracts CommandRules CredentialRules Errors Messages SystemCalls Handshake Session
  Wake SessionRules

def carriesPowerKey (m : RemoteMessage) : Bool :=
  match m.remoteKeyInject with
  | some inject => inject.keyCode == RemoteKeyCode.keycodePower
  | none => false

def keyWritten : SessionEvent → Bool
  | ⟨.wire _ (.send m), .ok _⟩ => carriesPowerKey m
  | _ => false

theorem carriesPowerKey_powerKeyMessage : carriesPowerKey powerKeyMessage = true := by decide

theorem carriesPowerKey_reply {active : Int32} {k : Kind} {r : RemoteMessage}
    (h : reply active k = some r) : carriesPowerKey r = false := by
  cases k <;> simp only [reply, Option.some.injEq, reduceCtorEq] at h <;> subst h <;> rfl

theorem keyWritten_handshake {e : SessionEvent} (h : HandshakeEvent e) : keyWritten e = false := by
  obtain ⟨o, x⟩ := e
  cases o with
  | wire conn w =>
      cases w with
      | recv => rfl
      | send m =>
          obtain ⟨active, k, hr⟩ := h
          cases x with
          | error e => rfl
          | ok _ => exact carriesPowerKey_reply hr
  | _ => rfl

def seen (p : SessionEvent → Bool) (b : Bool) (e : SessionEvent) (b' : Bool) : Prop :=
  b' = (b || p e)

theorem path_seen {p : SessionEvent → Bool} {b b' : Bool} {t : Trace (System SessionWire)} :
    Path (seen p) b t b' ↔ b' = (b || t.any p) := by
  induction t generalizing b with
  | nil => simp
  | cons e t ih => simp [path_cons, seen, ih, Bool.or_assoc]

theorem handshake_unseen {α : Type} {p : Command SessionWire α} (hp : Throughout HandshakeEvent p)
    (b : Bool) : Meets (seen keyWritten) p b (fun _ b' => b' = b) :=
  hp.meets fun e b' he hb => by simpa [seen, keyWritten_handshake he] using hb

variable {fuel : Nat} {host : IpAddr} {port : UInt16} {wantOn : Bool}

theorem confirmLoop_keys {conn : Conn} {deadline : Instant} (hs : SessionHandshake) (b : Bool) :
    Meets (seen keyWritten) (confirmLoop conn wantOn deadline fuel hs) b
      (fun r b' => b' = b ∧ ∀ e, r ≠ .error (.error e)) := by
  refine confirmLoop_meets (I := fun _ b' => b' = b) ⟨?_, ?_, ?_, ?_, ?_, ?_⟩ fuel rfl
  · rintro hs b' rfl
    exact ⟨rfl, nofun⟩
  · rintro hs b' now b'' rfl h
    simpa [seen, keyWritten] using h
  · rintro hs b' rfl
    exact ⟨rfl, nofun⟩
  · rintro hs b' e b'' rfl h
    exact ⟨by simpa [seen, keyWritten] using h, nofun⟩
  · rintro hs b' m b'' rfl h
    simpa [seen, keyWritten] using h
  · rintro hs b' k r x b'' rfl hr h
    cases x <;> simpa [seen, keyWritten, carriesPowerKey_reply hr] using h

/-- An attempt that fails has written no key; one that returns says whether it
has. -/
theorem pressPowerOnce_keys (b : Bool) :
    Meets (seen keyWritten) (pressPowerOnce fuel host port wantOn) b (fun r b' => match r with
      | .ok attempt => b' = (b || attempt.changed)
      | .error (.error _) => b' = b
      | .error _ => True) := by
  refine (handshake_unseen (readPower_events fuel host port) b).bind ?_ ?_
  · rintro ⟨current, conn, hs⟩ b' rfl
    dsimp only
    split
    · refine meets_request_bind.mpr fun _ b₁ h₁ => meets_request_bind.mpr fun x b₂ h₂ =>
        meets_orRaise_bind.mpr ⟨?_, ?_⟩
      · rintro _ rfl
        refine meets_request_bind.mpr fun _ b₃ h₃ => meets_request_bind.mpr fun now b₄ h₄ => ?_
        have hb : b₄ = true := by
          simp_all [seen, keyWritten, carriesPowerKey_powerKeyMessage]
        refine (confirmLoop_keys _ b₄).bind ?_ ?_
        · rintro hs b' ⟨rfl, _⟩
          simp [hb]
        · rintro (e | _ | _) b' ⟨_, he⟩
          · exact absurd rfl (he e)
          · trivial
          · trivial
      · rintro e rfl
        simp_all [seen, keyWritten]
    · simp
  · rintro (e | _ | _) b' rfl <;> simp

/-- What the retries leave of the flag, if they leave anything. -/
def Retried (b : Bool) : Except Stop (PowerAttempt × Bool) → Bool → Prop
  | .ok (_, changed), b' => b' = (b || changed)
  | .error (.error _), _ => False
  | .error _, _ => True

theorem setPower_keys (b : Bool) :
    Meets (seen keyWritten) (setPower fuel host port wantOn) b (fun r b' => match r with
      | .ok out => b' = (b || out.changed)
      | .error (.error _) => b' = b
      | .error _ => True) := by
  refine (pressPowerOnce_keys b).bind ?_ ?_
  · rintro attempt b' hb'
    refine Meets.bind (P := Retried b)
      (retryPowerOn_meets (I := fun _ _ changed b'' => b'' = (b || changed)) ?_ ?_ _ hb') ?_ ?_
    · intro left attempt changed b'' h _
      exact h
    · intro left attempt changed b₁ b₂ h _ h₂
      have hb : b₂ = b₁ := by simpa [seen, keyWritten] using h₂
      refine (pressPowerOnce_keys b₂).mono ?_
      rintro ((e | _ | _) | next) b₃ h₃
      · exact h₃.trans (hb.trans h)
      · trivial
      · trivial
      · rw [h₃, hb, h, Bool.or_assoc]
    · rintro ⟨attempt, changed⟩ b'' h
      refine meets_request_bind.mpr fun text b₃ h₃ => meets_pure.mpr ?_
      have hb : b₃ = b'' := by simpa [seen, keyWritten] using h₃
      exact hb.trans h
    · rintro (e | _ | _) b'' h
      · exact h.elim
      · trivial
      · trivial
  · rintro (e | _ | _) b' h
    · exact h
    · trivial
    · trivial

/-- An error means that no key was written, a result tells whether one was. -/
structure Accounted (t : Trace (System SessionWire)) (r : Except Stop PowerOutput) : Prop where
  error : ∀ e, r = .error (.error e) → t.any keyWritten = false
  changed : ∀ out, r = .ok out → (out.changed = true ↔ t.any keyWritten = true)

theorem setPower_accounted {t : Trace (System SessionWire)} {r : Except Stop PowerOutput}
    (h : Run (setPower fuel host port wantOn) t r) : Accounted t r := by
  have hkeys := setPower_keys false t r h (t.any keyWritten) (path_seen.mpr (by simp))
  refine ⟨?_, ?_⟩
  · rintro e rfl
    exact hkeys
  · rintro out rfl
    have hb : t.any keyWritten = (false || out.changed) := hkeys
    rw [hb, Bool.false_or]

theorem accounted_ok {t : Trace (System SessionWire)} {out : PowerOutput} :
    Accounted t (.ok out) ↔ (out.changed = true ↔ t.any keyWritten = true) := by
  constructor
  · intro h
    exact h.changed out rfl
  · intro h
    refine ⟨nofun, ?_⟩
    rintro _ ⟨rfl⟩
    exact h

theorem Accounted.append {u v : Trace (System SessionWire)} {r : Except Stop PowerOutput}
    (hu : u.any keyWritten = false) (hv : Accounted v r) : Accounted (u ++ v) r := by
  refine ⟨fun e he => ?_, fun out hout => ?_⟩
  · rw [List.any_append, hu, hv.error e he, Bool.or_self]
  · rw [List.any_append, hu, Bool.false_or]
    exact hv.changed out hout

end AtvRemote.PowerEffects
