import AtvRemote.PowerEffects
import AtvRemote.Scripts
import Mathlib.Data.List.Induction

namespace AtvRemote.PowerReport

open Programs Contracts CommandRules CredentialRules Errors Messages SystemCalls Handshake
  Session SessionRules
  PowerEffects Scripts

def startOf : SessionEvent → Option Bool
  | ⟨.wire _ .recv, .ok m⟩ => hear none (kind m)
  | _ => none

def lastStart (t : Trace (System SessionWire)) : Option Bool := (t.filterMap startOf).getLast?

def isBackoff : SessionEvent → Bool
  | ⟨.host (.sleep d), _⟩ => d == powerOnRetryBackoff
  | _ => false

def attempts (t : Trace (System SessionWire)) : Nat := t.countP isBackoff + 1

/-- What came from the TV during one attempt: the last start before the power
key and after it, and what became of the key. -/
structure Observation where
  before : Option Bool := none
  pressed : Bool := false
  refused : Bool := false
  after : Option Bool := none
  deriving DecidableEq, Repr

structure History where
  last : Observation := {}
  earlier : List Observation := []
  deriving DecidableEq, Repr

def Observation.hear (o : Observation) (k : Kind) : Observation :=
  if o.pressed then { o with after := Handshake.hear o.after k }
  else { o with before := Handshake.hear o.before k }

def Observation.key (o : Observation) (sent : Bool) : Observation :=
  if sent then { o with pressed := true } else { o with refused := true }

def watch (h : History) : SessionEvent → History
  | ⟨.wire _ .recv, .ok m⟩ => { h with last := h.last.hear (kind m) }
  | ⟨.wire _ (.send m), x⟩ =>
      if carriesPowerKey m then { h with last := h.last.key x.isOk } else h
  | ⟨.host (.sleep d), _⟩ => if d = powerOnRetryBackoff then ⟨{}, h.last :: h.earlier⟩ else h
  | _ => h

def history (t : Trace (System SessionWire)) : History := t.foldl watch {}

/-- An attempt failed: it heard no start before it came to the key, or its key
was refused. -/
def Observation.Failing (o : Observation) : Prop := o.before = none ∨ o.refused = true

/-- The last attempt failed, right after one that pressed the key and was not
told that the TV is on. -/
def Unconfirmed (h : History) : Prop :=
  h.last.Failing ∧ ∃ o, h.earlier.head? = some o ∧ o.pressed = true ∧ o.after ≠ some true

/-- The last attempt failed, right after one that pressed the key and heard
nothing more. -/
def Abandoned (h : History) : Prop :=
  h.last.Failing ∧ ∃ o, h.earlier.head? = some o ∧ o.pressed = true ∧ o.after = none

def Observation.start (o : Observation) : Option Bool := o.after.or o.before

theorem hear_or (p : Option Bool) (k : Kind) :
    Handshake.hear p k = (Handshake.hear none k).or p := by
  cases k <;> simp [Handshake.hear]

theorem start_hear {o : Observation} (h : o.pressed = false → o.after = none) (k : Kind) :
    (o.hear k).start = (Handshake.hear none k).or o.start := by
  unfold Observation.hear Observation.start
  cases hp : o.pressed with
  | true =>
      rw [if_pos rfl]
      dsimp only
      rw [hear_or, Option.or_assoc]
  | false =>
      rw [if_neg Bool.false_ne_true]
      dsimp only
      rw [h hp, Option.none_or, Option.none_or, hear_or]

theorem watch_ordered {h : History} (ho : h.last.pressed = false → h.last.after = none)
    (e : SessionEvent) : (watch h e).last.pressed = false → (watch h e).last.after = none := by
  obtain ⟨o, x⟩ := e
  cases o with
  | wire conn w =>
      cases w with
      | recv =>
          cases x with
          | error e => exact ho
          | ok m => cases hp : h.last.pressed <;> simp_all [watch, Observation.hear]
      | send m =>
          by_cases hkey : carriesPowerKey m = true
          · cases x <;> simp_all [watch, Observation.key, Except.isOk, Except.toBool]
          · simpa [watch, hkey] using ho
  | host o =>
      cases o with
      | sleep d =>
          by_cases hd : d = powerOnRetryBackoff
          · simp [watch, hd]
          · simpa [watch, hd] using ho
      | _ => exact ho

def History.start (h : History) : Option Bool :=
  h.last.start.or (h.earlier.findSome? Observation.start)

theorem start_key (o : Observation) (sent : Bool) : (o.key sent).start = o.start := by
  cases sent <;> rfl

theorem watch_start {h : History} (ho : h.last.pressed = false → h.last.after = none)
    (e : SessionEvent) : (watch h e).start = (startOf e).or h.start := by
  obtain ⟨o, x⟩ := e
  cases o with
  | wire conn w =>
      cases w with
      | recv =>
          cases x with
          | error e => rfl
          | ok m =>
              have hlast := start_hear ho (kind m)
              simp only [watch, History.start, startOf, hlast, Option.or_assoc]
      | send m =>
          have hlast := start_key h.last x.isOk
          by_cases hkey : carriesPowerKey m = true <;>
            simp [watch, History.start, startOf, hkey, hlast]
  | host o =>
      cases o with
      | sleep d =>
          by_cases hd : d = powerOnRetryBackoff
          · have hnone : ({} : Observation).start = none := rfl
            simp only [watch, if_pos hd, History.start, startOf, hnone, List.findSome?_cons]
            cases h.last.start <;> rfl
          · simp [watch, startOf, hd]
      | _ => rfl

theorem watch_attempts (h : History) (e : SessionEvent) :
    (watch h e).earlier.length = h.earlier.length + (if isBackoff e then 1 else 0) := by
  obtain ⟨o, x⟩ := e
  cases o with
  | wire conn w =>
      cases w with
      | recv => cases x <;> rfl
      | send m =>
          rw [watch]
          dsimp only
          split <;> rfl
  | host o =>
      cases o with
      | sleep d => by_cases hd : d = powerOnRetryBackoff <;> simp [watch, isBackoff, hd]
      | _ => rfl

theorem history_append (t : Trace (System SessionWire)) (e : SessionEvent) :
    history (t ++ [e]) = watch (history t) e := List.foldl_append

theorem lastStart_append (t : Trace (System SessionWire)) (e : SessionEvent) :
    lastStart (t ++ [e]) = (startOf e).or (lastStart t) := by
  unfold lastStart
  rw [List.filterMap_append, List.getLast?_append]
  cases h : startOf e <;> simp [h]

theorem history_ordered (t : Trace (System SessionWire)) :
    (history t).last.pressed = false → (history t).last.after = none := by
  induction t using List.reverseRecOn with
  | nil => exact fun _ => rfl
  | append_singleton t e ih =>
      rw [history_append]
      exact watch_ordered ih e

theorem lastStart_eq (t : Trace (System SessionWire)) : lastStart t = (history t).start := by
  induction t using List.reverseRecOn with
  | nil => rfl
  | append_singleton t e ih =>
      rw [lastStart_append, history_append, watch_start (history_ordered t), ih]

theorem attempts_eq (t : Trace (System SessionWire)) :
    attempts t = (history t).earlier.length + 1 := by
  induction t using List.reverseRecOn with
  | nil => rfl
  | append_singleton t e ih =>
      have hcount : attempts (t ++ [e]) = attempts t + (if isBackoff e then 1 else 0) := by
        unfold attempts
        rw [List.countP_append, List.countP_singleton]
        omega
      rw [hcount, history_append, watch_attempts, ih]
      omega

abbrev observe (h : History) (e : SessionEvent) (h' : History) : Prop := h' = watch h e

variable {fuel : Nat} {host : IpAddr} {port : UInt16} {wantOn : Bool}

theorem watch_local {e : SessionEvent} (he : Local e) (h : History) : watch h e = h := by
  obtain ⟨o, x⟩ := e
  cases o with
  | wire => exact he.elim
  | host o =>
      cases o with
      | udpSendTo | sleep => exact he.elim
      | _ => rfl

theorem watch_reply {conn : Conn} {active : Int32} {k : Kind} {r : RemoteMessage}
    (hr : reply active k = some r) (h : History) (x : Except IoError Unit) :
    watch h ⟨.wire conn (.send r), x⟩ = h := by
  simp [watch, carriesPowerKey_reply hr]

theorem hear_quiet {k : Kind} {active : Int32} {r : RemoteMessage} (hr : reply active k = some r)
    (p : Option Bool) : hear p k = p := by
  cases k <;> simp [reply] at hr <;> rfl

theorem readPower_observed (earlier : List Observation) :
    Meets observe (readPower fuel host port) ⟨{}, earlier⟩ (fun r h => match r with
      | .ok (power, _, _) => h = ⟨{ before := some power }, earlier⟩
      | .error (.error _) => h = ⟨{}, earlier⟩
      | .error _ => True) := by
  refine readPower_meets (P := fun h => h = ⟨{}, earlier⟩) (C := fun h => h = ⟨{}, earlier⟩)
    (I := fun _ hs _ h => h = ⟨{ before := hs.power }, earlier⟩)
    ⟨?_, ?_, ?_, ?_, ?_, ?_, ?_⟩ fuel rfl
  · rintro h e h' rfl he rfl
    exact watch_local he _
  · rintro h e h' rfl he rfl
    exact watch_local he _
  · rintro h timeout e h' rfl rfl
    rfl
  · rintro h timeout sock h' rfl rfl
    rfl
  · rintro h (e | _ | _) (rfl | rfl) <;> trivial
  · rintro conn h rfl
    rfl
  · intro conn
    refine ⟨?_, ?_, ?_, ?_, ?_, ?_, ?_⟩
    · intro hs any h hI
      trivial
    · rintro hs any h rfl hsome power hp
      rw [hp]
    · rintro hs any h e h' rfl hp rfl
      rw [hp]
      rfl
    · rintro hs any h m h' rfl hp rfl hk
      rw [hp]
      simp [watch, Observation.hear, hk, hear]
    · rintro hs any h m h' rfl hp rfl hk hr
      rfl
    · rintro hs any h m h' r h'' rfl hp rfl hr rfl
      rw [watch_reply hr]
      rfl
    · rintro hs any h m h' r e h'' rfl hp rfl hr rfl
      rw [watch_reply hr]
      simp [watch, Observation.hear, hear_quiet hr, hp]

theorem confirmLoop_observed {conn : Conn} {deadline : Instant} (before : Option Bool)
    (earlier : List Observation) (hs : SessionHandshake) :
    Meets observe (confirmLoop conn wantOn deadline fuel hs)
      ⟨⟨before, true, false, hs.power⟩, earlier⟩ (fun r h => match r with
        | .ok hs => h = ⟨⟨before, true, false, hs.power⟩, earlier⟩
        | .error (.error _) => False
        | .error _ => True) := by
  refine confirmLoop_meets (I := fun hs h => h = ⟨⟨before, true, false, hs.power⟩, earlier⟩)
    ⟨?_, ?_, ?_, ?_, ?_, ?_⟩ fuel rfl
  · intro hs h hI
    trivial
  · rintro hs h now h' rfl rfl
    rfl
  · intro hs h hI
    exact hI
  · rintro hs h e h' rfl rfl
    rfl
  · rintro hs h m h' rfl rfl
    rfl
  · rintro hs h k r x h' rfl hr rfl
    exact watch_reply hr _ x

structure Reports (wantOn : Bool) (o : Observation) (attempt : PowerAttempt) : Prop where
  delivered : o.refused = false
  pressed : o.pressed = attempt.changed
  unpressed : attempt.changed = false → o.after = none ∧ o.before = some attempt.resulting ∧
    attempt.observed = some attempt.resulting
  confirmed : attempt.changed = true → o.before = some (!wantOn) ∧ attempt.observed = o.after ∧
    attempt.resulting = o.after.getD wantOn

def Failed (wantOn : Bool) (o : Observation) : Prop :=
  o = {} ∨ o = { before := some !wantOn, refused := true }

theorem needsPowerKey_eq_true {current wantOn : Bool} :
    needsPowerKey current wantOn = true ↔ current = !wantOn := by
  cases current <;> cases wantOn <;> decide

theorem pressPowerOnce_observed (earlier : List Observation) :
    Meets observe (pressPowerOnce fuel host port wantOn) ⟨{}, earlier⟩ (fun r h => match r with
      | .ok attempt => h.earlier = earlier ∧ Reports wantOn h.last attempt
      | .error (.error _) => h.earlier = earlier ∧ Failed wantOn h.last
      | .error _ => True) := by
  refine (readPower_observed earlier).bind ?_ ?_
  · rintro ⟨current, conn, hs⟩ h rfl
    dsimp only
    split
    next hneeds =>
      obtain rfl := needsPowerKey_eq_true.mp hneeds
      refine meets_request_bind.mpr fun _ h hgrace => meets_request_bind.mpr fun x h' hkey => ?_
      have hgrace : h = ⟨{ before := some !wantOn }, earlier⟩ := hgrace
      refine meets_orRaise_bind.mpr ⟨?_, ?_⟩
      · rintro _ rfl
        have hkey : h' = ⟨⟨some !wantOn, true, false, none⟩, earlier⟩ := by rw [hkey, hgrace]; rfl
        refine meets_request_bind.mpr fun _ h₁ h₁' => meets_request_bind.mpr fun now h₂ h₂' => ?_
        obtain rfl : h₂ = ⟨⟨some !wantOn, true, false, none⟩, earlier⟩ := by
          rw [h₂', h₁', hkey]
          rfl
        refine (confirmLoop_observed (some !wantOn) earlier { hs with power := none }).bind ?_ ?_
        · rintro hs h rfl
          exact meets_pure.mpr ⟨rfl, rfl, rfl, nofun, fun _ => ⟨rfl, rfl, rfl⟩⟩
        · rintro (e | _ | _) h hfail
          · exact hfail.elim
          · trivial
          · trivial
      · rintro e rfl
        rw [hkey, hgrace]
        exact ⟨rfl, .inr rfl⟩
    next hneeds => exact meets_pure.mpr ⟨rfl, rfl, rfl, fun _ => ⟨rfl, rfl, rfl⟩, nofun⟩
  · rintro (e | _ | _) h hfail
    · rw [hfail]
      exact ⟨rfl, .inl rfl⟩
    · trivial
    · trivial

/-- How a run of `setPower` ends: with the report of its last attempt, or with
that of the one before because the last one failed. -/
inductive Ended (wantOn : Bool) (attempt : PowerAttempt) (h : History) : Prop
  | last (reports : Reports wantOn h.last attempt)
      (settled : h.earlier.length = 3 ∨ shouldRetryPowerOn wantOn attempt.observed = false)
  | failed (o : Observation) (rest : List Observation) (earlier : h.earlier = o :: rest)
      (reports : Reports wantOn o attempt)
      (retried : shouldRetryPowerOn wantOn attempt.observed = true)
      (failed : Failed wantOn h.last)

theorem setPower_observed :
    Meets observe (setPower fuel host port wantOn) {} (fun r h => ∀ out, r = .ok out →
      h.earlier.length ≤ 3 ∧ ∃ attempt, out.power = powerStr attempt.resulting ∧
        Ended wantOn attempt h) := by
  refine (pressPowerOnce_observed []).bind ?_ ?_
  · rintro attempt h ⟨hearlier, hreports⟩
    let I (left : Nat) (attempt : PowerAttempt) (_ : Bool) (h : History) : Prop :=
      h.earlier.length + left = 3 ∧ Reports wantOn h.last attempt
    refine Meets.bind (P := fun r h => ∀ attempt changed, r = .ok (attempt, changed) →
      h.earlier.length ≤ 3 ∧ Ended wantOn attempt h)
      (retryPowerOn_meets (I := I) ?_ ?_ _ ⟨by simp [hearlier, powerOnAttempts], hreports⟩) ?_ ?_
    · rintro left attempt changed h ⟨hlen, hreports⟩ hstop _ _ ⟨⟩
      refine ⟨by omega, .last hreports (hstop.imp (fun hleft => ?_) id)⟩
      omega
    · rintro left attempt changed h h' ⟨hlen, hreports⟩ hretry rfl
      refine (pressPowerOnce_observed (h.last :: h.earlier)).mono ?_
      rintro ((e | _ | _) | next) h'' hnext
      · rintro _ _ ⟨⟩
        obtain ⟨hearlier, hfailed⟩ := hnext
        exact ⟨by rw [hearlier, List.length_cons]; omega,
          .failed _ _ hearlier hreports hretry hfailed⟩
      · nofun
      · nofun
      · obtain ⟨hearlier, hreports⟩ := hnext
        exact ⟨by rw [hearlier, List.length_cons]; omega, hreports⟩
    · rintro ⟨attempt, changed⟩ h hended
      obtain ⟨hlen, hended⟩ := hended attempt changed rfl
      refine meets_request_bind.mpr fun text h' hh' => meets_pure.mpr ?_
      obtain rfl : h' = h := hh'
      rintro _ ⟨rfl⟩
      exact ⟨hlen, attempt, rfl, hended⟩
    · rintro e h hended out ⟨⟩
  · rintro e h hfail out ⟨⟩

theorem powerStr_eq_on {b : Bool} : powerStr b = "on" ↔ b = true := by
  cases b <;> decide

theorem Reports.start {o : Observation} {attempt : PowerAttempt} (h : Reports true o attempt) :
    o.start = attempt.observed.or (some false) := by
  rw [Observation.start]
  cases hc : attempt.changed with
  | false =>
      obtain ⟨hafter, hbefore, hobserved⟩ := h.unpressed hc
      rw [hafter, hbefore, hobserved]
      rfl
  | true =>
      obtain ⟨hbefore, hobserved, _⟩ := h.confirmed hc
      rw [hbefore, hobserved]
      rfl

theorem Reports.resulting {o : Observation} {attempt : PowerAttempt} (h : Reports true o attempt) :
    attempt.resulting = attempt.observed.getD true := by
  cases hc : attempt.changed with
  | false =>
      obtain ⟨_, _, hobserved⟩ := h.unpressed hc
      rw [hobserved]
      rfl
  | true =>
      obtain ⟨_, hobserved, hresulting⟩ := h.confirmed hc
      rw [hobserved, hresulting]

theorem Reports.unconfirmed {o : Observation} {attempt : PowerAttempt}
    (h : Reports true o attempt) : attempt.observed = none ↔ o.pressed = true ∧ o.after = none := by
  rw [h.pressed]
  cases hc : attempt.changed with
  | false =>
      obtain ⟨_, _, hobserved⟩ := h.unpressed hc
      simp [hobserved]
  | true =>
      obtain ⟨_, hobserved, _⟩ := h.confirmed hc
      simp [hobserved]

theorem Failed.failing {o : Observation} (h : Failed true o) : o.Failing := by
  rcases h with rfl | rfl
  · exact .inl rfl
  · exact .inr rfl

theorem Reports.notFailed {o : Observation} {attempt : PowerAttempt} (h : Reports true o attempt) :
    ¬o.Failing := by
  have hbefore : o.before ≠ none := by
    cases hc : attempt.changed with
    | false => simp [(h.unpressed hc).2.1]
    | true => simp [(h.confirmed hc).1]
  simp [Observation.Failing, hbefore, h.delivered]

theorem shouldRetry_on {observed : Option Bool} :
    shouldRetryPowerOn true observed = true ↔ observed ≠ some true := by
  simp [shouldRetryPowerOn]

/-- After a last attempt that did not fail, the report holds. -/
theorem resulting_last {h : History} {attempt : PowerAttempt}
    (hreports : Reports true h.last attempt)
    (hsettled : h.earlier.length = 3 ∨ shouldRetryPowerOn true attempt.observed = false)
    (hon : attempt.resulting = true) : h.start = some true ∨ h.earlier.length = 3 := by
  rw [hreports.resulting] at hon
  cases hobserved : attempt.observed with
  | none =>
      have hretry : shouldRetryPowerOn true attempt.observed = true := by rw [hobserved]; rfl
      rw [hretry] at hsettled
      exact .inr (hsettled.resolve_right nofun)
  | some b =>
      rw [hobserved] at hon
      obtain rfl : b = true := hon
      rw [History.start, hreports.start, hobserved]
      exact .inl rfl

/-- After a last attempt that failed, the one before is reported, which heard
nothing if it is reported as on. -/
theorem resulting_failed {h : History} {attempt : PowerAttempt} {o : Observation}
    {rest : List Observation}
    (hearlier : h.earlier = o :: rest) (hreports : Reports true o attempt)
    (hretried : shouldRetryPowerOn true attempt.observed = true) (hfailed : Failed true h.last) :
    attempt.resulting = true ↔ Abandoned h := by
  rw [hreports.resulting]
  cases hobserved : attempt.observed with
  | none =>
      have habandoned : Abandoned h := by
        refine ⟨hfailed.failing, o, ?_, hreports.unconfirmed.mp hobserved⟩
        rw [hearlier]
        rfl
      exact iff_of_true rfl habandoned
  | some b =>
      have hb : b = false := by simpa [hobserved] using shouldRetry_on.mp hretried
      have hnot : ¬Abandoned h := by
        rintro ⟨_, o', ho', hunconfirmed⟩
        rw [hearlier] at ho'
        obtain rfl : o = o' := Option.some.inj ho'
        rw [hreports.unconfirmed.mpr hunconfirmed] at hobserved
        cases hobserved
      rw [hb]
      exact iff_of_false nofun hnot

theorem Abandoned.unconfirmed {h : History} (habandoned : Abandoned h) : Unconfirmed h := by
  obtain ⟨hfailing, o, ho, hpressed, hafter⟩ := habandoned
  exact ⟨hfailing, o, ho, hpressed, by simp [hafter]⟩

/-- A power reported as on was announced last or all attempts were made, and it
is not reported after an unconfirmed attempt and a failed one, exactly if no
attempt failed right after one whose key went unanswered. -/
theorem setPower_on_report_iff {t : Trace (System SessionWire)} {out : PowerOutput}
    (h : Run (setPower fuel host port true) t (.ok out)) :
    ((out.power = "on" → lastStart t = some true ∨ attempts t = powerOnAttempts) ∧
      (Unconfirmed (history t) → out.power ≠ "on")) ↔ ¬Abandoned (history t) := by
  obtain ⟨hlen, attempt, hpower, hended⟩ :=
    setPower_observed t _ h (history t) (path_fold.mpr rfl) out rfl
  have hfour : powerOnAttempts = 4 := rfl
  rw [hpower, ne_eq, powerStr_eq_on, lastStart_eq, attempts_eq, hfour]
  cases hended with
  | last hreports hsettled =>
      have hnot : ¬(history t).last.Failing := hreports.notFailed
      refine iff_of_true ⟨fun hon => ?_, fun hunconfirmed => absurd hunconfirmed.1 hnot⟩
        (fun habandoned => hnot habandoned.1)
      exact (resulting_last hreports hsettled hon).imp_right (congrArg (· + 1))
  | failed o rest hearlier hreports hretried hfailed =>
      have hresulting := resulting_failed hearlier hreports hretried hfailed
      constructor
      · rintro ⟨_, hoff⟩ habandoned
        exact hoff habandoned.unconfirmed (hresulting.mpr habandoned)
      · intro hnot
        have hoff : attempt.resulting ≠ true := fun hon => hnot (hresulting.mp hon)
        exact ⟨fun hon => absurd hon hoff, fun _ => hoff⟩

/-- A TV that takes the key without an answer and then refuses connections. -/
def fallsSilent : Script RemoteMessage := { connects := [.ok 1], inbox := [started false] }

def claimedOn : PowerOutput :=
  { timestamp := "", host := "192.168.1.20", power := "on", changed := true, wol := none }

theorem fallsSilent_run : Run (setPower 9 livingRoom 6466 true)
    (fallsSilent.play (setPower 9 livingRoom 6466 true)).1 (.ok claimedOn) :=
  fallsSilent.run_play _

theorem setPower_claims_on_early : ¬∀ (fuel : Nat) (host : IpAddr) (port : UInt16)
    (t : Trace (System SessionWire)) (out : PowerOutput),
    Run (setPower fuel host port true) t (.ok out) → out.power = "on" →
      lastStart t = some true ∨ attempts t = powerOnAttempts := by
  intro h
  have hsilent := h 9 livingRoom 6466 _ claimedOn fallsSilent_run rfl
  revert hsilent
  decide

/-- A TV that ignores the first key and follows the second. -/
def secondTry : Script RemoteMessage :=
  { connects := [.ok 1, .ok 2]
    inbox := [started false, .error endOfStream, started false, started true] }

theorem setPower_on_report_secondTry :
    let t := (secondTry.play (setPower 9 livingRoom 6466 true)).1
    ((claimedOn.power = "on" → lastStart t = some true ∨ attempts t = powerOnAttempts) ∧
      (Unconfirmed (history t) → claimedOn.power ≠ "on")) ↔ ¬Abandoned (history t) := by
  have hrun : Run (setPower 9 livingRoom 6466 true) _ (.ok claimedOn) := secondTry.run_play _
  exact setPower_on_report_iff hrun

end AtvRemote.PowerReport
