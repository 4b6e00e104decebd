import AtvRemote.PairingRuns
import AtvRemote.ReadPowerRuns
import AtvRemote.Rounds

namespace AtvRemote.HandshakeLoops

open Programs Contracts CommandRules Errors Messages SystemCalls Rounds

variable {M α : Type} {conn : Conn}

/-- A TV that always has another message in time, and takes or refuses what is
written after a number of messages. The number is that of the messages read. -/
def feed (inbox : Nat → M) (writes : Nat → Except IoError Unit) (host : (o : HostOp) → o.Answer) :
    (o : SystemOp (MessageOp M)) → Nat → SystemOp.Answer MessageOp.Answer o × Nat
  | .wire _ .recv, n => (.ok (inbox n), n + 1)
  | .wire _ (.send _), n => (writes n, n)
  | .host o, n => (host o, n)

abbrev fed (inbox : Nat → M) (writes : Nat → Except IoError Unit) (host : (o : HostOp) → o.Answer)
    (p : Command (MessageWire M) α) (n : Nat) : Except Stop α :=
  outcome (S := System (MessageWire M)) (feed inbox writes host) p n

/-- The loop is left after finitely many messages. -/
def Exits (inbox : Nat → M) (writes : Nat → Except IoError Unit) (host : (o : HostOp) → o.Answer)
    (loop : Nat → Command (MessageWire M) α) : Prop :=
  ∃ fuel, fed inbox writes host (loop fuel) 0 ≠ .error .unfinished

theorem fed_readMessage_bind {inbox : Nat → M} {writes : Nat → Except IoError Unit}
    {host : (o : HostOp) → o.Answer}
    {g : Except IoError M → Command (MessageWire M) α} {n : Nat} :
    fed inbox writes host (readMessage conn >>= g) n = fed inbox writes host
      (g (.ok (inbox n))) (n + 1) := rfl

theorem fed_writeMessage_bind {inbox : Nat → M} {writes : Nat → Except IoError Unit}
    {host : (o : HostOp) → o.Answer}
    {m : M} {g : Except IoError Unit → Command (MessageWire M) α} {n : Nat} :
    fed inbox writes host (writeMessage conn m >>= g) n = fed inbox writes host (g (writes n)) n :=
  rfl

section Session

open Handshake Session SessionRules ReadPowerRuns

variable {inbox : Nat → RemoteMessage} {writes : Nat → Except IoError Unit}
  {host : (o : HostOp) → o.Answer}
  {hs : SessionHandshake} {any : Bool} {n : Nat}

/-- The message after `n` others decides the handshake, or cannot be answered. -/
def EndsHandshake (inbox : Nat → RemoteMessage) (writes : Nat → Except IoError Unit) (n : Nat) :
    Prop :=
  (∃ verdict, settle (kind (inbox n)) = some verdict) ∨
    (isRequest (kind (inbox n)) = true ∧ ∃ e, writes (n + 1) = .error e)

theorem reply_isSome (active : Int32) (k : Kind) : (reply active k).isSome = isRequest k := by
  cases k <;> rfl

theorem readPowerLoop_round (hp : hs.power = none) (fuel : Nat) :
    fed inbox writes host (readPowerLoop conn (fuel + 1) hs any) n =
      if kind (inbox n) = .error then .error (.error remoteErrorReported)
      else match reply (next hs (kind (inbox n))).activeFeatures (kind (inbox n)),
        writes (n + 1) with
        | some _, .error e => .error (.error (sessionWriteFailed e))
        | _, _ =>
            fed inbox writes host (readPowerLoop conn fuel (next hs (kind (inbox n))) true)
              (n + 1) := by
  rw [readPowerLoop]
  rw [if_pos (by rw [hp]; rfl)]
  rw [fed_readMessage_bind]
  simp only [orRaise, Program.pure_bind, handle_eq]
  by_cases herror : kind (inbox n) = .error
  · rw [if_pos herror, if_pos herror]
    rfl
  · rw [if_neg herror, if_neg herror]
    simp only [propagate, orRaise, Program.pure_bind]
    change _ = match reply (narrow hs.activeFeatures (kind (inbox n))) (kind (inbox n)),
      writes (n + 1) with
      | some _, .error e => _
      | _, _ => _
    cases reply (narrow hs.activeFeatures (kind (inbox n))) (kind (inbox n)) with
    | none => rfl
    | some r =>
        dsimp only
        rw [fed_writeMessage_bind]
        cases writes (n + 1) <;> rfl

theorem readPowerLoop_driven (conn : Conn) (inbox : Nat → RemoteMessage)
    (writes : Nat → Except IoError Unit)
    (host : (o : HostOp) → o.Answer) :
    Driven (fun fuel n s => fed inbox writes host (readPowerLoop conn fuel s.1 s.2) n =
      .error .unfinished)
      (fun s : SessionHandshake × Bool => s.1.power = none)
      (fun n => ¬EndsHandshake inbox writes n) where
  empty _ _ := rfl
  on := by
    rintro n ⟨hs, any⟩ hp hon
    have hsettle : settle (kind (inbox n)) = none := by
      by_contra hsome
      exact hon (.inl (Option.ne_none_iff_exists'.mp hsome))
    refine ⟨(next hs (kind (inbox n)), true), (settle_hear hsettle).trans hp, fun fuel => ?_⟩
    have hreply := reply_isSome (next hs (kind (inbox n))).activeFeatures (kind (inbox n))
    dsimp only
    rw [readPowerLoop_round hp, if_neg (settle_error hsettle)]
    cases hr : reply (next hs (kind (inbox n))).activeFeatures (kind (inbox n)) with
    | none => exact Iff.rfl
    | some r =>
        cases hwrite : writes (n + 1) with
        | ok _ => exact Iff.rfl
        | error e =>
            rw [hr] at hreply
            exact absurd (.inr ⟨hreply.symm, e, hwrite⟩) hon
  off := by
    rintro n ⟨hs, any⟩ hp hoff
    refine ⟨2, ?_⟩
    have hreply := reply_isSome (next hs (kind (inbox n))).activeFeatures (kind (inbox n))
    dsimp only
    rw [readPowerLoop_round hp]
    rcases Classical.not_not.mp hoff with ⟨verdict, hverdict⟩ | ⟨hrequest, e, hwrite⟩
    · cases hk : kind (inbox n) with
      | start on => exact nofun
      | error => exact nofun
      | _ =>
          rw [hk] at hverdict
          cases hverdict
    · have hne : kind (inbox n) ≠ .error := by
        intro hk
        rw [hk] at hrequest
        cases hrequest
      rw [hrequest] at hreply
      obtain ⟨r, hr⟩ := Option.isSome_iff_exists.mp hreply
      rw [if_neg hne, hr, hwrite]
      exact nofun

/-- A TV that only pings. -/
def pings : Nat → RemoteMessage := fun _ => { remotePingRequest := some {} }

theorem readPowerLoop_pinged (conn : Conn) (host : (o : HostOp) → o.Answer) :
    ¬Exits pings (fun _ => .ok ()) host fun fuel =>
      readPowerLoop conn fuel SessionHandshake.new false := by
  rintro ⟨fuel, hfuel⟩
  apply hfuel
  apply (readPowerLoop_driven conn pings _ host).stuck_of_goesOn
    (s := (SessionHandshake.new, false)) rfl
  rintro i (⟨verdict, ⟨⟩⟩ | ⟨_, e, ⟨⟩⟩)

end Session

section Pairing

open Pairing PairingRuns

variable {inbox : Nat → OuterMessage} {writes : Nat → Except IoError Unit}
  {host : (o : HostOp) → o.Answer} {n : Nat}

/-- The same for a message of a pairing. -/
def EndsPairing (inbox : Nat → OuterMessage) (writes : Nat → Except IoError Unit) (n : Nat) :
    Prop :=
  phase (inbox n) = .configurationAck ∨ (∃ e, rejection (inbox n) = some e) ∨
    ((answer (inbox n)).isSome ∧ ∃ e, writes (n + 1) = .error e)

theorem pairLoop_round (fuel : Nat) :
    fed inbox writes host (pairLoop conn (fuel + 1) .new) n = match rejection (inbox n) with
      | some e => .error (.error e)
      | none => match answer (inbox n), writes (n + 1) with
        | some _, .error e => .error (.error (protoErr e))
        | _, _ =>
            fed inbox writes host
              (pairLoop conn fuel ⟨decide (phase (inbox n) = .configurationAck)⟩) (n + 1) := by
  rw [pairLoop]
  rw [if_pos (by rfl)]
  rw [fed_readMessage_bind]
  simp only [orRaise, Program.pure_bind, handle_eq]
  cases rejection (inbox n) with
  | some e => rfl
  | none =>
      simp only [propagate, orRaise, Program.pure_bind]
      cases answer (inbox n) with
      | none => rfl
      | some reply =>
          dsimp only
          rw [fed_writeMessage_bind]
          cases writes (n + 1) <;> rfl

theorem pairLoop_driven (conn : Conn) (inbox : Nat → OuterMessage)
    (writes : Nat → Except IoError Unit)
    (host : (o : HostOp) → o.Answer) :
    Driven (fun fuel n flow => fed inbox writes host (pairLoop conn fuel flow) n =
      .error .unfinished)
      (fun flow => flow = .new) (fun n => ¬EndsPairing inbox writes n) where
  empty _ _ := rfl
  on := by
    rintro n _ rfl hon
    have hack : phase (inbox n) ≠ .configurationAck := fun h => hon (.inl h)
    refine ⟨.new, rfl, fun fuel => ?_⟩
    rw [pairLoop_round, decide_eq_false hack]
    cases hrejection : rejection (inbox n) with
    | some e => exact absurd (.inr (.inl ⟨e, hrejection⟩)) hon
    | none =>
        cases hanswer : answer (inbox n) with
        | none => exact Iff.rfl
        | some reply =>
            cases hwrite : writes (n + 1) with
            | ok _ => exact Iff.rfl
            | error e => exact absurd (.inr (.inr ⟨by rw [hanswer]; rfl, e, hwrite⟩)) hon
  off := by
    rintro n _ rfl hoff
    refine ⟨2, ?_⟩
    rw [pairLoop_round]
    rcases Classical.not_not.mp hoff with hack | ⟨e, hrejection⟩ | ⟨hanswer, e, hwrite⟩
    · have hrejection : rejection (inbox n) = none := by rw [rejection, hack]
      rw [hrejection, answer_configurationAck hack, decide_eq_true hack]
      exact nofun
    · rw [hrejection]
      exact nofun
    · obtain ⟨reply, hanswer⟩ := Option.isSome_iff_exists.mp hanswer
      rw [hanswer, hwrite]
      split <;> exact nofun

/-- A TV that only repeats the acknowledgement of the request. -/
def requestAcks : Nat → OuterMessage := fun _ => { pairingRequestAck := some {} }

theorem pairLoop_repeated (conn : Conn) (host : (o : HostOp) → o.Answer) :
    ¬Exits requestAcks (fun _ => .ok ()) host fun fuel => pairLoop conn fuel .new := by
  rintro ⟨fuel, hfuel⟩
  apply hfuel
  apply (pairLoop_driven conn requestAcks _ host).stuck_of_goesOn (s := .new) rfl
  rintro i (hack | ⟨e, he⟩ | ⟨_, e, ⟨⟩⟩)
  · exact absurd hack (by decide : phase (requestAcks 0) ≠ .configurationAck)
  · cases (by decide : rejection (requestAcks 0) = none).symm.trans he

end Pairing

open Handshake Session Pairing Scripts

/-- The loops of `readPower` and `pair` have no deadline: they are left exactly
if the TV sends a message that decides the handshake, or one whose answer
cannot be written. -/
theorem handshake_loops_exit_iff (conn : Conn) (host : (o : HostOp) → o.Answer)
    (writes : Nat → Except IoError Unit) :
    (∀ inbox, Exits inbox writes host
      (fun fuel => readPowerLoop conn fuel SessionHandshake.new false) ↔
      ∃ n, EndsHandshake inbox writes n) ∧
    ∀ inbox, Exits inbox writes host (fun fuel => pairLoop conn fuel .new) ↔
      ∃ n, EndsPairing inbox writes n := by
  constructor
  · intro inbox
    have hexits := (readPowerLoop_driven conn inbox writes host).exits_iff (n := 0)
      (s := (SessionHandshake.new, false)) rfl
    simp only [Nat.zero_add, Classical.not_not] at hexits
    exact hexits
  · intro inbox
    have hexits := (pairLoop_driven conn inbox writes host).exits_iff (n := 0) (s := .new) rfl
    simp only [Nat.zero_add, Classical.not_not] at hexits
    exact hexits

def atHome (o : HostOp) : o.Answer := (Script.hostAnswer (M := RemoteMessage) o {}).1

/-- Neither a TV that keeps pinging nor one that keeps acknowledging the
request is cut off. -/
theorem handshake_loops_held :
    (¬∀ (conn : Conn) (host : (o : HostOp) → o.Answer) (inbox : Nat → RemoteMessage),
      Exits inbox (fun _ => .ok ()) host fun fuel =>
        readPowerLoop conn fuel SessionHandshake.new false) ∧
    ¬∀ (conn : Conn) (host : (o : HostOp) → o.Answer) (inbox : Nat → OuterMessage),
      Exits inbox (fun _ => .ok ()) host fun fuel => pairLoop conn fuel .new :=
  ⟨fun h => readPowerLoop_pinged ⟨7⟩ atHome (h ⟨7⟩ atHome pings), fun h => pairLoop_repeated
    ⟨7⟩ atHome (h ⟨7⟩ atHome requestAcks)⟩

end AtvRemote.HandshakeLoops
