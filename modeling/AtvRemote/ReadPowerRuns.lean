import AtvRemote.Links
import AtvRemote.Scripts
import AtvRemote.SessionRules
import AtvRemote.Transcripts

namespace AtvRemote.ReadPowerRuns

open Programs Contracts CommandRules Errors Messages SystemCalls Framing FramingRules
  Translations Streams Links
  Transcripts Handshake Session SessionRules Scripts

variable {codec : Codec RemoteMessage} {conn : Conn}

inductive Verdict
  | power (on : Bool)
  | error
  | silence
  deriving DecidableEq, Repr

def settle : Kind → Option Verdict
  | .start on => some (.power on)
  | .error => some .error
  | .configure _ | .setActive | .ping _ | .ignorable => none

structure Outcome (codec : Codec RemoteMessage) where
  verdict : Verdict
  replies : List RemoteMessage
  rest : List (Framed codec)

/-- The handshake over a sequence of messages. -/
def handshake (active : Int32) : List (Framed codec) → Outcome codec
  | [] => ⟨.silence, [], []⟩
  | f :: frames =>
      let k := kind f.message
      match settle k with
      | some verdict => ⟨verdict, [], frames⟩
      | none =>
          let later := handshake (narrow active k) frames
          { later with replies := (reply (narrow active k) k).toList ++ later.replies }

theorem handshake_settled {active : Int32} {f : Framed codec} {frames : List (Framed codec)}
    {verdict : Verdict}
    (h : settle (kind f.message) = some verdict) :
    handshake active (f :: frames) = ⟨verdict, [], frames⟩ := by
  simp only [handshake, h]

theorem handshake_unsettled {active : Int32} {f : Framed codec} {frames : List (Framed codec)}
    (h : settle (kind f.message) = none) : handshake active (f :: frames) =
      { handshake (narrow active (kind f.message)) frames with
        replies := (reply (narrow active (kind f.message)) (kind f.message)).toList ++
          (handshake (narrow active (kind f.message)) frames).replies } := by
  simp only [handshake, h]

def Concludes : Verdict → Except Stop SessionHandshake → Prop
  | .power on, r => ∃ hs, r = .ok hs ∧ hs.power = some on
  | .error, r => r = .error (.error remoteErrorReported)
  | .silence, r => ∃ e any, r = .error (.error (mapSessionReadError e any))

theorem readPowerLoop_known {hs : SessionHandshake} {on : Bool} (h : hs.power = some on)
    (fuel : Nat) (any : Bool) :
    readPowerLoop conn (fuel + 1) hs any = pure hs := by
  simp [readPowerLoop, h]

theorem settle_hear {power : Option Bool} {k : Kind} (h : settle k = none) :
    hear power k = power := by
  cases k <;> first | rfl | cases h

theorem settle_power {k : Kind} {on : Bool} : settle k = some (.power on) ↔ k = .start on := by
  cases k <;> simp [settle]

theorem settle_error {k : Kind} (h : settle k = none) : k ≠ .error := by
  rintro rfl
  cases h

/-- The loop computes the handshake over the messages of its connection. -/
theorem readPowerLoop_handshake (fuel : Nat) {hs : SessionHandshake} {any : Bool} {l : Link codec}
    (hfuel : l.inbox.length < fuel) (hp : hs.power = none) :
    Meets (Exchanges conn) (readPowerLoop conn fuel hs any) l (fun r l' =>
      Concludes (handshake hs.activeFeatures l.inbox).verdict r ∧
        l' = ⟨(handshake hs.activeFeatures l.inbox).rest,
          l.outbox ++ (handshake hs.activeFeatures l.inbox).replies⟩) := by
  induction fuel generalizing hs any l with
  | zero => omega
  | succ fuel ih =>
      rw [readPowerLoop]
      rw [if_pos (by rw [hp]; rfl)]
      refine meets_request_bind.mpr fun x l₁ hstep => meets_orRaise_bind.mpr ⟨?_, ?_⟩
      · rintro m rfl
        obtain ⟨f, rfl, rfl⟩ := (if_pos rfl).mp hstep
        obtain ⟨inbox, outbox⟩ := l₁
        have hfuel : inbox.length < fuel := Nat.lt_of_succ_lt_succ hfuel
        dsimp only
        rw [handle_eq]
        cases hsettle : settle (kind f.message) with
        | some verdict =>
            rw [handshake_settled hsettle, List.append_nil]
            cases hk : kind f.message with
            | start on =>
                rw [hk] at hsettle
                cases hsettle
                obtain ⟨fuel, rfl⟩ := Nat.exists_eq_add_one_of_ne_zero (Nat.ne_zero_of_lt hfuel)
                change Meets _ (readPowerLoop conn (fuel + 1) ⟨some on, _⟩ true) _ _
                rw [readPowerLoop_known rfl]
                exact meets_pure.mpr ⟨⟨_, rfl, rfl⟩, rfl⟩
            | error =>
                rw [hk] at hsettle
                cases hsettle
                exact meets_raise_bind.mpr ⟨rfl, rfl⟩
            | _ =>
                rw [hk] at hsettle
                cases hsettle
        | none =>
            rw [if_neg (settle_error hsettle), settle_hear hsettle, handshake_unsettled hsettle]
            have hnext (outbox : List RemoteMessage) :=
              @ih ⟨hs.power, narrow hs.activeFeatures (kind f.message)⟩ true
                ⟨inbox, outbox⟩ hfuel hp
            cases hreply : reply (narrow hs.activeFeatures (kind f.message)) (kind f.message) with
            | none => exact hnext outbox
            | some r =>
                refine meets_request_bind.mpr fun y l₂ hsent => ?_
                obtain ⟨rfl, rfl⟩ := (if_pos rfl).mp hsent
                refine (hnext (outbox ++ [r])).mono fun q l' h => ⟨h.1, h.2.trans ?_⟩
                simp
      · rintro e rfl
        obtain ⟨hempty, rfl⟩ := (if_pos rfl).mp hstep
        obtain ⟨inbox, outbox⟩ := l₁
        obtain rfl : inbox = [] := hempty
        exact ⟨⟨e, any, rfl⟩, by rw [handshake, List.append_nil]⟩

def repliesTo (active : Int32) : List Kind → List RemoteMessage
  | [] => []
  | k :: kinds => (reply (narrow active k) k).toList ++ repliesTo (narrow active k) kinds

def kinds (frames : List (Framed codec)) : List Kind := frames.map fun f => kind f.message

theorem handshake_append {before : List (Framed codec)}
    (h : ∀ b ∈ before, settle (kind b.message) = none)
    (active : Int32) (rest : List (Framed codec)) : ∃ active', handshake active (before ++ rest) =
      { handshake active' rest with
        replies := repliesTo active (kinds before) ++ (handshake active' rest).replies } := by
  induction before generalizing active with
  | nil => exact ⟨active, rfl⟩
  | cons b before ih =>
      obtain ⟨hb, hbefore⟩ := List.forall_mem_cons.mp h
      obtain ⟨active', hrest⟩ := ih hbefore (narrow active (kind b.message))
      refine ⟨active', ?_⟩
      rw [List.cons_append, handshake_unsettled hb, hrest]
      simp [repliesTo, kinds]

theorem handshake_power_iff (active : Int32) (frames : List (Framed codec)) :
    (∃ on, (handshake active frames).verdict = .power on) ↔ ∃ before f after on, frames =
    before ++ f :: after ∧
      kind f.message = .start on ∧ ∀ b ∈ before, kind b.message ≠ .error := by
  induction frames generalizing active with
  | nil =>
      constructor
      · rintro ⟨on, h⟩
        cases h
      · rintro ⟨before, f, after, on, h, _⟩
        exact absurd h (by simp)
  | cons f frames ih =>
      cases hsettle : settle (kind f.message) with
      | none =>
          rw [handshake_unsettled hsettle, ih]
          constructor
          · rintro ⟨before, g, after, on, rfl, hg, hbefore⟩
            exact ⟨f :: before, g, after, on, rfl, hg, List.forall_mem_cons.mpr
              ⟨settle_error hsettle, hbefore⟩⟩
          · rintro ⟨before, g, after, on, heq, hg, hbefore⟩
            cases before with
            | nil =>
                obtain ⟨rfl, rfl⟩ := List.cons.inj heq
                rw [hg] at hsettle
                cases hsettle
            | cons b before =>
                obtain ⟨rfl, rfl⟩ := List.cons.inj heq
                exact ⟨before, g, after, on, rfl, hg, (List.forall_mem_cons.mp hbefore).2⟩
      | some verdict =>
          rw [handshake_settled hsettle]
          constructor
          · rintro ⟨on, rfl⟩
            exact ⟨[], f, frames, on, rfl, settle_power.mp hsettle, List.forall_mem_nil _⟩
          · rintro ⟨before, g, after, on, heq, hg, hbefore⟩
            cases before with
            | nil =>
                obtain ⟨rfl, rfl⟩ := List.cons.inj heq
                rw [hg] at hsettle
                exact ⟨on, (Option.some.inj hsettle).symm⟩
            | cons b before =>
                obtain ⟨rfl, rfl⟩ := List.cons.inj heq
                have herror := (List.forall_mem_cons.mp hbefore).1
                cases hk : kind f.message with
                | start on' =>
                    rw [hk] at hsettle
                    exact ⟨on', (Option.some.inj hsettle).symm⟩
                | error => exact absurd hk herror
                | _ =>
                    rw [hk] at hsettle
                    cases hsettle

/-- A reply carries the field that matches the message, and no other. -/
def Answers : Kind → RemoteMessage → Prop
  | .configure _, m => ∃ configure, m = { remoteConfigure := some configure }
  | .setActive, m => ∃ setActive, m = { remoteSetActive := some setActive }
  | .ping val1, m => m = { remotePingResponse := some ⟨val1⟩ }
  | .start _, _ | .error, _ | .ignorable, _ => False

def isRequest : Kind → Bool
  | .configure _ | .setActive | .ping _ => true
  | .start _ | .error | .ignorable => false

theorem repliesTo_answers (active : Int32) (kinds : List Kind) :
    List.Forall₂ Answers (kinds.filter isRequest) (repliesTo active kinds) := by
  induction kinds generalizing active with
  | nil => exact .nil
  | cons k kinds ih =>
      cases k with
      | configure code1 => exact .cons ⟨_, rfl⟩ (ih _)
      | setActive => exact .cons ⟨_, rfl⟩ (ih _)
      | ping val1 => exact .cons rfl (ih _)
      | _ => exact ih _

def Answered (codec : Codec RemoteMessage) (frames : List (Framed codec)) (written : Bytes) :
    Prop :=
  ∃ replies, written = replies.flatMap (frame codec) ∧ List.Forall₂ Answers
    ((kinds frames).filter isRequest) replies

/-- What `readPower` makes of the messages on its connection. -/
structure Follows (frames : List (Framed codec)) (conn : Conn)
    (r : Except Stop (Bool × Conn × SessionHandshake))
    (s : Tape) : Prop where
  succeeds : (∃ out, r = .ok out) ↔ ∃ before f after on, frames = before ++ f :: after ∧
    kind f.message = .start on ∧ ∀ b ∈ before, kind b.message ≠ .error
  started : ∀ before f after on, frames = before ++ f :: after → kind f.message = .start on →
    (∀ b ∈ before, settle (kind b.message) = none) →
      (∃ hs, r = .ok (on, conn, hs)) ∧ s.unread = stream after ∧ Answered codec before s.written
  failed : ∀ before f after, frames = before ++ f :: after → kind f.message = .error →
    (∀ b ∈ before, settle (kind b.message) = none) →
      (∃ e, r = .error (.error e) ∧ e.kind = .protocolError) ∧ Answered codec before s.written

def ConcludesOn (conn : Conn) : Verdict → Except Stop (Bool × Conn × SessionHandshake) → Prop
  | .power on, r => ∃ hs, r = .ok (on, conn, hs)
  | .error, r => r = .error (.error remoteErrorReported)
  | .silence, r => ∃ e, r = .error (.error e)

theorem follows_of_handshake {frames : List (Framed codec)}
    {r : Except Stop (Bool × Conn × SessionHandshake)}
    (h : ConcludesOn conn (handshake features frames).verdict r) :
    Follows frames conn r
      (Link.tape ⟨(handshake features frames).rest, (handshake features frames).replies⟩) := by
  constructor
  · rw [← handshake_power_iff features]
    constructor
    · rintro ⟨out, rfl⟩
      cases hverdict : (handshake features frames).verdict with
      | power on => exact ⟨on, rfl⟩
      | error =>
          rw [hverdict] at h
          cases h
      | silence =>
          rw [hverdict] at h
          obtain ⟨e, ⟨⟩⟩ := h
    · rintro ⟨on, hverdict⟩
      rw [hverdict] at h
      obtain ⟨hs, rfl⟩ := h
      exact ⟨_, rfl⟩
  · rintro before f after on rfl hf hbefore
    obtain ⟨active, heq⟩ := handshake_append hbefore features (f :: after)
    rw [handshake_settled (settle_power.mpr hf)] at heq
    rw [heq] at h ⊢
    exact ⟨h, rfl, _, by rw [Link.tape, List.append_nil], repliesTo_answers _ _⟩
  · rintro before f after rfl hf hbefore
    obtain ⟨active, heq⟩ := handshake_append hbefore features (f :: after)
    have hsettle : settle (kind f.message) = some .error := by rw [hf]; rfl
    rw [handshake_settled hsettle] at heq
    rw [heq] at h ⊢
    exact ⟨⟨_, h, rfl⟩, _, by rw [Link.tape, List.append_nil], repliesTo_answers _ _⟩

theorem Concludes.ok {verdict : Verdict} {hs : SessionHandshake} (h : Concludes verdict (.ok hs)) :
    ∃ on, verdict = .power on ∧ hs.power = some on := by
  cases verdict with
  | power on =>
      obtain ⟨_, ⟨rfl⟩, hpower⟩ := h
      exact ⟨on, rfl, hpower⟩
  | error => cases h
  | silence => obtain ⟨e, any, ⟨⟩⟩ := h

theorem Concludes.error {verdict : Verdict} {stop : Stop} (h : Concludes verdict (.error stop)) :
    ConcludesOn conn verdict (.error stop) := by
  cases verdict with
  | power on => obtain ⟨_, ⟨⟩, _⟩ := h
  | error =>
      cases h
      rfl
  | silence =>
      obtain ⟨e, any, ⟨rfl⟩⟩ := h
      exact ⟨_, rfl⟩

def afterOpening (fuel : Nat) (conn : Conn) :
    Command SessionWire (Bool × Conn × SessionHandshake) := do
  let hs ← readPowerLoop conn fuel SessionHandshake.new false
  let power ← expect hs.power "loop exits only with power set"
  pure (power, conn, hs)

theorem readPower_eq (fuel : Nat) (host : IpAddr) (port : UInt16) :
    readPower fuel host port = openSession host port >>= afterOpening fuel := rfl

theorem afterOpening_handshake {fuel : Nat} {frames : List (Framed codec)}
    (hfuel : frames.length < fuel) :
    Meets (Exchanges conn) (afterOpening fuel conn) (⟨frames, []⟩ : Link codec) (fun r l' =>
      ConcludesOn conn (handshake features frames).verdict r ∧
        l' = ⟨(handshake features frames).rest, (handshake features frames).replies⟩) := by
  refine (readPowerLoop_handshake fuel hfuel rfl).bind ?_ (fun e l' h => ⟨Concludes.error h.1, h.2⟩)
  rintro hs l' ⟨hconcludes, hl'⟩
  obtain ⟨on, hverdict, hpower⟩ := Concludes.ok hconcludes
  rw [hpower]
  refine meets_pure.mpr ⟨?_, hl'⟩
  rw [show (handshake features frames).verdict = .power on from hverdict]
  exact ⟨hs, rfl⟩

theorem status_events (fuel : Nat) (host : IpAddr) (port : UInt16) :
    Throughout HandshakeEvent (status fuel host port) := by
  apply (readPower_events fuel host port).bind
  rintro ⟨on, conn, hs⟩
  exact fun text => ⟨trivial, trivial⟩

/-- `readPower` is the handshake over the messages that arrive on its
connection while nothing goes wrong; `status` writes no message that acts on the
TV, whatever happens. -/
theorem readPower_is_handshake (codec : Codec RemoteMessage) (fuel : Nat) (host : IpAddr)
    (port : UInt16) :
    (∀ (frames : List (Framed codec)) (u v : Trace (System ByteWire)) (conn : Conn)
      (r : Except Stop (Bool × Conn × SessionHandshake)) (s s' : Conn → Tape),
      Run ((openSession host port).translate (overBytes codec)) u (.ok conn) →
      Run ((readPower fuel host port).translate (overBytes codec)) (u ++ v) r →
      Path (Each Duplex) s v s' → s conn = ⟨stream frames, []⟩ → frames.length < fuel →
        Follows frames conn r (s' conn)) ∧
    ∀ (v : Trace (System ByteWire)) (r : Except Stop StatusOutput),
      Run ((status fuel host port).translate (overBytes codec)) v r →
        ∃ t, Run (status fuel host port) t r ∧ Realizes (overBytes codec) t v ∧
          ∀ m ∈ sent t, m.remoteKeyInject = none ∧ m.remoteAppLinkLaunchRequest = none := by
  constructor
  · intro frames u v conn r s s' hopen hrun hpath hs hfuel
    rw [readPower_eq, translate_bind] at hrun
    have hafter := run_after hopen hrun
    obtain ⟨l', htape, hconcludes, rfl⟩ :=
      meets_overBytes (afterOpening_handshake hfuel) hs v r hafter s' hpath
    rw [htape]
    exact follows_of_handshake hconcludes
  · intro v r hrun
    obtain ⟨t, ht, hreal⟩ := run_translate overBytes_answers hrun
    refine ⟨t, ht, hreal, fun m hm => ?_⟩
    obtain ⟨conn, x, he⟩ := mem_sent hm
    obtain ⟨active, k, hreply⟩ := (status_events fuel host port).ensures t r ht _ he
    cases k <;> cases hreply <;> exact ⟨rfl, rfl⟩

def answerBytes : (o : SystemOp ByteOp) → Script Unit × (Conn → Tape) →
    SystemOp.Answer ByteOp.Answer o × Script Unit × (Conn → Tape)
  | .wire conn (.read n), (script, tapes) =>
      (.ok ⟨(tapes conn).unread.take n, List.length_take_le _ _⟩, script,
        Function.update tapes conn ⟨(tapes conn).unread.drop n, (tapes conn).written⟩)
  | .wire conn (.writeAll bytes), (script, tapes) =>
      (.ok (), script, Function.update tapes conn
        ⟨(tapes conn).unread, (tapes conn).written ++ bytes⟩)
  | .host o, (script, tapes) => ((script.hostAnswer o).1, (script.hostAnswer o).2, tapes)

theorem answerBytes_duplex (o : SystemOp ByteOp) (s : Script Unit × (Conn → Tape)) :
    Each Duplex s.2 ⟨o, (answerBytes o s).1⟩ (answerBytes o s).2.2 := by
  obtain ⟨script, tapes⟩ := s
  rcases o with ⟨conn, n | bytes⟩ | o
  · refine ⟨?_, fun c hc => Function.update_of_ne hc _ _⟩
    simp only [answerBytes, Function.update_self]
    refine ⟨⟨(List.take_append_drop n _).symm, fun hnil => ?_⟩, (List.append_nil _).symm⟩
    exact (List.take_eq_nil_iff.mp hnil).symm
  · refine ⟨?_, fun c hc => Function.update_of_ne hc _ _⟩
    simp only [answerBytes, Function.update_self]
    exact ⟨⟨rfl, rfl⟩, rfl⟩
  · rfl

/-- The protobuf encoding of pings with small values, answers to them and starts. -/
def pingCodec : Codec RemoteMessage where
  encode m := match m.remotePingResponse with
    | some pong => [0x4a, 0x02, 0x08, pong.val1.toUInt32.toUInt8]
    | none => []
  decode
    | [0x42, 0x02, 0x08, b] => .ok { remotePingRequest := some { val1 := b.toUInt32.toInt32 } }
    | [0xc2, 0x02, 0x02, 0x08, b] => .ok { remoteStart := some ⟨b ≠ 0⟩ }
    | _ => .error "failed to decode Protobuf message"

/-- A peer with which the client cannot pair. -/
def foreignCodec : Codec OuterMessage :=
  ⟨fun _ => [], fun _ => .error "failed to decode Protobuf message"⟩

def pingFrame : Framed pingCodec where
  bytes := [0x04, 0x42, 0x02, 0x08, 0x19]
  message := { remotePingRequest := some { val1 := 25 } }
  isFrame :=
    ⟨[0x04], [0x42, 0x02, 0x08, 0x19], rfl,
      (by decide : (0x04 : UInt8).toNat < 128), by decide, by decide, rfl, rfl⟩

def startFrame : Framed pingCodec where
  bytes := [0x05, 0xc2, 0x02, 0x02, 0x08, 0x01]
  message := { remoteStart := some ⟨true⟩ }
  isFrame :=
    ⟨[0x05], [0xc2, 0x02, 0x02, 0x08, 0x01], rfl,
      (by decide : (0x05 : UInt8).toNat < 128), by decide, by decide, rfl, rfl⟩

def pinging : Script Unit × (Conn → Tape) :=
  ({ connects := [.ok 7] }, fun _ => ⟨stream [pingFrame, startFrame], []⟩)

abbrev playBytes {α : Type} (p : Command (MessageWire RemoteMessage) α)
    (s : Script Unit × (Conn → Tape)) :
    Trace (System ByteWire) × Except Stop α × Script Unit × (Conn → Tape) :=
  (p.translate (overBytes pingCodec)).exec (S := System ByteWire) answerBytes s

def opened : Script Unit × (Conn → Tape) := (playBytes (openSession livingRoom 6466) pinging).2.2

/-- The TV pings once and then announces that it is on. -/
theorem readPower_is_handshake_ping :
    let outcome := playBytes (afterOpening 3 ⟨7⟩) opened
    Follows [pingFrame, startFrame] ⟨7⟩ outcome.2.1 (outcome.2.2.2 ⟨7⟩) := by
  intro outcome
  have hopen : Run ((openSession livingRoom 6466).translate (overBytes pingCodec))
      (playBytes (openSession livingRoom 6466) pinging).1 (.ok ⟨7⟩) := run_exec _ _ pinging
  have hrun : Run ((readPower 3 livingRoom 6466).translate (overBytes pingCodec))
      ((playBytes (openSession livingRoom 6466) pinging).1 ++ outcome.1) outcome.2.1 := by
    rw [readPower_eq, translate_bind]
    exact run_bind.mpr (.inl ⟨⟨7⟩, _, _, rfl, hopen, run_exec _ _ opened⟩)
  exact (readPower_is_handshake pingCodec 3 livingRoom 6466).1 _ _ _ ⟨7⟩ _ _ _ hopen hrun
    (path_exec (f := Prod.snd) answerBytes_duplex _ opened) rfl (by decide)

end AtvRemote.ReadPowerRuns
