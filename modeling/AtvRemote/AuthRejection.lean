import AtvRemote.FrameGrammar
import AtvRemote.ReadPowerRuns

namespace AtvRemote.AuthRejection

open Programs Contracts CommandRules Errors Messages SystemCalls Framing FramingRules
  Translations Streams Links
  Varints FrameGrammar Handshake Session SessionRules Scripts ReadPowerRuns

variable {M α : Type} {codec : Codec M} {conn : Conn}

/-- The stream begins with a whole message. -/
def BeginsWhole (codec : Codec M) (bytes : Bytes) : Prop :=
  ∃ f after m, bytes = f ++ after ∧ IsFrame codec f m

/-- The stream begins with a frame that is malformed or too large. -/
inductive BeginsBad (codec : Codec M) : Bytes → Prop
  | tooLong {p after : Bytes} :
      p.length = 5 → (∀ b ∈ p, 128 ≤ b.toNat) → BeginsBad codec (p ++ after)
  | oversized {p after : Bytes} : Terminated p → p.length ≤ 5 → 2 ^ 20 < announced p →
      BeginsBad codec (p ++ after)
  | malformed {p body after : Bytes} {e : String} : Terminated p → p.length ≤ 5 →
      announced p ≤ 2 ^ 20 →
      body.length = announced p → codec.decode body = .error e → BeginsBad codec
        (p ++ (body ++ after))

/-- The stream stops before its first frame is whole. -/
inductive StopsShort : Bytes → Prop
  | inLength {bytes : Bytes} : bytes.length < 5 → (∀ b ∈ bytes, 128 ≤ b.toNat) → StopsShort bytes
  | inBody {p body : Bytes} : Terminated p → p.length ≤ 5 → announced p ≤ 2 ^ 20 →
      body.length < announced p →
      StopsShort (p ++ body)

theorem terminated_or_high (bytes : Bytes) :
    (∀ b ∈ bytes, 128 ≤ b.toNat) ∨ ∃ p after, bytes = p ++ after ∧ Terminated p := by
  induction bytes with
  | nil => exact .inl (List.forall_mem_nil _)
  | cons b bytes ih =>
      by_cases hb : b.toNat < 128
      · exact .inr ⟨[b], bytes, rfl, hb⟩
      · rcases ih with hhigh | ⟨p, after, rfl, hp⟩
        · exact .inl (List.forall_mem_cons.mpr ⟨Nat.not_lt.mp hb, hhigh⟩)
        · refine .inr ⟨b :: p, after, rfl, ?_⟩
          rw [terminated_cons, if_neg hb]
          exact hp

theorem Terminated.high {p : Bytes} (hp : Terminated p) {q after : Bytes} (h : p = q ++ after)
    (hafter : after ≠ []) :
    ∀ b ∈ q, 128 ≤ b.toNat := by
  induction q generalizing p with
  | nil => exact List.forall_mem_nil _
  | cons b q ih =>
      subst h
      rw [List.cons_append, terminated_cons] at hp
      split at hp
      · exact absurd (List.append_eq_nil_iff.mp hp).2 hafter
      next hb => exact List.forall_mem_cons.mpr ⟨Nat.not_lt.mp hb, ih hp rfl⟩

theorem begins_cases (codec : Codec M) (bytes : Bytes) :
    BeginsWhole codec bytes ∨ BeginsBad codec bytes ∨ StopsShort bytes := by
  by_cases hhigh : ∃ q after, bytes = q ++ after ∧ q.length = 5 ∧ ∀ b ∈ q, 128 ≤ b.toNat
  · obtain ⟨q, after, rfl, hq, hhigh⟩ := hhigh
    exact .inr (.inl (.tooLong hq hhigh))
  · have hfive : ∀ q after, bytes = q ++ after → (∀ b ∈ q, 128 ≤ b.toNat) → q.length < 5 := by
      intro q after hbytes hq
      by_contra hlen
      refine hhigh ⟨q.take 5, q.drop 5 ++ after, ?_, ?_, fun b hb => hq b (List.mem_of_mem_take hb)⟩
      · rw [← List.append_assoc, List.take_append_drop, hbytes]
      · rw [List.length_take]
        omega
    rcases terminated_or_high bytes with hall | ⟨p, after, rfl, hp⟩
    · exact .inr (.inr (.inLength (hfive bytes [] (List.append_nil _).symm hall) hall))
    · have hlen : p.length ≤ 5 := by
        have hlast := List.dropLast_append_getLast hp.ne_nil
        have hshort :=
          hfive p.dropLast ([p.getLast hp.ne_nil] ++ after) (by rw [← List.append_assoc, hlast])
          (Terminated.high hp hlast.symm (List.cons_ne_nil _ _))
        rw [List.length_dropLast] at hshort
        omega
      by_cases hover : 2 ^ 20 < announced p
      · exact .inr (.inl (.oversized hp hlen hover))
      · have hfits : announced p ≤ 2 ^ 20 := Nat.not_lt.mp hover
        by_cases hshort : after.length < announced p
        · exact .inr (.inr (.inBody hp hlen hfits hshort))
        · have hbody : (after.take (announced p)).length = announced p := by
            rw [List.length_take]
            omega
          rw [← List.take_append_drop (announced p) after]
          cases hdecode : codec.decode (after.take (announced p)) with
          | error e => exact .inr (.inl (.malformed hp hlen hfits hbody hdecode))
          | ok m =>
              refine .inl ⟨p ++ after.take (announced p), after.drop (announced p), m,
                (List.append_assoc _ _ _).symm, ?_⟩
              refine ⟨⟨p, _, rfl, hp, hlen, ?_, ?_, hdecode⟩⟩
              · rw [← announced_eq]
                exact hfits
              · rw [← announced_eq]
                exact hbody

theorem reading_whole {bytes : Bytes} (h : BeginsWhole codec bytes) :
    ∃ m, (reading codec bytes).2.1 = .ok m := by
  obtain ⟨f, after, m, rfl, hframe⟩ := h
  exact ⟨m, (meets_serves (readMessage_complete hframe after) _ _ (run_exec _ _ _) _
    (path_reading _ _)).1⟩

theorem reading_bad {bytes : Bytes} (h : BeginsBad codec bytes) :
    Fails .invalidData (reading codec bytes).2.1 := by
  cases h with
  | tooLong hp hhigh =>
      exact (readMessage_tooLong hp hhigh _ _ (run_exec _ _ _) _ (path_reading _ _)).1
  | oversized hp hlen hover =>
      exact (readMessage_oversized hp hlen hover _ _ (run_exec _ _ _) _ (path_reading _ _)).1
  | @malformed p body after e hp hlen hfits hbody hdecode =>
      have hread :=
        (@readMessage_whole M codec p body after hp hlen hfits hbody _ _ (run_exec _ _ _) _
          (path_reading codec _)).2
      rw [hdecode] at hread
      exact hread

theorem reading_short {bytes : Bytes} (h : StopsShort bytes) :
    Fails .unexpectedEof (reading codec bytes).2.1 := by
  cases h with
  | inLength hlen hhigh =>
      exact readMessage_endsInLength hlen hhigh _ _ (run_exec _ _ _) _ (path_reading _ _)
  | inBody hp hlen hfits hshort =>
      exact readMessage_endsInBody hp hlen hfits hshort _ _ (run_exec _ _ _) _ (path_reading _ _)

theorem not_whole_of_bad {bytes : Bytes} (h : BeginsBad codec bytes) :
    ¬BeginsWhole codec bytes := by
  intro hwhole
  obtain ⟨m, hm⟩ := reading_whole hwhole
  obtain ⟨e, he, _⟩ := reading_bad h
  rw [hm] at he
  cases he

theorem not_whole_of_short {bytes : Bytes} (h : StopsShort bytes) : ¬BeginsWhole codec bytes := by
  intro hwhole
  obtain ⟨m, hm⟩ := reading_whole hwhole
  obtain ⟨e, he, _⟩ := @reading_short M codec _ h
  rw [hm] at he
  cases he

theorem not_bad_of_short {bytes : Bytes} (h : StopsShort bytes) : ¬BeginsBad codec bytes := by
  intro hbad
  obtain ⟨e, he, hkind⟩ := reading_bad hbad
  obtain ⟨e', he', hkind'⟩ := @reading_short M codec _ h
  rw [he] at he'
  cases he'
  rw [hkind] at hkind'
  cases hkind'

def TimedOut (e : IoError) : Prop := e.kind = .timedOut ∨ e.kind = .wouldBlock

/-- The TV sends its bytes, in any portions. After the last of them it closes
or rejects the session, or it leaves the connection open and is silent. -/
def Arrives (closed : Bool) (unread : Bytes) (e : Event ByteWire) (rest : Bytes) : Prop :=
  Delivers unread e rest ∧ match e with
    | ⟨.read n, .ok bytes⟩ => bytes.1 = [] → (unread = [] ∧ closed = true) ∨ n = 0
    | ⟨.read _, .error e⟩ => unread = [] ∧ (TimedOut e ↔ closed = false)
    | ⟨.writeAll _, _⟩ => True

theorem flows_of_arrives {closed : Bool} {unread rest : Bytes} {e : Event ByteWire} (he : IsRead e)
    (h : Arrives closed unread e rest) : Flows unread e rest := by
  obtain ⟨hdelivers, hend⟩ := h
  refine ⟨hdelivers, ?_⟩
  obtain ⟨_ | _, x⟩ := e
  · cases x with
    | ok bytes => exact fun hnil => (hend hnil).imp_left And.left
    | error e => exact hend.1
  · exact he.elim

theorem meets_arrives {closed : Bool} {p : Program ByteWire IoError α} (hp : Throughout IsRead p)
    {Q : Except IoError α → Bytes → Prop} {unread : Bytes} (h : Meets Flows p unread Q) :
    Meets (Arrives closed) p unread Q := by
  induction p generalizing unread with
  | ret a => exact meets_ret.mpr (meets_ret.mp h)
  | fail e => exact meets_fail.mpr (meets_fail.mp h)
  | call o k ih =>
      refine meets_call.mpr fun x rest hstep => ?_
      obtain ⟨hread, hlater⟩ := hp x
      exact ih x hlater (meets_call.mp h x rest (flows_of_arrives hread hstep))

/-- The first message is read exactly when the stream begins with one. -/
theorem readMessage_first (closed : Bool) (bytes : Bytes) :
    Meets (Arrives closed) (readMessage codec) bytes
      (fun r _ => (∃ m, r = .ok m) ↔ BeginsWhole codec bytes) := by
  intro t r hrun rest hpath
  constructor
  · rintro ⟨m, rfl⟩
    obtain ⟨f, hf, hframe⟩ :=
      readMessage_sound bytes t _ hrun rest (hpath.mono fun _ _ _ hstep => hstep.1) m rfl
    exact ⟨f, rest, m, hf, hframe⟩
  · rintro ⟨f, after, m, rfl, hframe⟩
    exact ⟨m,
      (meets_arrives (readMessage_reads codec)
      (readMessage_complete hframe after) t r hrun rest hpath).1⟩

/-- What is known of a connection: nothing before its first message is asked
for, which is then there or not. -/
def Opens (conn : Conn) (good : Prop) : Bool → Event (System (MessageWire M)) → Bool → Prop
  | false, ⟨.wire c .recv, x⟩, asked => if c = conn then asked = true ∧ ((∃ m, x = .ok m) ↔ good)
      else asked = false
  | asked, _, asked' => asked' = asked

theorem overBytes_opens {closed : Bool} {bytes : Bytes} (o : SystemOp (MessageOp M))
    {s : Conn → Bytes} {asked : Bool}
    (hs : asked = false → s conn = bytes) :
    Meets (Each (Arrives closed)) (overBytes codec o) s (fun r s' =>
      ∀ x, r = .ok x → ∃ asked', Opens conn (BeginsWhole codec bytes) asked ⟨o, x⟩ asked' ∧
        (asked' = false → s' conn = bytes)) := by
  cases asked with
  | true => exact fun _ _ _ _ _ x _ => ⟨true, by cases o <;> rfl, nofun⟩
  | false =>
      have hs := hs rfl
      rcases o with ⟨c, _ | m⟩ | o
      · by_cases hc : c = conn
        · subst hc
          have hfirst := @readMessage_first M codec closed (s c)
          refine (meets_onConn hfirst).mono ?_
          rintro _ s' ⟨⟨q, rfl, hq⟩, _⟩ _ ⟨rfl⟩
          rw [hs] at hq
          exact ⟨true, (if_pos rfl).mpr ⟨rfl, hq⟩, nofun⟩
        · have hany : Meets (Arrives closed) (readMessage codec) (s c) fun _ _ => True :=
            fun _ _ _ _ _ => trivial
          refine (meets_onConn hany).mono ?_
          rintro _ s' ⟨_, hothers⟩ _ _
          exact ⟨false, (if_neg hc).mpr rfl, fun _ => (hothers conn (Ne.symm hc)).trans hs⟩
      · refine meets_call.mpr ?_
        rintro x s' ⟨hstep, hothers⟩
        have hunread : s' conn = s conn := by
          by_cases hc : c = conn
          · rw [← hc]
            exact hstep.1
          · exact hothers conn (Ne.symm hc)
        cases x with
        | ok _ => exact meets_ret.mpr fun _ _ => ⟨false, rfl, fun _ => hunread.trans hs⟩
        | error e => exact meets_ret.mpr fun _ _ => ⟨false, rfl, fun _ => hunread.trans hs⟩
      · refine meets_call.mpr fun x s' hstep => meets_ret.mpr ?_
        rintro _ _
        obtain rfl : s' = s := hstep
        exact ⟨false, rfl, fun _ => hs⟩

def Reports (kind : ErrorKind) (r : Except Stop α) : Prop :=
  ∃ e, r = .error (.error e) ∧ e.kind = kind

def OnlyReports (kind : ErrorKind) (r : Except Stop α) : Prop :=
  ∀ e, r = .error (.error e) → e.kind = kind

theorem mapSessionReadError_later (e : IoError) :
    (mapSessionReadError e true).kind = .protocolError := by
  simp only [mapSessionReadError, Bool.not_true, Bool.false_eq_true, if_false]
  split <;> rfl

variable {good : Prop}

theorem readPowerLoop_asks (fuel : Nat) :
    Meets (Opens conn good) (readPowerLoop conn (fuel + 1) SessionHandshake.new false) false
      (fun _ asked => asked = true) := by
  rw [readPowerLoop]
  rw [if_pos (by rfl)]
  refine meets_request_bind.mpr fun x asked hstep => ?_
  obtain ⟨rfl, _⟩ := (if_pos rfl).mp hstep
  intro t r _ asked hpath
  exact hpath.invariant (I := fun asked => asked = true)
    (by rintro _ e asked' rfl hstep; exact hstep) rfl

theorem asked_of_received {asked asked' : Bool} {m : RemoteMessage}
    (h : Opens conn good asked ⟨.wire conn .recv, .ok m⟩ asked') : asked' = true := by
  cases asked with
  | true => exact h
  | false => exact ((if_pos rfl).mp h).1

theorem good_of_received {asked asked' : Bool} {m : RemoteMessage} (hgood : asked = true → good)
    (h : Opens conn good asked ⟨.wire conn .recv, .ok m⟩ asked') : good := by
  cases asked with
  | true => exact hgood rfl
  | false => exact ((if_pos rfl).mp h).2.mp ⟨m, rfl⟩

def Judged (good : Prop) (r : Except Stop α) : Prop :=
  (Reports .authRejected r ↔ ¬good) ∧ (good → OnlyReports .protocolError r)

theorem judged_of_good {r : Except Stop α} (h : good) (hr : OnlyReports .protocolError r) :
    Judged good r := by
  refine ⟨?_, fun _ => hr⟩
  constructor
  · rintro ⟨e, rfl, he⟩
    have hprotocol := hr e rfl
    rw [he] at hprotocol
    cases hprotocol
  · intro hbad
    exact absurd h hbad

/-- A failure of the first read is the only one that counts as a rejection. -/
theorem readPowerLoop_judged (fuel : Nat) :
    Meets (Opens conn good) (readPowerLoop conn fuel SessionHandshake.new false) false
      (fun r asked => asked = true → Judged good r) := by
  have hI : HandshakeInvariant (Opens conn good) conn
      (fun _ any asked => any = asked ∧ (asked = true → good))
      (fun r asked => asked = true → Judged good r) :=
    { unfinished := fun hs any asked h hasked => judged_of_good (h.2 hasked) nofun
      known := fun hs any asked h _ hasked => judged_of_good (h.2 hasked) nofun
      readFailed := by
        rintro hs any asked e asked' ⟨rfl, hgood⟩ _ hstep hasked
        cases any with
        | true =>
            refine judged_of_good (hgood rfl) ?_
            rintro _ ⟨rfl⟩
            exact mapSessionReadError_later e
        | false =>
            obtain ⟨_, hfirst⟩ := (if_pos rfl).mp hstep
            have hbad : ¬good := by
              intro h
              obtain ⟨m, hm⟩ := hfirst.mpr h
              cases hm
            exact ⟨⟨fun _ => hbad, fun _ => ⟨_, rfl, rfl⟩⟩, fun h => absurd h hbad⟩
      reported := by
        rintro hs any asked m asked' ⟨rfl, hgood⟩ _ hstep _ hasked
        refine judged_of_good ?_ ?_
        · exact good_of_received hgood hstep
        · rintro _ ⟨rfl⟩
          rfl
      silent := by
        rintro hs any asked m asked' ⟨rfl, hgood⟩ _ hstep _ _
        exact ⟨(asked_of_received hstep).symm, fun _ => good_of_received hgood hstep⟩
      replied := by
        rintro hs any asked m asked' r asked'' ⟨rfl, hgood⟩ _ hstep _ hsent
        obtain rfl := asked_of_received hstep
        obtain rfl : asked'' = true := hsent
        exact ⟨rfl, fun _ => good_of_received hgood hstep⟩
      refused := by
        rintro hs any asked m asked' r e asked'' ⟨rfl, hgood⟩ _ hstep _ hsent _
        refine judged_of_good (good_of_received hgood hstep) ?_
        rintro _ ⟨rfl⟩
        rfl }
  exact readPowerLoop_meets hI fuel ⟨rfl, nofun⟩

theorem afterOpening_judged (fuel : Nat) :
    Meets (Opens conn good) (afterOpening (fuel + 1) conn) false (fun r _ => Judged good r) := by
  have hloop :
      Meets (Opens conn good) (readPowerLoop conn (fuel + 1) SessionHandshake.new false) false
      (fun r _ => Judged good r) := by
    intro t r hrun asked hpath
    exact readPowerLoop_judged (fuel + 1) t r hrun asked hpath
      (readPowerLoop_asks fuel t r hrun asked hpath)
  refine hloop.bind ?_ ?_
  · rintro hs asked ⟨hrejected, _⟩
    have hgood : good := by
      by_contra hbad
      obtain ⟨e, ⟨⟩, _⟩ := hrejected.mpr hbad
    cases hs.power with
    | some power => exact meets_pure.mpr (judged_of_good hgood nofun)
    | none => exact meets_fail.mpr (judged_of_good hgood nofun)
  · rintro (e | text | _) asked ⟨hrejected, hlater⟩
    · refine ⟨?_, fun h => ?_⟩
      · rw [← hrejected]
        constructor <;> rintro ⟨_, ⟨rfl⟩, he⟩ <;> exact ⟨_, rfl, he⟩
      · rintro _ ⟨rfl⟩
        exact hlater h e rfl
    · refine ⟨?_, fun _ => nofun⟩
      rw [← hrejected]
      constructor <;> rintro ⟨_, ⟨⟩, _⟩
    · refine ⟨?_, fun _ => nofun⟩
      rw [← hrejected]
      constructor <;> rintro ⟨_, ⟨⟩, _⟩

/-- A rejection is reported exactly when the TV closed or rejected the session
before one whole message, and after one every error is a protocol error. -/
def MeansClosed (codec : Codec M) (bytes : Bytes) (closed : Bool) (r : Except Stop α) : Prop :=
  (Reports .authRejected r ↔ StopsShort bytes ∧ closed = true) ∧
    (BeginsWhole codec bytes → OnlyReports .protocolError r)

theorem meansClosed_iff {bytes : Bytes} {closed : Bool} {r : Except Stop α}
    (h : Judged (BeginsWhole codec bytes) r) :
    MeansClosed codec bytes closed r ↔ ¬BeginsBad codec bytes ∧
      (StopsShort bytes → closed = true) := by
  obtain ⟨hrejected, hlater⟩ := h
  unfold MeansClosed
  rw [hrejected, and_iff_left hlater]
  rcases begins_cases codec bytes with hwhole | hbad | hshort
  · have hnotBad : ¬BeginsBad codec bytes := fun h => not_whole_of_bad h hwhole
    have hnotShort : ¬StopsShort bytes := fun h => not_whole_of_short h hwhole
    simp [hwhole, hnotBad, hnotShort]
  · have hnotShort : ¬StopsShort bytes := fun h => not_bad_of_short h hbad
    simp [not_whole_of_bad hbad, hbad, hnotShort]
  · simp [not_whole_of_short hshort, not_bad_of_short hshort, hshort]

/-- Once the session is open, `readPower` reports rejections as it says unless
the first frame is bad, or the TV is silent before the first frame is whole. -/
theorem authRejected_means_closed_iff (codec : Codec RemoteMessage) (fuel : Nat) (host : IpAddr)
    (port : UInt16) (closed : Bool)
    (u v : Trace (System ByteWire)) (conn : Conn) (r : Except Stop (Bool × Conn × SessionHandshake))
    (s s' : Conn → Bytes)
    (hopen : Run ((openSession host port).translate (overBytes codec)) u (.ok conn))
    (hrun : Run ((readPower (fuel + 1) host port).translate (overBytes codec)) (u ++ v) r)
    (hpath : Path (Each (Arrives closed)) s v s') :
    MeansClosed codec (s conn) closed r ↔ ¬BeginsBad codec (s conn) ∧
      (StopsShort (s conn) → closed = true) := by
  rw [readPower_eq, translate_bind] at hrun
  have hafter := run_after hopen hrun
  have hstep : ∀ (o : SystemOp (MessageOp RemoteMessage)) (t : Conn → Bytes) (asked : Bool),
      (asked = false → t conn = s conn) →
      Meets (Each (Arrives closed)) (overBytes codec o) t (fun r t' => ∀ x, r = .ok x →
        ∃ asked', Opens conn (BeginsWhole codec (s conn)) asked ⟨o, x⟩ asked' ∧
          (asked' = false → t' conn = s conn)) :=
    fun o _ _ ht => overBytes_opens o ht
  have hafterOpening :=
    Meets.translated overBytes_answers hstep (fun _ => rfl) (afterOpening_judged fuel)
  obtain ⟨_, _, hjudged⟩ := hafterOpening v r hafter s' hpath
  exact meansClosed_iff hjudged

def failedRead (e : IoError) : Trace (System ByteWire) := [⟨.wire ⟨7⟩ (.read 1), .error e⟩]

def timedOut : IoError := ⟨.wouldBlock, "Resource temporarily unavailable (os error 11)"⟩

def closing : IoError := ⟨.unexpectedEof, "peer closed connection without sending TLS close_notify"⟩

theorem failedRead_path {s : Conn → Bytes} {e : IoError} {closed : Bool} (h : s ⟨7⟩ = [])
    (he : TimedOut e ↔ closed = false) :
    Path (Each (Arrives closed)) s (failedRead e) s :=
  .cons ⟨⟨rfl, h, he⟩, fun _ _ => rfl⟩ (.nil s)

theorem first_read_fails (e : IoError) :
    Run ((afterOpening 1 ⟨7⟩).translate (overBytes pingCodec)) (failedRead e)
    (.error (.error (mapSessionReadError e false))) :=
  .call (.fail _)

theorem readPower_first_read_fails (e : IoError) :
    ∃ u, Run ((openSession livingRoom 6466).translate (overBytes pingCodec)) u (.ok ⟨7⟩) ∧
    Run ((readPower 1 livingRoom 6466).translate (overBytes pingCodec)) (u ++ failedRead e)
      (.error (.error (mapSessionReadError e false))) := by
  have hopen : Run ((openSession livingRoom 6466).translate (overBytes pingCodec))
      (playBytes (openSession livingRoom 6466) pinging).1 (.ok ⟨7⟩) := run_exec _ _ pinging
  refine ⟨_, hopen, ?_⟩
  rw [readPower_eq, translate_bind]
  exact run_bind.mpr (.inl ⟨⟨7⟩, _, _, rfl, hopen, first_read_fails e⟩)

/-- A TV that closes the connection at once. -/
theorem authRejected_means_closed_iff_closed : ∃ r : Except Stop (Bool × Conn × SessionHandshake),
    MeansClosed pingCodec [] true r ↔ ¬BeginsBad pingCodec [] ∧ (StopsShort [] → true = true) := by
  obtain ⟨u, hopen, hrun⟩ := readPower_first_read_fails closing
  have hclosing : TimedOut closing ↔ true = false := by simp [TimedOut, closing]
  exact ⟨_, authRejected_means_closed_iff pingCodec 0 livingRoom 6466 true u _ ⟨7⟩ _
    (fun _ => []) _ hopen hrun
    (failedRead_path rfl hclosing)⟩

/-- A TV that is only slow is reported as rejecting the certificate. -/
theorem silence_reported_as_rejection :
    ¬∀ (codec : Codec RemoteMessage) (fuel : Nat) (host : IpAddr) (port : UInt16) (closed : Bool)
    (u v : Trace (System ByteWire)) (conn : Conn) (r : Except Stop (Bool × Conn × SessionHandshake))
    (s s' : Conn → Bytes),
    Run ((openSession host port).translate (overBytes codec)) u (.ok conn) →
    Run ((readPower (fuel + 1) host port).translate (overBytes codec)) (u ++ v) r →
    Path (Each (Arrives closed)) s v s' → MeansClosed codec (s conn) closed r := by
  intro h
  obtain ⟨u, hopen, hrun⟩ := readPower_first_read_fails timedOut
  have htimedOut : TimedOut timedOut ↔ false = false := by simp [TimedOut, timedOut]
  obtain ⟨hrejected, _⟩ := h pingCodec 0 livingRoom 6466 false u _ ⟨7⟩ _ (fun _ => []) _ hopen hrun
    (failedRead_path rfl htimedOut)
  obtain ⟨_, hclosed⟩ := hrejected.mp ⟨_, rfl, rfl⟩
  cases hclosed

end AtvRemote.AuthRejection
