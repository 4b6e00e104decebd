import AtvRemote.Links
import AtvRemote.ReadPowerRuns

namespace AtvRemote.ConfirmationWait

open Programs Contracts CommandRules Errors Messages SystemCalls Framing FramingRules
  Translations Streams Links
  Handshake Session SessionRules ReadPowerRuns

variable {M α : Type} {codec : Codec M} {conn : Conn}

/-- What the socket has for one read: bytes, none at the end of the stream, or
an error. A read takes at most three seconds, whether it fails or not. -/
structure Reading where
  delay : Duration
  answer : Except IoError Bytes
  timely : delay ≤ fromSecs 3

/-- The time, and what the socket will have for the reads to come. -/
structure Socket where
  clock : Instant
  readings : List Reading

def wouldBlock : IoError := ⟨.wouldBlock, "Resource temporarily unavailable (os error 11)"⟩

namespace Socket

/-- What a read leaves of its bytes is there at once for the next one. After
the readings every read times out. -/
def read (n : Nat) (s : Socket) : Except IoError {bytes : Bytes // bytes.length ≤ n} × Socket :=
  match s.readings with
  | [] => (.error wouldBlock, ⟨s.clock + fromSecs 3, []⟩)
  | ⟨delay, .error e, _⟩ :: readings => (.error e, ⟨s.clock + delay, readings⟩)
  | ⟨delay, .ok bytes, _⟩ :: readings =>
      (.ok ⟨bytes.take n, List.length_take_le _ _⟩,
        ⟨s.clock + delay, if bytes.drop n = [] then readings
          else ⟨0, .ok (bytes.drop n), Nat.zero_le _⟩ :: readings⟩)

def unread (s : Socket) : Bytes :=
  s.readings.flatMap fun r => match r.answer with
    | .ok bytes => bytes
    | .error _ => []

def answer : (o : ByteOp) → Socket → o.Answer × Socket
  | .read n, s => s.read n
  | .writeAll _, s => (.ok (), s)

/-- The next message of the readings, with the time at which its last read
has been made. -/
def receive (codec : Codec M) (s : Socket) : Except IoError M × Socket :=
  ((readMessage codec).exec (S := ByteWire) answer s).2

/-- The surroundings of the wait. Writes take no time, whatever their answer. -/
def Serves (s : Socket) : Event (System ByteWire) → Socket → Prop
  | ⟨.wire _ (.read n), x⟩, s' => (x, s') = s.read n
  | ⟨.host .now, x⟩, s' => x = s.clock ∧ s' = s
  | _, s' => s' = s

/-- How they look to a program on messages. -/
def Hears (codec : Codec M) (s : Socket) : Event (System (MessageWire M)) → Socket → Prop
  | ⟨.wire _ .recv, x⟩, s' => (x, s') = s.receive codec
  | ⟨.host .now, x⟩, s' => x = s.clock ∧ s' = s
  | _, s' => s' = s

theorem read_delivers (n : Nat) (s : Socket) :
    Delivers s.unread ⟨.read n, (s.read n).1⟩ (s.read n).2.unread := by
  obtain ⟨clock, readings⟩ := s
  cases readings with
  | nil => rfl
  | cons r readings =>
      obtain ⟨delay, e | bytes, timely⟩ := r
      · rfl
      · have hbytes : bytes.take n ++ bytes.drop n = bytes := List.take_append_drop n bytes
        by_cases hdrop : bytes.drop n = []
        · rw [hdrop, List.append_nil] at hbytes
          simp [Delivers, read, unread, hdrop, hbytes]
        · simp [Delivers, read, unread, hdrop, ← List.append_assoc]

/-- A message is a frame of the bytes. -/
theorem receive_frame {m : M} {s s' : Socket} (h : (.ok m, s') = s.receive codec) :
    ∃ f : Framed codec, f.message = m ∧ s.unread = f.bytes ++ s'.unread := by
  have hpath : Path Delivers s.unread _ (s.receive codec).2.unread :=
    path_exec (f := unread) (h := answer) (fun o s => by cases o with
      | read n => exact read_delivers n s
      | writeAll bytes => rfl) (readMessage codec) s
  have hrun : Run (readMessage codec) _ (s.receive codec).1 := run_exec (S := ByteWire) answer _ s
  rw [← h] at hpath hrun
  obtain ⟨f, hbytes, hframe⟩ := readMessage_sound s.unread _ _ hrun _ hpath m rfl
  exact ⟨⟨f, m, hframe⟩, rfl, hbytes⟩

theorem readings_serve {p : Program ByteWire IoError α} (hp : Throughout IsRead p) (s : Socket) :
    Meets Serves (onConn conn p) s
      (fun r s' => ∀ x, r = .ok x → (x, s') = (p.exec (S := ByteWire) answer s).2) := by
  induction p generalizing s with
  | ret a =>
      refine meets_pure.mpr ?_
      rintro _ ⟨rfl⟩
      rfl
  | fail e =>
      refine meets_pure.mpr ?_
      rintro _ ⟨rfl⟩
      rfl
  | call o k ih =>
      cases o with
      | writeAll bytes => exact (hp (.ok ())).1.elim
      | read n =>
          refine meets_call.mpr fun x s' hstep => ?_
          have hstep : (x, s') = s.read n := hstep
          have hrest := ih x (hp x).2 s'
          have hexec : (Program.exec (S := ByteWire) answer (.call (.read n) k) s).2 =
              ((k x).exec (S := ByteWire) answer s').2 := by
            change ((k (s.read n).1).exec (S := ByteWire) answer (s.read n).2).2 = _
            rw [← hstep]
          rw [hexec]
          exact hrest

theorem overBytes_hears (o : SystemOp (MessageOp M)) (s : Socket) :
    Meets Serves (overBytes codec o) s (fun r s' => ∀ x, r = .ok x → Hears codec s ⟨o, x⟩ s') := by
  rcases o with ⟨c, _ | m⟩ | o
  · exact readings_serve (readMessage_reads codec) s
  · refine meets_call.mpr ?_
    rintro x s' hstep
    cases x with
    | ok _ => exact meets_ret.mpr fun _ _ => hstep
    | error e => exact meets_ret.mpr fun _ _ => hstep
  · refine meets_call.mpr fun x s' hstep => meets_ret.mpr ?_
    rintro _ ⟨rfl⟩
    cases o <;> exact hstep

end Socket

open Socket

/-- What is left of the readings after some of their messages, none of which
announces the wanted state. -/
inductive Reaches (codec : Codec RemoteMessage) (wantOn : Bool) : Socket → Socket → Prop
  | refl (s : Socket) : Reaches codec wantOn s s
  | message {s s' s'' : Socket} {m : RemoteMessage} (received : (.ok m, s') = s.receive codec)
      (unannounced : kind m ≠ .start wantOn) (rest : Reaches codec wantOn s' s'') :
        Reaches codec wantOn s s''

/-- A message of the readings that is begun before the deadline takes, with all
its reads, no longer than the time then left and three seconds more. -/
def InTime (codec : Codec RemoteMessage) (wantOn : Bool) (deadline : Instant) (s : Socket) : Prop :=
  ∀ s', Reaches codec wantOn s s' → s'.clock < deadline →
    (s'.receive codec).2.clock - s'.clock ≤ deadline - s'.clock + fromSecs 3

section InTime

variable {codec : Codec RemoteMessage} {wantOn : Bool} {deadline : Instant} {s s' : Socket}

theorem time_left {clock begun deadline grace : Nat} (h : begun < deadline) :
    clock - begun ≤ deadline - begun + grace ↔ clock ≤ deadline + grace := by omega

theorem read_clock (n : Nat) (s : Socket) : s.clock ≤ (s.read n).2.clock := by
  obtain ⟨clock, readings⟩ := s
  cases readings with
  | nil => exact Nat.le_add_right _ _
  | cons r readings =>
      obtain ⟨delay, e | bytes, timely⟩ := r
      · exact Nat.le_add_right _ _
      · exact Nat.le_add_right _ _

theorem receive_clock (s : Socket) : s.clock ≤ (s.receive codec).2.clock := by
  have hpath : Path (fun s _ s' => s.clock ≤ s'.clock) s _ (s.receive codec).2 :=
    path_exec (f := id) (h := answer) (fun o s => by cases o with
      | read n => exact read_clock n s
      | writeAll bytes => exact Nat.le_refl _) (readMessage codec) s
  exact hpath.invariant (I := fun s' => s.clock ≤ s'.clock) (fun _ _ _ h hstep => h.trans hstep)
    (Nat.le_refl _)

theorem reaches_clock (h : Reaches codec wantOn s s') : s.clock ≤ s'.clock := by
  induction h with
  | refl s => exact Nat.le_refl _
  | @message s s₁ s' m received _ _ ih =>
      have hclock : s.clock ≤ (s.receive codec).2.clock := receive_clock s
      rw [← received] at hclock
      exact hclock.trans ih

/-- Nothing is begun before a deadline that has passed. -/
theorem inTime_past (h : deadline ≤ s.clock) : InTime codec wantOn deadline s := by
  intro s' hreaches hclock
  have hle := h.trans (reaches_clock hreaches)
  exact absurd hclock (Nat.not_lt.mpr hle)

theorem inTime_last (hclock : s.clock < deadline)
    (hlast : ∀ m s', (.ok m, s') = s.receive codec → kind m = .start wantOn) :
    InTime codec wantOn deadline s ↔ (s.receive codec).2.clock ≤ deadline + fromSecs 3 := by
  constructor
  · intro h
    exact (time_left hclock).mp (h s (.refl s) hclock)
  · intro hbound s' hreaches _
    cases hreaches with
    | refl => exact (time_left hclock).mpr hbound
    | message received unannounced _ => exact absurd (hlast _ _ received) unannounced

theorem inTime_message {m : RemoteMessage} (hclock : s.clock < deadline)
    (hm : (.ok m, s') = s.receive codec)
    (hunannounced : kind m ≠ .start wantOn) :
    InTime codec wantOn deadline s ↔ s'.clock ≤ deadline + fromSecs 3 ∧
      InTime codec wantOn deadline s' := by
  constructor
  · intro h
    have hfirst := (time_left hclock).mp (h s (.refl s) hclock)
    rw [← hm] at hfirst
    exact ⟨hfirst, fun s'' hreaches => h s'' (.message hm hunannounced hreaches)⟩
  · rintro ⟨hfirst, hlater⟩ s'' hreaches hbegun
    cases hreaches with
    | refl =>
        rw [← hm]
        exact (time_left hclock).mpr hfirst
    | message received _ rest =>
        obtain ⟨rfl, rfl⟩ : _ = m ∧ _ = s' := by
          have heq := received.trans hm.symm
          exact ⟨Except.ok.inj (Prod.mk.inj heq).1, (Prod.mk.inj heq).2⟩
        exact hlater s'' rest hbegun

end InTime

variable {codec : Codec RemoteMessage} {wantOn : Bool} {deadline start : Instant} {fuel : Nat}
  {hs : SessionHandshake}
  {s s₀ s' : Socket}

theorem hear_start {power : Option Bool} (h : power ≠ some wantOn) (k : Kind) :
    hear power k = some wantOn ↔ k = .start wantOn := by
  cases k <;> simp [hear, h]

/-- Before each round, the readings have been in time exactly if they have been
so up to now and will be. -/
theorem confirmLoop_lasts (hpower : hs.power ≠ some wantOn)
    (hclock : s₀.clock ≤ deadline + fromSecs 3) :
    Meets (Hears codec) (confirmLoop conn wantOn deadline fuel hs) s₀
      (fun r s => r ≠ .error .unfinished →
        (s.clock ≤ deadline + fromSecs 3 ↔ InTime codec wantOn deadline s₀)) := by
  have hI : RoundInvariant (Hears codec) conn wantOn deadline
      (fun hs s => hs.power ≠ some wantOn ∧
        (InTime codec wantOn deadline s₀ ↔ s.clock ≤ deadline + fromSecs 3 ∧
          InTime codec wantOn deadline s))
      (fun hs s => hs.power ≠ some wantOn ∧ s.clock < deadline ∧
        (InTime codec wantOn deadline s₀ ↔ InTime codec wantOn deadline s))
      (fun hs s => (InTime codec wantOn deadline s₀ ↔ s.clock ≤ deadline + fromSecs 3 ∧
        (hs.power ≠ some wantOn → InTime codec wantOn deadline s)))
      (fun r s => r ≠ .error .unfinished →
        (s.clock ≤ deadline + fromSecs 3 ↔ InTime codec wantOn deadline s₀)) :=
    { unfinished := fun _ _ _ h => absurd rfl h
      tick := by
        rintro hs _ now s ⟨hpower, hsofar⟩ ⟨rfl, rfl⟩
        split
        next hnow =>
          have hle : s.clock ≤ deadline + fromSecs 3 :=
            (Nat.le_of_lt hnow).trans (Nat.le_add_right _ _)
          exact ⟨hpower, hnow, hsofar.trans (and_iff_right hle)⟩
        next hpassed =>
          intro _
          exact (hsofar.trans (and_iff_left (inTime_past (Nat.not_lt.mp hpassed)))).symm
      readFailed := by
        rintro hs s e s' ⟨_, hnow, hsofar⟩ hread _
        have hlast : ∀ m s', (.ok m, s') = s.receive codec → kind m = .start wantOn := by
          intro m s'' hm
          cases (Prod.mk.inj (hread.trans hm.symm)).1
        have hend := inTime_last hnow hlast
        rw [← hread] at hend
        exact (hsofar.trans hend).symm
      received := by
        rintro hs s m s' ⟨hpower, hnow, hsofar⟩ hread
        have hheard := hear_start hpower (kind m)
        by_cases hstart : kind m = .start wantOn
        · have hlast : ∀ m' s', (.ok m', s') = s.receive codec → kind m' = .start wantOn := by
            intro m' s'' hm
            obtain rfl := Except.ok.inj (Prod.mk.inj (hm.trans hread.symm)).1
            exact hstart
          have hend := inTime_last hnow hlast
          rw [← hread] at hend
          have hconfirmed : ¬(next hs (kind m)).power ≠ some wantOn :=
            not_not.mpr (hheard.mpr hstart)
          exact hsofar.trans (hend.trans (and_iff_left fun h => absurd h hconfirmed).symm)
        · have hopen : (next hs (kind m)).power ≠ some wantOn := fun h => hstart (hheard.mp h)
          refine hsofar.trans
            ((inTime_message hnow hread hstart).trans (and_congr_right fun _ => ?_))
          exact ⟨fun h _ => h, fun h => h hopen⟩
      answered := by
        rintro hs s k r x _ h _ rfl
        exact h
      confirmed :=
        fun hs s h hconfirmed _ =>
          (h.trans (and_iff_left fun hopen => absurd hconfirmed hopen)).symm
      again :=
        fun hs s h hopen =>
          ⟨hopen, h.trans (and_congr_right fun _ => ⟨fun h => h hopen, fun h _ => h⟩)⟩ }
  exact confirmLoop_rounds hI fuel ⟨hpower, (and_iff_right hclock).symm⟩

theorem framed_length (f : Framed codec) : 0 < f.bytes.length := by
  obtain ⟨p, body, hbytes, hterminated, _⟩ := f.isFrame.parts
  have hp : p ≠ [] := by
    rintro rfl
    exact hterminated.elim
  rw [hbytes, List.length_append]
  exact Nat.add_pos_left (List.length_pos_iff.mpr hp) _

/-- Each message takes bytes of the readings, so that the loop is left. -/
theorem confirmLoop_finishes (hfuel : s.unread.length < fuel) :
    Meets (Hears codec) (confirmLoop conn wantOn deadline fuel hs) s
      (fun r _ => r ≠ .error .unfinished) := by
  induction fuel generalizing hs s with
  | zero => exact absurd hfuel (Nat.not_lt_zero _)
  | succ fuel ih =>
      refine meets_request_bind.mpr ?_
      rintro now s₁ ⟨_, rfl⟩
      split
      · refine meets_request_bind.mpr fun x s' hread => ?_
        cases x with
        | error e => exact meets_pure.mpr nofun
        | ok m =>
            obtain ⟨f, _, hbytes⟩ := receive_frame hread
            have hframe := framed_length f
            rw [hbytes, List.length_append] at hfuel
            have hround (s'' : Socket) (hs'' : s'' = s') : Meets (Hears codec)
                (if (next hs (kind m)).power = some wantOn then pure (next hs (kind m))
                  else confirmLoop conn wantOn deadline fuel (next hs (kind m))) s''
                    (fun r _ => r ≠ .error .unfinished) := by
              rw [hs'']
              split
              · exact meets_pure.mpr nofun
              · exact ih (by omega)
            simp only [handle_eq]
            by_cases he : kind m = .error
            · rw [if_pos he]
              exact hround s' rfl
            · rw [if_neg he]
              cases reply (narrow hs.activeFeatures (kind m)) (kind m) with
              | none => exact hround s' rfl
              | some r => exact meets_request_bind.mpr fun _ s'' hs'' => hround s'' hs''
      · exact meets_pure.mpr nofun

/-- The loop as `pressPowerOnce` starts it after the key. -/
def confirmation (codec : Codec RemoteMessage) (conn : Conn) (wantOn : Bool) (start : Instant)
    (fuel : Nat) (hs : SessionHandshake) :
    Command ByteWire SessionHandshake :=
  (confirmLoop conn wantOn (start + fromSecs 5) fuel { hs with power := none }).translate
    (overBytes codec)

theorem confirmation_lasts (hfuel : s.unread.length < fuel) (hstart : s.clock = start) :
    Meets Serves (confirmation codec conn wantOn start fuel hs) s
      (fun _ s' => s'.clock ≤ start + fromSecs 5 + fromSecs 3 ↔ InTime codec wantOn
        (start + fromSecs 5) s) := by
  have hclock : s.clock ≤ start + fromSecs 5 + fromSecs 3 := by
    rw [hstart, Nat.add_assoc]
    exact Nat.le_add_right _ _
  have hstep : ∀ (o : SystemOp (MessageOp RemoteMessage)) (s a : Socket), s = a →
      Meets Serves (overBytes codec o) s
      (fun r s' => ∀ x, r = .ok x → ∃ a', Hears codec a ⟨o, x⟩ a' ∧ s' = a') := by
    rintro o s _ rfl
    exact (overBytes_hears o s).mono fun r s' h x hx => ⟨s', h x hx, rfl⟩
  have hloop :
      Meets (Hears codec) (confirmLoop conn wantOn (start + fromSecs 5) fuel
      { hs with power := none }) s
      (fun _ s' => s'.clock ≤ start + fromSecs 5 + fromSecs 3 ↔ InTime codec wantOn
        (start + fromSecs 5) s) := by
    have hpower : ({ hs with power := none } : SessionHandshake).power ≠ some wantOn := by simp
    intro t r hrun s' hpath
    exact confirmLoop_lasts hpower hclock t r hrun s' hpath
      (confirmLoop_finishes hfuel t r hrun s' hpath)
  refine (Meets.translated overBytes_answers hstep rfl hloop).mono ?_
  rintro r s' ⟨_, rfl, h⟩
  exact h

/-- The confirmation wait takes at most eight seconds exactly if every message
of the schedule that is begun before the deadline takes no longer than the time
left and three seconds. -/
theorem confirmation_wait_bounded_iff (codec : Codec RemoteMessage) (conn : Conn) (wantOn : Bool)
    (start : Instant) (fuel : Nat)
    (hs : SessionHandshake) (readings : List Reading) (v : Trace (System ByteWire))
    (r : Except Stop SessionHandshake) (s' : Socket)
    (hfuel : (Socket.unread ⟨start, readings⟩).length < fuel)
    (hrun : Run (confirmation codec conn wantOn start fuel hs) v r)
    (hpath : Path Serves ⟨start, readings⟩ v s') :
    s'.clock - start ≤ fromSecs 8 ↔ InTime codec wantOn (start + fromSecs 5) ⟨start, readings⟩ := by
  have hbound : s'.clock - start ≤ fromSecs 8 ↔ s'.clock ≤ start + fromSecs 5 + fromSecs 3 := by
    rw [Nat.add_assoc]
    exact Nat.sub_le_iff_le_add'
  exact hbound.trans (confirmation_lasts hfuel rfl v r hrun s' hpath)

/-- Surroundings in which writes succeed. -/
def serve : (o : SystemOp ByteOp) → Socket → SystemOp.Answer ByteOp.Answer o × Socket
  | .wire _ (.read n), s => s.read n
  | .wire _ (.writeAll _), s => (.ok (), s)
  | .host .now, s => (s.clock, s)
  | .host o, s => ((({} : Scripts.Script Unit).hostAnswer o).1, s)

theorem serve_serves (o : SystemOp ByteOp) (s : Socket) :
    Serves s ⟨o, (serve o s).1⟩ (serve o s).2 := by
  rcases o with ⟨c, n | bytes⟩ | o
  · rfl
  · rfl
  · cases o with
    | now => exact ⟨rfl, rfl⟩
    | _ => rfl

/-- The three bytes of an empty frame with a padded length, three seconds
apart. -/
def padded : List Reading :=
  [⟨fromSecs 3, .ok [0x80], Nat.le_refl _⟩, ⟨fromSecs 3, .ok [0x80], Nat.le_refl _⟩,
    ⟨fromSecs 3, .ok [0x00], Nat.le_refl _⟩]

abbrev waiting (readings : List Reading) :
    Trace (System ByteWire) × Except Stop SessionHandshake × Socket :=
  (confirmation pingCodec ⟨7⟩ true 0 4 SessionHandshake.new).exec
    (S := System ByteWire) serve ⟨0, readings⟩

theorem waiting_path (readings : List Reading) :
    Path Serves ⟨0, readings⟩ (waiting readings).1 (waiting readings).2.2 :=
  path_exec (f := id) serve_serves _ _

theorem confirmation_wait_bounded_iff_padded :
    (waiting padded).2.2.clock - 0 ≤ fromSecs 8 ↔ InTime pingCodec true
    (0 + fromSecs 5) ⟨0, padded⟩ :=
  confirmation_wait_bounded_iff pingCodec ⟨7⟩ true 0 4 SessionHandshake.new padded _ _ _ (by decide)
    (run_exec _ _ _)
    (waiting_path padded)

/-- They are enough to hold the client for nine seconds. -/
theorem confirmation_wait_exceeded : ¬∀ (codec : Codec RemoteMessage) (conn : Conn) (wantOn : Bool)
      (start : Instant)
    (fuel : Nat) (hs : SessionHandshake) (readings : List Reading) (v : Trace (System ByteWire))
    (r : Except Stop SessionHandshake)
    (s' : Socket), Run (confirmation codec conn wantOn start fuel hs) v r →
    Path Serves ⟨start, readings⟩ v s' →
      s'.clock - start ≤ fromSecs 8 := by
  intro h
  have hbound := h pingCodec ⟨7⟩ true 0 4 SessionHandshake.new padded _ _ _ (run_exec _ _ _)
    (waiting_path padded)
  exact absurd hbound (by decide)

end AtvRemote.ConfirmationWait
