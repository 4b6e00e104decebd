import AtvRemote.Streams

namespace AtvRemote.Links

open Programs Contracts CommandRules Errors Messages SystemCalls Framing FramingRules
  Translations Streams

variable {M α : Type} {codec : Codec M} {conn : Conn}

structure Tape where
  unread : Bytes
  written : Bytes

/-- A connection on which nothing goes wrong. -/
def Duplex (s : Tape) (e : Event ByteWire) (s' : Tape) : Prop :=
  Flows s.unread e s'.unread ∧ s'.written = s.written ++ match e with
    | ⟨.writeAll bytes, _⟩ => bytes
    | ⟨.read _, _⟩ => []

def IsRead : Event ByteWire → Prop
  | ⟨.read _, _⟩ => True
  | ⟨.writeAll _, _⟩ => False

theorem readExact_reads (rounds n : Nat) (h : n ≤ rounds) :
    Throughout IsRead (readExact rounds n h) := by
  induction rounds generalizing n with
  | zero => trivial
  | succ rounds ih =>
      rw [readExact]
      split
      · trivial
      · intro x
        refine ⟨trivial, ?_⟩
        cases x with
        | error e => trivial
        | ok bytes =>
            dsimp only
            split
            · trivial
            · exact (ih _ _).bind fun _ => trivial

theorem readLen_reads (rounds shift : Nat) (len : UInt64) :
    Throughout IsRead (readLen rounds shift len) := by
  induction rounds generalizing shift len with
  | zero => trivial
  | succ rounds ih =>
      refine Throughout.bind ((readExact_reads 1 1 (Nat.le_refl 1)).bind fun _ => trivial)
        fun byte => ?_
      dsimp only
      split
      · trivial
      · split
        · trivial
        · exact ih _ _

theorem readMessage_reads (codec : Codec M) : Throughout IsRead (readMessage codec) := by
  apply (readLen_reads 5 0 0).bind
  intro len
  split
  · trivial
  · apply (readExact_reads _ _ _).bind
    intro body
    cases codec.decode body.1 <;> trivial

theorem meets_duplex {p : Program ByteWire IoError α} (hp : Throughout IsRead p)
    {Q : Except IoError α → Bytes → Prop}
    {s : Tape} (h : Meets Flows p s.unread Q) :
    Meets Duplex p s (fun r s' => Q r s'.unread ∧ s'.written = s.written) := by
  induction p generalizing s with
  | ret a => exact meets_ret.mpr ⟨meets_ret.mp h, rfl⟩
  | fail e => exact meets_fail.mpr ⟨meets_fail.mp h, rfl⟩
  | call o k ih =>
      refine meets_call.mpr fun x s' hstep => ?_
      obtain ⟨hflows, hwritten⟩ := hstep
      obtain ⟨hread, hlater⟩ := hp x
      refine (ih x hlater (meets_call.mp h x s'.unread hflows)).mono ?_
      rintro r s'' ⟨hQ, hs''⟩
      refine ⟨hQ, hs''.trans (hwritten.trans ?_)⟩
      cases o with
      | read n => exact List.append_nil _
      | writeAll bytes => exact hread.elim

structure Link (codec : Codec M) where
  inbox : List (Framed codec)
  outbox : List M

def Link.tape (l : Link codec) : Tape := ⟨stream l.inbox, l.outbox.flatMap (frame codec)⟩

/-- How the link moves with an event on its connection. A read fails only when
nothing is left to read, and a write never. -/
def Link.Moves (l : Link codec) : Event (MessageWire M) → Link codec → Prop
  | ⟨.recv, .ok m⟩, l' => ∃ f, f.message = m ∧ l = { l' with inbox := f :: l'.inbox }
  | ⟨.recv, .error _⟩, l' => l.inbox = [] ∧ l' = l
  | ⟨.send m, x⟩, l' => x = .ok () ∧ l' = { l with outbox := l.outbox ++ [m] }

/-- Events elsewhere leave the link alone. -/
def Exchanges (conn : Conn) (l : Link codec) : Event (System (MessageWire M)) → Link codec → Prop
  | ⟨.wire c w, x⟩, l' => if c = conn then l.Moves ⟨w, x⟩ l' else l' = l
  | ⟨.host _, _⟩, l' => l' = l

theorem readMessage_exchanges (l : Link codec) :
    Meets Duplex (readMessage codec) l.tape (fun r s' =>
    ∃ l' : Link codec, l.Moves ⟨.recv, r⟩ l' ∧ s' = l'.tape) := by
  obtain ⟨inbox, outbox⟩ := l
  cases inbox with
  | nil =>
      refine (meets_duplex (readMessage_reads codec) (s := ⟨[], _⟩) readMessage_end).mono ?_
      rintro r ⟨unread, written⟩ ⟨⟨⟨e, rfl⟩, rfl⟩, rfl⟩
      exact ⟨⟨[], outbox⟩, ⟨rfl, rfl⟩, rfl⟩
  | cons f inbox =>
      have hread : Meets Flows (readMessage codec) (Link.tape ⟨f :: inbox, outbox⟩).unread
          (fun r rest => r = .ok f.message ∧ rest = stream inbox) := by
        change Meets Flows _ (stream (f :: inbox)) _
        rw [stream_cons]
        exact readMessage_complete f.isFrame (stream inbox)
      refine (meets_duplex (readMessage_reads codec) hread).mono ?_
      rintro r ⟨unread, written⟩ ⟨⟨rfl, rfl⟩, rfl⟩
      exact ⟨⟨inbox, outbox⟩, ⟨f, rfl, rfl⟩, rfl⟩

theorem writeMessage_exchanges (m : M) (l : Link codec) : Meets Duplex (writeMessage codec m) l.tape
    (fun r s' => ∃ l' : Link codec, l.Moves ⟨.send m, r⟩ l' ∧ s' = l'.tape) := by
  refine meets_call.mpr ?_
  rintro _ ⟨unread, written⟩ ⟨⟨hunread, rfl⟩, hwritten⟩
  refine meets_pure.mpr ⟨{ l with outbox := l.outbox ++ [m] }, ⟨rfl, rfl⟩, ?_⟩
  have hunread : unread = stream l.inbox := hunread
  have hwritten : written = l.outbox.flatMap (frame codec) ++ frame codec m := hwritten
  rw [hunread, hwritten]
  simp [Link.tape]

theorem onConn_elsewhere {c : Conn} (hc : c ≠ conn) (p : Program ByteWire IoError α)
    (s : Conn → Tape) :
    Meets (Each Duplex) (onConn c p) s (fun _ s' => s' conn = s conn) := by
  have hany : Meets Duplex p (s c) fun _ _ => True := fun _ _ _ _ _ => trivial
  exact (meets_onConn hany).mono fun r s' h => h.2 conn (Ne.symm hc)

theorem overBytes_exchanges (o : SystemOp (MessageOp M)) {s : Conn → Tape} {l : Link codec}
    (hs : s conn = l.tape) :
    Meets (Each Duplex) (overBytes codec o) s
      (fun r s' => ∀ x, r = .ok x → ∃ l' : Link codec, Exchanges conn l ⟨o, x⟩ l' ∧
        s' conn = l'.tape) := by
  rcases o with ⟨c, _ | m⟩ | o
  · by_cases hc : c = conn
    · subst hc
      have hread := readMessage_exchanges l
      rw [← hs] at hread
      refine (meets_onConn hread).mono ?_
      rintro _ s' ⟨⟨q, rfl, l', hmoves, htape⟩, _⟩ _ ⟨rfl⟩
      exact ⟨l', (if_pos rfl).mpr hmoves, htape⟩
    · refine (onConn_elsewhere hc _ s).mono fun r s' h x _ => ⟨l, (if_neg hc).mpr rfl, h.trans hs⟩
  · by_cases hc : c = conn
    · subst hc
      have hwrite := writeMessage_exchanges m l
      rw [← hs] at hwrite
      refine (meets_onConn hwrite).mono ?_
      rintro _ s' ⟨⟨q, rfl, l', hmoves, htape⟩, _⟩ _ ⟨rfl⟩
      exact ⟨l', (if_pos rfl).mpr hmoves, htape⟩
    · refine (onConn_elsewhere hc _ s).mono fun r s' h x _ => ⟨l, (if_neg hc).mpr rfl, h.trans hs⟩
  · refine meets_call.mpr fun x s' hstep => meets_ret.mpr ?_
    rintro _ ⟨rfl⟩
    obtain rfl : s' = s := hstep
    exact ⟨l, rfl, hs⟩

/-- What a command meets on a link, it meets on the tape. -/
theorem meets_overBytes {p : Command (MessageWire M) α} {l : Link codec}
    {Q : Except Stop α → Link codec → Prop}
    (hp : Meets (Exchanges conn) p l Q) {s : Conn → Tape} (hs : s conn = l.tape) :
    Meets (Each Duplex) (p.translate (overBytes codec)) s
      (fun r s' => ∃ l', s' conn = l'.tape ∧ Q r l') := by
  exact Meets.translated overBytes_answers (fun o _ _ hs => overBytes_exchanges o hs) hs hp

end AtvRemote.Links
