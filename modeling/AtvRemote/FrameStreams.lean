import AtvRemote.FramingRules

namespace AtvRemote.FrameStreams

open Programs Contracts Errors Messages SystemCalls Framing FramingRules

variable {M : Type} {codec : Codec M}

def writeMany (codec : Codec M) : List M → Program ByteWire IoError Unit
  | [] => pure ()
  | m :: msgs => do
      writeMessage codec m
      writeMany codec msgs

def readMany (codec : Codec M) : Nat → Program ByteWire IoError (List M)
  | 0 => pure []
  | n + 1 => do
      let m ← readMessage codec
      let msgs ← readMany codec n
      pure (m :: msgs)

def written (t : Trace ByteWire) : Bytes :=
  t.flatMap fun e => match e with
    | ⟨.writeAll bytes, .ok _⟩ => bytes
    | _ => []

theorem written_append (u v : Trace ByteWire) : written (u ++ v) = written u ++ written v :=
  List.flatMap_append

theorem writeMessage_written {m : M} {t : Trace ByteWire}
    (h : Run (writeMessage codec m) t (.ok ())) :
    written t = frame codec m := by
  obtain ⟨answer, u, rfl, hu⟩ := run_call.mp h
  cases answer with
  | error e => cases (run_fail.mp hu).2
  | ok _ =>
      obtain ⟨rfl, _⟩ := run_ret.mp hu
      exact List.append_nil _

theorem writeMany_written {msgs : List M} {t : Trace ByteWire}
    (h : Run (writeMany codec msgs) t (.ok ())) :
    written t = msgs.flatMap (frame codec) := by
  induction msgs generalizing t with
  | nil =>
      obtain ⟨rfl, _⟩ := run_ret.mp h
      rfl
  | cons m msgs ih =>
      rcases run_bind.mp h with ⟨_, u, v, rfl, hu, hv⟩ | ⟨e, _, ⟨⟩⟩
      rw [written_append, writeMessage_written hu, ih hv, List.flatMap_cons]

theorem readMany_complete {msgs : List M} (hmsgs : ∀ m ∈ msgs, IsFrame codec (frame codec m) m)
    (rest : Bytes) :
    Meets Flows (readMany codec msgs.length) (msgs.flatMap (frame codec) ++ rest)
      (fun r rest' => r = .ok msgs ∧ rest' = rest) := by
  induction msgs with
  | nil => exact meets_pure.mpr ⟨rfl, rfl⟩
  | cons m msgs ih =>
      rw [List.flatMap_cons, List.append_assoc]
      have hm :=
        readMessage_complete (hmsgs m List.mem_cons_self) (msgs.flatMap (frame codec) ++ rest)
      refine hm.bind ?_ (by rintro e rest' ⟨⟨⟩, _⟩)
      rintro _ rest' ⟨⟨rfl⟩, rfl⟩
      refine (ih fun m hm => hmsgs m (List.mem_cons_of_mem _ hm)).bind ?_
        (by rintro e rest' ⟨⟨⟩, _⟩)
      rintro _ rest' ⟨⟨rfl⟩, rfl⟩
      exact meets_pure.mpr ⟨rfl, rfl⟩

structure Cursor where
  unread : Bytes
  reads : Nat := 0

/-- Every read hands over at least one byte while there are any; otherwise
`cuts` decides how many. -/
def serve (cuts : Nat → Nat) : (o : ByteOp) → Cursor → ByteOp.Answer o × Cursor
  | .read n, c =>
      let k := min n (max 1 (cuts c.reads))
      (.ok ⟨c.unread.take k, (List.length_take_le _ _).trans (Nat.min_le_left _ _)⟩,
        { unread := c.unread.drop k, reads := c.reads + 1 })
  | .writeAll _, c => (.ok (), c)

theorem serve_flows (cuts : Nat → Nat) (o : ByteOp) (c : Cursor) :
    Flows c.unread ⟨o, (serve cuts o c).1⟩ (serve cuts o c).2.unread := by
  cases o with
  | read n =>
      refine ⟨(List.take_append_drop _ _).symm, fun hnil => ?_⟩
      rcases List.take_eq_nil_iff.mp hnil with hzero | hunread
      · right
        omega
      · exact .inl hunread
  | writeAll bytes => exact ⟨rfl, rfl⟩

theorem exec_serve {α : Type} {p : Program ByteWire IoError α} {Q : Except IoError α → Bytes → Prop}
    {unread : Bytes} (h : Meets Flows p unread Q) (cuts : Nat → Nat) :
    Q (p.exec (S := ByteWire) (serve cuts) { unread }).2.1
      (p.exec (S := ByteWire) (serve cuts) { unread }).2.2.unread :=
  h _ _ (run_exec _ p _) _ (path_exec (f := Cursor.unread) (serve_flows cuts) p { unread })

/-- Reading back what was written gives the messages and leaves what follows
them; a message that is too long is refused. -/
theorem frames_roundtrip (codec : Codec M) (hcodec : ∀ m, codec.decode (codec.encode m) = .ok m)
    (tail : Bytes) (cuts : Nat → Nat) :
    (∀ (msgs : List M) (t : Trace ByteWire), (∀ m ∈ msgs, (codec.encode m).length ≤ 1048576) →
      Run (writeMany codec msgs) t (.ok ()) →
        let outcome := (readMany codec msgs.length).exec (S := ByteWire) (serve cuts)
          { unread := written t ++ tail }
        outcome.2.1 = .ok msgs ∧ outcome.2.2.unread = tail) ∧
      ∀ (m : M) (t : Trace ByteWire), 1048576 < (codec.encode m).length →
        (codec.encode m).length < 2 ^ 64 →
        Run (writeMessage codec m) t (.ok ()) →
          ∃ e, ((readMessage codec).exec (S := ByteWire) (serve cuts)
            { unread := written t ++ tail }).2.1 = .error e ∧
            e.kind = .invalidData := by
  have hmax : maxFrame.toNat = 1048576 := by decide
  constructor
  · intro msgs t hfit hrun
    have hframes : ∀ m ∈ msgs, IsFrame codec (frame codec m) m :=
      fun m hm => frame_isFrame (hcodec m) (by rw [hmax]; exact hfit m hm)
    rw [writeMany_written hrun]
    exact exec_serve (readMany_complete hframes tail) cuts
  · intro m t hbig hlen hrun
    rw [writeMessage_written hrun]
    exact exec_serve (readMessage_oversized (by rw [hmax]; exact hbig) hlen tail) cuts

/-- The protobuf encoding of a `RemoteStart`: field 1, omitted when false. -/
def startCodec : Codec RemoteStart where
  encode m := if m.started then [0x08, 0x01] else []
  decode
    | [] => .ok ⟨false⟩
    | [0x08, b] => .ok ⟨b ≠ 0⟩
    | _ => .error "failed to decode Protobuf message"

def startMessages : List RemoteStart := [⟨true⟩, ⟨false⟩]

def rawCodec : Codec Bytes := ⟨id, .ok⟩

def tooLong : Bytes := List.replicate 1048577 0

theorem writeMessage_serve (codec : Codec M) (m : M) (cuts : Nat → Nat) (c : Cursor) :
    Run (writeMessage codec m) ((writeMessage codec m).exec (S := ByteWire) (serve cuts) c).1
      (.ok ()) :=
  run_exec _ _ _

def behind : Bytes := [0x2a]

theorem frames_roundtrip_start :
    (let sent := ((writeMany startCodec startMessages).exec (S := ByteWire) (serve fun _ => 1)
      { unread := [] }).1
      let outcome := (readMany startCodec 2).exec (S := ByteWire) (serve fun _ => 1)
        { unread := written sent ++ behind }
      outcome.2.1 = .ok startMessages ∧ outcome.2.2.unread = behind) ∧
    (let sent := ((writeMessage rawCodec tooLong).exec (S := ByteWire) (serve fun _ => 1)
      { unread := [] }).1
      ∃ e, ((readMessage rawCodec).exec (S := ByteWire) (serve fun _ => 1)
        { unread := written sent ++ behind }).2.1 =
        .error e ∧ e.kind = .invalidData) := by
  have hlen : (rawCodec.encode tooLong).length = 1048577 := by
    simp only [rawCodec, tooLong, id_eq, List.length_replicate]
  constructor
  · refine (frames_roundtrip startCodec ?_ behind fun _ => 1).1 startMessages _ (by decide)
      (run_exec _ _ _)
    rintro ⟨_ | _⟩ <;> rfl
  · have hrun := writeMessage_serve rawCodec tooLong (fun _ => 1) { unread := [] }
    exact (frames_roundtrip rawCodec (fun _ => rfl) behind fun _ => 1).2 tooLong _
      (by omega) (by omega) hrun

end AtvRemote.FrameStreams
