import AtvRemote.AuthRejection
import AtvRemote.Cli

namespace AtvRemote.KeyDelivery

open Programs Contracts CommandRules Errors Messages SystemCalls Framing FramingRules Translations
  Streams Links Scripts
  Handshake Session AuthRejection ReadPowerRuns Cli KeyNames

variable {M : Type} {codec : Codec M} {conn : Conn} {debug : String → String}

/-- Read messages until a read fails. -/
def readAll (codec : Codec M) : Nat → Program ByteWire IoError (List M)
  | 0 => pure []
  | n + 1 => do
      match ← (readMessage codec).attempt with
      | .ok m =>
          let msgs ← readAll codec n
          pure (m :: msgs)
      | .error _ => pure []

/-- However the bytes arrive and however long one reads on, these are the
messages one gets. -/
def Decodes (codec : Codec M) (bytes : Bytes) (msgs : List M) : Prop :=
  ∀ n, Meets Flows (readAll codec n) bytes (fun r _ => r = .ok (msgs.take n))

theorem readMessage_incomplete {part : Bytes} (h : ¬BeginsWhole codec part) :
    Meets Flows (readMessage codec) part (fun r _ => ∃ e, r = .error e) := by
  intro t r hrun rest hpath
  have hsound := readMessage_sound part t r hrun rest (hpath.mono fun _ _ _ hstep => hstep.1)
  cases r with
  | error e => exact ⟨e, rfl⟩
  | ok m =>
      obtain ⟨f, hf, hframe⟩ := hsound m rfl
      exact absurd ⟨f, rest, m, hf, hframe⟩ h

theorem decodes_frames {msgs : List M} (hmsgs : ∀ m ∈ msgs, IsFrame codec (frame codec m) m)
    {part : Bytes}
    (h : ¬BeginsWhole codec part) : Decodes codec (msgs.flatMap (frame codec) ++ part) msgs := by
  intro n
  induction n generalizing msgs with
  | zero => exact meets_pure.mpr (by rw [List.take_zero])
  | succ n ih =>
      cases msgs with
      | nil =>
          refine (readMessage_incomplete h).attempt.bind ?_ (by rintro e rest ⟨q, ⟨⟩, _⟩)
          rintro _ rest ⟨_, ⟨rfl⟩, e, rfl⟩
          exact meets_pure.mpr rfl
      | cons m msgs =>
          rw [List.flatMap_cons, List.append_assoc]
          have hm :=
            readMessage_complete (hmsgs m List.mem_cons_self) (msgs.flatMap (frame codec) ++ part)
          refine hm.attempt.bind ?_ (by rintro e rest ⟨q, ⟨⟩, _⟩)
          rintro _ _ ⟨_, ⟨rfl⟩, rfl, rfl⟩
          refine (ih fun m hm => hmsgs m (List.mem_cons_of_mem _ hm)).bind ?_ (by rintro e rest ⟨⟩)
          rintro _ rest ⟨rfl⟩
          exact meets_pure.mpr rfl

/-- What has been written to a connection: the bytes that were delivered, and
how each write ended. -/
structure Outgoing where
  delivered : Bytes
  writes : List (Except IoError Unit)

/-- A write that fails may have delivered bytes, but no whole frame. -/
def Sends (codec : Codec M) : Outgoing → Event ByteWire → Outgoing → Prop
  | s, ⟨.writeAll bytes, .ok _⟩, s' => s' = ⟨s.delivered ++ bytes, s.writes ++ [.ok ()]⟩
  | s, ⟨.writeAll _, .error e⟩, s' =>
      ∃ part, ¬BeginsWhole codec part ∧ s' = ⟨s.delivered ++ part, s.writes ++ [.error e]⟩
  | s, ⟨.read _, _⟩, s' => s' = s

/-- The same for messages. -/
def Posts (codec : Codec M) (conn : Conn) (s : Outgoing) :
    Event (System (MessageWire M)) → Outgoing → Prop
  | ⟨.wire c (.send m), x⟩, s' =>
      if c = conn then Sends codec s ⟨.writeAll (frame codec m), x⟩ s' else s' = s
  | _, s' => s' = s

theorem overBytes_posts (o : SystemOp (MessageOp M)) (s : Conn → Outgoing) :
    Meets (Each (Sends codec)) (overBytes codec o) s
    (fun r s' => ∀ x, r = .ok x → Posts codec conn (s conn) ⟨o, x⟩ (s' conn)) := by
  rcases o with ⟨c, _ | m⟩ | o
  · have hread : Meets (Sends codec) (readMessage codec) (s c) (fun _ s' => s' = s c) := by
      apply (readMessage_reads codec).meets
      rintro ⟨_ | _, x⟩ s' hread hstep
      · exact hstep
      · exact hread.elim
    refine (meets_onConn hread).mono ?_
    rintro _ s' ⟨⟨q, rfl, hsame⟩, hothers⟩ x _
    by_cases hc : conn = c
    · rw [hc]
      exact hsame
    · exact hothers conn hc
  · refine meets_call.mpr ?_
    rintro x s' ⟨hstep, hothers⟩
    have hposts : Posts codec conn (s conn) ⟨.wire c (.send m), x⟩ (s' conn) := by
      by_cases hc : c = conn
      · subst hc
        exact (if_pos rfl).mpr hstep
      · exact (if_neg hc).mpr (hothers conn (Ne.symm hc))
    cases x with
    | ok _ => exact meets_ret.mpr (by rintro _ ⟨rfl⟩; exact hposts)
    | error e => exact meets_ret.mpr (by rintro _ ⟨rfl⟩; exact hposts)
  · refine meets_call.mpr fun x s' hstep => meets_ret.mpr ?_
    rintro _ ⟨rfl⟩
    obtain rfl : s' = s := hstep
    rfl

/-- What a command meets on its messages, it meets on their bytes. -/
theorem meets_sends {α : Type} {p : Command (MessageWire M) α} {s : Conn → Outgoing}
    {Q : Except Stop α → Outgoing → Prop}
    (hp : Meets (Posts codec conn) p (s conn) Q) :
    Meets (Each (Sends codec)) (p.translate (overBytes codec)) s (fun r s' => Q r (s' conn)) := by
  have hstep : ∀ (o : SystemOp (MessageOp M)) (s : Conn → Outgoing) (a : Outgoing), s conn = a →
      Meets (Each (Sends codec)) (overBytes codec o) s
        (fun r s' => ∀ x, r = .ok x → ∃ a', Posts codec conn a ⟨o, x⟩ a' ∧ s' conn = a') := by
    rintro o s _ rfl
    exact (overBytes_posts o s).mono fun r s' h x hx => ⟨s' conn, h x hx, rfl⟩
  refine (Meets.translated (R := fun (s : Conn → Outgoing) a => s conn = a) overBytes_answers
    hstep rfl hp).mono ?_
  rintro r s' ⟨_, rfl, hQ⟩
  exact hQ

def press (codec : Codec RemoteMessage) (code : Int32) : Bytes := frame codec (keyMessage code)

/-- Where the loop ends: after the last key, or at a write that fails. -/
inductive Pressed (codec : Codec RemoteMessage) (keys : List Int32) (s : Outgoing) :
    Except Stop Unit → Outgoing → Prop
  | all : Pressed codec keys s (.ok ())
      ⟨s.delivered ++ keys.flatMap (press codec), s.writes ++ List.replicate keys.length (.ok ())⟩
  | failed {sent unsent : List Int32} {code : Int32} {e : IoError} {part : Bytes}
      (hkeys : keys = sent ++ code :: unsent)
      (hpart : ¬BeginsWhole codec part) : Pressed codec keys s (.error (.error (keyFailed code e)))
        ⟨s.delivered ++ (sent.flatMap (press codec) ++ part),
          s.writes ++ (List.replicate sent.length (.ok ()) ++ [.error e])⟩

theorem Pressed.cons {codec : Codec RemoteMessage} {code : Int32} {keys : List Int32}
    {s s' : Outgoing} {r : Except Stop Unit}
    (h : Pressed codec keys ⟨s.delivered ++ press codec code, s.writes ++ [.ok ()]⟩ r s') :
    Pressed codec (code :: keys) s r s' := by
  cases h with
  | all =>
      have hall := @Pressed.all codec (code :: keys) s
      simpa only [List.flatMap_cons, List.length_cons, List.replicate_succ, List.append_assoc,
        List.singleton_append] using hall
  | @failed sent unsent code' e part hkeys hpart =>
      have hfailed := @Pressed.failed codec (code :: keys) s (code :: sent) unsent code' e part
        (by rw [hkeys]; rfl) hpart
      simpa only [List.flatMap_cons, List.length_cons, List.replicate_succ, List.append_assoc,
        List.singleton_append,
        List.cons_append, List.nil_append] using hfailed

theorem pause_idle {codec : Codec RemoteMessage} (d : Duration)
    {f : Unit → Command SessionWire Unit} {s : Outgoing}
    {Q : Except Stop Unit → Outgoing → Prop} (h : Meets (Posts codec conn) (f ()) s Q) :
    Meets (Posts codec conn) (sleep d >>= f) s Q := by
  refine meets_request_bind.mpr ?_
  rintro _ _ rfl
  exact h

theorem sendPresses_posts (codec : Codec RemoteMessage) (keys : List Int32) (i : Nat)
    (s : Outgoing) :
    Meets (Posts codec conn) (sendPresses conn i keys) s (Pressed codec keys s) := by
  induction keys generalizing i s with
  | nil =>
      refine meets_pure.mpr ?_
      simpa using @Pressed.all codec [] s
  | cons code keys ih =>
      have hpress : Meets (Posts codec conn) (do
          orRaise (← writeMessage conn (keyMessage code)) (keyFailed code)
          sendPresses conn (i + 1) keys) s (Pressed codec (code :: keys) s) := by
        refine meets_request_bind.mpr fun x s' hstep => ?_
        have hsends := (if_pos rfl).mp hstep
        refine meets_orRaise_bind.mpr ⟨?_, ?_⟩
        · rintro _ rfl
          obtain rfl := hsends
          exact (ih (i + 1) _).mono fun r s' h => h.cons
        · rintro e rfl
          obtain ⟨part, hpart, rfl⟩ := hsends
          exact @Pressed.failed codec (code :: keys) s [] keys code e part rfl hpart
      rw [sendPresses]
      split
      · exact pause_idle keyInterval hpress
      · exact hpress

def pressing (host : IpAddr) (keys : List Int32) (conn : Conn) : Command SessionWire KeysOutput :=
  do
  sleep keyInjectGrace
  sendPresses conn 0 keys
  sleep sendSettle
  pure { timestamp := ← timestamp, host := host.text, keys := keys.map keycodeName }

theorem sendKeys_eq (fuel : Nat) (host : IpAddr) (port : UInt16) (keys : List Int32) :
    sendKeys fuel host port keys = readPower fuel host port >>= fun (_, conn, _) =>
      pressing host keys conn := rfl

/-- The outcome of `sendKeys` by that of its loop. -/
def Concludes (keys : List Int32) (r : Except Stop KeysOutput) : Except Stop Unit → Prop
  | .ok _ => ∃ out, r = .ok out ∧ out.keys = keys.map keycodeName
  | .error stop => r = .error stop

theorem pressing_posts (codec : Codec RemoteMessage) (host : IpAddr) (keys : List Int32)
    (s : Outgoing) :
    Meets (Posts codec conn) (pressing host keys conn) s
      (fun r s' => ∃ q, Pressed codec keys s q s' ∧ Concludes keys r q) := by
  refine meets_request_bind.mpr ?_
  rintro _ _ rfl
  refine (sendPresses_posts codec keys 0 _).bind ?_ (fun stop s' h => ⟨_, h, rfl⟩)
  intro _ s' h
  refine meets_request_bind.mpr ?_
  rintro _ _ rfl
  refine meets_request_bind.mpr ?_
  rintro text _ rfl
  exact meets_pure.mpr ⟨_, h, _, rfl, rfl⟩

theorem reported_names {args : List String} {codes : List Int32}
    (h : args.map (parseKeycode debug) = codes.map .ok) :
    (codes.map keycodeName).map (parseKeycode debug) = codes.map .ok := by
  rw [List.map_map]
  apply List.map_congr_left
  intro code hcode
  have hparsed : Except.ok code ∈ args.map (parseKeycode debug) := h ▸ List.mem_map_of_mem hcode
  obtain ⟨arg, _, harg⟩ := List.mem_map.mp hparsed
  obtain ⟨k, rfl⟩ := parseKeycode_named harg
  have hname : keycodeName k.toI32 = k.asStrName := by
    rw [keycodeName, tryFrom_toI32]
  rw [Function.comp_apply, hname]
  exact parseKeycode_asStrName k

/-- The first `i` keys have been pressed and no more; these are all of them
exactly if `sendKeys` succeeds, and then the names it reports stand for them.
Otherwise the next write has failed, with a protocol error. -/
def InOrder (codec : Codec RemoteMessage) (debug : String → String) (args : List String)
    (codes : List Int32)
    (r : Except Stop KeysOutput) (s s' : Outgoing) : Prop :=
  ∃ i ≤ codes.length, ∃ bytes, s'.delivered = s.delivered ++ bytes ∧ Decodes codec bytes
    ((codes.take i).map keyMessage) ∧
    ((∃ out, r = .ok out) ↔ i = codes.length) ∧
    (∀ out, r = .ok out → out.keys.length = args.length ∧ out.keys.map (parseKeycode debug) =
      codes.map .ok) ∧
    ∀ stop, r = .error stop → ∃ e err, s'.writes =
      s.writes ++ (List.replicate i (.ok ()) ++ [.error e]) ∧
      stop = .error err ∧ err.kind = .protocolError

theorem not_beginsWhole_nil : ¬BeginsWhole codec [] := by
  rintro ⟨f, after, m, hf, hframe⟩
  obtain ⟨rfl, _⟩ := List.append_eq_nil_iff.mp hf.symm
  obtain ⟨p, body, hp, hterminated, _⟩ := hframe.parts
  obtain ⟨rfl, _⟩ := List.append_eq_nil_iff.mp hp.symm
  exact hterminated.ne_nil rfl

theorem inOrder_of_pressed {codec : Codec RemoteMessage} {args : List String} {codes : List Int32}
    {r : Except Stop KeysOutput}
    {q : Except Stop Unit} {s s' : Outgoing} (hargs : args.map (parseKeycode debug) = codes.map .ok)
    (hframes : ∀ code ∈ codes, IsFrame codec (press codec code) (keyMessage code))
    (hpressed : Pressed codec codes s q s')
    (hr : Concludes codes r q) : InOrder codec debug args codes r s s' := by
  have hdecodes : ∀ (sent : List Int32) (part : Bytes), (∀ code ∈ sent, code ∈ codes) →
      ¬BeginsWhole codec part →
      Decodes codec (sent.flatMap (press codec) ++ part) (sent.map keyMessage) := by
    intro sent part hsent hpart
    have hmessages : ∀ m ∈ sent.map keyMessage, IsFrame codec (frame codec m) m := by
      intro m hm
      obtain ⟨code, hcode, rfl⟩ := List.mem_map.mp hm
      exact hframes code (hsent code hcode)
    have hstream := decodes_frames hmessages hpart
    rwa [List.flatMap_map] at hstream
  cases hpressed with
  | all =>
      obtain ⟨out, rfl, hkeys⟩ := hr
      refine ⟨codes.length, Nat.le_refl _, codes.flatMap (press codec), rfl, ?_, ?_, ?_, nofun⟩
      · have hall := hdecodes codes [] (fun _ h => h) not_beginsWhole_nil
        rw [List.take_length]
        rwa [List.append_nil] at hall
      · simp
      · rintro _ ⟨rfl⟩
        have hlength := congrArg List.length hargs
        rw [List.length_map, List.length_map] at hlength
        rw [hkeys]
        exact ⟨by rw [List.length_map, hlength], reported_names hargs⟩
  | @failed sent unsent code e part hkeys hpart =>
      obtain rfl : r = _ := hr
      have htake : codes.take sent.length = sent := by
        rw [hkeys]
        exact List.take_left
      have hlength := congrArg List.length hkeys
      rw [List.length_append, List.length_cons] at hlength
      refine ⟨sent.length, by omega, sent.flatMap (press codec) ++ part, rfl, ?_, ?_, nofun, ?_⟩
      · rw [htake]
        exact hdecodes sent part (fun _ h => hkeys ▸ List.mem_append_left _ h) hpart
      · constructor
        · rintro ⟨out, ⟨⟩⟩
        · intro h
          omega
      · rintro _ ⟨rfl⟩
        exact ⟨e, _, rfl, rfl, rfl⟩

/-- After the handshake, if there is one, the keys reach the TV in order. -/
theorem keys_reach_tv (codec : Codec RemoteMessage) (debug : String → String) (fuel : Nat)
    (host : IpAddr) (port : UInt16)
    (args : List String) (codes : List Int32) (v : Trace (System ByteWire))
    (r : Except Stop KeysOutput)
    (hargs : args.map (parseKeycode debug) = codes.map .ok)
    (hcodec : ∀ code ∈ codes, codec.decode (codec.encode (keyMessage code)) = .ok (keyMessage code))
    (hfits : ∀ code ∈ codes, (codec.encode (keyMessage code)).length ≤ maxFrame.toNat)
    (hrun : Run ((sendKeys fuel host port codes).translate (overBytes codec)) v r) :
    (∃ stop, Run ((readPower fuel host port).translate (overBytes codec)) v (.error stop) ∧
      r = .error stop) ∨
      ∃ u w on conn hs, v = u ++ w ∧ Run ((readPower fuel host port).translate (overBytes codec)) u
        (.ok (on, conn, hs)) ∧
        ∀ s s', Path (Each (Sends codec)) s w s' → InOrder codec debug args codes r
          (s conn) (s' conn) := by
  rw [sendKeys_eq, translate_bind] at hrun
  rcases run_bind.mp hrun with ⟨⟨on, conn, hs⟩, u, w, rfl, hu, hw⟩ | ⟨stop, hstop, rfl⟩
  · refine .inr ⟨u, w, on, conn, hs, rfl, hu, ?_⟩
    intro s s' hpath
    obtain ⟨q, hpressed, hr⟩ :=
      meets_sends (pressing_posts codec host codes (s conn)) w r hw s' hpath
    exact inOrder_of_pressed hargs (fun code hcode => frame_isFrame (hcodec code hcode)
      (hfits code hcode)) hpressed hr
  · exact .inl ⟨stop, hstop, rfl⟩

/-- The protobuf encoding of presses of keys with small codes, and of what the
TV says before. -/
def keyCodec : Codec RemoteMessage where
  encode m := match m.remoteKeyInject with
    | some key =>
        [0x52, 0x04, 0x08, key.keyCode.toUInt32.toUInt8, 0x10, key.direction.toUInt32.toUInt8]
    | none => pingCodec.encode m
  decode
    | [0x52, 0x04, 0x08, keyCode, 0x10, direction] =>
        .ok {
          remoteKeyInject :=
            some { keyCode := keyCode.toUInt32.toInt32, direction := direction.toUInt32.toInt32 } }
    | bytes => pingCodec.decode bytes

abbrev pressed : Trace (System ByteWire) × Except Stop KeysOutput × Script Unit × (Conn → Tape) :=
  ((sendKeys 3 livingRoom 6466 [24, 26]).translate (overBytes keyCodec)).exec
    (S := System ByteWire) answerBytes pinging

theorem pressed_succeeds : ∃ out, pressed.2.1 = .ok out := ⟨_, rfl⟩

/-- Two keys, one by its name and one by its number. -/
theorem keys_reach_tv_volume : ∃ u w on conn hs, pressed.1 = u ++ w ∧
    Run ((readPower 3 livingRoom 6466).translate (overBytes keyCodec)) u (.ok (on, conn, hs)) ∧
    ∀ s s', Path (Each (Sends keyCodec)) s w s' →
      InOrder keyCodec String.quote ["volume_up", "26"] [24, 26] pressed.2.1
        (s conn) (s' conn) := by
  have hargs : ["volume_up", "26"].map (parseKeycode String.quote) =
      ([24, 26] : List Int32).map .ok := by decide +kernel
  have hkeys := keys_reach_tv keyCodec String.quote 3 livingRoom 6466 ["volume_up", "26"]
    [24, 26] pressed.1 pressed.2.1
    hargs ?_ ?_ (run_exec _ _ pinging)
  · rcases hkeys with ⟨stop, _, hstop⟩ | hkeys
    · obtain ⟨out, hout⟩ := pressed_succeeds
      rw [hout] at hstop
      cases hstop
    · exact hkeys
  · intro code hcode
    simp only [List.mem_cons, List.not_mem_nil, or_false] at hcode
    rcases hcode with rfl | rfl <;> rfl
  · intro code _
    exact Nat.le_of_ble_eq_true rfl

end AtvRemote.KeyDelivery
