import AtvRemote.Conversations
import AtvRemote.FrameParts
import AtvRemote.KeyDelivery
import AtvRemote.PairingSecrets
import AtvRemote.ReadPowerRuns

namespace AtvRemote.ProcessBytes

open Programs Contracts Histories Translations Interruptions Errors Messages SystemCalls Discovery
  Framing FramingRules FrameStreams
  FrameParts Streams Links Pairing JsonTexts Output ProcessRuns Connections Conversations
open AuthRejection (BeginsWhole)
open PairingSecrets (paddedKeys)
open ReadPowerRuns (answerBytes foreignCodec pingCodec pinging)
open Scripts (Script livingRoom)
open KeyDelivery (not_beginsWhole_nil)
open Main (ProcessOp Surroundings WireOp main)

/-- What the process asks of its surroundings where messages are bytes. -/
inductive RawOp
  | system (o : SystemOp ByteOp)
  | browsing (o : BrowseOp)
  | writeln (text : String)
  | flush
  | eprintln (text : String)

@[reducible] def RawOp.Answer : RawOp → Type
  | .system o => SystemOp.Answer ByteOp.Answer o
  | .browsing o => o.Answer
  | .writeln _ | .flush | .eprintln _ => Except IoError Unit

abbrev Raw : Signature := ⟨RawOp, RawOp.Answer⟩

def request (o : RawOp) : Program Raw Stop o.Answer := .call o .ret

section Carrying

variable (remote : Codec RemoteMessage) (outer : Codec OuterMessage)

/-- An operation of the process as it is carried out on bytes. -/
def onBytes : (o : ProcessOp) → Program Raw Stop o.Answer
  | .system (.wire conn (.session w)) =>
      (overBytes remote (.wire conn w)).translate fun o => request (.system o)
  | .system (.wire conn (.pairing w)) =>
      (overBytes outer (.wire conn w)).translate fun o => request (.system o)
  | .system (.host o) => request (.system (.host o))
  | .browsing o => request (.browsing o)
  | .writeln text => request (.writeln text)
  | .flush => request .flush
  | .eprintln text => request (.eprintln text)

/-- The messages of both protocols, read as the command expects them. -/
def wireCodec (command : Main.Command) : Codec Message where
  encode
    | .pairing m => outer.encode m
    | .session m => remote.encode m
  decode bytes := match task command with
    | .pair => (outer.decode bytes).map .pairing
    | _ => (remote.decode bytes).map .session

end Carrying

/-- The bytes that were read and written on a connection since it was opened. -/
structure Octets where
  sock : TcpStream
  read : Bytes := []
  written : Bytes := []
  deriving DecidableEq, Repr

def Octets.take (s : Octets) : Event ByteWire → Octets
  | ⟨.read _, .ok bytes⟩ => { s with read := s.read ++ bytes.1 }
  | ⟨.writeAll bytes, .ok _⟩ => { s with written := s.written ++ bytes }
  | _ => s

/-- The last connection comes first. -/
def followBytes : List Octets → Event Raw → List Octets
  | ss, ⟨.system (.host (.connectTimeout _ _)), .ok sock⟩ => { sock } :: ss
  | s :: ss, ⟨.system (.wire conn w), x⟩ =>
      if s.sock = conn.sock then s.take ⟨w, x⟩ :: ss else s :: ss
  | ss, _ => ss

def octets (v : Trace Raw) : List Octets := v.foldl followBytes []

@[simp] theorem octets_nil : octets [] = [] := rfl

theorem octets_append (v w : Trace Raw) : octets (v ++ w) = w.foldl followBytes (octets v) :=
  List.foldl_append

/-- What has been read begins with the frames of what has been heard, and ends
in a part of a frame only if a read has failed. What has been written are the
frames of what has been said. -/
structure Carries (codec : Codec Message) (c : Conversation) (s : Octets) : Prop where
  sock : s.sock = c.sock
  heard : ∃ (frames : List (Framed codec)) (part : Bytes), s.read = stream frames ++ part ∧
    messages frames = c.heard ∧
    ¬BeginsWhole codec part ∧ (c.ended = false → part = [])
  said : s.written = c.said.flatMap (frame codec)

/-- An event that has nothing to do with messages, as the process sees it. -/
def aside : Event Raw → Option (Event Surroundings)
  | ⟨.system (.wire _ _), _⟩ => none
  | ⟨.system (.host o), x⟩ => some ⟨.system (.host o), x⟩
  | ⟨.browsing o, x⟩ => some ⟨.browsing o, x⟩
  | ⟨.writeln text, x⟩ => some ⟨.writeln text, x⟩
  | ⟨.flush, x⟩ => some ⟨.flush, x⟩
  | ⟨.eprintln text, x⟩ => some ⟨.eprintln text, x⟩

def offWire : Event Surroundings → Option (Event Surroundings)
  | ⟨.system (.wire _ _), _⟩ => none
  | e => some e

variable {M N : Type} {codec : Codec M} {both : Codec N} {tag : M → N}

/-- The messages of one protocol among those of both. -/
structure Tagged (codec : Codec M) (both : Codec N) (tag : M → N) : Prop where
  encode (m : M) : both.encode (tag m) = codec.encode m
  decode (bytes : Bytes) : both.decode bytes = (codec.decode bytes).map tag

theorem Tagged.frame (h : Tagged codec both tag) (m : M) :
    Framing.frame both (tag m) = Framing.frame codec m := by
  rw [Framing.frame, Framing.frame, h.encode]

theorem Tagged.isFrame (h : Tagged codec both tag) {f : Bytes} {m : M} (hf : IsFrame codec f m) :
    IsFrame both f (tag m) := by
  obtain ⟨p, body, hparts, hp, hplen, hfits, hbody, hm⟩ := hf.parts
  exact ⟨p, body, hparts, hp, hplen, hfits, hbody, by rw [h.decode, hm]; rfl⟩

theorem Tagged.beginsWhole (h : Tagged codec both tag) {part : Bytes}
    (hpart : BeginsWhole both part) : BeginsWhole codec part := by
  obtain ⟨f, after, n, heq, hf⟩ := hpart
  obtain ⟨p, body, hparts, hp, hplen, hfits, hbody, hn⟩ := hf.parts
  rw [h.decode] at hn
  cases hm : codec.decode body with
  | error e =>
      rw [hm] at hn
      cases hn
  | ok m => exact ⟨f, after, m, heq, p, body, hparts, hp, hplen, hfits, hbody, hm⟩

section Bytes

variable {conn : Conn} {both : Codec Message} {tag : M → Message} {c : Conversation} {s : Octets}
  {w : Trace ByteWire}

def Octets.takeAll (s : Octets) (w : Trace ByteWire) : Octets := w.foldl Octets.take s

theorem takeAll_eq (s : Octets) (w : Trace ByteWire) :
    s.takeAll w =
      { s with read := s.read ++ taken w, written := s.written ++ FrameStreams.written w } := by
  induction w generalizing s with
  | nil => simp [Octets.takeAll, taken, FrameStreams.written]
  | cons e w ih =>
      rw [Octets.takeAll, List.foldl_cons]
      change (s.take e).takeAll w = _
      rw [ih]
      obtain ⟨n | bytes, x⟩ := e
      · cases x <;> simp [Octets.take, taken, FrameStreams.written]
      · cases x <;> simp [Octets.take, taken, FrameStreams.written]

theorem carries_hear (h : Carries both c s) (htag : Tagged codec both tag)
    (hgoing : c.ended = false) {x : Except IoError M}
    (hrun : Run (readMessage codec) w x) : Carries both (c.hear (x.map tag)) (s.takeAll w) := by
  obtain ⟨hsock, ⟨frames, part, hread, hheard, _, hpart⟩, hsaid⟩ := h
  obtain rfl := hpart hgoing
  have hquiet : FrameStreams.written w = [] :=
    written_reads ((readMessage_reads codec).ensures w x hrun)
  rw [List.append_nil] at hread
  rw [takeAll_eq, hquiet, hread]
  cases x with
  | ok m =>
      have hframe := htag.isFrame (taken_frame hrun)
      refine ⟨hsock, ⟨frames ++ [⟨taken w, tag m, hframe⟩], [], ?_, ?_, not_beginsWhole_nil,
        fun _ => rfl⟩, ?_⟩
      · simp [stream]
      · simp [messages, Conversation.hear, Except.map, ← hheard]
      · exact (List.append_nil s.written).trans hsaid
  | error e =>
      refine ⟨hsock, ⟨frames, taken w, rfl, hheard, fun hpart => taken_part hrun
        (htag.beginsWhole hpart), ?_⟩, ?_⟩
      · intro hended
        cases hended
      · exact (List.append_nil s.written).trans hsaid

theorem carries_say (h : Carries both c s) (htag : Tagged codec both tag) {m : M}
    {x : Except IoError Unit}
    (hrun : Run (writeMessage codec m) w x) : Carries both (c.say (tag m) x) (s.takeAll w) := by
  obtain ⟨answer, u, rfl, hu⟩ := run_call.mp hrun
  obtain ⟨hsock, ⟨frames, part, hread, hheard, hpart⟩, hsaid⟩ := h
  rw [takeAll_eq]
  cases answer with
  | error e =>
      obtain ⟨rfl, rfl⟩ := run_fail.mp hu
      refine ⟨hsock, ⟨frames, part, ?_, hheard, hpart⟩, ?_⟩
      · simpa [taken] using hread
      · simpa [FrameStreams.written, Conversation.say] using hsaid
  | ok _ =>
      obtain ⟨rfl, rfl⟩ := run_ret.mp hu
      refine ⟨hsock, ⟨frames, part, ?_, hheard, hpart⟩, ?_⟩
      · simpa [taken] using hread
      · simp [FrameStreams.written, Conversation.say, htag.frame, hsaid]

/-- The bytes of one message go to the connection that is current. -/
def onRaw (conn : Conn) (e : Event ByteWire) : Event Raw := ⟨.system (.wire conn e.1), e.2⟩

theorem followBytes_onRaw {ss : List Octets} (hsock : s.sock = conn.sock) (w : Trace ByteWire) :
    (w.map (onRaw conn)).foldl followBytes (s :: ss) = s.takeAll w :: ss := by
  induction w generalizing s with
  | nil => rfl
  | cons e w ih =>
      rw [List.map_cons, List.foldl_cons, onRaw, followBytes, if_pos hsock]
      refine ih ?_
      obtain ⟨n | bytes, x⟩ := e <;> cases x <;> exact hsock

theorem run_request {o : RawOp} {v : Trace Raw} {r : Except Stop o.Answer}
    (h : Run (request o) v r) : ∃ x, v = [⟨o, x⟩] ∧ r = .ok x := by
  obtain ⟨x, u, rfl, hu⟩ := run_call.mp h
  obtain ⟨rfl, rfl⟩ := run_ret.mp hu
  exact ⟨x, rfl, rfl⟩

theorem run_wire {α : Type} {p : Program ByteWire IoError α} {u : Trace Raw}
    {r : Except Stop (Except IoError α)}
    (h : Run ((onConn conn p).translate fun o => request (.system o)) u r) :
    ∃ z q, Run p z q ∧ u = z.map (onRaw conn) ∧ r = .ok q := by
  have hone : ∀ (o : SystemOp ByteOp) (u : Trace Raw)
      (r : Except Stop (SystemOp.Answer ByteOp.Answer o)),
      Run (request (.system o)) u r → ∃ x, u = [⟨.system o, x⟩] ∧ r = .ok x :=
        fun o u r h => run_request h
  obtain ⟨v, hv, hreal⟩ := run_translate (fun o u e hu => by obtain ⟨_, _, ⟨⟩⟩ := hone o u _ hu) h
  have hu : u = v.map fun e => (⟨.system e.1, e.2⟩ : Event Raw) := by
    refine realizes_map ?_ hreal
    intro o u x hu
    obtain ⟨_, rfl, ⟨⟩⟩ := hone o u _ hu
    rfl
  obtain ⟨z, q, hz, rfl, rfl⟩ := run_onConn.mp hv
  rw [List.map_map] at hu
  exact ⟨z, q, hz, hu, rfl⟩

end Bytes

section Processes

variable {remote : Codec RemoteMessage} {outer : Codec OuterMessage} {lib : Library}
  {json : SerdeJson} {fuel : Nat}
  {command : Main.Command} {t : Trace Surroundings} {v : Trace Raw}

theorem tagged_pairing (htask : task command = .pair) :
    Tagged outer (wireCodec remote outer command) .pairing where
  encode m := rfl
  decode bytes := by simp only [wireCodec, htask]

theorem tagged_session (htask : task command ≠ .pair) :
    Tagged remote (wireCodec remote outer command) .session where
  encode m := rfl
  decode bytes := by
    cases h : task command with
    | pair => exact absurd h htask
    | session | discover => simp only [wireCodec, h]

/-- The command speaks the protocol of this event, if it is one of a protocol. -/
def Spoken (command : Main.Command) : Event Surroundings → Prop
  | ⟨.system (.wire _ (.pairing _)), _⟩ => task command = .pair
  | ⟨.system (.wire _ (.session _)), _⟩ => task command ≠ .pair
  | _ => True

theorem spoken_embedHost (o : HostOp) (x : o.Answer) : Spoken command (embedHost o x) := by
  cases o <;> trivial

theorem spoken_pairing (htask : task command = .pair) (u : Trace (System PairingWire)) :
    ∀ e ∈ u.map embedPairing, Spoken command e := by
  refine List.forall_mem_map.mpr fun e _ => ?_
  obtain ⟨conn | o, x⟩ := e
  · exact htask
  · exact spoken_embedHost o x

theorem spoken_of_worked {r : Except Stop Result} (h : Worked lib fuel command t r) :
    ∀ e ∈ t, Spoken command e := by
  cases h with
  | pair htask hrun => exact spoken_pairing htask _
  | unprompted closed htask hrun =>
      exact List.forall_mem_append.mpr
        ⟨spoken_pairing htask _, List.forall_mem_singleton.mpr trivial⟩
  | session htask hrun =>
      refine List.forall_mem_map.mpr fun e _ => ?_
      obtain ⟨conn | o, x⟩ := e
      · change task command ≠ .pair
        rw [htask]
        intro h
        cases h
      · exact spoken_embedHost o x
  | discover htask hrun => exact List.forall_mem_map.mpr fun e _ => trivial

theorem spoken_printed {e : Event Surroundings} (he : Printed e) : Spoken command e := by
  obtain ⟨o, x⟩ := e
  cases o with
  | system => exact he.elim
  | _ => trivial

theorem carries_take {conn : Conn} {w : WireOp} {x : w.Answer} {c : Conversation}
    {s : Octets} {u : Trace Raw}
    (h : Carries (wireCodec remote outer command) c s) (hgoing : c.ended = false)
    (hsock : s.sock = conn.sock)
    (hspoken : Spoken command ⟨.system (.wire conn w), x⟩)
    (hrun : Run (onBytes remote outer (.system (.wire conn w))) u (.ok x))
    (ss : List Octets) :
    ∃ s', u.foldl followBytes (s :: ss) = s' :: ss ∧ Carries (wireCodec remote outer command)
      (c.take w x) s' := by
  rcases w with (_ | m) | (_ | m)
  · obtain ⟨z, q, hz, rfl, ⟨⟩⟩ := run_wire hrun
    exact ⟨_, followBytes_onRaw hsock z, carries_hear h (tagged_pairing hspoken) hgoing hz⟩
  · obtain ⟨z, q, hz, rfl, ⟨⟩⟩ := run_wire hrun
    exact ⟨_, followBytes_onRaw hsock z, carries_say h (tagged_pairing hspoken) hz⟩
  · obtain ⟨z, q, hz, rfl, ⟨⟩⟩ := run_wire hrun
    exact ⟨_, followBytes_onRaw hsock z, carries_hear h (tagged_session hspoken) hgoing hz⟩
  · obtain ⟨z, q, hz, rfl, ⟨⟩⟩ := run_wire hrun
    exact ⟨_, followBytes_onRaw hsock z, carries_say h (tagged_session hspoken) hz⟩

theorem apart_bytes {e : Event Surroundings} {u : Trace Raw} (he : Apart e)
    (hrun : Run (onBytes remote outer e.1) u (.ok e.2))
    (ss : List Octets) : u.foldl followBytes ss = ss := by
  obtain ⟨(⟨conn, w⟩ | o) | o | text | _ | text, x⟩ := e
  · exact he.elim
  · obtain ⟨y, rfl, ⟨⟩⟩ := run_request hrun
    cases o with
    | connectTimeout => exact he.elim
    | _ => cases ss <;> rfl
  all_goals
    obtain ⟨y, rfl, ⟨⟩⟩ := run_request hrun
    cases ss <;> rfl

/-- On every connection the bytes carry the conversation. -/
theorem carries_of_realizes (hfit : Along FitAll t) (huses : uses t ≠ .abused)
    (hspoken : ∀ e ∈ t, Spoken command e)
    (h : Realizes (onBytes remote outer) t v) :
    List.Forall₂ (Carries (wireCodec remote outer command)) (conversations t) (octets v) := by
  induction t using List.reverseRecOn generalizing v with
  | nil =>
      cases h
      exact .nil
  | append_singleton t e ih =>
      obtain ⟨v, u, rfl, hv, hu⟩ := h.split
      obtain ⟨hspoken, he⟩ := List.forall_mem_append.mp hspoken
      have hbefore := ih hfit.left (uses_left huses) hspoken hv
      have hrun : Run (onBytes remote outer e.1) u (.ok e.2) := by
        cases hu with
        | cons hrun hnil =>
            cases hnil
            rwa [List.append_nil]
      rw [conversations_concat, octets_append]
      rcases apart_or e with hapart | ⟨conn, w, x, rfl⟩ | ⟨addr, d, x, rfl⟩
      · rw [hapart.follow, apart_bytes hapart hrun]
        exact hbefore
      · -- the connection is the one opened last, and no read on it has failed
        have hready : (setupAll t).Ready conn := hfit t _ [] rfl
        obtain ⟨c, cs, hcs, hsock⟩ := last_of_sock hready.opened.sock
        have hgoing := going_of_sound (wire_sound huses) hcs
        rw [hcs] at hbefore ⊢
        cases hss : octets v with
        | nil =>
            rw [hss] at hbefore
            cases hbefore
        | cons s ss =>
            rw [hss] at hbefore
            obtain ⟨hcarries, hrest⟩ := List.forall₂_cons.mp hbefore
            obtain ⟨s', hs', hcarries⟩ :=
              carries_take hcarries hgoing (hcarries.sock.trans hsock)
                (he _ List.mem_cons_self) hrun ss
            rw [hs', follow, if_pos hsock]
            exact .cons hcarries hrest
      · obtain ⟨y, rfl, ⟨⟩⟩ := run_request hrun
        cases x with
        | ok sock =>
            exact .cons ⟨rfl, ⟨[], [], rfl, rfl, not_beginsWhole_nil, fun _ => rfl⟩, rfl⟩ hbefore
        | error e =>
            have hsame :
                followBytes (octets v) ⟨.system (.host (.connectTimeout addr d)), .error e⟩ =
                octets v := by
              cases octets v <;> rfl
            rw [follow_refused, List.foldl_cons, List.foldl_nil, hsame]
            exact hbefore

theorem aside_of_realizes (h : Realizes (onBytes remote outer) t v) :
    v.filterMap aside = t.filterMap offWire := by
  induction h with
  | nil => rfl
  | @cons o x t u v hrun _ ih =>
      rw [List.filterMap_append, ih]
      obtain (⟨conn, w⟩ | o) | o | text | _ | text := o
      · have hwire : ∃ z : Trace ByteWire, u = z.map (onRaw conn) := by
          rcases w with (_ | m) | (_ | m) <;>
            obtain ⟨z, q, _, hz, _⟩ := run_wire hrun <;> exact ⟨z, hz⟩
        obtain ⟨z, rfl⟩ := hwire
        have hnone : (z.map (onRaw conn)).filterMap aside = [] := by
          rw [List.filterMap_map, List.filterMap_eq_nil_iff]
          intro e _
          rfl
        rw [hnone]
        rfl
      all_goals
        obtain ⟨y, rfl, ⟨⟩⟩ := run_request hrun
        rfl

/-- Every run of the process on bytes is one on messages, with the same outcome
and the same events apart from messages. No connection is used after a read on
it has failed, and the bytes on each connection carry what was heard and said. -/
theorem main_on_bytes {r : Except Stop Nat}
    (h : Run ((main lib json fuel command).translate (onBytes remote outer)) v r) :
    ∃ t, Run (main lib json fuel command) t r ∧ Realizes (onBytes remote outer) t v ∧
      v.filterMap aside = t.filterMap offWire ∧
      uses t ≠ .abused ∧ List.Forall₂ (Carries (wireCodec remote outer command)) (conversations t)
        (octets v) := by
  have hanswers : ∀ o u stop, ¬Run (onBytes remote outer o) u (.error stop) := by
    intro o u stop hu
    obtain (⟨conn, w⟩ | o) | o | text | _ | text := o
    · rcases w with (_ | m) | (_ | m) <;> obtain ⟨_, _, _, _, ⟨⟩⟩ := run_wire hu
    all_goals obtain ⟨_, _, ⟨⟩⟩ := run_request hu
  obtain ⟨t, ht, hreal⟩ := run_translate hanswers h
  refine ⟨t, ht, hreal, aside_of_realizes hreal, uses_of_run ht, ?_⟩
  obtain ⟨u, w, q, rfl, hu, hending⟩ := run_main ht
  have hprinted := printed_of_ending hending
  have hfit : Along FitAll (u ++ w) :=
    (orderly_of_worked (run_work hu)).append fun e he => fitAll_printed (hprinted e he)
  have hspoken : ∀ e ∈ u ++ w, Spoken command e :=
    List.forall_mem_append.mpr ⟨spoken_of_worked (run_work hu), fun e he => spoken_printed
      (hprinted e he)⟩
  exact carries_of_realizes hfit (uses_of_run ht) hspoken hreal

/-- Nothing comes of mDNS, and every line that is printed gets through. -/
def answerRaw : (o : RawOp) → Script Unit × (Conn → Tape) → o.Answer × Script Unit × (Conn → Tape)
  | .system o, s => answerBytes o s
  | .browsing .serviceDaemon, s | .browsing (.browse _), s => (.ok (), s)
  | .browsing .now, s => (default, s)
  | .browsing (.recvTimeout _), s => (.error .timeout, s)
  | .browsing .shutdown, s => ((), s)
  | .browsing .timestamp, s => ("", s)
  | .writeln _, s | .flush, s | .eprintln _, s => (.ok (), s)

/-- The television pings once and then announces that it is on. -/
theorem main_on_bytes_status :
    let command := Main.Command.status ⟨livingRoom, none⟩
    let met := ((main paddedKeys compact 3 command).translate (onBytes pingCodec foreignCodec)).exec
      (S := Raw) answerRaw pinging
    met.2.1 = .ok 0 ∧ ∃ t, Run (main paddedKeys compact 3 command) t met.2.1 ∧
      Realizes (onBytes pingCodec foreignCodec) t met.1 ∧
      met.1.filterMap aside = t.filterMap offWire ∧ uses t ≠ .abused ∧
      List.Forall₂ (Carries (wireCodec pingCodec foreignCodec command)) (conversations t)
        (octets met.1) :=
  ⟨rfl, main_on_bytes (run_exec _ _ _)⟩

end Processes

end AtvRemote.ProcessBytes
