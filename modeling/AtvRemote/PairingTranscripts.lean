import AtvRemote.PairingRuns
import AtvRemote.Transcripts
import AtvRemote.Scripts

namespace AtvRemote.PairingTranscripts

open Programs Contracts CommandRules CredentialRules Errors Messages SystemCalls
  Credentials Texts Pairing
  PairingRuns Transcripts Scripts

theorem sent_replies (conn : Conn) (replies : List OuterMessage) :
    sent (replies.map fun m => ⟨.wire conn (.send m), .ok ()⟩ : PairingTrace) = replies := by
  induction replies with
  | nil => rfl
  | cons m replies ih => exact congrArg (m :: ·) ih

theorem received_replies (conn : Conn) (replies : List OuterMessage) :
    received (replies.map fun m => ⟨.wire conn (.send m), .ok ()⟩ : PairingTrace) = [] := by
  induction replies with
  | nil => rfl
  | cons m replies ih => exact ih

@[simp] theorem sent_exchange (conn : Conn) (msgs : List OuterMessage) :
    sent (exchange conn msgs) = msgs.filterMap answer := by
  induction msgs with
  | nil => rfl
  | cons m msgs ih =>
      rw [exchange_cons, sent_append, ih]
      change sent (List.map _ (answer m).toList) ++ _ = _
      rw [sent_replies, List.filterMap_cons]
      cases answer m <;> rfl

@[simp] theorem received_exchange (conn : Conn) (msgs : List OuterMessage) :
    received (exchange conn msgs) = msgs := by
  induction msgs with
  | nil => rfl
  | cons m msgs ih =>
      rw [exchange_cons, received_append, ih]
      change m :: received (List.map _ (answer m).toList) ++ _ = _
      rw [received_replies]
      rfl

def beforeAck (msgs : List OuterMessage) : List OuterMessage :=
  msgs.takeWhile fun m => decide (phase m ≠ .configurationAck)

theorem beforeAck_passes {msgs : List OuterMessage} (h : ∀ m ∈ msgs, Passes m)
    (rest : List OuterMessage) :
    beforeAck (msgs ++ rest) = msgs ++ beforeAck rest :=
  List.takeWhile_append_of_pos fun m hm => decide_eq_true (h m hm).2

theorem beforeAck_ack {ack : OuterMessage} (h : phase ack = .configurationAck)
    (rest : List OuterMessage) :
    beforeAck (ack :: rest) = [] :=
  List.takeWhile_cons_of_neg (by simpa using h)

theorem beforeAck_single {m : OuterMessage} (h : phase m ≠ .configurationAck) :
    beforeAck [m] = [m] :=
  List.takeWhile_cons_of_pos (decide_eq_true h)

theorem answer_of_rejection {m : OuterMessage} {e : AtvError} (h : rejection m = some e) :
    answer m = none := by
  unfold rejection at h
  rw [answer]
  split at h <;> simp_all

theorem rejection_of_answer {m reply : OuterMessage} (h : answer m = some reply) :
    rejection m = none := by
  cases hrejection : rejection m with
  | none => rfl
  | some e =>
      rw [answer_of_rejection hrejection] at h
      cases h

theorem not_ack_of_rejection {m : OuterMessage} {e : AtvError} (h : rejection m = some e) :
    phase m ≠ .configurationAck := by
  unfold rejection at h
  split at h <;> simp_all

theorem not_ack_of_answer {m reply : OuterMessage} (h : answer m = some reply) :
    phase m ≠ .configurationAck := by
  intro hack
  rw [answer_configurationAck hack] at h
  cases h

variable {lib : Library} {host : IpAddr} {port : UInt16} {tls : TlsClient}
  {conn : Conn} {fuel : Nat}
  {t u v : PairingTrace} {r : Except Stop PairOutput}

theorem LoopEnd.written {q : Except Stop PairingFlow} (h : LoopEnd conn u q) :
    sent u = (beforeAck (received u)).filterMap answer := by
  cases h with
  | unfinished => rfl
  | readFailed e => rfl
  | @rejected m e h =>
      change [] = (beforeAck [m]).filterMap answer
      rw [beforeAck_single (not_ack_of_rejection h)]
      simp [answer_of_rejection h]
  | @writeFailed m reply e h =>
      change [reply] = (beforeAck [m]).filterMap answer
      rw [beforeAck_single (not_ack_of_answer h)]
      simp [h]
  | @acknowledged m _ h _ =>
      change [] = (beforeAck [m]).filterMap answer
      rw [beforeAck_ack h]
      rfl

theorem LoopEnd.ok {flow : PairingFlow} (h : LoopEnd conn u (.ok flow)) :
    ∃ ack, u = [⟨.wire conn .recv, .ok ack⟩] ∧ phase ack = .configurationAck := by
  cases h with
  | @acknowledged m _ h _ => exact ⟨m, rfl, h⟩

theorem loop_written {q : Except Stop PairingFlow} {msgs : List OuterMessage}
    (hmsgs : ∀ m ∈ msgs, Passes m)
    (hu : LoopEnd conn u q) :
    sent (exchange conn msgs ++ u) =
      (beforeAck (received (exchange conn msgs ++ u))).filterMap answer := by
  rw [sent_append, received_append, sent_exchange, received_exchange, beforeAck_passes hmsgs,
    List.filterMap_append, LoopEnd.written hu]

theorem sent_secretEnd {secret : Bytes} (h : SecretEnd host conn secret t r) :
    sent t = [secretMessage secret] := by
  cases h <;> rfl

/-- What is written is a beginning of the request, the answers to what arrived
before the acknowledgement, and the secret. -/
theorem pairEnd_written (h : PairEnd lib host tls conn t r) : ∃ secret,
    sent t <+: initialMessage :: (beforeAck (received t)).filterMap answer ++
      [secretMessage secret] := by
  cases h with
  | writeFailed e => exact ⟨[], List.prefix_append _ _⟩
  | @stopped msgs u stop hmsgs hu =>
      refine ⟨[], ?_⟩
      change initialMessage :: sent (exchange conn msgs ++ u) <+:
        initialMessage :: (beforeAck (received (exchange conn msgs ++ u))).filterMap answer ++
          [secretMessage []]
      rw [loop_written hmsgs hu]
      exact List.prefix_append _ _
  | @unprompted msgs u v stop flow hmsgs hu hv =>
      refine ⟨[], ?_⟩
      obtain ⟨hsent, hreceived⟩ := silent_of_onHost hv
      change initialMessage :: sent (exchange conn msgs ++ u ++ v) <+:
        initialMessage :: (beforeAck (received (exchange conn msgs ++ u ++ v))).filterMap answer ++
          [secretMessage []]
      rw [sent_append, received_append, hsent, hreceived, List.append_nil, List.append_nil,
        loop_written hmsgs hu]
      exact List.prefix_append _ _
  | @prompted msgs u v _ flow line serverDer secret certs hmsgs hu hsecret hv =>
      obtain ⟨ack, rfl, hack⟩ := LoopEnd.ok hu
      refine ⟨secret, ?_⟩
      simp only [List.cons_append, List.append_assoc]
      change initialMessage :: sent (exchange conn msgs ++ _) <+:
        initialMessage :: ((beforeAck (received (exchange conn msgs ++ _))).filterMap answer ++
          [secretMessage secret])
      rw [sent_append, received_append, sent_exchange, received_exchange]
      change initialMessage ::
        (_ ++ sent (prompt conn line serverDer certs ++ v)) <+: initialMessage ::
        ((beforeAck (msgs ++ ack :: received (prompt conn line serverDer certs ++ v))).filterMap
          answer ++ _)
      rw [sent_append, sent_secretEnd hv, beforeAck_passes hmsgs, beforeAck_ack hack,
        List.append_nil]
      exact List.prefix_refl _

def Public : PairingEvent → Prop
  | ⟨.wire _ (.send m), _⟩ => m.secret = none
  | _ => True

def Accepted : PairingEvent → Prop
  | ⟨.wire _ .recv, .ok m⟩ => rejection m = none
  | _ => True

theorem public_of_onHost {e : PairingEvent} (h : OnHost e) : Public e := by
  obtain ⟨o, x⟩ := e
  cases o with
  | wire => exact h.elim
  | host => trivial

theorem accepted_of_onHost {e : PairingEvent} (h : OnHost e) : Accepted e := by
  obtain ⟨o, x⟩ := e
  cases o with
  | wire => exact h.elim
  | host => trivial

theorem secret_of_answer {m reply : OuterMessage} (h : answer m = some reply) :
    reply.secret = none := by
  unfold answer at h
  split at h <;> cases h <;> rfl

theorem exchange_quiet {msgs : List OuterMessage} (hmsgs : ∀ m ∈ msgs, Passes m) :
    ∀ e ∈ exchange conn msgs, Public e ∧ Accepted e := by
  intro e he
  obtain ⟨m, hm, he⟩ := List.mem_flatMap.mp he
  rcases List.mem_cons.mp he with rfl | he
  · exact ⟨trivial, (hmsgs m hm).1⟩
  · obtain ⟨reply, hreply, rfl⟩ := List.mem_map.mp he
    exact ⟨secret_of_answer (Option.mem_toList.mp hreply), trivial⟩

theorem opening_public {msgs : List OuterMessage} (hmsgs : ∀ m ∈ msgs, Passes m) :
    ∀ e ∈ (⟨.wire conn (.send initialMessage), .ok ()⟩ :: exchange conn msgs : PairingTrace),
      Public e :=
  List.forall_mem_cons.mpr ⟨rfl, fun e he => (exchange_quiet hmsgs e he).1⟩

theorem opening_accepted {msgs : List OuterMessage} (hmsgs : ∀ m ∈ msgs, Passes m) :
    ∀ e ∈ (⟨.wire conn (.send initialMessage), .ok ()⟩ :: exchange conn msgs : PairingTrace),
      Accepted e :=
  List.forall_mem_cons.mpr ⟨trivial, fun e he => (exchange_quiet hmsgs e he).2⟩

theorem prompt_onHost (line : String) (serverDer : Bytes) (certs : List Bytes) :
    ∀ e ∈ prompt conn line serverDer certs, OnHost e := by
  simp [prompt, OnHost]

theorem LoopEnd.public {q : Except Stop PairingFlow} (h : LoopEnd conn u q) :
    ∀ e ∈ u, Public e := by
  cases h with
  | @writeFailed m reply e h => simp [Public, secret_of_answer h]
  | _ => simp [Public]

def Rejects (t : PairingTrace) (r : Except Stop PairOutput) : Prop :=
  (∀ e ∈ t, Accepted e) ∨ ∃ u conn m e, t = u ++ [⟨.wire conn .recv, .ok m⟩] ∧
    (∀ e ∈ u, Accepted e) ∧
    rejection m = some e ∧ r = .error (.error e)

theorem Rejects.append (hu : ∀ e ∈ u, Accepted e) (hv : Rejects v r) : Rejects (u ++ v) r := by
  rcases hv with hv | ⟨w, conn, m, e, rfl, hw, hm, hr⟩
  · exact .inl (List.forall_mem_append.mpr ⟨hu, hv⟩)
  · have hquiet : ∀ e ∈ u ++ w, Accepted e := List.forall_mem_append.mpr ⟨hu, hw⟩
    exact .inr ⟨u ++ w, conn, m, e, (List.append_assoc u w _).symm, hquiet, hm, hr⟩

theorem LoopEnd.rejects {stop : Stop} (h : LoopEnd conn u (.error stop)) :
    Rejects u (.error stop) := by
  cases h with
  | @rejected m e h => exact .inr ⟨[], conn, m, e, rfl, List.forall_mem_nil _, h, rfl⟩
  | @writeFailed m reply e h => exact .inl (by simp [Accepted, rejection_of_answer h])
  | @acknowledged m _ h _ => exact .inl (by simp [Accepted, rejection, h])
  | _ => exact .inl (by simp [Accepted])

theorem SecretEnd.rejects {secret : Bytes} (h : SecretEnd host conn secret t r) : Rejects t r := by
  cases h with
  | @rejected m e h =>
      exact .inr ⟨[⟨.wire conn (.send (secretMessage secret)), .ok ()⟩], conn, m, e, rfl,
        by simp [Accepted], h, rfl⟩
  | @paired m text h => exact .inl (by simp [Accepted, h])
  | _ => exact .inl (by simp [Accepted])

theorem pairEnd_rejects (h : PairEnd lib host tls conn t r) : Rejects t r := by
  have hloop {u : PairingTrace} {flow : PairingFlow} (hu : LoopEnd conn u (.ok flow)) :
      ∀ e ∈ u, Accepted e := by
    obtain ⟨ack, rfl, hack⟩ := LoopEnd.ok hu
    simp [Accepted, rejection, hack]
  cases h with
  | writeFailed e => exact .inl (by simp [Accepted])
  | stopped hmsgs hu => exact (LoopEnd.rejects hu).append (opening_accepted hmsgs)
  | unprompted hmsgs hu hv =>
      refine .inl
        (List.forall_mem_append.mpr
        ⟨List.forall_mem_append.mpr ⟨opening_accepted hmsgs, hloop hu⟩, ?_⟩)
      exact fun e he => accepted_of_onHost (hv e he)
  | prompted certs hmsgs hu hsecret hv =>
      refine (SecretEnd.rejects hv).append (List.forall_mem_append.mpr ⟨?_, ?_⟩)
      · exact List.forall_mem_append.mpr ⟨opening_accepted hmsgs, hloop hu⟩
      · exact fun e he => accepted_of_onHost (prompt_onHost _ _ _ e he)

/-- Either no secret is written and the pairing fails, or the secret is
written after everything that had to be checked. -/
def Discloses (lib : Library) (host : IpAddr) (tls : TlsClient) (conn : Conn) (t : PairingTrace)
    (r : Except Stop PairOutput) : Prop :=
  ((∀ e ∈ t, Public e) ∧ ∃ stop, r = .error stop) ∨ ∃ w line serverDer certs secret before ack v,
    t = w ++ prompt conn line serverDer certs ++ v ∧
      computePairingSecret lib tls.clientCertDer serverDer (lib.toLowercase (trim line)) =
        .ok secret ∧
      received w = before ++ [ack] ∧ (∀ m ∈ before, Passes m) ∧ phase ack = .configurationAck ∧
      (∀ e ∈ w, Public e) ∧ SecretEnd host conn secret v r

theorem pairEnd_discloses (h : PairEnd lib host tls conn t r) :
    Discloses lib host tls conn t r := by
  cases h with
  | writeFailed e => exact .inl ⟨by simp [Public, initialMessage], _, rfl⟩
  | stopped hmsgs hu =>
      exact .inl ⟨List.forall_mem_append.mpr ⟨opening_public hmsgs, LoopEnd.public hu⟩, _, rfl⟩
  | unprompted hmsgs hu hv =>
      refine .inl ⟨List.forall_mem_append.mpr ⟨?_, fun e he => public_of_onHost (hv e he)⟩, _, rfl⟩
      exact List.forall_mem_append.mpr ⟨opening_public hmsgs, LoopEnd.public hu⟩
  | @prompted msgs u v _ flow line serverDer secret certs hmsgs hu hsecret hv =>
      obtain ⟨ack, rfl, hack⟩ := LoopEnd.ok hu
      refine .inr ⟨_, line, serverDer, certs, secret, msgs, ack, v, rfl, hsecret, ?_,
        hmsgs, hack, ?_, hv⟩
      · rw [received_append]
        exact congrArg (· ++ [ack]) (received_exchange conn msgs)
      · exact List.forall_mem_append.mpr ⟨opening_public hmsgs, LoopEnd.public hu⟩

theorem secretEnd_split {secret : Bytes} (h : SecretEnd host conn secret t r) :
    ∃ x v, t = ⟨.wire conn (.send (secretMessage secret)), x⟩ :: v ∧ (∀ e ∈ v, Public e) ∧
      sent v = [] := by
  cases h <;> exact ⟨_, _, rfl, by simp [Public], rfl⟩

theorem prompt_public (line : String) (serverDer : Bytes) (certs : List Bytes) :
    ∀ e ∈ prompt conn line serverDer certs, Public e :=
  fun e he => public_of_onHost (prompt_onHost _ _ _ e he)

/-- An element that stands alone with a property is found in one place only. -/
theorem split_unique {α : Type} {P : α → Prop} {pre post u v : List α} {a b : α}
    (heq : pre ++ a :: post = u ++ b :: v) (hb : ¬P b) (hpre : ∀ x ∈ pre, P x)
    (hpost : ∀ x ∈ post, P x) :
    u = pre ∧ b = a ∧ v = post := by
  rcases List.append_eq_append_iff.mp heq with ⟨w, rfl, hw⟩ | ⟨w, rfl, hw⟩
  · cases w with
    | nil =>
        obtain ⟨rfl, rfl⟩ := List.cons.inj hw
        exact ⟨List.append_nil _, rfl, rfl⟩
    | cons c w =>
        obtain ⟨rfl, rfl⟩ := List.cons.inj hw
        exact absurd (hpost b (by simp)) hb
  · cases w with
    | nil =>
        obtain ⟨rfl, rfl⟩ := List.cons.inj hw
        exact ⟨(List.append_nil _).symm, rfl, rfl⟩
    | cons c w =>
        obtain ⟨rfl, rfl⟩ := List.cons.inj hw
        exact absurd (hpre b (by simp)) hb

/-- What holds of a whole run of `pair`, whatever the TV sends, whichever
reads and writes fail, and whatever is typed. -/
structure Transcript (lib : Library) (host : IpAddr) (port : UInt16) (t : PairingTrace)
    (r : Except Stop PairOutput) : Prop where
  written : ∃ secret,
    sent t <+: initialMessage :: (beforeAck (received t)).filterMap answer ++ [secretMessage secret]
  secret : ∀ u conn m x v, t = u ++ ⟨.wire conn (.send m), x⟩ :: v → m.secret.isSome → sent v = [] ∧
    ∃ s w tls line serverDer certs secret before ack, u =
      s ++ w ++ prompt conn line serverDer certs ∧
      Run (openPairing host port) s (.ok (tls, conn)) ∧
      computePairingSecret lib tls.clientCertDer serverDer (lib.toLowercase (trim line)) =
        .ok secret ∧
      m = secretMessage secret ∧ received u = before ++ [ack] ∧
      (∀ m ∈ before, m.status = Status.ok.code ∧ phase m ≠ .configurationAck) ∧
      ack.status = Status.ok.code ∧ phase ack = .configurationAck
  refused : ∀ u conn m v, t = u ++ ⟨.wire conn .recv, .ok m⟩ :: v →
    (m.status ≠ Status.ok.code → sent v = [] ∧ ∃ e, r = .error (.error e) ∧ e.kind =
      .pairingFailed) ∧
      (phase m = .unknown → sent v = [] ∧ ∃ e, r = .error (.error e) ∧ e.kind = .protocolError)

theorem rejection_of_status {m : OuterMessage} (h : m.status ≠ Status.ok.code) :
    rejection m = some (statusReported m.status) := by
  simp [rejection, phase, h]

theorem rejection_of_unknown {m : OuterMessage} (h : phase m = .unknown) :
    rejection m = some unexpectedMessage := by
  simp [rejection, h]

theorem status_of_rejection {m : OuterMessage} (h : rejection m = none) :
    m.status = Status.ok.code := by
  by_contra hstatus
  rw [rejection_of_status hstatus] at h
  cases h

theorem Rejects.last {m : OuterMessage} {e : AtvError} (h : Rejects t r)
    (ht : t = u ++ ⟨.wire conn .recv, .ok m⟩ :: v) (hm : rejection m = some e) :
    v = [] ∧ r = .error (.error e) := by
  have hbad : ¬Accepted ⟨.wire conn .recv, .ok m⟩ := by
    intro haccepted
    exact Option.some_ne_none e (hm.symm.trans haccepted)
  rcases h with hall | ⟨w, conn', m', e', rfl, hw, hm', rfl⟩
  · refine absurd (hall ⟨.wire conn .recv, .ok m⟩ ?_) hbad
    rw [ht]
    exact List.mem_append_right _ List.mem_cons_self
  · obtain ⟨_, hevent, rfl⟩ := split_unique ht hbad hw (List.forall_mem_nil _)
    cases hevent
    rw [hm] at hm'
    cases hm'
    exact ⟨rfl, rfl⟩

theorem pair_rejects (h : Run (pair lib fuel host port) t r) : Rejects t r := by
  rcases run_pair h with ⟨stop, rfl, hs⟩ | ⟨s, tls, conn, v, rfl, hs, hopen, hend⟩
  · exact .inl fun e he => accepted_of_onHost (hs e he)
  · exact (pairEnd_rejects hend).append fun e he => accepted_of_onHost (hs e he)

theorem pair_written (h : Run (pair lib fuel host port) t r) : ∃ secret,
    sent t <+: initialMessage :: (beforeAck (received t)).filterMap answer ++
      [secretMessage secret] := by
  rcases run_pair h with ⟨stop, rfl, hs⟩ | ⟨s, tls, conn, v, rfl, hs, hopen, hend⟩
  · rw [(silent_of_onHost hs).1]
    exact ⟨[], List.nil_prefix⟩
  · rw [sent_append, received_append, (silent_of_onHost hs).1, (silent_of_onHost hs).2]
    exact pairEnd_written hend

/-- The secret leaves the client only after everything was checked, and
nothing is written after it or after a rejected message. -/
theorem pair_transcript (lib : Library) (fuel : Nat) (host : IpAddr) (port : UInt16)
    (t : PairingTrace)
    (r : Except Stop PairOutput) (h : Run (pair lib fuel host port) t r) :
    Transcript lib host port t r := by
  refine ⟨pair_written h, ?_, ?_⟩
  · intro u conn m x v ht hm
    have hsecret : ¬Public ⟨.wire conn (.send m), x⟩ := by
      intro hpublic
      rw [show m.secret = none from hpublic] at hm
      cases hm
    have habsent (hall : ∀ e ∈ t, Public e) : False := by
      refine hsecret (hall _ ?_)
      rw [ht]
      exact List.mem_append_right _ List.mem_cons_self
    rcases run_pair h with ⟨stop, rfl, hs⟩ | ⟨s, tls, conn', v', rfl, hs, hopen, hend⟩
    · exact (habsent fun e he => public_of_onHost (hs e he)).elim
    · have hpublic : ∀ e ∈ s, Public e := fun e he => public_of_onHost (hs e he)
      rcases pairEnd_discloses hend with ⟨hall, _⟩ |
        ⟨w, line, serverDer, certs, secret, before, ack, z, rfl, hcompute, hreceived,
          hbefore, hack, hw, hz⟩
      · exact (habsent (List.forall_mem_append.mpr ⟨hpublic, hall⟩)).elim
      · obtain ⟨y, v', rfl, hv, hsent⟩ := secretEnd_split hz
        have hpre : ∀ e ∈ s ++ w ++ prompt conn' line serverDer certs, Public e :=
          List.forall_mem_append.mpr ⟨List.forall_mem_append.mpr ⟨hpublic, hw⟩, prompt_public _ _ _⟩
        rw [← List.append_assoc, ← List.append_assoc] at ht
        obtain ⟨rfl, hevent, rfl⟩ := split_unique ht hsecret hpre hv
        cases hevent
        refine ⟨hsent, s, w, tls, line, serverDer, certs, secret, before, ack, rfl, hopen, hcompute,
          rfl, ?_, ?_, ?_, hack⟩
        · rw [received_append, received_append, (silent_of_onHost hs).2, hreceived,
            (silent_of_onHost (prompt_onHost line serverDer certs)).2, List.nil_append,
              List.append_nil]
        · exact fun m hm => ⟨status_of_rejection (hbefore m hm).1, (hbefore m hm).2⟩
        · exact status_of_rejection (by simp [rejection, hack])
  · intro u conn m v ht
    constructor
    · intro hstatus
      obtain ⟨rfl, rfl⟩ := (pair_rejects h).last ht (rejection_of_status hstatus)
      exact ⟨rfl, _, rfl, rfl⟩
    · intro hunknown
      obtain ⟨rfl, rfl⟩ := (pair_rejects h).last ht (rejection_of_unknown hunknown)
      exact ⟨rfl, _, rfl, rfl⟩

/-- Both certificates carry the same small key, and the digest is the one of
the numbers and the nonce of the code `2c1b2c`. -/
def smallKeys : Library where
  sha256 _ :=
    #v[0x2c, 0xc1, 0x3f, 0x22, 0xd9, 0x81, 0x6e, 0x13, 0x64, 0x69, 0xb8, 0xd0, 0x07,
      0x47, 0xc2, 0xf7,
    0x45, 0xa2, 0x8d, 0x7d, 0x06, 0xf9, 0xa9, 0x71, 0x91, 0xdb, 0x5c, 0xf3, 0x8d, 0x3c, 0xb4, 0x1f]
  fromDer _ := .ok (.rsa [0x00, 0xb3] [0x01, 0x00, 0x01])
  toLowercase s := s
  debug s := s

def shows (answer : OuterMessage) : Script OuterMessage where
  connects := [.ok 7]
  inbox :=
    [.ok { pairingRequestAck := some {} }, .ok { options := some {} },
      .ok { configurationAck := some {} },
    .ok answer]
  lines := [.ok " 2c1b2c\n"]
  peer := some [[0x30]]

def paired : PairOutput := ⟨"", livingRoom.text, true⟩

theorem shows_run (answer : OuterMessage)
    (hanswer : ((shows answer).play (pair smallKeys 9 livingRoom 6467)).2.1 = .ok paired) :
    Run (pair smallKeys 9 livingRoom 6467)
      ((shows answer).play (pair smallKeys 9 livingRoom 6467)).1 (.ok paired) := by
  rw [← hanswer]
  exact (shows answer).run_play _

def mistyped : OuterMessage := { status := Status.badSecret.code }

theorem pair_transcript_mistyped :
    let outcome := (shows mistyped).play (pair smallKeys 9 livingRoom 6467)
    Transcript smallKeys livingRoom 6467 outcome.1 outcome.2.1 :=
  pair_transcript smallKeys 9 livingRoom 6467 _ _ ((shows mistyped).run_play _)

end AtvRemote.PairingTranscripts
