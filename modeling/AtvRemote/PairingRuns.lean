import AtvRemote.Pairing
import AtvRemote.CredentialRules
import AtvRemote.Scripts

namespace AtvRemote.PairingRuns

open Programs Contracts CommandRules CredentialRules Errors Messages SystemCalls
  Credentials Texts Pairing
  Scripts

abbrev PairingEvent := Event (System PairingWire)

abbrev PairingTrace := Trace (System PairingWire)

/-- What a message counts as: its status first, then the first of its fields
that the flow looks at. -/
inductive Phase
  | refused
  | requestAck
  | options
  | configurationAck
  | secretAck
  | unknown
  deriving DecidableEq, Repr

def phase (msg : OuterMessage) : Phase :=
  if msg.status ≠ Status.ok.code then .refused
  else if msg.pairingRequestAck.isSome then .requestAck
  else if msg.options.isSome then .options
  else if msg.configurationAck.isSome then .configurationAck
  else if msg.secretAck.isSome then .secretAck
  else .unknown

def answer (msg : OuterMessage) : Option OuterMessage :=
  match phase msg with
  | .requestAck => some optionsMessage
  | .options => some configurationMessage
  | _ => none

def rejection (msg : OuterMessage) : Option AtvError :=
  match phase msg with
  | .refused => some (statusReported msg.status)
  | .unknown => some unexpectedMessage
  | _ => none

theorem handle_eq (flow : PairingFlow) (msg : OuterMessage) :
    flow.handle msg =
      (match rejection msg with
        | some e => .error e
        | none => .ok (answer msg),
       ⟨flow.awaitingCode || decide (phase msg = .configurationAck)⟩) := by
  unfold PairingFlow.handle rejection answer phase
  split
  · simp
  split
  · simp
  split
  · simp
  split
  · simp
  split <;> simp

def Passes (msg : OuterMessage) : Prop := rejection msg = none ∧ phase msg ≠ .configurationAck

/-- The events of the loop for messages that it reads past. -/
def exchange (conn : Conn) (msgs : List OuterMessage) : PairingTrace :=
  msgs.flatMap fun m => ⟨.wire conn .recv, .ok m⟩ ::
    (answer m).toList.map fun reply => ⟨.wire conn (.send reply), .ok ()⟩

/-- How the loop ends, with the events of its last round. -/
inductive LoopEnd (conn : Conn) : PairingTrace → Except Stop PairingFlow → Prop
  | unfinished : LoopEnd conn [] (.error .unfinished)
  | readFailed (e : IoError) : LoopEnd conn [⟨.wire conn .recv, .error e⟩]
      (.error (.error (protoErr e)))
  | rejected {m : OuterMessage} {e : AtvError} (h : rejection m = some e) :
      LoopEnd conn [⟨.wire conn .recv, .ok m⟩] (.error (.error e))
  | writeFailed {m reply : OuterMessage} (e : IoError) (h : answer m = some reply) :
      LoopEnd conn [⟨.wire conn .recv, .ok m⟩, ⟨.wire conn (.send reply), .error e⟩]
        (.error (.error (protoErr e)))
  | acknowledged {m : OuterMessage} {r : Except Stop PairingFlow} (h : phase m = .configurationAck)
      (hr : r = .ok ⟨true⟩ ∨ r = .error .unfinished) : LoopEnd conn [⟨.wire conn .recv, .ok m⟩] r

theorem run_pairLoop_acknowledged {conn : Conn} {fuel : Nat} {t : PairingTrace}
    {r : Except Stop PairingFlow}
    (h : Run (pairLoop conn fuel ⟨true⟩) t r) :
    t = [] ∧ (r = .ok ⟨true⟩ ∨ r = .error .unfinished) := by
  cases fuel with
  | zero =>
      obtain ⟨rfl, rfl⟩ := run_fail.mp h
      exact ⟨rfl, .inr rfl⟩
  | succ fuel =>
      obtain ⟨rfl, rfl⟩ := run_ret.mp h
      exact ⟨rfl, .inl rfl⟩

theorem exchange_cons (conn : Conn) (m : OuterMessage) (msgs : List OuterMessage) :
    exchange conn (m :: msgs) = ⟨.wire conn .recv, .ok m⟩ ::
      (answer m).toList.map (fun reply => ⟨.wire conn (.send reply), .ok ()⟩) ++
      exchange conn msgs :=
  List.flatMap_cons

theorem answer_configurationAck {m : OuterMessage} (h : phase m = .configurationAck) :
    answer m = none := by
  rw [answer]
  rw [h]

/-- The loop reads past messages until it ends. -/
theorem run_pairLoop {conn : Conn} {fuel : Nat} {t : PairingTrace} {r : Except Stop PairingFlow}
    (h : Run (pairLoop conn fuel .new) t r) :
    ∃ msgs u, t = exchange conn msgs ++ u ∧ (∀ m ∈ msgs, Passes m) ∧ LoopEnd conn u r := by
  induction fuel generalizing t with
  | zero =>
      obtain ⟨rfl, rfl⟩ := run_fail.mp h
      exact ⟨[], [], rfl, List.forall_mem_nil _, .unfinished⟩
  | succ fuel ih =>
      obtain ⟨x, u, rfl, hu⟩ := run_request_bind.mp h
      rcases run_orRaise_bind.mp hu with ⟨m, rfl, hm⟩ | ⟨e, rfl, rfl, rfl⟩
      · simp only [handle_eq] at hm
        cases hrejection : rejection m with
        | some e =>
            rw [hrejection] at hm
            obtain ⟨rfl, rfl⟩ := run_fail.mp hm
            exact ⟨[], _, rfl, List.forall_mem_nil _, .rejected hrejection⟩
        | none =>
            rw [hrejection] at hm
            by_cases hack : phase m = .configurationAck
            · rw [answer_configurationAck hack, decide_eq_true hack] at hm
              obtain ⟨rfl, hr⟩ := run_pairLoop_acknowledged hm
              exact ⟨[], _, rfl, List.forall_mem_nil _, .acknowledged hack hr⟩
            · rw [decide_eq_false hack] at hm
              -- the message is read past, and the next round takes up from here
              have hnext (v : PairingTrace) (hv : Run (pairLoop conn fuel .new) v r) :
                  ∃ msgs w, ⟨.wire conn .recv, .ok m⟩ ::
                      (answer m).toList.map (fun reply => ⟨.wire conn (.send reply), .ok ()⟩) ++ v =
                    exchange conn msgs ++ w ∧ (∀ m ∈ msgs, Passes m) ∧ LoopEnd conn w r := by
                obtain ⟨msgs, w, rfl, hpasses, hend⟩ := ih hv
                refine ⟨m :: msgs, w, ?_, ?_, hend⟩
                · rw [exchange_cons, List.append_assoc]
                · exact List.forall_mem_cons.mpr ⟨⟨hrejection, hack⟩, hpasses⟩
              cases hanswer : answer m with
              | none =>
                  rw [hanswer] at hm hnext
                  exact hnext u hm
              | some reply =>
                  rw [hanswer] at hm hnext
                  obtain ⟨y, v, rfl, hv⟩ := run_request_bind.mp hm
                  rcases run_orRaise_bind.mp hv with ⟨_, rfl, hv⟩ | ⟨e, rfl, rfl, rfl⟩
                  · exact hnext v hv
                  · exact ⟨[], _, rfl, List.forall_mem_nil _, .writeFailed e hanswer⟩
      · exact ⟨[], _, rfl, List.forall_mem_nil _, .readFailed e⟩

def prompt (conn : Conn) (line : String) (serverDer : Bytes) (certs : List Bytes) : PairingTrace :=
  [⟨.host (.eprintln "Enter the 6-digit code shown on the TV:"), ()⟩, ⟨.host .readLine, .ok line⟩,
    ⟨.host (.peerCertificates conn), some (serverDer :: certs)⟩]

inductive SecretEnd (host : IpAddr) (conn : Conn) (secret : Bytes) :
    PairingTrace → Except Stop PairOutput → Prop
  | writeFailed (e : IoError) : SecretEnd host conn secret
      [⟨.wire conn (.send (secretMessage secret)), .error e⟩] (.error (.error (protoErr e)))
  | readFailed (e : IoError) (reported : AtvError) : SecretEnd host conn secret
      [⟨.wire conn (.send (secretMessage secret)), .ok ()⟩, ⟨.wire conn .recv, .error e⟩]
      (.error (.error reported))
  | rejected {m : OuterMessage} {e : AtvError} (h : rejection m = some e) :
      SecretEnd host conn secret
      [⟨.wire conn (.send (secretMessage secret)), .ok ()⟩, ⟨.wire conn .recv, .ok m⟩]
        (.error (.error e))
  | paired {m : OuterMessage} (text : String) (h : rejection m = none) : SecretEnd host conn secret
      [⟨.wire conn (.send (secretMessage secret)), .ok ()⟩, ⟨.wire conn .recv, .ok m⟩,
        ⟨.host .timestamp, text⟩] (.ok ⟨text, host.text, true⟩)

variable {lib : Library} {host : IpAddr} {port : UInt16} {tls : TlsClient} {conn : Conn}

theorem readSecret_onHost (lib : Library) (tls : TlsClient) (conn : Conn) :
    Throughout OnHost (readSecret lib tls conn) := by
  refine throughout_request_bind.mpr fun _ =>
    ⟨trivial, throughout_request_bind.mpr fun x => ⟨trivial, ?_⟩⟩
  refine throughout_orRaise_bind.mpr fun line _ => throughout_request_bind.mpr
    fun certs => ⟨trivial, ?_⟩
  apply throughout_okOrRaise_bind.mpr
  intro serverDer _
  split <;> trivial

theorem run_readSecret {t : PairingTrace} {secret : Bytes}
    (h : Run (readSecret lib tls conn) t (.ok secret)) :
    ∃ line serverDer certs, t = prompt conn line serverDer certs ∧
      computePairingSecret lib tls.clientCertDer serverDer (lib.toLowercase (trim line)) =
        .ok secret := by
  obtain ⟨_, u, rfl, h₁⟩ := run_request_bind.mp h
  obtain ⟨x, v, rfl, h₂⟩ := run_request_bind.mp h₁
  rcases run_orRaise_bind.mp h₂ with ⟨line, rfl, h₃⟩ | ⟨e, _, _, ⟨⟩⟩
  obtain ⟨found, w, rfl, h₄⟩ := run_request_bind.mp h₃
  rcases found with _ | _ | ⟨serverDer, certs⟩
  · cases (run_fail.mp h₄).2
  · cases (run_fail.mp h₄).2
  · dsimp only [Program.bind, okOrRaise, Option.bind_some, List.head?_cons, pure] at h₄
    split at h₄
    next hsecret =>
      obtain ⟨rfl, ⟨⟩⟩ := run_ret.mp h₄
      exact ⟨line, serverDer, certs, rfl, hsecret⟩
    next => cases (run_fail.mp h₄).2

theorem run_sendSecret {flow : PairingFlow} {secret : Bytes} {t : PairingTrace}
    {r : Except Stop PairOutput}
    (h : Run (sendSecret host conn flow secret) t r) : SecretEnd host conn secret t r := by
  obtain ⟨x, u, rfl, h₁⟩ := run_request_bind.mp h
  rcases run_orRaise_bind.mp h₁ with ⟨_, rfl, h₂⟩ | ⟨e, rfl, rfl, rfl⟩
  · obtain ⟨y, v, rfl, h₃⟩ := run_request_bind.mp h₂
    rcases run_orRaise_bind.mp h₃ with ⟨m, rfl, h₄⟩ | ⟨e, rfl, rfl, rfl⟩
    · rw [handle_eq] at h₄
      cases hrejection : rejection m with
      | some e =>
          rw [hrejection] at h₄
          obtain ⟨rfl, rfl⟩ := run_fail.mp h₄
          exact .rejected hrejection
      | none =>
          rw [hrejection] at h₄
          obtain ⟨text, w, rfl, h₅⟩ := run_request_bind.mp h₄
          obtain ⟨rfl, rfl⟩ := run_ret.mp h₅
          exact .paired text hrejection
    · exact .readFailed e _
  · exact .writeFailed e

theorem openPairing_onHost (host : IpAddr) (port : UInt16) :
    Throughout OnHost (openPairing host port) := by
  refine (credentialDirFromEnv_local.mono fun _ => onHost_of_local).bind fun dir => ?_
  refine ((ensureIdentity_local dir).mono fun _ => onHost_of_local).bind fun _ => ?_
  refine ((fromCredentialDir_local dir).mono fun _ => onHost_of_local).bind fun tls => ?_
  exact (connect_onHost tls host port _).bind fun conn => trivial

/-- How `pair` ends on a connection that is open. -/
inductive PairEnd (lib : Library) (host : IpAddr) (tls : TlsClient) (conn : Conn) :
    PairingTrace → Except Stop PairOutput → Prop
  | writeFailed (e : IoError) :
      PairEnd lib host tls conn [⟨.wire conn (.send initialMessage), .error e⟩]
        (.error (.error (protoErr e)))
  | stopped {msgs : List OuterMessage} {u : PairingTrace} {stop : Stop}
      (hmsgs : ∀ m ∈ msgs, Passes m)
      (hu : LoopEnd conn u (.error stop)) :
      PairEnd lib host tls conn
        (⟨.wire conn (.send initialMessage), .ok ()⟩ :: exchange conn msgs ++ u) (.error stop)
  | unprompted {msgs : List OuterMessage} {u v : PairingTrace} {stop : Stop} {flow : PairingFlow}
      (hmsgs : ∀ m ∈ msgs, Passes m) (hu : LoopEnd conn u (.ok flow)) (hv : ∀ e ∈ v, OnHost e) :
      PairEnd lib host tls conn
        (⟨.wire conn (.send initialMessage), .ok ()⟩ :: exchange conn msgs ++ u ++ v)
        (.error stop)
  | prompted {msgs : List OuterMessage} {u v : PairingTrace} {r : Except Stop PairOutput}
      {flow : PairingFlow}
      {line : String} {serverDer secret : Bytes} (certs : List Bytes)
      (hmsgs : ∀ m ∈ msgs, Passes m) (hu : LoopEnd conn u (.ok flow))
      (hsecret : computePairingSecret lib tls.clientCertDer serverDer
        (lib.toLowercase (trim line)) = .ok secret)
      (hv : SecretEnd host conn secret v r) :
      PairEnd lib host tls conn
        (⟨.wire conn (.send initialMessage), .ok ()⟩ :: exchange conn msgs ++ u ++
        prompt conn line serverDer certs ++ v) r

theorem run_pair {fuel : Nat} {t : PairingTrace} {r : Except Stop PairOutput}
    (h : Run (pair lib fuel host port) t r) :
    (∃ stop, r = .error stop ∧ ∀ e ∈ t, OnHost e) ∨
      ∃ s tls conn v, t = s ++ v ∧ (∀ e ∈ s, OnHost e) ∧ Run (openPairing host port) s
        (.ok (tls, conn)) ∧
        PairEnd lib host tls conn v r := by
  rcases run_bind.mp h with ⟨⟨tls, conn⟩, s, v, rfl, hs, h₁⟩ | ⟨e, hs, rfl⟩
  · refine .inr ⟨s, tls, conn, v, rfl, (openPairing_onHost host port).ensures s _ hs, hs, ?_⟩
    obtain ⟨x, w, rfl, h₂⟩ := run_request_bind.mp h₁
    rcases run_orRaise_bind.mp h₂ with ⟨_, rfl, h₃⟩ | ⟨e, rfl, rfl, rfl⟩
    · rcases run_bind.mp h₃ with ⟨flow, w₁, w₂, rfl, hw₁, h₄⟩ | ⟨stop, hw, rfl⟩
      · obtain ⟨msgs, u, rfl, hmsgs, hu⟩ := run_pairLoop hw₁
        rcases run_bind.mp h₄ with ⟨secret, w₃, w₄, rfl, hw₃, h₅⟩ | ⟨stop, hw, rfl⟩
        · obtain ⟨line, serverDer, certs, rfl, hsecret⟩ := run_readSecret hw₃
          have hend := PairEnd.prompted certs hmsgs hu hsecret (run_sendSecret h₅)
          simpa only [List.cons_append, List.append_assoc] using hend
        · exact .unprompted hmsgs hu ((readSecret_onHost lib tls conn).ensures w₂ _ hw)
      · obtain ⟨msgs, u, rfl, hmsgs, hu⟩ := run_pairLoop hw
        exact .stopped hmsgs hu
    · exact .writeFailed e
  · exact .inl ⟨e, rfl, (openPairing_onHost host port).ensures t _ hs⟩

end AtvRemote.PairingRuns
