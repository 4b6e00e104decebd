import AtvRemote.Freshness
import AtvRemote.WakeEffects

namespace AtvRemote.PingAnswers

open Programs Contracts CommandRules CredentialRules Interleavings Errors Messages SystemCalls
  Handshake Session
  SessionRules Wake WakeEffects Scripts
open Freshness (isStart isStart_of_kind)

inductive SessionOutput
  | status (out : StatusOutput)
  | power (out : PowerOutput)
  | keys (out : KeysOutput)
  | launch (out : LaunchOutput)
  deriving DecidableEq, Repr

/-- The commands that open a session. -/
inductive SessionCommand
  | status
  | on (mac : Option Mac)
  | off
  | key (keys : List Int32)
  | launch (appLink : String)
  deriving DecidableEq, Repr

def SessionCommand.run (fuel : Nat) (host : IpAddr) (port : UInt16) :
    SessionCommand → Command SessionWire SessionOutput
  | .status => do pure (.status (← Session.status fuel host port))
  | .on mac => do pure (.power (← setPowerWithWake fuel host port true mac))
  | .off => do pure (.power (← setPower fuel host port false))
  | .key keys => do pure (.keys (← sendKeys fuel host port keys))
  | .launch appLink => do pure (.launch (← sendAppLink fuel host port appLink))

def pingOf (m : RemoteMessage) : Option Int32 := m.remotePingRequest.map RemotePingRequest.val1

def pongOf (m : RemoteMessage) : Option Int32 := m.remotePingResponse.map RemotePingResponse.val1

def acts (m : RemoteMessage) : Bool :=
  m.remoteKeyInject.isSome || m.remoteAppLinkLaunchRequest.isSome

/-- What had been delivered and which pings had been answered on a connection
when a key or an app link was sent on it. -/
structure Snapshot where
  delivered : List RemoteMessage
  answered : List Int32
  deriving DecidableEq, Repr

/-- The current connection, and a snapshot for each key or app link. -/
structure Link where
  delivered : List RemoteMessage := []
  unread : List RemoteMessage := []
  answered : List Int32 := []
  sends : List Snapshot := []
  deriving DecidableEq, Repr

abbrev Label := RemoteMessage ⊕ SessionEvent

/-- On a working connection a write never fails, and a read only when there is
nothing to read. -/
def Link.client (l : Link) : SessionEvent → Option Link
  | ⟨.host (.connectTimeout _ _), .ok _⟩ => some { sends := l.sends }
  | ⟨.wire _ .recv, .ok m⟩ => match l.unread with
      | [] => none
      | m' :: rest => if m' = m then some { l with unread := rest } else none
  | ⟨.wire _ .recv, .error _⟩ => if l.unread = [] then some l else none
  | ⟨.wire _ (.send m), .ok _⟩ =>
      some { l with
        answered := l.answered ++ (pongOf m).toList
        sends := if acts m then l.sends ++ [⟨l.delivered, l.answered⟩] else l.sends }
  | ⟨.wire _ (.send _), .error _⟩ => none
  | _ => some l

/-- The TV may deliver any message at any time. -/
def Link.next (l : Link) : Label → Option Link
  | .inl m => some { l with delivered := l.delivered ++ [m], unread := l.unread ++ [m] }
  | .inr e => l.client e

def LinkStep (l : Link) (i : Label) (l' : Link) : Prop := l.next i = some l'

/-- Every ping delivered before has been answered, once and in order. -/
def Snapshot.Answered (s : Snapshot) : Prop := s.answered = s.delivered.filterMap pingOf

/-- No ping was delivered after the first start, which ends the handshake, and
none before it next to a request that is answered instead. -/
def Snapshot.Timely (s : Snapshot) : Prop :=
  (∀ m ∈ s.delivered.takeWhile (!isStart ·), pingOf m ≠ none → m.remoteConfigure = none ∧
    m.remoteSetActive = none) ∧
    ∀ m ∈ s.delivered.dropWhile (!isStart ·), pingOf m = none

section Lists

variable {α β : Type} {f g : α → Option β}

theorem length_filterMap_le (h : ∀ x, f x = none ∨ f x = g x) (xs : List α) :
    (xs.filterMap f).length ≤ (xs.filterMap g).length := by
  induction xs with
  | nil => exact Nat.le_refl 0
  | cons x xs ih =>
      cases hg : g x with
      | none =>
          have hf : f x = none := (h x).elim id (fun hx => hx.trans hg)
          rw [List.filterMap_cons_none hf, List.filterMap_cons_none hg]
          exact ih
      | some b =>
          rw [List.filterMap_cons_some hg]
          rcases h x with hf | hf
          · rw [List.filterMap_cons_none hf]
            exact Nat.le_succ_of_le ih
          · rw [List.filterMap_cons_some (hf.trans hg)]
            exact Nat.succ_le_succ ih

/-- A part of the selection from a part of the list is all of it exactly if
neither the part nor the rest lacks anything. -/
theorem filterMap_eq_filterMap_append (h : ∀ x, f x = none ∨ f x = g x) (xs ys : List α) :
    xs.filterMap f = (xs ++ ys).filterMap g ↔ (∀ x ∈ xs, f x = g x) ∧ ∀ y ∈ ys, g y = none := by
  induction xs with
  | nil => simp [eq_comm, List.filterMap_eq_nil_iff]
  | cons x xs ih =>
      rw [List.cons_append, List.forall_mem_cons]
      rcases h x with hf | hf
      · cases hg : g x with
        | none =>
            rw [List.filterMap_cons_none hf, List.filterMap_cons_none hg, ih, hf]
            simp
        | some b =>
            rw [List.filterMap_cons_none hf, List.filterMap_cons_some hg, hf]
            constructor
            · intro heq
              have hle := length_filterMap_le h xs
              have hlength := congrArg List.length heq
              rw [List.length_cons, List.filterMap_append, List.length_append] at hlength
              omega
            · rintro ⟨⟨⟨⟩, _⟩, _⟩
      · cases hg : g x with
        | none =>
            rw [List.filterMap_cons_none (hf.trans hg), List.filterMap_cons_none hg, ih, hf, hg]
            simp
        | some b =>
            rw [List.filterMap_cons_some (hf.trans hg), List.filterMap_cons_some hg,
              List.cons_inj_right, ih, hf, hg]
            simp

end Lists

/-- The ping that the handshake answers when it handles a message. -/
def asks (m : RemoteMessage) : Option Int32 :=
  match kind m with
  | .ping val1 => some val1
  | _ => none

theorem asks_cases (m : RemoteMessage) :
    asks m = (if m.remoteConfigure = none ∧ m.remoteSetActive = none then pingOf m else none) := by
  obtain ⟨configure, setActive, remoteError, ping, pong, key, start, link, others⟩ := m
  rcases configure with _ | c
  · rcases setActive with _ | a
    · rcases ping with _ | p
      · rcases start with _ | s
        · rcases remoteError with _ | e <;> rfl
        · rfl
      · rfl
    · rfl
  · rfl

theorem asks_none_or (m : RemoteMessage) : asks m = none ∨ asks m = pingOf m := by
  rw [asks_cases]
  split
  · exact .inr rfl
  · exact .inl rfl

theorem asks_eq_pingOf (m : RemoteMessage) :
    asks m = pingOf m ↔
      (pingOf m ≠ none → m.remoteConfigure = none ∧ m.remoteSetActive = none) := by
  rw [asks_cases]
  split
  next h => exact ⟨fun _ _ => h, fun _ => rfl⟩
  next h =>
    constructor
    · intro hping hne
      exact absurd hping.symm hne
    · intro himp
      by_contra hne
      exact h (himp fun hping => hne hping.symm)

theorem pongOf_reply {active : Int32} {m r : RemoteMessage} (h : reply active (kind m) = some r) :
    (pongOf r).toList = (asks m).toList ∧ acts r = false ∧ isStart m = false := by
  unfold asks isStart
  cases hk : kind m with
  | configure _ | setActive | ping _ =>
      rw [hk] at h
      obtain rfl := Option.some.inj h
      exact ⟨rfl, rfl, rfl⟩
  | start _ | error | ignorable =>
      rw [hk] at h
      cases h

/-- The handshake has read up to the first start and answered every ping that
it looked at. -/
theorem answered_iff_timely {before : List RemoteMessage} {m : RemoteMessage}
    (hbefore : ∀ p ∈ before, isStart p = false)
    (hm : isStart m = true) (unread : List RemoteMessage) :
    let s : Snapshot := ⟨before ++ [m] ++ unread, before.filterMap asks⟩
    s.Answered ↔ s.Timely := by
  have htake : (before ++ [m] ++ unread).takeWhile (!isStart ·) = before := by
    rw [List.append_assoc, List.takeWhile_append_of_pos (by simpa using hbefore),
      List.singleton_append,
      List.takeWhile_cons_of_neg (by simp [hm]), List.append_nil]
  have hdrop : (before ++ [m] ++ unread).dropWhile (!isStart ·) = m :: unread := by
    rw [List.append_assoc, List.dropWhile_append_of_pos (by simpa using hbefore),
      List.singleton_append,
      List.dropWhile_cons_of_neg (by simp [hm])]
  simp only [Snapshot.Answered, Snapshot.Timely, htake, hdrop]
  rw [List.append_assoc, List.singleton_append, filterMap_eq_filterMap_append asks_none_or]
  simp only [asks_eq_pingOf]

/-- The state of the connection when so many messages have been read on it and
so many pings answered. -/
structure After (read : List RemoteMessage) (answered : List Int32) (l : Link) : Prop where
  delivered : l.delivered = read ++ l.unread
  answered : l.answered = answered
  sound : ∀ s ∈ l.sends, s.Answered ↔ s.Timely

section After

variable {read : List RemoteMessage} {answered : List Int32} {l l' : Link} {conn : Conn}
  {m : RemoteMessage}

def Sound (l : Link) : Prop := ∀ s ∈ l.sends, s.Answered ↔ s.Timely

theorem After.moves (h : After read answered l) (hmoves : Moves LinkStep l l') :
    After read answered l' := by
  refine hmoves.invariant ?_ h
  rintro l m _ h ⟨⟩
  refine ⟨?_, h.answered, h.sound⟩
  dsimp only
  rw [h.delivered, List.append_assoc]

theorem Sound.moves (h : Sound l) (hmoves : Moves LinkStep l l') : Sound l' := by
  refine hmoves.invariant ?_ h
  rintro l m _ h ⟨⟩
  exact h

theorem After.aside {e : SessionEvent} (h : After read answered l)
    (he : ∀ k : Link, k.client e = some k)
    (hturn : Turn LinkStep l e l') : After read answered l' := by
  obtain ⟨u, hmoves, hnext⟩ := hturn
  obtain rfl := Option.some.inj ((he u).symm.trans hnext)
  exact h.moves hmoves

theorem After.recv (h : After read answered l)
    (hturn : Turn LinkStep l ⟨.wire conn .recv, .ok m⟩ l') :
    After (read ++ [m]) answered l' := by
  obtain ⟨u, hmoves, hnext⟩ := hturn
  have h := h.moves hmoves
  simp only [LinkStep, Link.next, Link.client] at hnext
  split at hnext
  next => cases hnext
  next m' rest hunread =>
    split at hnext
    next hm =>
      obtain rfl := Option.some.inj hnext
      refine ⟨?_, h.answered, h.sound⟩
      dsimp only
      rw [h.delivered, hunread, hm, List.append_assoc, List.singleton_append]
    next => cases hnext

theorem After.reply {r : RemoteMessage} {x : Except IoError Unit} (h : After read answered l)
    (hr : acts r = false)
    (hturn : Turn LinkStep l ⟨.wire conn (.send r), x⟩ l') :
    After read (answered ++ (pongOf r).toList) l' := by
  obtain ⟨u, hmoves, hnext⟩ := hturn
  have h := h.moves hmoves
  cases x with
  | error e => cases hnext
  | ok _ =>
      obtain rfl := Option.some.inj hnext
      refine ⟨h.delivered, congrArg (· ++ (pongOf r).toList) h.answered, ?_⟩
      intro s hs
      rw [if_neg (by rw [hr]; exact Bool.false_ne_true)] at hs
      exact h.sound s hs

end After

/-- Any event but the sending of a key or an app link. -/
def Passive : SessionEvent → Prop
  | ⟨.wire _ (.send m), _⟩ => acts m = false
  | _ => True

theorem passive_handshake {e : SessionEvent} (h : HandshakeEvent e) : Passive e := by
  obtain ⟨o, x⟩ := e
  rcases o with ⟨c, _ | m⟩ | o
  · trivial
  · obtain ⟨active, k, hr⟩ := h
    cases k <;> cases hr <;> rfl
  · trivial

theorem passive_onHost {e : SessionEvent} (h : OnHost e) : Passive e := by
  obtain ⟨o, x⟩ := e
  cases o with
  | wire => exact h.elim
  | host => trivial

theorem onHost_wait {e : SessionEvent} (h : WaitEvent e) : OnHost e := by
  obtain ⟨o, x⟩ := e
  cases o with
  | wire => exact h.elim
  | host => trivial

theorem client_sends {l l' : Link} {e : SessionEvent} (he : Passive e) (h : l.client e = some l') :
    l'.sends = l.sends := by
  obtain ⟨o, x⟩ := e
  rcases o with ⟨c, _ | m⟩ | o
  · cases x with
    | error e =>
        simp only [Link.client] at h
        split at h
        next =>
          obtain rfl := Option.some.inj h
          rfl
        next => cases h
    | ok m =>
        simp only [Link.client] at h
        split at h
        next => cases h
        next =>
          split at h
          next =>
            obtain rfl := Option.some.inj h
            rfl
          next => cases h
  · cases x with
    | error e => cases h
    | ok _ =>
        obtain rfl := Option.some.inj h
        have hm : acts m = false := he
        exact if_neg (by rw [hm]; exact Bool.false_ne_true)
  · cases o with
    | connectTimeout =>
        cases x with
        | error e | ok sock =>
            obtain rfl := Option.some.inj h
            rfl
    | _ =>
        obtain rfl := Option.some.inj h
        rfl

theorem Sound.passive {l l' : Link} {e : SessionEvent} (h : Sound l) (he : Passive e)
    (hturn : Turn LinkStep l e l') : Sound l' := by
  obtain ⟨u, hmoves, hnext⟩ := hturn
  intro s hs
  rw [client_sends he hnext] at hs
  exact h.moves hmoves s hs

theorem client_local {e : SessionEvent} (h : Local e) (l : Link) : l.client e = some l := by
  obtain ⟨o, x⟩ := e
  cases o with
  | wire => exact h.elim
  | host o =>
      cases o with
      | connectTimeout => exact h.elim
      | _ => rfl

theorem unstarted_concat {read : List RemoteMessage} {m : RemoteMessage}
    (h : ∀ p ∈ read, isStart p = false)
    (hm : isStart m = false) : ∀ p ∈ read ++ [m], isStart p = false :=
  List.forall_mem_append.mpr ⟨h, List.forall_mem_singleton.mpr hm⟩

/-- The handshake goes on. -/
def Pending (l : Link) : Prop :=
  ∃ read, (∀ p ∈ read, isStart p = false) ∧ After read (read.filterMap asks) l

/-- The handshake is over, and nothing has been read since. -/
def Ready (l : Link) : Prop :=
  ∃ before m, (∀ p ∈ before, isStart p = false) ∧ isStart m = true ∧ After (before ++ [m])
    (before.filterMap asks) l

section Pending

variable {l l' l'' : Link} {conn : Conn} {m : RemoteMessage}

theorem Pending.start (h : Pending l) (hm : isStart m = true)
    (hturn : Turn LinkStep l ⟨.wire conn .recv, .ok m⟩ l') :
    Ready l' := by
  obtain ⟨read, hread, hafter⟩ := h
  exact ⟨read, m, hread, hm, hafter.recv hturn⟩

theorem Pending.ignore (h : Pending l) (hasks : asks m = none) (hm : isStart m = false)
    (hturn : Turn LinkStep l ⟨.wire conn .recv, .ok m⟩ l') : Pending l' := by
  obtain ⟨read, hread, hafter⟩ := h
  refine ⟨read ++ [m], unstarted_concat hread hm, ?_⟩
  rw [List.filterMap_append, List.filterMap_cons_none hasks, List.filterMap_nil, List.append_nil]
  exact hafter.recv hturn

theorem Pending.answer {active : Int32} {r : RemoteMessage}
    {x : Except IoError Unit} (h : Pending l)
    (hr : reply active (kind m) = some r) (hturn : Turn LinkStep l ⟨.wire conn .recv, .ok m⟩ l')
    (hsent : Turn LinkStep l' ⟨.wire conn (.send r), x⟩ l'') : Pending l'' := by
  obtain ⟨read, hread, hafter⟩ := h
  obtain ⟨hpong, hacts, hstart⟩ := pongOf_reply hr
  have hone : [m].filterMap asks = (pongOf r).toList := by
    rw [hpong]
    cases hm : asks m with
    | none => exact List.filterMap_cons_none hm
    | some v => exact List.filterMap_cons_some hm
  refine ⟨read ++ [m], unstarted_concat hread hstart, ?_⟩
  rw [List.filterMap_append, hone]
  exact (hafter.recv hturn).reply hacts hsent

end Pending

theorem Ready.sound {l : Link} (h : Ready l) : Sound l := by
  obtain ⟨_, _, _, _, hafter⟩ := h
  exact hafter.sound

theorem Ready.aside {l l' : Link} {e : SessionEvent} (h : Ready l)
    (he : ∀ k : Link, k.client e = some k)
    (hturn : Turn LinkStep l e l') : Ready l' := by
  obtain ⟨before, m, hbefore, hm, hafter⟩ := h
  exact ⟨before, m, hbefore, hm, hafter.aside he hturn⟩

/-- Sending a key or an app link takes a snapshot of a handshake just over. -/
theorem Ready.act {l l' : Link} {conn : Conn} {r : RemoteMessage} {x : Except IoError Unit}
    (h : Ready l) (hr : acts r = true)
    (hpong : pongOf r = none) (hturn : Turn LinkStep l ⟨.wire conn (.send r), x⟩ l') :
    Ready l' := by
  obtain ⟨before, m, hbefore, hm, hafter⟩ := h
  obtain ⟨u, hmoves, hnext⟩ := hturn
  have hafter := hafter.moves hmoves
  cases x with
  | error e => cases hnext
  | ok _ =>
      obtain rfl := Option.some.inj hnext
      refine ⟨before, m, hbefore, hm, hafter.delivered, ?_, ?_⟩
      · simpa [hpong] using hafter.answered
      · intro s hs
        rw [if_pos hr] at hs
        rcases List.mem_append.mp hs with hs | hs
        · exact hafter.sound s hs
        · obtain rfl := List.mem_singleton.mp hs
          rw [hafter.delivered, hafter.answered]
          exact answered_iff_timely hbefore hm u.unread

/-- The state between two rounds of the handshake. -/
def Between (hs : SessionHandshake) (l : Link) : Prop :=
  if hs.power = none then Pending l else Ready l

theorem Between.sound {hs : SessionHandshake} {l : Link} (h : Between hs l) : Sound l := by
  unfold Between at h
  split at h
  · obtain ⟨_, _, hafter⟩ := h
    exact hafter.sound
  · exact h.sound

/-- What is true of an open session after a command that may have failed. -/
def Open {α : Type} (r : Except Stop α) (l : Link) : Prop :=
  match r with
  | .ok _ => Ready l
  | .error _ => Sound l

variable {host : IpAddr} {port : UInt16}

theorem handshake_between (conn : Conn) :
    HandshakeInvariant (Turn LinkStep) conn (fun hs _ l => Between hs l)
    (fun r l => match r with
      | .ok hs => ∀ power, hs.power = some power → Open (.ok (power, conn, hs)) l
      | .error stop => Open (.error stop : Except Stop (Bool × Conn × SessionHandshake)) l) where
  unfinished hs any l h := h.sound
  known hs any l h hpower power hp := by
    unfold Between at h
    rw [if_neg (by rw [hp]; nofun)] at h
    exact h
  readFailed hs any l e l' h hp hturn := by
    apply h.sound.passive _ hturn
    trivial
  reported hs any l m l' h hp hturn he := by
    apply h.sound.passive _ hturn
    trivial
  silent hs any l m l' h hp hturn he hr := by
    have h : Pending l := (if_pos hp).mp h
    cases hk : kind m with
    | start b => exact h.start (isStart_of_kind hk) hturn
    | ignorable =>
        have hasks : asks m = none := by
          unfold asks
          rw [hk]
        have hstart : isStart m = false := by
          unfold isStart
          rw [hk]
        exact (if_pos hp).mpr (h.ignore hasks hstart hturn)
    | error => exact absurd hk he
    | configure code1 | setActive | ping val1 =>
        rw [hk] at hr
        cases hr
  replied hs any l m l' r l'' h hp hturn hr hsent := by
    have h : Pending l := (if_pos hp).mp h
    have hpower : (next hs (kind m)).power = none := by
      cases hk : kind m with
      | start b =>
          rw [hk] at hr
          cases hr
      | _ => exact hp
    exact (if_pos hpower).mpr (h.answer hr hturn hsent)
  refused hs any l m l' r e l'' h hp hturn hr hsent := by
    obtain ⟨u, _, hnext⟩ := hsent
    cases hnext

theorem readPower_opening : OpeningInvariant (Turn LinkStep) host port Sound (After [] [])
      (fun _ hs _ l => Between hs l) Open where
  before l e l' h he hturn := h.passive (passive_onHost (onHost_of_local he)) hturn
  after l e l' h he hturn := h.aside (client_local he) hturn
  refused l timeout e l' h hturn := by
    apply h.passive _ hturn
    trivial
  opened l timeout sock l' h hturn := by
    obtain ⟨u, hmoves, hnext⟩ := hturn
    have hsound : Sound u := h.moves hmoves
    obtain rfl := Option.some.inj hnext
    exact ⟨rfl, rfl, hsound⟩
  failed l stop h := h.elim id After.sound
  begins conn l h := (if_pos rfl).mpr ⟨[], List.forall_mem_nil _, h⟩
  handshake := handshake_between

theorem readPower_ready (fuel : Nat) {l : Link} (h : Sound l) :
    Meets (Turn LinkStep) (readPower fuel host port) l Open :=
  readPower_meets readPower_opening fuel h

section Keeps

variable {α β : Type} {p : Command SessionWire α} {f : α → Command SessionWire β}

def Keeps (p : Command SessionWire α) : Prop :=
  ∀ l, Sound l → Meets (Turn LinkStep) p l (fun _ l' => Sound l')

theorem keeps_passive (hp : Throughout Passive p) : Keeps p :=
  fun _ h => hp.keeps (fun _ _ _ h he hturn => h.passive he hturn) h

theorem keeps_ret {a : α} : Keeps (.ret a) := keeps_passive trivial

theorem Keeps.bind (hp : Keeps p) (hf : ∀ a, Keeps (f a)) : Keeps (p >>= f) :=
  fun l h => (hp l h).bind (fun a l' h' => hf a l' h') (fun _ _ h' => h')

theorem Keeps.resultOf (hp : Keeps p) : Keeps (SystemCalls.resultOf p) :=
  fun l h => meets_resultOf (hp l h)

end Keeps

section Sending

variable {α : Type} {conn : Conn} {f : Unit → Command SessionWire α} {l : Link}

theorem sleep_ready {d : Duration} (h : Ready l)
    (hf : ∀ l', Ready l' → Meets (Turn LinkStep) (f ()) l' (fun _ l'' => Sound l'')) :
    Meets (Turn LinkStep) (sleep d >>= f) l (fun _ l'' => Sound l'') :=
  meets_request_bind.mpr fun _ l' hturn => hf l' (h.aside (fun _ => rfl) hturn)

theorem act_ready {m : RemoteMessage} {failed : IoError → AtvError} (h : Ready l)
    (hm : acts m = true) (hpong : pongOf m = none)
    (hf : ∀ l', Ready l' → Meets (Turn LinkStep) (f ()) l' (fun _ l'' => Sound l'')) :
    Meets (Turn LinkStep) (writeMessage conn m >>= fun x => orRaise x failed >>= f) l
      (fun _ l'' => Sound l'') := by
  refine meets_request_bind.mpr fun x l' hturn => ?_
  have h' := h.act hm hpong hturn
  exact meets_orRaise_bind.mpr ⟨fun _ _ => hf l' h', fun e _ => h'.sound⟩

end Sending

theorem sendPresses_ready {conn : Conn} (keys : List Int32) (i : Nat) {l : Link} (h : Ready l) :
    Meets (Turn LinkStep) (sendPresses conn i keys) l (fun _ l' => Sound l') := by
  induction keys generalizing i l with
  | nil => exact meets_pure.mpr h.sound
  | cons code keys ih =>
      have hpress {l : Link} (h : Ready l) : Meets (Turn LinkStep) (do
          orRaise (← writeMessage conn (keyMessage code)) (keyFailed code)
          sendPresses conn (i + 1) keys) l (fun _ l' => Sound l') :=
        act_ready h rfl rfl fun l' h' => ih (i + 1) h'
      rw [sendPresses]
      split
      · exact sleep_ready h fun l' h' => hpress h'
      · exact hpress h

theorem sendKeys_keeps (fuel : Nat) (keys : List Int32) : Keeps (sendKeys fuel host port keys) := by
  intro l h
  refine (readPower_ready fuel h).bind ?_ (fun _ _ h' => h')
  rintro ⟨on, conn, hs⟩ l h
  refine sleep_ready h fun l h => ?_
  refine (sendPresses_ready keys 0 h).bind ?_ (fun _ _ h' => h')
  intro _ l h
  apply keeps_passive _ l h
  exact throughout_request_bind.mpr fun _ =>
    ⟨trivial, throughout_request_bind.mpr fun _ => ⟨trivial, trivial⟩⟩

theorem sendAppLink_keeps (fuel : Nat) (appLink : String) :
    Keeps (sendAppLink fuel host port appLink) := by
  intro l h
  refine (readPower_ready fuel h).bind ?_ (fun _ _ h' => h')
  rintro ⟨on, conn, hs⟩ l h
  refine sleep_ready h fun l h => ?_
  refine act_ready h rfl rfl fun l h => ?_
  apply keeps_passive _ l h.sound
  exact throughout_request_bind.mpr fun _ =>
    ⟨trivial, throughout_request_bind.mpr fun _ => ⟨trivial, trivial⟩⟩

theorem pressPowerOnce_keeps (fuel : Nat) (wantOn : Bool) :
    Keeps (pressPowerOnce fuel host port wantOn) := by
  intro l h
  refine (readPower_ready fuel h).bind ?_ (fun _ _ h' => h')
  rintro ⟨current, conn, hs⟩ l h
  dsimp only
  split
  · refine sleep_ready h fun l h => ?_
    refine act_ready h rfl rfl fun l h => ?_
    apply keeps_passive _ l h.sound
    refine throughout_request_bind.mpr fun _ =>
      ⟨trivial, throughout_request_bind.mpr fun now => ⟨trivial, ?_⟩⟩
    exact ((confirmLoop_events _ _ _ _ _).mono fun _ => passive_handshake).bind fun hs => trivial
  · exact meets_pure.mpr h.sound

theorem retryPowerOn_keeps (fuel : Nat) (wantOn : Bool) (left : Nat) (attempt : PowerAttempt)
    (changed : Bool) :
    Keeps (retryPowerOn fuel host port wantOn left attempt changed) := by
  induction left generalizing attempt changed with
  | zero => exact keeps_ret
  | succ left ih =>
      rw [retryPowerOn]
      split
      · have hsleep : Keeps (sleep powerOnRetryBackoff : Command SessionWire Unit) :=
          keeps_passive fun _ => ⟨trivial, trivial⟩
        apply hsleep.bind
        intro _
        apply (pressPowerOnce_keeps fuel wantOn).resultOf.bind
        intro r
        cases r with
        | ok next => exact ih next _
        | error e => exact keeps_ret
      · exact keeps_ret

theorem setPower_keeps (fuel : Nat) (wantOn : Bool) : Keeps (setPower fuel host port wantOn) := by
  apply (pressPowerOnce_keeps fuel wantOn).bind
  intro attempt
  apply (retryPowerOn_keeps fuel wantOn _ attempt _).bind
  intro _
  exact keeps_passive (throughout_request_bind.mpr fun _ => ⟨trivial, trivial⟩)

theorem setPowerWithWake_keeps (fuel : Nat) (wantOn : Bool) (mac : Option Mac) :
    Keeps (setPowerWithWake fuel host port wantOn mac) := by
  apply (setPower_keeps fuel wantOn).resultOf.bind
  intro first
  have hfirst : Keeps (propagate first : Command SessionWire PowerOutput) :=
    keeps_passive throughout_propagate
  split
  next mac e =>
    split
    · have hpacket : Throughout Passive (sendMagicPacket mac) := by
        simp [sendMagicPacket, ask, request, Passive]
      have hwait := (waitForPort_events fuel host port wolWait).mono fun _ he => passive_onHost
        (onHost_wait he)
      apply (keeps_passive hpacket).bind
      intro _
      apply (keeps_passive hwait).bind
      intro _
      apply (setPower_keeps fuel wantOn).bind
      intro out
      exact keeps_ret
    · exact hfirst
  next => exact hfirst

theorem command_keeps (command : SessionCommand) (fuel : Nat) :
    Keeps (command.run fuel host port) := by
  cases command with
  | status =>
      have hstatus : Keeps (Session.status fuel host port) := by
        have hread := (readPower_events fuel host port).mono fun _ => passive_handshake
        apply (keeps_passive hread).bind
        intro _
        exact keeps_passive (throughout_request_bind.mpr fun _ => ⟨trivial, trivial⟩)
      exact hstatus.bind fun _ => keeps_ret
  | on mac => exact (setPowerWithWake_keeps fuel true mac).bind fun _ => keeps_ret
  | off => exact (setPower_keeps fuel false).bind fun _ => keeps_ret
  | key keys => exact (sendKeys_keeps fuel keys).bind fun _ => keeps_ret
  | launch appLink => exact (sendAppLink_keeps fuel appLink).bind fun _ => keeps_ret

/-- Whenever a key or an app link is sent, the pings delivered before it have
been answered exactly if all of them came in time. -/
theorem pings_answered_iff (command : SessionCommand) (fuel : Nat) (host : IpAddr) (port : UInt16)
    (labels : List Label)
    (r : Except Stop SessionOutput) (l : Link)
    (hrun : Run (command.run fuel host port) (right labels) r)
    (hpath : Path LinkStep {} labels l) : ∀ s ∈ l.sends, s.Answered ↔ s.Timely := by
  have hkept : ∀ (_ : Except Stop SessionOutput) l m l', Sound l →
      LinkStep l (.inl m) l' → Sound l' := by
    rintro _ l m _ h ⟨⟩
    exact h
  exact Meets.interleaved (command_keeps command fuel {} nofun) hkept hrun hpath

def pingRequest (val1 : Int32) : RemoteMessage := { remotePingRequest := some { val1 } }

def startMessage : RemoteMessage := { remoteStart := some ⟨true⟩ }

def volumeUp : SessionCommand := .key [24]

/-- A TV that pings during the handshake. -/
def earlyPing : Script RemoteMessage :=
  { connects := [.ok 1], inbox := [.ok (pingRequest 25), .ok startMessage] }

def earlyLabels : List Label :=
  (earlyPing.play (volumeUp.run 9 livingRoom 6466)).1.flatMap fun e => match e with
  | ⟨.host (.connectTimeout _ _), _⟩ => [.inr e, .inl (pingRequest 25), .inl startMessage]
  | _ => [.inr e]

def earlySnapshot : Snapshot := ⟨[pingRequest 25, startMessage], [25]⟩

def earlyEnd : Link := { earlySnapshot with sends := [earlySnapshot] }

theorem pings_answered_iff_early : earlySnapshot.Answered ↔ earlySnapshot.Timely := by
  have hrun : Run (volumeUp.run 9 livingRoom 6466) (right earlyLabels)
      (earlyPing.play (volumeUp.run 9 livingRoom 6466)).2.1 :=
    earlyPing.run_play _
  have hpath : Path LinkStep {} earlyLabels earlyEnd := path_foldlM.mpr (by rfl)
  exact pings_answered_iff volumeUp 9 livingRoom 6466 earlyLabels _ earlyEnd hrun hpath
    earlySnapshot (List.mem_singleton.mpr rfl)

/-- A TV that pings in the second before the first key. -/
def gracePing : Script RemoteMessage := { connects := [.ok 1], inbox := [.ok startMessage] }

def graceLabels : List Label :=
  (gracePing.play (volumeUp.run 9 livingRoom 6466)).1.flatMap fun e => match e with
  | ⟨.host (.connectTimeout _ _), _⟩ => [.inr e, .inl startMessage]
  | ⟨.host (.sleep d), _⟩ =>
      if d = keyInjectGrace then [.inl (pingRequest 25), .inr e] else [.inr e]
  | _ => [.inr e]

def graceEnd : Link :=
  { delivered := [startMessage, pingRequest 25], unread := [pingRequest 25],
    sends := [⟨[startMessage, pingRequest 25], []⟩] }

theorem ping_during_grace_unanswered :
    ¬∀ (command : SessionCommand) (fuel : Nat) (host : IpAddr) (port : UInt16)
    (labels : List Label) (r : Except Stop SessionOutput) (l : Link),
    Run (command.run fuel host port) (right labels) r →
      Path LinkStep {} labels l → ∀ s ∈ l.sends, s.Answered := by
  intro h
  have hrun : Run (volumeUp.run 9 livingRoom 6466) (right graceLabels)
      (gracePing.play (volumeUp.run 9 livingRoom 6466)).2.1 :=
    gracePing.run_play _
  have hpath : Path LinkStep {} graceLabels graceEnd := path_foldlM.mpr (by rfl)
  have hanswered :=
    h volumeUp 9 livingRoom 6466 graceLabels _ graceEnd hrun hpath _ (List.mem_singleton.mpr rfl)
  cases hanswered

end AtvRemote.PingAnswers
