import AtvRemote.PowerEffects
import AtvRemote.Interleavings
import AtvRemote.Scripts

namespace AtvRemote.Freshness

open Programs Contracts CommandRules CredentialRules Interleavings Errors Messages SystemCalls
  Handshake Session
  SessionRules PowerEffects Scripts

inductive TvTurn
  | turn (power : Bool)
  | emit (m : RemoteMessage)
  | receive
  deriving DecidableEq, Repr

structure Queued where
  message : RemoteMessage
  afterKey : Bool
  deriving DecidableEq, Repr

/-- A start that the client has received, and whether the TV emitted it after
it had received the key. -/
structure Heard where
  started : Bool
  afterKey : Bool
  deriving DecidableEq, Repr

/-- The TV and both directions of the current connection. `heard` lists the
starts received since the key was sent, the latest first. -/
structure Link where
  power : Bool
  inbound : List Queued := []
  outbound : List RemoteMessage := []
  keyReceived : Bool := false
  heard : List Heard := []
  deriving DecidableEq, Repr

abbrev Label := TvTurn ⊕ SessionEvent

def Link.tv (l : Link) : TvTurn → Option Link
  | .turn power => some { l with power }
  | .emit m =>
      if kind m = .start (!l.power) then none
      else some { l with inbound := l.inbound ++ [⟨m, l.keyReceived⟩] }
  | .receive => match l.outbound with
      | [] => none
      | m :: rest => some { l with
          outbound := rest
          keyReceived := l.keyReceived || carriesPowerKey m }

def hearStart (q : Queued) (heard : List Heard) : List Heard :=
  match kind q.message with
  | .start started => ⟨started, q.afterKey⟩ :: heard
  | _ => heard

/-- Messages arrive in the order in which they were emitted; a read may also
fail at any time. A write that fails delivers nothing. -/
def Link.client (l : Link) : SessionEvent → Option Link
  | ⟨.host (.connectTimeout _ _), .ok _⟩ => some { power := l.power }
  | ⟨.wire _ .recv, .ok m⟩ => match l.inbound with
      | [] => none
      | q :: rest =>
          if q.message = m then some { l with inbound := rest, heard := hearStart q l.heard }
            else none
  | ⟨.wire _ (.send m), .ok _⟩ =>
      some { l with
        outbound := l.outbound ++ [m]
        heard := if carriesPowerKey m then [] else l.heard }
  | _ => some l

def Link.next (l : Link) : Label → Option Link
  | .inl turn => l.tv turn
  | .inr e => l.client e

def LinkStep (l : Link) (i : Label) (l' : Link) : Prop := l.next i = some l'

/-- The start that supplied the observation of an attempt that pressed the key
was emitted after the key had been received. -/
def Fresh (attempt : PowerAttempt) (l : Link) : Prop :=
  attempt.changed = true → ∀ b, attempt.observed = some b → l.heard.head? = some ⟨b, true⟩

def isStart (m : RemoteMessage) : Bool :=
  match kind m with
  | .start _ => true
  | _ => false

theorem isStart_of_kind {m : RemoteMessage} {b : Bool} (h : kind m = .start b) :
    isStart m = true := by
  rw [isStart]
  rw [h]

/-- No start is still unread when the key is written, and none is emitted
between the write and the receipt of the key. -/
def Link.timely (l : Link) : Label → Bool
  | .inl (.emit m) => !(isStart m && l.outbound.any carriesPowerKey)
  | .inr ⟨.wire _ (.send m), .ok _⟩ =>
      !(carriesPowerKey m && l.inbound.any fun q => isStart q.message)
  | _ => true

def TimelyStep (l : Link) (i : Label) (l' : Link) : Prop := LinkStep l i l' ∧ l.timely i = true

/-- While the key is on its way or has been received, the TV emits a start only
after its receipt. -/
structure AfterKey (l : Link) : Prop where
  inbound : ∀ q ∈ l.inbound, ∀ b, kind q.message = .start b → q.afterKey = true
  heard : ∀ h ∈ l.heard, h.afterKey = true
  key : l.outbound.any carriesPowerKey = true ∨ l.keyReceived = true

theorem AfterKey.tv {l l' : Link} {turn : TvTurn} (h : AfterKey l)
    (hstep : TimelyStep l (.inl turn) l') :
    AfterKey l' ∧ l'.heard = l.heard := by
  obtain ⟨hnext, htimely⟩ := hstep
  cases turn with
  | turn power =>
      obtain rfl := Option.some.inj hnext
      exact ⟨⟨h.inbound, h.heard, h.key⟩, rfl⟩
  | emit m =>
      simp only [LinkStep, Link.next, Link.tv] at hnext
      split at hnext
      next => cases hnext
      next =>
        obtain rfl := Option.some.inj hnext
        refine ⟨⟨?_, h.heard, h.key⟩, rfl⟩
        intro q hq b hb
        rcases List.mem_append.mp hq with hq | hq
        · exact h.inbound q hq b hb
        · obtain rfl := List.mem_singleton.mp hq
          have hnone : l.outbound.any carriesPowerKey = false := by
            simpa [Link.timely, isStart_of_kind hb] using htimely
          exact h.key.resolve_left (by rw [hnone]; exact Bool.false_ne_true)
  | receive =>
      simp only [LinkStep, Link.next, Link.tv] at hnext
      split at hnext
      next => cases hnext
      next m rest hout =>
        obtain rfl := Option.some.inj hnext
        refine ⟨⟨h.inbound, h.heard, ?_⟩, rfl⟩
        have hkey := h.key
        rw [hout, List.any_cons, Bool.or_eq_true, or_assoc] at hkey
        rw [Bool.or_eq_true]
        tauto

theorem AfterKey.recv {l l' : Link} {conn : Conn} {m : RemoteMessage} (h : AfterKey l)
    (hstep : TimelyStep l (.inr ⟨.wire conn .recv, .ok m⟩) l') :
    AfterKey l' ∧ l'.heard.head?.map Heard.started = hear (l.heard.head?.map Heard.started)
      (kind m) := by
  obtain ⟨hnext, _⟩ := hstep
  simp only [LinkStep, Link.next, Link.client] at hnext
  split at hnext
  next => cases hnext
  next q rest hin =>
    split at hnext
    next hm =>
      obtain rfl := Option.some.inj hnext
      have hq : q ∈ l.inbound := by rw [hin]; exact List.mem_cons_self
      have hrest : ∀ q ∈ rest, ∀ b, kind q.message = .start b → q.afterKey = true :=
        fun q hq => h.inbound q (by rw [hin]; exact List.mem_cons_of_mem _ hq)
      cases hk : kind m with
      | start b =>
          have hfresh : q.afterKey = true := h.inbound q hq b (by rw [hm, hk])
          have hheard : hearStart q l.heard = ⟨b, true⟩ :: l.heard := by
            rw [hearStart]
            rw [hm, hk, hfresh]
          refine ⟨⟨hrest, ?_, h.key⟩, ?_⟩
          · dsimp only
            rw [hheard]
            intro e he
            rcases List.mem_cons.mp he with rfl | he
            · rfl
            · exact h.heard e he
          · dsimp only
            rw [hheard]
            rfl
      | _ =>
          have hheard : hearStart q l.heard = l.heard := by
            rw [hearStart]
            rw [hm, hk]
          refine ⟨⟨hrest, ?_, h.key⟩, ?_⟩
          · dsimp only
            rw [hheard]
            exact h.heard
          · dsimp only
            rw [hheard]
            rfl
    next => cases hnext

theorem AfterKey.sent {l l' : Link} {conn : Conn} {m : RemoteMessage} {x : Except IoError Unit}
    (h : AfterKey l) (hm : carriesPowerKey m = false)
    (hstep : TimelyStep l (.inr ⟨.wire conn (.send m), x⟩) l') :
    AfterKey l' ∧ l'.heard = l.heard := by
  obtain ⟨hnext, _⟩ := hstep
  cases x with
  | error e =>
      obtain rfl := Option.some.inj hnext
      exact ⟨h, rfl⟩
  | ok _ =>
      obtain rfl := Option.some.inj hnext
      have hheard : (if carriesPowerKey m then [] else l.heard) = l.heard := by simp [hm]
      refine ⟨⟨h.inbound, ?_, ?_⟩, hheard⟩
      · dsimp only
        rw [hheard]
        exact h.heard
      · rw [List.any_append]
        exact h.key.imp (fun hout => by simp [hout]) id

def Confirming (hs : SessionHandshake) (l : Link) : Prop :=
  AfterKey l ∧ hs.power = l.heard.head?.map Heard.started

theorem Confirming.tv {hs : SessionHandshake} {l l' : Link} {turn : TvTurn} (h : Confirming hs l)
    (hstep : TimelyStep l (.inl turn) l') : Confirming hs l' := by
  obtain ⟨hafter, hheard⟩ := h.1.tv hstep
  exact ⟨hafter, by rw [hheard]; exact h.2⟩

theorem Confirming.moves {hs : SessionHandshake} {l l' : Link} (h : Confirming hs l)
    (hmoves : Moves TimelyStep l l') : Confirming hs l' :=
  hmoves.invariant (fun _ _ _ h hstep => h.tv hstep) h

theorem Confirming.aside {hs : SessionHandshake} {l l' : Link} {e : SessionEvent}
    (h : Confirming hs l)
    (he : ∀ k : Link, k.client e = some k) (hturn : Turn TimelyStep l e l') : Confirming hs l' := by
  obtain ⟨u, hmoves, hnext, _⟩ := hturn
  obtain rfl := Option.some.inj ((he u).symm.trans hnext)
  exact h.moves hmoves

variable {fuel : Nat} {host : IpAddr} {port : UInt16} {wantOn : Bool}

theorem confirmLoop_confirming {conn : Conn} {deadline : Instant} {hs : SessionHandshake} {l : Link}
    (h : Confirming hs l) : Meets (Turn TimelyStep) (confirmLoop conn wantOn deadline fuel hs) l
      (fun r l' => AfterKey l' ∧ ∀ hs, r = .ok hs → Confirming hs l') := by
  refine confirmLoop_meets (I := Confirming) ⟨?_, ?_, ?_, ?_, ?_, ?_⟩ fuel h
  · intro hs l h
    exact ⟨h.1, nofun⟩
  · intro hs l now l' h hturn
    exact h.aside (fun _ => rfl) hturn
  · intro hs l h
    refine ⟨h.1, ?_⟩
    rintro _ ⟨rfl⟩
    exact h
  · intro hs l e l' h hturn
    have h' := h.aside (fun _ => rfl) hturn
    refine ⟨h'.1, ?_⟩
    rintro _ ⟨rfl⟩
    exact h'
  · rintro hs l m l' h ⟨u, hmoves, hstep⟩
    obtain ⟨hafter, hpower⟩ := h.moves hmoves
    obtain ⟨hafter', hheard⟩ := hafter.recv hstep
    refine ⟨hafter', ?_⟩
    rw [hheard, ← hpower]
    rfl
  · rintro hs l k r x l' h hr ⟨u, hmoves, hstep⟩
    obtain ⟨hafter, hpower⟩ := h.moves hmoves
    obtain ⟨hafter', hheard⟩ := hafter.sent (carriesPowerKey_reply hr) hstep
    exact ⟨hafter', by rw [hheard]; exact hpower⟩

theorem afterKey_sent {l l' : Link} {conn : Conn} {m : RemoteMessage} {u : Unit}
    (hm : carriesPowerKey m = true) (hstep : TimelyStep l (.inr ⟨.wire conn (.send m), .ok u⟩) l') :
    AfterKey l' ∧ l'.heard = [] := by
  obtain ⟨hnext, htimely⟩ := hstep
  obtain rfl := Option.some.inj hnext
  have hheard : (if carriesPowerKey m then [] else l.heard) = [] := if_pos hm
  have hunread : ∀ q ∈ l.inbound, isStart q.message = false := by
    simpa [Link.timely, hm] using htimely
  refine ⟨⟨fun q hq b hb => ?_, ?_, .inl ?_⟩, hheard⟩
  · have hq := hunread q hq
    rw [isStart_of_kind hb] at hq
    cases hq
  · dsimp only
    rw [hheard]
    exact fun h hh => by cases hh
  · rw [List.any_append, List.any_cons, hm, Bool.true_or, Bool.or_true]

theorem pressPowerOnce_fresh (l : Link) :
    Meets (Turn TimelyStep) (pressPowerOnce fuel host port wantOn) l
      (fun r l' => ∀ attempt, r = .ok attempt → attempt.changed = true →
        AfterKey l' ∧ attempt.observed = l'.heard.head?.map Heard.started) := by
  have hread : Meets (Turn TimelyStep) (readPower fuel host port) l (fun _ _ => True) :=
    fun _ _ _ _ _ => trivial
  refine hread.bind ?_ (fun e l' _ => nofun)
  rintro ⟨current, conn, hs⟩ l₁ _
  dsimp only
  split
  next =>
    refine meets_request_bind.mpr fun _ l₂ _ => meets_request_bind.mpr fun x l₃ hkey => ?_
    refine meets_orRaise_bind.mpr ⟨?_, fun e _ => nofun⟩
    rintro u rfl
    obtain ⟨v, _, hstep⟩ := hkey
    obtain ⟨hafter, hheard⟩ := afterKey_sent carriesPowerKey_powerKeyMessage hstep
    have hconfirming : Confirming { hs with power := none } l₃ := ⟨hafter, by rw [hheard]; rfl⟩
    refine meets_request_bind.mpr fun _ l₄ htimeout => meets_request_bind.mpr fun now l₅ hnow => ?_
    have hconfirming := (hconfirming.aside (fun _ => rfl) htimeout).aside (fun _ => rfl) hnow
    refine (confirmLoop_confirming hconfirming).bind ?_ (fun e l' _ => nofun)
    rintro hs l₆ ⟨_, hend⟩
    refine meets_pure.mpr ?_
    rintro _ ⟨rfl⟩ _
    exact hend hs rfl
  next =>
    refine meets_pure.mpr ?_
    rintro _ ⟨rfl⟩ hfalse
    cases hfalse

/-- In every interleaving in which no start is under way to the client when the
key is written or before it is received, confirmations are fresh. -/
theorem confirmation_fresh {labels : List Label} {l l' : Link} {attempt : PowerAttempt}
    (hrun : Run (pressPowerOnce fuel host port wantOn) (right labels) (.ok attempt))
    (hpath : Path TimelyStep l labels l') :
    Fresh attempt l' ∧ (attempt.changed = true → ∀ h ∈ l'.heard, h.afterKey = true) := by
  have hkept : ∀ (r : Except Stop PowerAttempt) l i l',
      (∀ attempt, r = .ok attempt → attempt.changed = true →
        AfterKey l ∧ attempt.observed = l.heard.head?.map Heard.started) →
      TimelyStep l (.inl i) l' →
      ∀ attempt, r = .ok attempt → attempt.changed = true →
        AfterKey l' ∧ attempt.observed = l'.heard.head?.map Heard.started := by
    intro r l i l' h hstep attempt hr hchanged
    obtain ⟨hafter, hobserved⟩ := h attempt hr hchanged
    obtain ⟨hafter', hheard⟩ := hafter.tv hstep
    exact ⟨hafter', by rw [hheard]; exact hobserved⟩
  have hend := Meets.interleaved (pressPowerOnce_fresh l) hkept hrun hpath attempt rfl
  refine ⟨?_, fun hchanged => (hend hchanged).1.heard⟩
  intro hchanged b hb
  obtain ⟨hafter, hobserved⟩ := hend hchanged
  rw [hb] at hobserved
  obtain ⟨h, hhead, hstarted⟩ := Option.map_eq_some_iff.mp hobserved.symm
  have hafterKey := hafter.heard h (List.mem_of_mem_head? hhead)
  rw [hhead, ← hstarted, ← hafterKey]

/-- A TV that is switched on by hand during the grace period, and off again by
the key. -/
def switchedByHand : Script RemoteMessage :=
  { connects := [.ok 1], inbox := [started false, started true] }

def byHand : Trace (System SessionWire) :=
  (switchedByHand.play (pressPowerOnce 9 livingRoom 6466 true)).1

def byHandAttempt : PowerAttempt := { changed := true, resulting := true, observed := some true }

def handTv (e : SessionEvent) : List Label :=
  match e with
  | ⟨.host (.connectTimeout _ _), _⟩ => [.inr e, .inl (.emit { remoteStart := some ⟨false⟩ })]
  | ⟨.host (.sleep _), _⟩ =>
      [.inr e, .inl (.turn true), .inl (.emit { remoteStart := some ⟨true⟩ })]
  | _ => [.inr e]

def byHandLabels : List Label := byHand.flatMap handTv ++ [.inl .receive, .inl (.turn false)]

def byHandEnd : Link := { power := false, keyReceived := true, heard := [⟨true, false⟩] }

theorem confirmation_not_always_fresh :
    ¬∀ (fuel : Nat) (host : IpAddr) (port : UInt16) (wantOn : Bool)
    (labels : List Label) (l l' : Link) (attempt : PowerAttempt),
    Run (pressPowerOnce fuel host port wantOn) (right labels) (.ok attempt) →
      Path LinkStep l labels l' → Fresh attempt l' := by
  intro h
  have hrun : Run (pressPowerOnce 9 livingRoom 6466 true) (right byHandLabels)
      (.ok byHandAttempt) :=
    switchedByHand.run_play _
  have hpath : Path LinkStep { power := false } byHandLabels byHandEnd := path_foldlM.mpr (by rfl)
  have hfresh := h 9 livingRoom 6466 true _ _ _ _ hrun hpath rfl true rfl
  revert hfresh
  decide

def keyTv (e : SessionEvent) : List Label :=
  match e with
  | ⟨.host (.connectTimeout _ _), _⟩ => [.inr e, .inl (.emit { remoteStart := some ⟨false⟩ })]
  | ⟨.wire _ (.send _), _⟩ =>
      [.inr e, .inl .receive, .inl (.turn true), .inl (.emit { remoteStart := some ⟨true⟩ })]
  | _ => [.inr e]

def byKeyEnd : Link := { power := true, keyReceived := true, heard := [⟨true, true⟩] }

theorem confirmation_fresh_byKey : Fresh byHandAttempt byKeyEnd ∧
    (byHandAttempt.changed = true → ∀ h ∈ byKeyEnd.heard, h.afterKey = true) := by
  have hrun : Run (pressPowerOnce 9 livingRoom 6466 true) (right (byHand.flatMap keyTv))
      (.ok byHandAttempt) :=
    switchedByHand.run_play _
  let step (l : Link) (i : Label) : Option Link := if l.timely i then l.next i else none
  have hpath : Path (fun l i l' => step l i = some l') { power := false }
    (byHand.flatMap keyTv) byKeyEnd :=
    path_foldlM.mpr (by rfl)
  refine confirmation_fresh hrun (hpath.mono fun l i l' h => ?_)
  simpa [step, TimelyStep, LinkStep, and_comm] using h

end AtvRemote.Freshness
