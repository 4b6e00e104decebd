import AtvRemote.PairingTranscripts

namespace AtvRemote.PairingAnswers

open Programs Contracts CommandRules CredentialRules Errors Messages SystemCalls
  Credentials Texts Pairing
  PairingRuns Transcripts PairingTranscripts Scripts

/-- The message that arrived in answer to the secret. -/
def secretAnswer : PairingTrace → Option OuterMessage
  | [] => none
  | ⟨.wire _ (.send m), _⟩ :: t => if m.secret.isSome then (received t).head? else secretAnswer t
  | _ :: t => secretAnswer t

def Acknowledges (m : OuterMessage) : Prop := m.status = Status.ok.code ∧ m.secretAck.isSome

/-- A message that reports no trouble but belongs to an earlier phase. -/
def Repeats (m : OuterMessage) : Prop :=
  m.status = Status.ok.code ∧ m.secretAck = none ∧
    (m.pairingRequestAck.isSome ∨ m.options.isSome ∨ m.configurationAck.isSome)

instance (m : OuterMessage) : Decidable (Acknowledges m) := inferInstanceAs (Decidable (_ ∧ _))

instance (m : OuterMessage) : Decidable (Repeats m) := inferInstanceAs (Decidable (_ ∧ _ ∧ _))

theorem rejection_eq_none (m : OuterMessage) : rejection m = none ↔ Acknowledges m ∨ Repeats m := by
  obtain ⟨version, status, request, requestAck, options, configuration, configurationAck,
    secret, secretAck⟩ := m
  by_cases hstatus : status = Status.ok.code
  · cases requestAck <;> cases options <;> cases configurationAck <;> cases secretAck <;>
      simp [rejection, phase, Acknowledges, Repeats, hstatus]
  · simp [rejection, phase, Acknowledges, Repeats, hstatus]

theorem not_repeats_of_acknowledges {m : OuterMessage} (h : Acknowledges m) : ¬Repeats m := by
  intro hrepeats
  rw [Acknowledges, hrepeats.2.1] at h
  cases h.2

variable {lib : Library} {host : IpAddr} {port : UInt16} {tls : TlsClient}
  {conn : Conn} {fuel : Nat}
  {t u v : PairingTrace} {r : Except Stop PairOutput}

theorem secretAnswer_append (h : ∀ e ∈ u, Public e) (v : PairingTrace) :
    secretAnswer (u ++ v) = secretAnswer v := by
  induction u with
  | nil => rfl
  | cons e u ih =>
      obtain ⟨he, hu⟩ := List.forall_mem_cons.mp h
      obtain ⟨o, x⟩ := e
      rcases o with ⟨conn, _ | m⟩ | o
      · exact ih hu
      · have hm : m.secret = none := he
        change (if m.secret.isSome then _ else secretAnswer (u ++ v)) = _
        rw [hm]
        exact ih hu
      · exact ih hu

theorem secretAnswer_public (h : ∀ e ∈ u, Public e) : secretAnswer u = none := by
  rw [← List.append_nil u, secretAnswer_append h]
  rfl

theorem SecretEnd.ok_iff {secret : Bytes} (h : SecretEnd host conn secret t r) :
    (∃ out, r = .ok out) ↔ ∃ m, secretAnswer t = some m ∧ rejection m = none := by
  cases h with
  | writeFailed e | readFailed e =>
      refine ⟨nofun, ?_⟩
      rintro ⟨_, ⟨⟩, _⟩
  | @rejected m e h =>
      refine ⟨nofun, ?_⟩
      rintro ⟨_, ⟨rfl⟩, hm⟩
      rw [h] at hm
      cases hm
  | @paired m text h => exact ⟨fun _ => ⟨m, rfl, h⟩, fun _ => ⟨_, rfl⟩⟩

theorem pair_ok_iff (h : Run (pair lib fuel host port) t r) :
    (∃ out, r = .ok out) ↔ ∃ m, secretAnswer t = some m ∧ rejection m = none := by
  have hfails {t : PairingTrace} (ht : ∀ e ∈ t, Public e) (stop : Stop) :
      (∃ out, (.error stop : Except Stop PairOutput) = .ok out) ↔
        ∃ m, secretAnswer t = some m ∧ rejection m = none := by
    rw [secretAnswer_public ht]
    refine ⟨nofun, ?_⟩
    rintro ⟨_, ⟨⟩, _⟩
  rcases run_pair h with ⟨stop, rfl, hs⟩ | ⟨s, tls, conn, v, rfl, hs, hopen, hend⟩
  · exact hfails (fun e he => public_of_onHost (hs e he)) stop
  · have hpublic : ∀ e ∈ s, Public e := fun e he => public_of_onHost (hs e he)
    rcases pairEnd_discloses hend with ⟨hall, stop, rfl⟩ |
      ⟨w, line, serverDer, certs, secret, before, ack, z, rfl, _, _, _, _, hw, hz⟩
    · exact hfails (List.forall_mem_append.mpr ⟨hpublic, hall⟩) stop
    · rw [secretAnswer_append hpublic, List.append_assoc, secretAnswer_append hw,
        secretAnswer_append (prompt_public line serverDer certs)]
      exact SecretEnd.ok_iff hz

/-- The answer that counts as success is an acknowledgement exactly when it is
not a message of an earlier phase. -/
theorem paired_acknowledged_iff (lib : Library) (fuel : Nat) (host : IpAddr) (port : UInt16)
    (t : PairingTrace)
    (r : Except Stop PairOutput) (h : Run (pair lib fuel host port) t r) :
    (∀ out, r = .ok out → ∃ m, secretAnswer t = some m ∧ Acknowledges m) ↔
      ¬∃ m, secretAnswer t = some m ∧ Repeats m := by
  have hok := pair_ok_iff h
  constructor
  · rintro hclaim ⟨m, hm, hrepeats⟩
    obtain ⟨out, hout⟩ := hok.mpr ⟨m, hm, (rejection_eq_none m).mpr (.inr hrepeats)⟩
    obtain ⟨m', hm', hack⟩ := hclaim out hout
    obtain rfl := Option.some.inj (hm.symm.trans hm')
    exact not_repeats_of_acknowledges hack hrepeats
  · intro hnone out hout
    obtain ⟨m, hm, haccepted⟩ := hok.mp ⟨out, hout⟩
    rcases (rejection_eq_none m).mp haccepted with hack | hrepeats
    · exact ⟨m, hm, hack⟩
    · exact absurd ⟨m, hm, hrepeats⟩ hnone

def acknowledged : OuterMessage := { secretAck := some {} }

theorem paired_acknowledged_iff_acknowledged :
    let t := ((shows acknowledged).play (pair smallKeys 9 livingRoom 6467)).1
    (∀ out, (.ok paired : Except Stop PairOutput) = .ok out → ∃ m, secretAnswer t = some m ∧
      Acknowledges m) ↔
      ¬∃ m, secretAnswer t = some m ∧ Repeats m :=
  paired_acknowledged_iff smallKeys 9 livingRoom 6467 _ _ (shows_run acknowledged rfl)

def repeated : OuterMessage := { configurationAck := some {} }

/-- The acknowledgement of the configuration, sent once more, passes for the
one of the secret. -/
theorem paired_without_acknowledgement :
    ¬∀ (lib : Library) (fuel : Nat) (host : IpAddr) (port : UInt16)
    (t : PairingTrace) (r : Except Stop PairOutput), Run (pair lib fuel host port) t r →
      ∀ out, r = .ok out → ∃ m, secretAnswer t = some m ∧ Acknowledges m := by
  intro h
  obtain ⟨m, hm, hack⟩ := h smallKeys 9 livingRoom 6467 _ _ (shows_run repeated rfl) paired rfl
  have hanswer : secretAnswer ((shows repeated).play (pair smallKeys 9 livingRoom 6467)).1 =
      some repeated := rfl
  obtain rfl := Option.some.inj (hanswer.symm.trans hm)
  exact absurd hack (by decide)

end AtvRemote.PairingAnswers
