import AtvRemote.CredentialRules

namespace AtvRemote.Transcripts

open Programs CredentialRules Errors SystemCalls

variable {M : Type}

/-- The messages handed to a write, in order, whether the write succeeded or not. -/
def sent (t : Trace (System (MessageWire M))) : List M :=
  t.filterMap fun e => match e with
    | ⟨.wire _ (.send m), _⟩ => some m
    | _ => none

def received (t : Trace (System (MessageWire M))) : List M :=
  t.filterMap fun e => match e with
    | ⟨.wire _ .recv, .ok m⟩ => some m
    | _ => none

def receivedOn (conn : Conn) (t : Trace (System (MessageWire M))) : List M :=
  t.filterMap fun e => match e with
    | ⟨.wire c .recv, .ok m⟩ => if c = conn then some m else none
    | _ => none

@[simp] theorem sent_append (u v : Trace (System (MessageWire M))) :
    sent (u ++ v) = sent u ++ sent v :=
  List.filterMap_append

@[simp] theorem received_append (u v : Trace (System (MessageWire M))) :
    received (u ++ v) = received u ++ received v := List.filterMap_append

theorem receivedOn_recv (conn c : Conn) (m : M) (t : Trace (System (MessageWire M))) :
    receivedOn conn (⟨.wire c .recv, .ok m⟩ :: t) = (if c = conn then [m] else []) ++
      receivedOn conn t := by
  by_cases h : c = conn <;> simp [receivedOn, h]

theorem silent_of_onHost {t : Trace (System (MessageWire M))} (h : ∀ e ∈ t, OnHost e) :
    sent t = [] ∧ received t = [] := by
  constructor <;>
  · apply List.filterMap_eq_nil_iff.mpr
    rintro ⟨o, x⟩ he
    cases o with
    | wire => exact (h _ he).elim
    | host => rfl

theorem mem_sent {m : M} {t : Trace (System (MessageWire M))} (h : m ∈ sent t) :
    ∃ conn x, (⟨.wire conn (.send m), x⟩ : Event (System (MessageWire M))) ∈ t := by
  obtain ⟨e, he, hm⟩ := List.mem_filterMap.mp h
  obtain ⟨⟨conn, _ | m'⟩ | o, x⟩ := e
  · cases hm
  · cases hm
    exact ⟨conn, x, he⟩
  · cases hm

end AtvRemote.Transcripts
