import AtvRemote.SystemCalls
import AtvRemote.Contracts

namespace AtvRemote.CommandRules

open Programs Contracts Errors SystemCalls

variable {W : Signature} {ε α β σ : Type}

/-- What a `match` on the result of a command sees of its outcome. -/
def caught : Except Stop α → Except Stop (Except AtvError α)
  | .ok a => .ok (.ok a)
  | .error (.error e) => .ok (.error e)
  | .error stop => .error stop

@[simp] theorem caught_ok (a : α) : caught (.ok a) = .ok (.ok a) := rfl

@[simp] theorem caught_error (e : AtvError) :
    caught (.error (.error e) : Except Stop α) = .ok (.error e) := rfl

@[simp] theorem caught_unfinished :
    caught (.error .unfinished : Except Stop α) = .error .unfinished := rfl

@[simp] theorem caught_panic (text : String) :
    caught (.error (.panic text) : Except Stop α) = .error (.panic text) := rfl

theorem run_resultOf {p : Command W α} {t : Trace (System W)}
    {r : Except Stop (Except AtvError α)} :
    Run (resultOf p) t r ↔ ∃ q, Run p t q ∧ r = caught q := by
  constructor
  · intro h
    rcases run_bind.mp h with ⟨q, u, v, rfl, hu, hv⟩ | ⟨e, hu, rfl⟩
    · obtain ⟨_, hp, ⟨⟩⟩ := run_attempt.mp hu
      rw [← List.append_nil u] at hp
      rcases q with (e | _ | _) | a
      · obtain ⟨rfl, rfl⟩ := run_ret.mp hv
        exact ⟨_, hp, rfl⟩
      · obtain ⟨rfl, rfl⟩ := run_fail.mp hv
        exact ⟨_, hp, rfl⟩
      · obtain ⟨rfl, rfl⟩ := run_fail.mp hv
        exact ⟨_, hp, rfl⟩
      · obtain ⟨rfl, rfl⟩ := run_ret.mp hv
        exact ⟨_, hp, rfl⟩
    · obtain ⟨q, hp, hq⟩ := run_attempt.mp hu
      cases hq
  · rintro ⟨q, hp, rfl⟩
    refine run_bind.mpr (.inl ⟨q, t, [], by simp, run_attempt.mpr ⟨q, hp, rfl⟩, ?_⟩)
    rcases q with (e | _ | _) | a <;> simp

theorem run_propagate {q : Except Stop α} {a : Except AtvError α} (h : caught q = .ok a)
    {t : Trace (System W)} {r : Except Stop α} :
    Run (propagate a : Command W α) t r ↔ t = [] ∧ r = q := by
  rcases q with (e | _ | _) | b
  · obtain rfl : .error e = a := Except.ok.inj h
    exact run_fail
  · cases h
  · cases h
  · obtain rfl : .ok b = a := Except.ok.inj h
    exact run_ret

theorem run_request_bind {o : SystemOp W.Op} {g : _ → Command W β} {t : Trace (System W)}
    {r : Except Stop β} : Run (request o >>= g) t r ↔ ∃ x u, t = ⟨o, x⟩ :: u ∧ Run (g x) u r := by
  change Run (.call o g) t r ↔ _
  exact run_call

theorem run_orRaise_bind {x : Except ε α} {f : ε → AtvError} {g : α → Command W β}
    {t : Trace (System W)} {r : Except Stop β} : Run (orRaise x f >>= g) t r ↔
      (∃ a, x = .ok a ∧ Run (g a) t r) ∨ ∃ e, x = .error e ∧ t = [] ∧
      r = .error (.error (f e)) := by
  cases x <;> simp [orRaise, raise]

section Throughout

variable {A : Event (System W) → Prop}

theorem throughout_request_bind {o : SystemOp W.Op} {g : _ → Command W β} :
    Throughout A (request o >>= g) ↔ ∀ x, A ⟨o, x⟩ ∧ Throughout A (g x) := Iff.rfl

@[simp] theorem throughout_raise {e : AtvError} : Throughout A (raise e : Command W α) := trivial

@[simp] theorem throughout_orRaise {r : Except ε α} {f : ε → AtvError} :
    Throughout A (orRaise r f : Command W α) := by
  cases r <;> simp [orRaise]

@[simp] theorem throughout_orRaise_bind {r : Except ε α} {f : ε → AtvError} {g : α → Command W β} :
    Throughout A (orRaise r f >>= g) ↔ ∀ a, r = .ok a → Throughout A (g a) := by
  cases r <;> simp [orRaise, raise]

@[simp] theorem throughout_okOrRaise_bind {r : Option α} {e : AtvError} {g : α → Command W β} :
    Throughout A (okOrRaise r e >>= g) ↔ ∀ a, r = some a → Throughout A (g a) := by
  cases r <;> simp [okOrRaise, raise]

@[simp] theorem throughout_propagate {r : Except AtvError α} :
    Throughout A (propagate r : Command W α) := throughout_orRaise

theorem throughout_expect {r : Option α} {text : String} :
    Throughout A (expect r text : Command W α) := by
  cases r <;> simp [expect]

theorem throughout_resultOf {p : Command W α} (hp : Throughout A p) :
    Throughout A (resultOf p) := by
  apply hp.attempt.bind
  intro r
  rcases r with (e | _ | _) | a <;> simp

end Throughout

section Meets

variable {step : σ → Event (System W) → σ → Prop} {s : σ} {Q : Except Stop α → σ → Prop}
  {R : Except Stop β → σ → Prop}

theorem meets_request_bind {o : SystemOp W.Op} {g : _ → Command W β} :
    Meets step (request o >>= g) s R ↔ ∀ x s', step s ⟨o, x⟩ s' → Meets step (g x) s' R := by
  change Meets step (.call o g) s R ↔ _
  exact meets_call

@[simp] theorem meets_raise {e : AtvError} :
    Meets step (raise e) s Q ↔ Q (.error (.error e)) s := meets_fail

@[simp] theorem meets_raise_bind {e : AtvError} {g : α → Command W β} :
    Meets step (raise e >>= g) s R ↔ R (.error (.error e)) s := meets_fail

@[simp] theorem meets_orRaise {r : Except ε α} {f : ε → AtvError} :
    Meets step (orRaise r f) s Q ↔
      (∀ a, r = .ok a → Q (.ok a) s) ∧ ∀ e, r = .error e → Q (.error (.error (f e))) s := by
  cases r <;> simp [orRaise]

@[simp] theorem meets_orRaise_bind {r : Except ε α} {f : ε → AtvError} {g : α → Command W β} :
    Meets step (orRaise r f >>= g) s R ↔
      (∀ a, r = .ok a → Meets step (g a) s R) ∧
        ∀ e, r = .error e → R (.error (.error (f e))) s := by
  cases r <;> simp [orRaise]

theorem meets_ok_bind {a : α} {f : ε → AtvError} {g : α → Command W β} :
    Meets step (orRaise (.ok a) f >>= g) s R ↔ Meets step (g a) s R := Iff.rfl

theorem meets_some_bind {a : α} {e : AtvError} {g : α → Command W β} :
    Meets step (okOrRaise (some a) e >>= g) s R ↔ Meets step (g a) s R := Iff.rfl

@[simp] theorem meets_okOrRaise {r : Option α} {e : AtvError} :
    Meets step (okOrRaise r e) s Q ↔
      (∀ a, r = some a → Q (.ok a) s) ∧ (r = none → Q (.error (.error e)) s) := by
  cases r <;> simp [okOrRaise]

@[simp] theorem meets_propagate {r : Except AtvError α} :
    Meets step (propagate r) s Q ↔
      (∀ a, r = .ok a → Q (.ok a) s) ∧ ∀ e, r = .error e → Q (.error (.error e)) s := by
  simp [propagate]

theorem meets_resultOf {p : Command W α} {R : Except Stop (Except AtvError α) → σ → Prop}
    (h : Meets step p s (fun r s' => R (caught r) s')) : Meets step (resultOf p) s R := by
  intro t r ht
  obtain ⟨q, hq, rfl⟩ := run_resultOf.mp ht
  exact h t q hq

end Meets

section Keeps

variable {step : σ → Event (System W) → σ → Prop} {I : σ → Prop} {s : σ}

theorem keeps_request_bind {o : SystemOp W.Op} {g : _ → Command W β} :
    Keeps step I (request o >>= g) s ↔ I s ∧ ∀ x s', step s ⟨o, x⟩ s' → Keeps step I (g x) s' :=
  Iff.rfl

theorem keeps_orRaise_bind {r : Except ε α} {f : ε → AtvError} {g : α → Command W β} (hs : I s)
    (hg : ∀ a, r = .ok a → Keeps step I (g a) s) : Keeps step I (orRaise r f >>= g) s := by
  cases r with
  | ok a => exact hg a rfl
  | error e => exact hs

theorem keeps_okOrRaise_bind {r : Option α} {e : AtvError} {g : α → Command W β} (hs : I s)
    (hg : ∀ a, r = some a → Keeps step I (g a) s) : Keeps step I (okOrRaise r e >>= g) s := by
  cases r with
  | some a => exact hg a rfl
  | none => exact hs

end Keeps

/-- A judgement that holds of a command if it holds of its parts, and of
certain single operations. -/
structure Closed (W : Signature) (J : (α : Type) → Command W α → Prop) (ok : SystemOp W.Op → Prop) :
    Prop where
  pure {α : Type} (a : α) : J α (.ret a)
  fail {α : Type} (e : Stop) : J α (.fail e)
  request {o : SystemOp W.Op} (h : ok o) : J _ (request o)
  bind {α β : Type} {p : Command W α} {f : α → Command W β} (hp : J α p) (hf : ∀ a, J β (f a)) :
    J β (p >>= f)
  attempt {α : Type} {p : Command W α} (hp : J α p) : J _ p.attempt

section Closed

variable {J : (α : Type) → Command W α → Prop} {ok : SystemOp W.Op → Prop} (hJ : Closed W J ok)
include hJ

theorem Closed.ask {o : SystemOp W.Op} (h : ok o) {f : _ → Command W β} (hf : ∀ x, J β (f x)) :
    J β (SystemCalls.request o >>= f) :=
  hJ.bind (hJ.request h) hf

theorem Closed.orRaise (r : Except ε α) (f : ε → AtvError) : J α (orRaise r f) := by
  cases r with
  | ok a => exact hJ.pure a
  | error e => exact hJ.fail _

theorem Closed.okOrRaise (r : Option α) (e : AtvError) : J α (okOrRaise r e) := by
  cases r with
  | some a => exact hJ.pure a
  | none => exact hJ.fail _

theorem Closed.expect (r : Option α) (text : String) : J α (expect r text) := by
  cases r with
  | some a => exact hJ.pure a
  | none => exact hJ.fail _

theorem Closed.resultOf {p : Command W α} (hp : J α p) : J _ (resultOf p) := by
  apply hJ.bind (hJ.attempt hp)
  intro r
  rcases r with (e | text | _) | a
  · exact hJ.pure _
  · exact hJ.fail _
  · exact hJ.fail _
  · exact hJ.pure _

end Closed

theorem closed_throughout {A : Event (System W) → Prop} :
    Closed W (fun _ p => Throughout A p) (fun o => ∀ x, A ⟨o, x⟩) where
  pure _ := trivial
  fail _ := trivial
  request h x := ⟨h x, trivial⟩
  bind hp hf := hp.bind hf
  attempt hp := hp.attempt

theorem closed_keeps {step : σ → Event (System W) → σ → Prop} {I : σ → Prop} :
    Closed W (fun _ p => ∀ s, I s → Keeps step I p s)
      (fun o => ∀ x s s', I s → step s ⟨o, x⟩ s' → I s') where
  pure _ _ hs := hs
  fail _ _ hs := hs
  request h s hs := ⟨hs, fun x s' hs' => h x s s' hs hs'⟩
  bind hp hf s hs := (hp s hs).bind fun a s' hs' => hf a s' hs'
  attempt hp s hs := (hp s hs).attempt

end AtvRemote.CommandRules
