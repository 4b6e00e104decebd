import AtvRemote.Contracts

namespace AtvRemote.Guards

open Programs Contracts

variable {S : Signature} {ε α σ : Type} {step guard : σ → Event S → σ → Prop} {A : Event S → Prop}
  {p : Program S ε α} {s s' : σ} {t : Trace S} {r : Except ε α} {Q : Except ε α → σ → Prop}

def Guarded (step guard : σ → Event S → σ → Prop) (s : σ) (e : Event S) (s' : σ) : Prop :=
  step s e s' ∧ guard s e s'

/-- The steps as they are, next to whether all of them have met the guard. -/
def Watched (step guard : σ → Event S → σ → Prop) (s : σ × Prop) (e : Event S) (s' : σ × Prop) :
    Prop :=
  step s.1 e s'.1 ∧ s'.2 = (s.2 ∧ guard s.1 e s'.1)

theorem watched_of_path (guard : σ → Event S → σ → Prop) (h : Path step s t s') (c : Prop) :
    ∃ c', Path (Watched step guard) (s, c) t (s', c') ∧
      (c' → c ∧ Path (Guarded step guard) s t s') := by
  induction h generalizing c with
  | nil s => exact ⟨c, .nil _, fun hc => ⟨hc, .nil s⟩⟩
  | @cons s s₁ s' e t hstep _ ih =>
      obtain ⟨c', hpath, hc'⟩ := ih (c ∧ guard s e s₁)
      refine ⟨c', .cons ⟨hstep, rfl⟩ hpath, fun h => ?_⟩
      obtain ⟨⟨hc, hguard⟩, hrest⟩ := hc' h
      exact ⟨hc, .cons ⟨hstep, hguard⟩ hrest⟩

theorem watched_of_guarded (h : Path (Guarded step guard) s t s') :
    Path (Watched step guard) (s, True) t (s', True) := by
  induction h with
  | nil s => exact .nil _
  | cons hstep _ ih => exact .cons ⟨hstep.1, by simp [hstep.2]⟩ ih

/-- If watching a program tells exactly when its outcome is as described, then
the guarded paths are those with this outcome. -/
theorem guarded_iff (hp : Meets (Watched step guard) p (s, True) (fun r s' => s'.2 ↔ Q r s'.1))
    (hrun : Run p t r) (hpath : Path step s t s') : Path (Guarded step guard) s t s' ↔ Q r s' := by
  constructor
  · intro h
    exact (hp t r hrun _ (watched_of_guarded h)).mp trivial
  · intro hQ
    obtain ⟨c', hwatched, hc'⟩ := watched_of_path guard hpath True
    exact (hc' ((hp t r hrun _ hwatched).mpr hQ)).2

theorem watched_call {o : S.Op} {k : S.Answer o → Program S ε α} {Q : Except ε α → σ × Prop → Prop}
    (h : ∀ x s', step s ⟨o, x⟩ s' → Meets (Watched step guard) (k x) (s', guard s ⟨o, x⟩ s') Q) :
    Meets (Watched step guard) (.call o k) (s, True) Q := by
  refine meets_call.mpr ?_
  rintro x ⟨s', c'⟩ ⟨hstep, hc'⟩
  obtain rfl : c' = guard s ⟨o, x⟩ s' := hc'.trans (true_and _)
  exact h x s' hstep

/-- Events that meet the guard in any case need not be watched. -/
theorem Meets.watched (hp : Meets step p s Q) (hA : Throughout A p)
    (hguard : ∀ s e s', A e → guard s e s') :
    Meets (Watched step guard) p (s, True) (fun r s' => Q r s'.1 ∧ s'.2 = True) := by
  induction p generalizing s with
  | ret a => exact meets_ret.mpr ⟨meets_ret.mp hp, rfl⟩
  | fail e => exact meets_fail.mpr ⟨meets_fail.mp hp, rfl⟩
  | call o k ih =>
      refine watched_call fun x s' hstep => ?_
      obtain ⟨he, hrest⟩ := hA x
      rw [eq_true (hguard s ⟨o, x⟩ s' he)]
      exact ih x (meets_call.mp hp x s' hstep) hrest

end AtvRemote.Guards
