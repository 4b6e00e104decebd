import AtvRemote.Contracts

namespace AtvRemote.Translations

open Programs Contracts

variable {S T : Signature} {ε α β σ τ : Type} {f : (o : S.Op) → Program T ε (S.Answer o)}

theorem bind_assoc {γ : Type} (p : Program S ε α) (g : α → Program S ε β) (h : β → Program S ε γ) :
    (p.bind g).bind h = p.bind (fun a => (g a).bind h) := by
  induction p with
  | ret a => rfl
  | fail e => rfl
  | call o k ih => simp only [Program.bind, ih]

theorem translate_bind (p : Program S ε α) (g : α → Program S ε β) :
    (p >>= g).translate f = p.translate f >>= fun a => (g a).translate f := by
  change (p.bind g).translate f = (p.translate f).bind (fun a => (g a).translate f)
  induction p with
  | ret a => rfl
  | fail e => rfl
  | call o k ih => simp only [Program.bind, Program.translate, ih, bind_assoc]

/-- A trace of a translated program, cut into the parts that stand for the
events of the program itself. -/
inductive Realizes (f : (o : S.Op) → Program T ε (S.Answer o)) : Trace S → Trace T → Prop
  | nil : Realizes f [] []
  | cons {o : S.Op} {x : S.Answer o} {t : Trace S} {u v : Trace T} :
      Run (f o) u (.ok x) → Realizes f t v → Realizes f (⟨o, x⟩ :: t) (u ++ v)

/-- Every run of a translated program comes from a run of the program itself. -/
theorem run_translate {p : Program S ε α} (hf : ∀ o u e, ¬Run (f o) u (.error e)) {v : Trace T}
    {r : Except ε α} (h : Run (p.translate f) v r) : ∃ t, Run p t r ∧ Realizes f t v := by
  induction p generalizing v with
  | ret a =>
      obtain ⟨rfl, rfl⟩ := run_ret.mp h
      exact ⟨[], .ret a, .nil⟩
  | fail e =>
      obtain ⟨rfl, rfl⟩ := run_fail.mp h
      exact ⟨[], .fail e, .nil⟩
  | call o k ih =>
      have h : Run (f o >>= fun x => (k x).translate f) v r := h
      rcases run_bind.mp h with ⟨x, u, w, rfl, hu, hw⟩ | ⟨e, he, _⟩
      · obtain ⟨t, ht, hreal⟩ := ih x hw
        exact ⟨⟨o, x⟩ :: t, .call ht, .cons hu hreal⟩
      · exact absurd he (hf o v e)

theorem Realizes.append {t t' : Trace S} {u u' : Trace T} (h : Realizes f t u)
    (h' : Realizes f t' u') :
    Realizes f (t ++ t') (u ++ u') := by
  induction h with
  | nil => exact h'
  | cons hrun _ ih =>
      rw [List.cons_append, List.append_assoc]
      exact .cons hrun ih

theorem Realizes.split {t t' : Trace S} {v : Trace T} (h : Realizes f (t ++ t') v) :
    ∃ u u', v = u ++ u' ∧ Realizes f t u ∧ Realizes f t' u' := by
  induction t generalizing v with
  | nil => exact ⟨[], v, rfl, .nil, h⟩
  | cons e t ih =>
      cases h with
      | @cons o x _ u v hrun hrest =>
          obtain ⟨w, w', rfl, hw, hw'⟩ := ih hrest
          exact ⟨u ++ w, w', (List.append_assoc _ _ _).symm, .cons hrun hw, hw'⟩

theorem Realizes.all {A : Event T → Prop} {t : Trace S} {v : Trace T} (h : Realizes f t v)
    (hf : ∀ e ∈ t, ∀ u, Run (f e.1) u (.ok e.2) → ∀ e' ∈ u, A e') : ∀ e' ∈ v, A e' := by
  induction h with
  | nil => exact fun e' he' => by cases he'
  | @cons o x t u v hrun _ ih =>
      intro e' he'
      rcases List.mem_append.mp he' with hu | hv
      · exact hf ⟨o, x⟩ List.mem_cons_self u hrun e' hu
      · exact ih (fun e he => hf e (List.mem_cons_of_mem _ he)) e' hv

/-- Forward simulation: if every translated operation moves the lower
surroundings as the operation moves the upper ones, so does a whole trace. -/
theorem Realizes.simulates {step : σ → Event T → σ → Prop} {step' : τ → Event S → τ → Prop}
    {R : σ → τ → Prop}
    (hf : ∀ o u x s s' a, R s a → Run (f o) u (.ok x) → Path step s u s' → ∃ a', step' a
      ⟨o, x⟩ a' ∧ R s' a')
    {t : Trace S} {v : Trace T} (h : Realizes f t v) {s s' : σ} {a : τ} (hR : R s a)
    (hpath : Path step s v s') : ∃ a', Path step' a t a' ∧ R s' a' := by
  induction h generalizing s a with
  | nil =>
      obtain rfl := path_nil.mp hpath
      exact ⟨a, .nil a, hR⟩
  | @cons o x t u v hrun _ ih =>
      obtain ⟨s₁, hu, hv⟩ := path_append.mp hpath
      obtain ⟨a₁, hstep, hR₁⟩ := hf o u x s s₁ a hR hrun hu
      obtain ⟨a', hrest, hR'⟩ := ih hR₁ hv
      exact ⟨a', .cons hstep hrest, hR'⟩

theorem Meets.translated {step : σ → Event T → σ → Prop} {step' : τ → Event S → τ → Prop}
    {R : σ → τ → Prop} {p : Program S ε α} {Q : Except ε α → τ → Prop}
    (hfail : ∀ o u e, ¬Run (f o) u (.error e))
    (hf : ∀ o s a, R s a → Meets step (f o) s
      (fun r s' => ∀ x, r = .ok x → ∃ a', step' a ⟨o, x⟩ a' ∧ R s' a'))
    {s : σ} {a : τ} (hR : R s a) (hp : Meets step' p a Q) :
    Meets step (p.translate f) s (fun r s' => ∃ a', R s' a' ∧ Q r a') := by
  intro v r hv s' hpath
  obtain ⟨t, ht, hreal⟩ := run_translate hfail hv
  have hsteps : ∀ o u x s s' a, R s a → Run (f o) u (.ok x) → Path step s u s' → ∃ a', step' a
      ⟨o, x⟩ a' ∧ R s' a' :=
    fun o u x s s' a hs hu hpath => hf o s a hs u _ hu s' hpath x rfl
  obtain ⟨a', hpath', hR'⟩ := hreal.simulates hsteps hR hpath
  exact ⟨a', hR', hp t r ht a' hpath'⟩

end AtvRemote.Translations
