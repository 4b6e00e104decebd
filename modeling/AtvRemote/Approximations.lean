import AtvRemote.Programs

namespace AtvRemote.Approximations

open Programs

variable {S T : Signature} {ε ε' α β : Type}

/-- The weight of a trace, as the sum of those of its events. -/
def weight (w : Event S → Nat) : Trace S → Nat
  | [] => 0
  | e :: t => w e + weight w t

/-- Two programs that cannot be told apart before events of so much weight
have passed, and that do not stop with `spent` before that. -/
inductive Agree (w : Event S → Nat) (spent : ε) : Nat → Program S ε α → Program S ε α → Prop
  | past (p q : Program S ε α) : Agree w spent 0 p q
  | ret (n : Nat) (a : α) : Agree w spent n (.ret a) (.ret a)
  | fail (n : Nat) {e : ε} (he : e ≠ spent) : Agree w spent n (.fail e) (.fail e)
  | call {n : Nat} {o : S.Op} {k k' : S.Answer o → Program S ε α}
      (h : ∀ x, Agree w spent (n - w ⟨o, x⟩) (k x) (k' x)) :
      Agree w spent n (.call o k) (.call o k')

section Agree

variable {w : Event S → Nat} {spent : ε} {n m : Nat} {p q : Program S ε α}

theorem Agree.mono (h : Agree w spent n p q) (hm : m ≤ n) : Agree w spent m p q := by
  induction h generalizing m with
  | past p q =>
      obtain rfl := Nat.le_zero.mp hm
      exact .past p q
  | ret n a => exact .ret m a
  | fail n he => exact .fail m he
  | call _ ih => exact .call fun x => ih x (Nat.sub_le_sub_right hm _)

theorem Agree.bind {f g : α → Program S ε β} (h : Agree w spent n p q)
    (hf : ∀ a, Agree w spent n (f a) (g a)) :
    Agree w spent n (p >>= f) (q >>= g) := by
  change Agree w spent n (p.bind f) (q.bind g)
  induction h with
  | past p q => exact .past _ _
  | ret n a => exact hf a
  | fail n he => exact .fail n he
  | call _ ih => exact .call fun x => ih x fun a => (hf a).mono (Nat.sub_le _ _)

theorem Agree.attempt {spent' : ε'} {f g : Except ε α → Program S ε' β} (h : Agree w spent n p q)
    (hf : ∀ r, r ≠ .error spent → Agree w spent' n (f r) (g r)) :
    Agree w spent' n (p.attempt >>= f) (q.attempt >>= g) := by
  change Agree w spent' n (p.attempt.bind f) (q.attempt.bind g)
  induction h with
  | past p q => exact .past _ _
  | ret n a => exact hf (.ok a) (by simp)
  | fail n he => exact hf (.error _) (by simpa using he)
  | call _ ih => exact .call fun x => ih x fun r hr => (hf r hr).mono (Nat.sub_le _ _)

/-- An operation agrees with itself, and what follows it must agree then. -/
def Single (w : Event S → Nat) (v : Event T → Nat) (spent : ε) (o : S.Op)
    (p : Program T ε (S.Answer o)) : Prop :=
  ∀ {β : Type} {n : Nat} {f g : S.Answer o → Program T ε β},
    (∀ x, Agree v spent (n - w ⟨o, x⟩) (f x) (g x)) →
    Agree v spent n (p.bind f) (p.bind g)

theorem Agree.translate {v : Event T → Nat} {f : (o : S.Op) → Program T ε (S.Answer o)}
    (hf : ∀ o, Single w v spent o (f o))
    (h : Agree w spent n p q) : Agree v spent n (p.translate f) (q.translate f) := by
  induction h with
  | past p q => exact .past _ _
  | ret n a => exact .ret n a
  | fail n he => exact .fail n he
  | call _ ih => exact hf _ ih

theorem Agree.run (h : Agree w spent n p q) {t : Trace S} {r : Except ε α}
    (hweight : weight w t < n) :
    (Run p t r ↔ Run q t r) ∧ (Run p t r → r ≠ .error spent) := by
  induction h generalizing t with
  | past p q => exact absurd hweight (Nat.not_lt_zero _)
  | ret n a =>
      refine ⟨Iff.rfl, fun hrun => ?_⟩
      obtain ⟨_, rfl⟩ := run_ret.mp hrun
      simp
  | fail n he =>
      refine ⟨Iff.rfl, fun hrun => ?_⟩
      obtain ⟨_, rfl⟩ := run_fail.mp hrun
      simpa using he
  | @call n o k k' h ih =>
      have hnext (x : S.Answer o) {u : Trace S} (heq : t = ⟨o, x⟩ :: u) :
          weight w u < n - w ⟨o, x⟩ := by
        rw [heq, weight] at hweight
        exact Nat.lt_sub_iff_add_lt'.mpr hweight
      simp only [run_call]
      constructor
      · constructor
        · rintro ⟨x, u, heq, hu⟩
          exact ⟨x, u, heq, (ih x (hnext x heq)).1.mp hu⟩
        · rintro ⟨x, u, heq, hu⟩
          exact ⟨x, u, heq, (ih x (hnext x heq)).1.mpr hu⟩
      · rintro ⟨x, u, heq, hu⟩
        exact (ih x (hnext x heq)).2 hu

end Agree

end AtvRemote.Approximations
