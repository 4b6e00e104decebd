import AtvRemote.Programs

namespace AtvRemote.Rounds

open Programs

variable {S : Signature} {ε α σ : Type}

/-- How a program ends in concrete surroundings. -/
def outcome (h : (o : S.Op) → σ → S.Answer o × σ) (p : Program S ε α) (s : σ) : Except ε α :=
  (p.exec h s).2.1

@[simp] theorem outcome_ret (h : (o : S.Op) → σ → S.Answer o × σ) (a : α) (s : σ) :
    outcome h (.ret a : Program S ε α) s = .ok a := rfl

@[simp] theorem outcome_fail (h : (o : S.Op) → σ → S.Answer o × σ) (e : ε) (s : σ) :
    outcome h (.fail e : Program S ε α) s = .error e := rfl

/-- A loop whose rounds are driven from outside: `stuck fuel n s` says that the
fuel is used up when the loop is in state `s` before round `n`. -/
structure Driven (stuck : Nat → Nat → σ → Prop) (I : σ → Prop) (goesOn : Nat → Prop) : Prop where
  empty : ∀ n s, stuck 0 n s
  on : ∀ n s, I s → goesOn n → ∃ s', I s' ∧ ∀ fuel, stuck (fuel + 1) n s ↔ stuck fuel (n + 1) s'
  off : ∀ n s, I s → ¬goesOn n → ∃ fuel, ¬stuck fuel n s

section Driven

variable {stuck : Nat → Nat → σ → Prop} {I : σ → Prop} {goesOn : Nat → Prop} {n : Nat} {s : σ}

theorem Driven.stuck_of_goesOn (h : Driven stuck I goesOn) (hs : I s)
    (hon : ∀ i, goesOn (n + i)) (fuel : Nat) :
    stuck fuel n s := by
  induction fuel generalizing n s with
  | zero => exact h.empty n s
  | succ fuel ih =>
      obtain ⟨s', hs', hround⟩ := h.on n s hs (hon 0)
      apply (hround fuel).mpr
      apply ih hs'
      intro i
      have hnext := hon (i + 1)
      rwa [Nat.add_comm i 1, ← Nat.add_assoc] at hnext

theorem Driven.exits (h : Driven stuck I goesOn) (hs : I s) {i : Nat} (hi : ¬goesOn (n + i)) :
    ∃ fuel, ¬stuck fuel n s := by
  induction i generalizing n s with
  | zero => exact h.off n s hs hi
  | succ i ih =>
      by_cases hn : goesOn n
      · obtain ⟨s', hs', hround⟩ := h.on n s hs hn
        rw [Nat.add_comm i 1, ← Nat.add_assoc] at hi
        obtain ⟨fuel, hfuel⟩ := ih hs' hi
        exact ⟨fuel + 1, fun hstuck => hfuel ((hround fuel).mp hstuck)⟩
      · exact h.off n s hs hn

/-- The loop is left after some number of rounds exactly if some round does
not go on. -/
theorem Driven.exits_iff (h : Driven stuck I goesOn) (hs : I s) :
    (∃ fuel, ¬stuck fuel n s) ↔ ∃ i, ¬goesOn (n + i) := by
  constructor
  · rintro ⟨fuel, hfuel⟩
    by_contra hnone
    exact hfuel (h.stuck_of_goesOn hs (fun i => Classical.not_not.mp fun hi => hnone ⟨i, hi⟩) fuel)
  · rintro ⟨i, hi⟩
    exact h.exits hs hi

end Driven

end AtvRemote.Rounds
