import AtvRemote.Contracts
import Mathlib.Logic.Relation

namespace AtvRemote.Interleavings

open Programs Contracts

variable {S : Signature} {ε α σ ι κ : Type} {step : σ → ι ⊕ κ → σ → Prop} {s s' s'' : σ}

def right (is : List (ι ⊕ κ)) : List κ := is.filterMap Sum.getRight?

def Moves (step : σ → ι ⊕ κ → σ → Prop) : σ → σ → Prop :=
  Relation.ReflTransGen (fun s s' => ∃ i, step s (.inl i) s')

/-- The second party moves once, after the first has moved as it likes. -/
def Turn (step : σ → ι ⊕ κ → σ → Prop) (s : σ) (k : κ) (s' : σ) : Prop :=
  ∃ u, Moves step s u ∧ step u (.inr k) s'

theorem Moves.invariant {I : σ → Prop} (h : Moves step s s')
    (hstep : ∀ s i s', I s → step s (.inl i) s' → I s') (hs : I s) : I s' := by
  induction h with
  | refl => exact hs
  | tail _ hmove ih =>
      obtain ⟨i, hi⟩ := hmove
      exact hstep _ i _ ih hi

theorem Turn.head {k : κ} {i : ι} (hi : step s (.inl i) s') (h : Turn step s' k s'') :
    Turn step s k s'' := by
  obtain ⟨u, hu, hk⟩ := h
  exact ⟨u, .head ⟨i, hi⟩ hu, hk⟩

/-- An interleaving is a path of the second party's turns, and moves of the
first party after the last of them. -/
theorem path_right {is : List (ι ⊕ κ)} (h : Path step s is s') :
    ∃ u, Path (Turn step) s (right is) u ∧ Moves step u s' := by
  induction h with
  | nil s => exact ⟨s, .nil s, .refl⟩
  | @cons s s₁ s₂ i is hi _ ih =>
      obtain ⟨u, hu, hmoves⟩ := ih
      cases i with
      | inr k => exact ⟨u, .cons ⟨s, .refl, hi⟩ hu, hmoves⟩
      | inl j =>
          change ∃ v, Path (Turn step) s (right is) v ∧ Moves step v s₂
          generalize right is = ks at hu
          cases hu with
          | nil => exact ⟨s, .nil s, .head ⟨j, hi⟩ hmoves⟩
          | cons hk hks => exact ⟨u, .cons (hk.head hi) hks, hmoves⟩

/-- What a program ensures among surroundings that move between its events
holds of every interleaving. -/
theorem Meets.interleaved {step : σ → ι ⊕ Event S → σ → Prop} {p : Program S ε α}
    {Q : Except ε α → σ → Prop} (hp : Meets (Turn step) p s Q)
    (hQ : ∀ r s i s', Q r s → step s (.inl i) s' → Q r s') {is : List (ι ⊕ Event S)}
    {r : Except ε α} (hrun : Run p (right is) r) (hpath : Path step s is s') : Q r s' := by
  obtain ⟨u, hu, hmoves⟩ := path_right hpath
  exact hmoves.invariant (hQ r) (hp _ r hrun u hu)

end AtvRemote.Interleavings
