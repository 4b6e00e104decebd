import AtvRemote.Contracts

namespace AtvRemote.Histories

open Programs Contracts

variable {S : Signature} {ε α : Type}

/-- Every event of the history is admitted by the part before it. -/
def Along (A : Trace S → Event S → Prop) (t : Trace S) : Prop :=
  ∀ u e v, t = u ++ e :: v → A u e

section Along

variable {A : Trace S → Event S → Prop} {t : Trace S} {e : Event S}

theorem along_nil : Along A [] := by
  intro u e v h
  exact absurd h (by simp)

theorem Along.concat (h : Along A t) (he : A t e) : Along A (t ++ [e]) := by
  intro u e' v heq
  rcases List.eq_nil_or_concat v with rfl | ⟨v, last, rfl⟩
  · obtain ⟨rfl, hlast⟩ := List.append_inj' heq rfl
    obtain rfl := List.singleton_inj.mp hlast
    exact he
  · rw [List.concat_eq_append, ← List.cons_append, ← List.append_assoc] at heq
    obtain ⟨rfl, -⟩ := List.append_inj' heq rfl
    exact h u e' v rfl

theorem Along.append {t' : Trace S} (h : Along A t) (ht' : ∀ e ∈ t', ∀ u, A u e) :
    Along A (t ++ t') := by
  intro u e v heq
  rcases List.append_eq_append_iff.mp heq with ⟨w, rfl, hw⟩ | ⟨w, hw, hv⟩
  · exact ht' e (hw ▸ List.mem_append_right _ List.mem_cons_self) _
  · cases w with
    | nil =>
        obtain rfl : e :: v = t' := hv
        exact ht' e List.mem_cons_self u
    | cons e' w =>
        obtain ⟨rfl, _⟩ := List.cons.inj hv
        exact h u e w hw

theorem along_of_forall (h : ∀ e ∈ t, ∀ u, A u e) : Along A t := along_nil.append h

theorem Along.left {t' : Trace S} (h : Along A (t ++ t')) : Along A t := by
  rintro u e v rfl
  apply h u e (v ++ t')
  simp

theorem Along.map {T : Signature} {B : Trace T → Event T → Prop}
    {g : Event S → Event T} (h : Along A t)
    (hAB : ∀ u e, A u e → B (u.map g) (g e)) : Along B (t.map g) := by
  intro u e v heq
  obtain ⟨u', v', rfl, rfl, hv⟩ := List.map_eq_append_iff.mp heq
  obtain ⟨e', w, rfl, rfl, rfl⟩ := List.map_eq_cons_iff.mp hv
  exact hAB u' e' (h u' e' w rfl)

end Along

/-- `z` is the part of the history after its latest event of a certain kind,
which is `e`. -/
def Since (p : Event S → Prop) (t : Trace S) (e : Event S) (z : Trace S) : Prop :=
  p e ∧ (∀ e' ∈ z, ¬p e') ∧ ∃ w, t = w ++ e :: z

section Since

variable {p : Event S → Prop} {t z : Trace S} {e e' : Event S}

theorem since_concat (he : p e) : Since p (t ++ [e]) e [] :=
  ⟨he, List.forall_mem_nil _, t, rfl⟩

theorem Since.concat (h : Since p t e z) (he' : ¬p e') : Since p (t ++ [e']) e (z ++ [e']) := by
  obtain ⟨he, hz, w, rfl⟩ := h
  refine ⟨he, ?_, w, by simp⟩
  intro e'' hmem
  rcases List.mem_append.mp hmem with hmem | hmem
  · exact hz e'' hmem
  · obtain rfl := List.mem_singleton.mp hmem
    exact he'

end Since

/-- The history as a state that every event extends. -/
def Recorded (t : Trace S) (e : Event S) (t' : Trace S) : Prop := t' = t ++ [e]

theorem path_recorded {t t' : Trace S} {u : Trace S} : Path Recorded t u t' ↔ t' = t ++ u := by
  induction u generalizing t with
  | nil => simp
  | cons e u ih => simp [path_cons, Recorded, ih]

theorem Meets.recorded {p : Program S ε α} {Q : Except ε α → Trace S → Prop}
    (h : Meets Recorded p [] Q)
    {t : Trace S} {r : Except ε α} (hrun : Run p t r) : Q r t :=
  h t r hrun t (path_recorded.mpr rfl)

end AtvRemote.Histories
