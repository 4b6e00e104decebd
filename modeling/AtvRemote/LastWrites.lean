import Mathlib.Data.List.Induction

namespace AtvRemote.LastWrites

variable {κ β : Type} {cmp : κ → κ → Ordering} [Std.TransCmp cmp]

def record (m : Std.ExtTreeMap κ β cmp) (p : κ × β) : Std.ExtTreeMap κ β cmp := m.insert p.1 p.2

/-- The last entry with the key. -/
def Last (k : κ) (b : β) (l : List (κ × β)) : Prop :=
  ∃ before after, l = before ++ (k, b) :: after ∧ ∀ p ∈ after, p.1 ≠ k

theorem last_concat {k : κ} {b : β} {l : List (κ × β)} {p : κ × β} :
    Last k b (l ++ [p]) ↔ p = (k, b) ∨ p.1 ≠ k ∧ Last k b l := by
  constructor
  · rintro ⟨before, after, heq, hafter⟩
    rcases List.eq_nil_or_concat after with rfl | ⟨after, q, rfl⟩
    · exact .inl (List.singleton_inj.mp (List.append_inj' heq rfl).2)
    · rw [List.concat_eq_append] at heq hafter
      rw [← List.cons_append, ← List.append_assoc] at heq
      obtain ⟨rfl, hq⟩ := List.append_inj' heq rfl
      obtain rfl := List.singleton_inj.mp hq
      obtain ⟨hafter, hp⟩ := List.forall_mem_append.mp hafter
      exact .inr ⟨hp p (List.mem_singleton_self p), before, after, rfl, hafter⟩
  · rintro (rfl | ⟨hne, before, after, rfl, hafter⟩)
    · exact ⟨l, [], rfl, List.forall_mem_nil _⟩
    · refine ⟨before, after ++ [p], by simp, ?_⟩
      exact List.forall_mem_append.mpr ⟨hafter, by simpa using hne⟩

theorem Last.mem {k : κ} {b : β} {l : List (κ × β)} (h : Last k b l) : (k, b) ∈ l := by
  obtain ⟨before, after, rfl, _⟩ := h
  exact List.mem_append_right _ List.mem_cons_self

variable [Std.LawfulEqCmp cmp]

/-- What is found under a key is what was recorded last. -/
theorem getElem?_foldl_record {k : κ} {b : β} {l : List (κ × β)} :
    (l.foldl record (∅ : Std.ExtTreeMap κ β cmp))[k]? = some b ↔ Last k b l := by
  induction l using List.reverseRecOn with
  | nil =>
      constructor
      · intro h
        simp at h
      · intro h
        cases h.mem
  | append_singleton l p ih =>
      obtain ⟨k', b'⟩ := p
      rw [List.foldl_append, List.foldl_cons, List.foldl_nil, record,
        Std.ExtTreeMap.getElem?_insert, last_concat, ← ih]
      simp only [Std.LawfulEqCmp.compare_eq_iff_eq]
      by_cases hk : k' = k
      · simp [hk]
      · simp [hk]

end AtvRemote.LastWrites
