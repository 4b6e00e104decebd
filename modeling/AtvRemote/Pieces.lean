import Mathlib.Data.List.Forall2

namespace AtvRemote.Pieces

variable {α β : Type} {sep sep' : α → Prop} {piece piece' : List α → β → Prop}
  {xs ys : List α} {bs : List β}

/-- Pieces that stand for the values, with a separator between any two. -/
inductive Joined (sep : α → Prop) (piece : List α → β → Prop) : List α → List β → Prop
  | last {xs : List α} {b : β} (h : piece xs b) : Joined sep piece xs [b]
  | cons {xs rest : List α} {x : α} {b : β} {bs : List β} (h : piece xs b) (hx : sep x)
      (hrest : Joined sep piece rest bs) :
      Joined sep piece (xs ++ x :: rest) (b :: bs)

theorem Joined.imp (h : Joined sep piece xs bs) (hsep : ∀ x ∈ xs, sep x → sep' x)
    (hpiece : ∀ ys b, ys ⊆ xs → piece ys b → piece' ys b) : Joined sep' piece' xs bs := by
  induction h with
  | last h => exact .last (hpiece _ _ (List.Subset.refl _) h)
  | cons h hx _ ih =>
      have hrest :=
        ih (fun x hmem => hsep x (List.mem_append_right _ (List.mem_cons_of_mem _ hmem)))
        (fun ys b hsub => hpiece ys b (List.Subset.trans hsub fun x hmem => List.mem_append_right _
          (List.mem_cons_of_mem _ hmem)))
      exact .cons (hpiece _ _ (List.subset_append_left _ _) h)
        (hsep _ (List.mem_append_right _ List.mem_cons_self) hx) hrest

theorem Joined.mem (h : Joined sep piece xs bs) {x : α} (hmem : x ∈ xs) :
    sep x ∨ ∃ ys b, piece ys b ∧ x ∈ ys := by
  induction h with
  | last h => exact .inr ⟨_, _, h, hmem⟩
  | cons h hx _ ih =>
      rcases List.mem_append.mp hmem with hmem | hmem
      · exact .inr ⟨_, _, h, hmem⟩
      · rcases List.mem_cons.mp hmem with rfl | hmem
        · exact .inl hx
        · exact ih hmem

/-- Splitting finds the pieces again. -/
theorem joined_iff_splitOnP {p : α → Bool} (hpiece : ∀ ys b, piece ys b → ∀ y ∈ ys, p y = false) :
    Joined (fun x => p x = true) piece xs bs ↔ List.Forall₂ piece (xs.splitOnP p) bs := by
  constructor
  · intro h
    induction h with
    | last h =>
        rw [List.splitOnP_eq_singleton (hpiece _ _ h)]
        exact .cons h .nil
    | cons h hx _ ih =>
        rw [List.splitOnP_append_cons_of_forall_mem (hpiece _ _ h) _ hx]
        exact .cons h ih
  · generalize hlength : xs.length = n
    induction n using Nat.strongRecOn generalizing xs bs with
    | ind n ih =>
        intro h
        by_cases hsep : ∀ x ∈ xs, p x = false
        · rw [List.splitOnP_eq_singleton hsep] at h
          obtain ⟨b, _, hb, hnil, rfl⟩ := List.forall₂_cons_left_iff.mp h
          obtain rfl := List.forall₂_nil_left_iff.mp hnil
          exact .last hb
        · have hsome : ∃ x ∈ xs, p x = true := by simpa using hsep
          obtain ⟨x, hfind⟩ := Option.isSome_iff_exists.mp (List.find?_isSome.mpr hsome)
          obtain ⟨hx, ys, rest, rfl, hys⟩ := List.find?_eq_some_iff_append.mp hfind
          have hys : ∀ y ∈ ys, p y = false := fun y hy => by simpa using hys y hy
          rw [List.splitOnP_append_cons_of_forall_mem hys _ hx] at h
          obtain ⟨b, bs, hb, hbs, rfl⟩ := List.forall₂_cons_left_iff.mp h
          rw [List.length_append, List.length_cons] at hlength
          exact .cons hb hx (ih rest.length (by omega) rfl hbs)

/-- Texts of the same values agree piece by piece and in where they are split. -/
theorem Joined.related {R : α → α → Prop} (hsep : ∀ x y, sep x → sep y → R x y)
    (hpiece : ∀ us vs b, piece us b → piece vs b → List.Forall₂ R us vs)
    (hxs : Joined sep piece xs bs)
    (hys : Joined sep piece ys bs) : List.Forall₂ R xs ys := by
  induction hxs generalizing ys with
  | last h =>
      cases hys with
      | last h' => exact hpiece _ _ _ h h'
      | cons _ _ hrest => cases hrest
  | cons h hx hrest ih =>
      cases hys with
      | last _ => cases hrest
      | cons h' hy hrest' =>
          exact List.rel_append (hpiece _ _ _ h h') (.cons (hsep _ _ hx hy) (ih hrest'))

theorem Joined.transfer {R : α → α → Prop} (hsep : ∀ x y, R x y → sep x → sep y)
    (hpiece : ∀ us vs b, List.Forall₂ R us vs → piece us b → piece vs b)
    (hxs : Joined sep piece xs bs)
    (h : List.Forall₂ R xs ys) : Joined sep piece ys bs := by
  induction hxs generalizing ys with
  | last hb => exact .last (hpiece _ _ _ h hb)
  | @cons us _ _ _ _ hb hx _ ih =>
      have hus := (List.forall₂_take_append _ _ _ h.flip).flip
      obtain ⟨y, rest, hy, hrest, hdrop⟩ :=
        List.forall₂_cons_left_iff.mp (List.forall₂_drop_append _ _ _ h.flip).flip
      rw [← List.take_append_drop us.length ys, hdrop]
      exact .cons (hpiece _ _ _ hus hb) (hsep _ _ hy hx) (ih hrest)

theorem mem_intercalate {x y : α} {parts : List (List α)} (h : y ∈ [x].intercalate parts) :
    y = x ∨ ∃ part ∈ parts, y ∈ part := by
  induction parts with
  | nil => cases h
  | cons part parts ih =>
      cases parts with
      | nil =>
          rw [List.intercalate_singleton] at h
          exact .inr ⟨part, List.mem_cons_self, h⟩
      | cons next parts =>
          rw [List.intercalate_cons_cons] at h
          rcases List.mem_append.mp h with h | h
          · rcases List.mem_append.mp h with h | h
            · exact .inr ⟨part, List.mem_cons_self, h⟩
            · exact .inl (List.mem_singleton.mp h)
          · rcases ih h with rfl | ⟨part', hmem, h⟩
            · exact .inl rfl
            · exact .inr ⟨part', List.mem_cons_of_mem _ hmem, h⟩

theorem not_mem_intercalate {x y : α} {parts : List (List α)} (hne : y ≠ x)
    (h : ∀ part ∈ parts, y ∉ part) :
    y ∉ [x].intercalate parts := by
  intro hmem
  rcases mem_intercalate hmem with heq | ⟨part, hpart, hmem⟩
  · exact hne heq
  · exact h part hpart hmem

theorem first_separator_unique {x : α} {xs' ys' : List α} (h : x ∉ xs) (h' : x ∉ xs')
    (heq : xs ++ x :: ys = xs' ++ x :: ys') :
    xs = xs' ∧ ys = ys' := by
  induction xs generalizing xs' with
  | nil =>
      cases xs' with
      | nil => exact ⟨rfl, (List.cons.inj heq).2⟩
      | cons y xs' =>
          obtain ⟨rfl, _⟩ := List.cons.inj heq
          exact absurd List.mem_cons_self h'
  | cons y xs ih =>
      cases xs' with
      | nil =>
          obtain ⟨rfl, _⟩ := List.cons.inj heq
          exact absurd List.mem_cons_self h
      | cons y' xs' =>
          obtain ⟨rfl, htail⟩ := List.cons.inj heq
          obtain ⟨rfl, rfl⟩ :=
            ih (fun hmem => h (List.mem_cons_of_mem _ hmem))
              (fun hmem => h' (List.mem_cons_of_mem _ hmem)) htail
          exact ⟨rfl, rfl⟩

theorem last_separator_unique {x : α} {xs' ys' : List α} (h : x ∉ ys) (h' : x ∉ ys')
    (heq : xs ++ x :: ys = xs' ++ x :: ys') :
    xs = xs' ∧ ys = ys' := by
  have hreverse := congrArg List.reverse heq
  simp only [List.reverse_append, List.reverse_cons, List.append_assoc, List.singleton_append]
    at hreverse
  obtain ⟨hys, hxs⟩ :=
    first_separator_unique (mt List.mem_reverse.mp h) (mt List.mem_reverse.mp h') hreverse
  exact ⟨List.reverse_inj.mp hxs, List.reverse_inj.mp hys⟩

end AtvRemote.Pieces
