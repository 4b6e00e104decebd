import AtvRemote.Programs

namespace AtvRemote.Contracts

open Programs

variable {S : Signature} {ε ε' α β σ τ ι : Type}

def Ensures (p : Program S ε α) (Q : Trace S → Except ε α → Prop) : Prop :=
  ∀ t r, Run p t r → Q t r

section Ensures

variable {p : Program S ε α} {f : α → Program S ε β} {P Q : Trace S → Except ε α → Prop}
  {R : Trace S → Except ε β → Prop}

theorem Ensures.mono (h : Ensures p P) (hPQ : ∀ t r, P t r → Q t r) : Ensures p Q :=
  fun t r hr => hPQ t r (h t r hr)

@[simp] theorem ensures_ret {a : α} : Ensures (.ret a) Q ↔ Q [] (.ok a) := by
  simp [Ensures]

@[simp] theorem ensures_pure {a : α} : Ensures (pure a) Q ↔ Q [] (.ok a) := by
  simp [Ensures]

@[simp] theorem ensures_fail {e : ε} : Ensures (.fail e) Q ↔ Q [] (.error e) := by
  simp [Ensures]

@[simp] theorem ensures_call {o : S.Op} {k : S.Answer o → Program S ε α} :
    Ensures (.call o k) Q ↔ ∀ x, Ensures (k x) (fun t r => Q (⟨o, x⟩ :: t) r) := by
  simp only [Ensures, run_call]
  constructor
  · intro h x t r ht; exact h _ r ⟨x, t, rfl, ht⟩
  · rintro h _ r ⟨x, t, rfl, ht⟩; exact h x t r ht

/-- The rule for sequences: what the first program ensures must lead to the
postcondition, through the second program or directly after an error. -/
theorem Ensures.bind (hp : Ensures p P)
    (ok : ∀ u a, P u (.ok a) → Ensures (f a) (fun v r => R (u ++ v) r))
    (err : ∀ u e, P u (.error e) → R u (.error e)) : Ensures (p >>= f) R := by
  intro t r h
  rcases run_bind.mp h with ⟨a, u, v, rfl, hu, hv⟩ | ⟨e, hu, rfl⟩
  · exact ok u a (hp u _ hu) v r hv
  · exact err t e (hp t _ hu)

end Ensures

def Throughout (A : Event S → Prop) : Program S ε α → Prop
  | .ret _ => True
  | .fail _ => True
  | .call o k => ∀ x, A ⟨o, x⟩ ∧ Throughout A (k x)

section Throughout

variable {A B : Event S → Prop} {p : Program S ε α} {f : α → Program S ε β}

@[simp] theorem throughout_ret {a : α} : Throughout A (.ret a : Program S ε α) := trivial

@[simp] theorem throughout_pure {a : α} : Throughout A (pure a : Program S ε α) := trivial

@[simp] theorem throughout_fail {e : ε} : Throughout A (.fail e : Program S ε α) := trivial

@[simp] theorem throughout_call {o : S.Op} {k : S.Answer o → Program S ε α} :
    Throughout A (.call o k) ↔ ∀ x, A ⟨o, x⟩ ∧ Throughout A (k x) := Iff.rfl

theorem Throughout.bind (hp : Throughout A p) (hf : ∀ a, Throughout A (f a)) :
    Throughout A (p >>= f) := by
  change Throughout A (p.bind f)
  induction p with
  | ret a => exact hf a
  | fail e => trivial
  | call o k ih => exact fun x => ⟨(hp x).1, ih x (hp x).2⟩

theorem Throughout.attempt (hp : Throughout A p) :
    Throughout A (p.attempt : Program S ε' (Except ε α)) := by
  induction p with
  | ret a => trivial
  | fail e => trivial
  | call o k ih => exact fun x => ⟨(hp x).1, ih x (hp x).2⟩

theorem Throughout.mono (h : Throughout A p) (hAB : ∀ e, A e → B e) : Throughout B p := by
  induction p with
  | ret a => trivial
  | fail e => trivial
  | call o k ih => exact fun x => ⟨hAB _ (h x).1, ih x (h x).2⟩

theorem Throughout.ensures (h : Throughout A p) : Ensures p (fun t _ => ∀ e ∈ t, A e) := by
  intro t r hr
  induction hr with
  | ret a => simp
  | fail e => simp
  | call _ ih =>
      intro e he
      rcases List.mem_cons.mp he with rfl | he
      · exact (h _).1
      · exact ih (h _).2 e he

end Throughout

inductive Path (step : σ → ι → σ → Prop) : σ → List ι → σ → Prop
  | nil (s : σ) : Path step s [] s
  | cons {s s' s'' : σ} {i : ι} {is : List ι} :
      step s i s' → Path step s' is s'' → Path step s (i :: is) s''

section Path

variable {step : σ → ι → σ → Prop} {s s' s'' : σ}

@[simp] theorem path_nil : Path step s [] s' ↔ s' = s := by
  constructor
  · rintro ⟨⟩; rfl
  · rintro rfl; exact .nil _

theorem path_cons {i : ι} {is : List ι} :
    Path step s (i :: is) s'' ↔ ∃ s', step s i s' ∧ Path step s' is s'' := by
  constructor
  · rintro ⟨⟩; exact ⟨_, ‹_›, ‹_›⟩
  · rintro ⟨s', h, hs⟩; exact .cons h hs

theorem path_append {is js : List ι} :
    Path step s (is ++ js) s'' ↔ ∃ s', Path step s is s' ∧ Path step s' js s'' := by
  induction is generalizing s with
  | nil => simp
  | cons i is ih =>
      simp only [List.cons_append, path_cons, ih]
      constructor
      · rintro ⟨u, hu, v, hv, h⟩; exact ⟨v, ⟨u, hu, hv⟩, h⟩
      · rintro ⟨v, ⟨u, hu, hv⟩, h⟩; exact ⟨u, hu, v, hv, h⟩

/-- What each step preserves, a path preserves. -/
theorem Path.invariant {I : σ → Prop} {is : List ι} (h : Path step s is s')
    (hstep : ∀ s i s', I s → step s i s' → I s') (hs : I s) : I s' := by
  induction h with
  | nil => exact hs
  | cons hi _ ih => exact ih (hstep _ _ _ hs hi)

theorem path_fold {f : σ → ι → σ} {is : List ι} :
    Path (fun s i s' => s' = f s i) s is s' ↔ s' = is.foldl f s := by
  induction is generalizing s with
  | nil => simp
  | cons i is ih => simp [path_cons, ih]

theorem Path.mono {step' : σ → ι → σ → Prop} {is : List ι} (h : Path step s is s')
    (hstep : ∀ s i s', step s i s' → step' s i s') : Path step' s is s' := by
  induction h with
  | nil s => exact .nil s
  | cons hi _ ih => exact .cons (hstep _ _ _ hi) ih

theorem path_map {κ : Type} {g : κ → ι} {ks : List κ} :
    Path step s (ks.map g) s' ↔ Path (fun s k s' => step s (g k) s') s ks s' := by
  induction ks generalizing s with
  | nil => simp
  | cons k ks ih => simp [path_cons, ih]

theorem Path.unmoved {is : List ι} (h : Path step s is s') (hstep : ∀ i ∈ is, ∀ s s', step s i s' →
      s' = s) : s' = s := by
  induction h with
  | nil => rfl
  | cons hi _ ih =>
      obtain ⟨hfirst, hrest⟩ := List.forall_mem_cons.mp hstep
      rw [ih hrest, hfirst _ _ hi]

theorem path_foldlM {f : σ → ι → Option σ} {is : List ι} :
    Path (fun s i s' => f s i = some s') s is s' ↔ is.foldlM f s = some s' := by
  induction is generalizing s with
  | nil => simp [eq_comm]
  | cons i is ih => simp [path_cons, ih, List.foldlM_cons, Option.bind_eq_some_iff]

theorem path_exec {step : τ → Event S → τ → Prop} {h : (o : S.Op) → σ → S.Answer o × σ} {f : σ → τ}
    (hstep : ∀ o s, step (f s) ⟨o, (h o s).1⟩ (f (h o s).2)) (p : Program S ε α) (s : σ) :
    Path step (f s) (p.exec h s).1 (f (p.exec h s).2.2) := by
  induction p generalizing s with
  | ret a => exact .nil _
  | fail e => exact .nil _
  | call o k ih => exact .cons (hstep o s) (ih _ _)

end Path

/-- Started in `s` among surroundings that move with every event, the program
ends with an outcome and in a state as described. -/
def Meets (step : σ → Event S → σ → Prop) (p : Program S ε α) (s : σ)
    (Q : Except ε α → σ → Prop) : Prop :=
  Ensures p (fun t r => ∀ s', Path step s t s' → Q r s')

section Meets

variable {step : σ → Event S → σ → Prop} {p : Program S ε α} {f : α → Program S ε β} {s : σ}
  {P Q : Except ε α → σ → Prop} {R : Except ε β → σ → Prop}

theorem Meets.mono (h : Meets step p s P) (hPQ : ∀ r s', P r s' → Q r s') : Meets step p s Q :=
  Ensures.mono h fun _ r ht s' hs' => hPQ r s' (ht s' hs')

@[simp] theorem meets_ret {a : α} : Meets step (.ret a) s Q ↔ Q (.ok a) s := by
  simp [Meets]

@[simp] theorem meets_pure {a : α} : Meets step (pure a) s Q ↔ Q (.ok a) s := by
  simp [Meets]

@[simp] theorem meets_fail {e : ε} : Meets step (.fail e) s Q ↔ Q (.error e) s := by
  simp [Meets]

@[simp] theorem meets_call {o : S.Op} {k : S.Answer o → Program S ε α} :
    Meets step (.call o k) s Q ↔ ∀ x s', step s ⟨o, x⟩ s' → Meets step (k x) s' Q := by
  simp only [Meets, ensures_call, path_cons]
  constructor
  · intro h x s' hs' t r ht s'' hs''; exact h x t r ht s'' ⟨s', hs', hs''⟩
  · rintro h x t r ht s'' ⟨s', hs', hs''⟩; exact h x s' hs' t r ht s'' hs''

theorem Meets.bind (hp : Meets step p s P)
    (ok : ∀ a s', P (.ok a) s' → Meets step (f a) s' R)
    (err : ∀ e s', P (.error e) s' → R (.error e) s') : Meets step (p >>= f) s R := by
  refine Ensures.bind hp (fun u a hu v r hv s'' hs'' => ?_)
    (fun u e hu s' hs' => err e s' (hu s' hs'))
  obtain ⟨s', hu', hv'⟩ := path_append.mp hs''
  exact ok a s' (hu s' hu') v r hv s'' hv'

theorem Meets.attempt (h : Meets step p s Q) :
    Meets step (p.attempt : Program S ε' (Except ε α)) s (fun r s' => ∃ q, r = .ok q ∧ Q q s') := by
  intro t r hrun s' hpath
  obtain ⟨q, hq, rfl⟩ := run_attempt.mp hrun
  exact ⟨q, rfl, h t q hq s' hpath⟩

/-- What every event of a certain kind preserves, a program of such events
preserves. -/
theorem Throughout.keeps {A : Event S → Prop} {I : σ → Prop} (h : Throughout A p)
    (hI : ∀ s e s', I s → A e → step s e s' → I s') (hs : I s) :
    Meets step p s (fun _ s' => I s') := by
  induction p generalizing s with
  | ret a => exact meets_ret.mpr hs
  | fail e => exact meets_fail.mpr hs
  | call o k ih =>
      refine meets_call.mpr fun x s' hs' => ?_
      exact ih x (h x).2 (hI s _ s' hs (h x).1 hs')

theorem Throughout.meets {A : Event S → Prop} (h : Throughout A p)
    (hA : ∀ e s', A e → step s e s' → s' = s) : Meets step p s (fun _ s' => s' = s) := by
  refine h.keeps (I := fun s' => s' = s) ?_ rfl
  rintro _ e s' rfl he hs'
  exact hA e s' he hs'

end Meets

/-- The invariant holds all along a program that is started in `s`, so that it
may be stopped from outside at any moment. -/
def Keeps (step : σ → Event S → σ → Prop) (I : σ → Prop) : Program S ε α → σ → Prop
  | .ret _, s | .fail _, s => I s
  | .call o k, s => I s ∧ ∀ x s', step s ⟨o, x⟩ s' → Keeps step I (k x) s'

section Keeps

variable {step : σ → Event S → σ → Prop} {I J : σ → Prop} {p : Program S ε α}
  {f : α → Program S ε β} {s s' : σ}

@[simp] theorem keeps_ret {a : α} : Keeps step I (.ret a : Program S ε α) s ↔ I s := Iff.rfl

@[simp] theorem keeps_pure {a : α} : Keeps step I (pure a : Program S ε α) s ↔ I s := Iff.rfl

@[simp] theorem keeps_fail {e : ε} : Keeps step I (.fail e : Program S ε α) s ↔ I s := Iff.rfl

theorem Keeps.bind (hp : Keeps step I p s) (hf : ∀ a s', I s' → Keeps step I (f a) s') :
    Keeps step I (p >>= f) s := by
  change Keeps step I (p.bind f) s
  induction p generalizing s with
  | ret a => exact hf a s hp
  | fail e => exact hp
  | call o k ih => exact ⟨hp.1, fun x s' hs' => ih x (hp.2 x s' hs')⟩

theorem Keeps.attempt (hp : Keeps step I p s) :
    Keeps step I (p.attempt : Program S ε' (Except ε α)) s := by
  induction p generalizing s with
  | ret a => exact hp
  | fail e => exact hp
  | call o k ih => exact ⟨hp.1, fun x s' hs' => ih x (hp.2 x s' hs')⟩

theorem Keeps.mono (hp : Keeps step I p s) (hIJ : ∀ s, I s → J s) : Keeps step J p s := by
  induction p generalizing s with
  | ret a => exact hIJ s hp
  | fail e => exact hIJ s hp
  | call o k ih => exact ⟨hIJ s hp.1, fun x s' hs' => ih x (hp.2 x s' hs')⟩

theorem Throughout.keepsAll {A : Event S → Prop} (hp : Throughout A p)
    (hI : ∀ s e s', I s → A e → step s e s' → I s') (hs : I s) :
    Keeps step I p s := by
  induction p generalizing s with
  | ret a => exact hs
  | fail e => exact hs
  | call o k ih => exact ⟨hs, fun x s' hs' => ih x (hp x).2 (hI s _ s' hs (hp x).1 hs')⟩

theorem Keeps.holds {u v : Trace S} {r : Except ε α} (h : Keeps step I p s)
    (hrun : Run p (u ++ v) r) (hpath : Path step s u s') :
    I s' := by
  induction p generalizing s u with
  | ret a =>
      obtain ⟨hnil, _⟩ := run_ret.mp hrun
      obtain ⟨rfl, rfl⟩ := List.append_eq_nil_iff.mp hnil
      rw [path_nil.mp hpath]
      exact h
  | fail e =>
      obtain ⟨hnil, _⟩ := run_fail.mp hrun
      obtain ⟨rfl, rfl⟩ := List.append_eq_nil_iff.mp hnil
      rw [path_nil.mp hpath]
      exact h
  | call o k ih =>
      obtain ⟨x, t, heq, ht⟩ := run_call.mp hrun
      cases hpath with
      | nil => exact h.1
      | cons hstep hrest =>
          obtain ⟨rfl, rfl⟩ := List.cons.inj heq
          exact ih x (h.2 x _ hstep) ht hrest

end Keeps

end AtvRemote.Contracts
