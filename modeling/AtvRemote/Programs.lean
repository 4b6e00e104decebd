import Mathlib.Data.List.Basic

namespace AtvRemote.Programs

/-- The operations a program may ask of its surroundings, with the type of
the answer to each. -/
structure Signature where
  Op : Type
  Answer : Op → Type

variable {S T : Signature} {ε ε' α β : Type}

/-- A tree of operations that branches on their answers. A leaf returns a
value or stops with an error. -/
inductive Program (S : Signature) (ε α : Type)
  | ret (a : α)
  | fail (e : ε)
  | call (o : S.Op) (k : S.Answer o → Program S ε α)

abbrev Event (S : Signature) := (o : S.Op) × S.Answer o

abbrev Trace (S : Signature) := List (Event S)

namespace Program

def bind : Program S ε α → (α → Program S ε β) → Program S ε β
  | .ret a, f => f a
  | .fail e, _ => .fail e
  | .call o k, f => .call o (fun x => (k x).bind f)

instance : Monad (Program S ε) where
  pure := .ret
  bind := bind

/-- Run to the end and hand the outcome over as a value. -/
def attempt : Program S ε α → Program S ε' (Except ε α)
  | .ret a => .ret (.ok a)
  | .fail e => .ret (.error e)
  | .call o k => .call o (fun x => (k x).attempt)

/-- Run against a concrete surrounding that answers from its own state. -/
def exec {σ : Type} (h : (o : S.Op) → σ → S.Answer o × σ) :
    Program S ε α → σ → Trace S × Except ε α × σ
  | .ret a, s => ([], .ok a, s)
  | .fail e, s => ([], .error e, s)
  | .call o k, s =>
      let (t, r, s') := (k (h o s).1).exec h (h o s).2
      (⟨o, (h o s).1⟩ :: t, r, s')

def translate (f : (o : S.Op) → Program T ε (S.Answer o)) : Program S ε α → Program T ε α
  | .ret a => .ret a
  | .fail e => .fail e
  | .call o k => (f o).bind (fun x => (k x).translate f)

end Program

/-- A trace of the program together with its outcome. The answers are not
restricted in any way, so this covers every behaviour of the surroundings. -/
inductive Run : Program S ε α → Trace S → Except ε α → Prop
  | ret (a : α) : Run (.ret a) [] (.ok a)
  | fail (e : ε) : Run (.fail e) [] (.error e)
  | call {o : S.Op} {k : S.Answer o → Program S ε α} {x : S.Answer o} {t : Trace S}
      {r : Except ε α} (h : Run (k x) t r) : Run (.call o k) (⟨o, x⟩ :: t) r

@[simp] theorem run_ret {a : α} {t : Trace S} {r : Except ε α} :
    Run (.ret a) t r ↔ t = [] ∧ r = .ok a := by
  constructor
  · rintro ⟨⟩; exact ⟨rfl, rfl⟩
  · rintro ⟨rfl, rfl⟩; exact .ret a

@[simp] theorem run_pure {a : α} {t : Trace S} {r : Except ε α} :
    Run (pure a) t r ↔ t = [] ∧ r = .ok a := run_ret

@[simp] theorem run_fail {e : ε} {t : Trace S} {r : Except ε α} :
    Run (.fail e) t r ↔ t = [] ∧ r = .error e := by
  constructor
  · rintro ⟨⟩; exact ⟨rfl, rfl⟩
  · rintro ⟨rfl, rfl⟩; exact .fail e

theorem run_call {o : S.Op} {k : S.Answer o → Program S ε α} {t : Trace S} {r : Except ε α} :
    Run (.call o k) t r ↔ ∃ x u, t = ⟨o, x⟩ :: u ∧ Run (k x) u r := by
  constructor
  · rintro ⟨⟩; exact ⟨_, _, rfl, ‹_›⟩
  · rintro ⟨x, u, rfl, h⟩; exact .call h

theorem run_bind {p : Program S ε α} {f : α → Program S ε β} {t : Trace S} {r : Except ε β} :
    Run (p >>= f) t r ↔
      (∃ a u v, t = u ++ v ∧ Run p u (.ok a) ∧ Run (f a) v r) ∨
        ∃ e, Run p t (.error e) ∧ r = .error e := by
  change Run (p.bind f) t r ↔ _
  induction p generalizing t with
  | ret a =>
      simp only [Program.bind, run_ret, Except.ok.injEq, reduceCtorEq, and_false, false_and,
        exists_false, or_false]
      constructor
      · intro h; exact ⟨a, [], t, rfl, ⟨rfl, rfl⟩, h⟩
      · rintro ⟨_, _, v, rfl, ⟨rfl, rfl⟩, h⟩; exact h
  | fail e =>
      simp only [Program.bind, run_fail, reduceCtorEq, and_false, false_and, exists_false,
        false_or, Except.error.injEq]
      constructor
      · rintro ⟨rfl, rfl⟩; exact ⟨e, ⟨rfl, rfl⟩, rfl⟩
      · rintro ⟨_, ⟨rfl, rfl⟩, rfl⟩; exact ⟨rfl, rfl⟩
  | call o k ih =>
      simp only [Program.bind, run_call, ih]
      constructor
      · rintro ⟨x, u, rfl, ⟨a, v, w, rfl, hp, hf⟩ | ⟨e, hp, rfl⟩⟩
        · exact .inl ⟨a, ⟨o, x⟩ :: v, w, rfl, ⟨x, v, rfl, hp⟩, hf⟩
        · exact .inr ⟨e, ⟨x, u, rfl, hp⟩, rfl⟩
      · rintro (⟨a, _, w, rfl, ⟨x, v, rfl, hp⟩, hf⟩ | ⟨e, ⟨x, u, rfl, hp⟩, rfl⟩)
        · exact ⟨x, v ++ w, rfl, .inl ⟨a, v, w, rfl, hp, hf⟩⟩
        · exact ⟨x, u, rfl, .inr ⟨e, hp, rfl⟩⟩

theorem run_after {p : Program S ε α} {f : α → Program S ε β} {a : α} {u v : Trace S}
    {r : Except ε β}
    (hp : Run p u (.ok a)) (h : Run (p >>= f) (u ++ v) r) : Run (f a) v r := by
  change Run (p.bind f) (u ++ v) r at h
  induction p generalizing u with
  | ret b =>
      obtain ⟨rfl, ⟨⟩⟩ := run_ret.mp hp
      exact h
  | fail e => cases (run_fail.mp hp).2
  | call o k ih =>
      obtain ⟨x, w, rfl, hw⟩ := run_call.mp hp
      obtain ⟨y, w', heq, hw'⟩ := run_call.mp h
      obtain ⟨heq, rfl⟩ := List.cons.inj heq
      cases heq
      exact ih x hw hw'

theorem run_attempt {p : Program S ε α} {t : Trace S} {r : Except ε' (Except ε α)} :
    Run (p.attempt) t r ↔ ∃ q, Run p t q ∧ r = .ok q := by
  induction p generalizing t with
  | ret a => simp [Program.attempt, and_assoc]
  | fail e => simp [Program.attempt, and_assoc]
  | call o k ih =>
      simp only [Program.attempt, run_call, ih]
      constructor
      · rintro ⟨x, u, rfl, q, h, rfl⟩; exact ⟨q, ⟨x, u, rfl, h⟩, rfl⟩
      · rintro ⟨q, ⟨x, u, rfl, h⟩, rfl⟩; exact ⟨x, u, rfl, q, h, rfl⟩

theorem run_exec {σ : Type} (h : (o : S.Op) → σ → S.Answer o × σ) (p : Program S ε α) (s : σ) :
    Run p (p.exec h s).1 (p.exec h s).2.1 := by
  induction p generalizing s with
  | ret a => exact .ret a
  | fail e => exact .fail e
  | call o k ih => exact .call (ih _ _)

@[simp] theorem Program.ret_bind (a : α) (f : α → Program S ε β) : (Program.ret a >>= f) = f a :=
  rfl

@[simp] theorem Program.pure_bind (a : α) (f : α → Program S ε β) :
    ((pure a : Program S ε α) >>= f) = f a := rfl

@[simp] theorem Program.fail_bind (e : ε) (f : α → Program S ε β) :
    (Program.fail e >>= f) = Program.fail e := rfl

@[simp] theorem Program.call_bind (o : S.Op) (k : S.Answer o → Program S ε α)
    (f : α → Program S ε β) :
    (Program.call o k >>= f) = Program.call o (fun x => k x >>= f) := rfl

end AtvRemote.Programs
