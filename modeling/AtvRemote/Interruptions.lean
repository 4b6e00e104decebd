import AtvRemote.Translations

namespace AtvRemote.Interruptions

open Programs Contracts Translations

variable {S T : Signature} {ε α : Type} {f : (o : S.Op) → Program T ε (S.Answer o)}
  {p : Program S ε α}

/-- After the trace the program asks for the operation next. -/
inductive Reaches : Program S ε α → Trace S → S.Op → Prop
  | here {o : S.Op} {k : S.Answer o → Program S ε α} : Reaches (.call o k) [] o
  | call {o o' : S.Op} {k : S.Answer o → Program S ε α} {x : S.Answer o} {t : Trace S}
      (h : Reaches (k x) t o') :
      Reaches (.call o k) (⟨o, x⟩ :: t) o'

theorem exists_run (hne : ∀ o : S.Op, Nonempty (S.Answer o)) (p : Program S ε α) :
    ∃ t r, Run p t r := by
  induction p with
  | ret a => exact ⟨[], _, .ret a⟩
  | fail e => exact ⟨[], _, .fail e⟩
  | call o k ih =>
      obtain ⟨x⟩ := hne o
      obtain ⟨t, r, h⟩ := ih x
      exact ⟨_, r, .call h⟩

/-- The run can go on with any answer. -/
theorem Reaches.run (hne : ∀ o : S.Op, Nonempty (S.Answer o)) {t : Trace S} {o : S.Op}
    (h : Reaches p t o) (x : S.Answer o) :
    ∃ u r, Run p (t ++ ⟨o, x⟩ :: u) r := by
  induction h with
  | here =>
      obtain ⟨u, r, h⟩ := exists_run hne _
      exact ⟨u, r, .call h⟩
  | call _ ih =>
      obtain ⟨u, r, h⟩ := ih x
      exact ⟨u, r, .call h⟩

/-- How a run of a translated program goes whose operations may fail where
those of the program itself do not. -/
inductive Interrupted (f : (o : S.Op) → Program T ε (S.Answer o)) (p : Program S ε α) :
    Trace T → Except ε α → Prop
  | whole {t : Trace S} {v : Trace T} {r : Except ε α} (hrun : Run p t r) (h : Realizes f t v) :
      Interrupted f p v r
  | cut {t : Trace S} {o : S.Op} {u w : Trace T} {e : ε} (hreach : Reaches p t o)
      (h : Realizes f t u)
      (hw : Run (f o) w (.error e)) : Interrupted f p (u ++ w) (.error e)

theorem Interrupted.call {o : S.Op} {k : S.Answer o → Program S ε α} {x : S.Answer o}
    {u v : Trace T} {r : Except ε α}
    (hu : Run (f o) u (.ok x)) (h : Interrupted f (k x) v r) :
    Interrupted f (.call o k) (u ++ v) r := by
  cases h with
  | whole hrun h => exact .whole (.call hrun) (.cons hu h)
  | cut hreach h hw =>
      rw [← List.append_assoc]
      exact .cut (.call hreach) (.cons hu h) hw

theorem run_translate_interrupted {v : Trace T} {r : Except ε α} (h : Run (p.translate f) v r) :
    Interrupted f p v r := by
  induction p generalizing v with
  | ret a =>
      obtain ⟨rfl, rfl⟩ := run_ret.mp h
      exact .whole (.ret a) .nil
  | fail e =>
      obtain ⟨rfl, rfl⟩ := run_fail.mp h
      exact .whole (.fail e) .nil
  | call o k ih =>
      have h : Run (f o >>= fun x => (k x).translate f) v r := h
      rcases run_bind.mp h with ⟨x, u, w, rfl, hu, hw⟩ | ⟨e, he, rfl⟩
      · exact (ih x hw).call hu
      · exact .cut .here .nil he

/-- If every operation stands for one event, so does every event of a trace. -/
theorem realizes_map {embed : Event S → Event T} (hf : ∀ o u x, Run (f o) u (.ok x) →
      u = [embed ⟨o, x⟩]) {t : Trace S} {v : Trace T}
    (h : Realizes f t v) : v = t.map embed := by
  induction h with
  | nil => rfl
  | cons hrun _ ih => rw [hf _ _ _ hrun, ih, List.map_cons, List.singleton_append]

end AtvRemote.Interruptions
