import AtvRemote.Transcripts
import AtvRemote.Translations

namespace AtvRemote.Handlings

open Programs Contracts CommandRules CredentialRules Errors Messages SystemCalls
  Transcripts Translations

/-- The operations of a driver together with its calls of `handle`, each with
the connection that its message came from. -/
inductive HandlingOp (M St : Type)
  | own (o : SystemOp (MessageOp M))
  | handle (conn : Conn) (st : St) (m : M)

@[reducible] def HandlingOp.Answer {M St : Type} : HandlingOp M St → Type
  | .own o => SystemOp.Answer MessageOp.Answer o
  | .handle _ _ _ => Except AtvError (Option M) × St

abbrev Handling (M St : Type) : Signature := ⟨HandlingOp M St, HandlingOp.Answer⟩

abbrev Driver (M St α : Type) := Program (Handling M St) Stop α

variable {M St α β : Type}

/-- A command as a part of a driver. -/
def shown (p : Command (MessageWire M) α) : Driver M St α :=
  p.translate fun o => .call (.own o) .ret

def handle (conn : Conn) (st : St) (m : M) : Driver M St (Except AtvError (Option M) × St) :=
  .call (.handle conn st m) .ret

/-- The calls are made, by the function given for `handle`. -/
def calling (f : St → M → Except AtvError (Option M) × St) :
    (o : HandlingOp M St) → Command (MessageWire M) o.Answer
  | .own o => .call o .ret
  | .handle _ st m => .ret (f st m)

section Calling

variable {f : St → M → Except AtvError (Option M) × St} {conn : Conn} {st : St} {m : M}

@[simp] theorem translate_shown (p : Command (MessageWire M) α) :
    (shown p : Driver M St α).translate (calling f) = p := by
  induction p with
  | ret a => rfl
  | fail e => rfl
  | call o k ih => exact congrArg (Program.call o) (funext ih)

@[simp] theorem translate_shown_bind (p : Command (MessageWire M) α) (g : α → Driver M St β) :
    (shown p >>= g).translate (calling f) = p >>= fun a => (g a).translate (calling f) := by
  rw [translate_bind, translate_shown]

@[simp] theorem translate_handle_bind (g : Except AtvError (Option M) × St → Driver M St β) :
    (handle conn st m >>= g).translate (calling f) = (g (f st m)).translate (calling f) := rfl

@[simp] theorem translate_pure (a : α) : (pure a : Driver M St α).translate (calling f) = pure a :=
  rfl

theorem calling_answers (o : HandlingOp M St) (u : Trace (System (MessageWire M))) (stop : Stop) :
    ¬Run (calling f o) u (.error stop) := by
  intro h
  cases o with
  | own o =>
      obtain ⟨x, v, rfl, hv⟩ := run_call.mp h
      cases (run_ret.mp hv).2
  | handle conn st m => cases (run_ret.mp h).2

end Calling

/-- The events other than calls of `handle`. -/
def own (w : Trace (Handling M St)) : Trace (System (MessageWire M)) :=
  w.filterMap fun e => match e with
    | ⟨.own o, x⟩ => some ⟨o, x⟩
    | ⟨.handle _ _ _, _⟩ => none

/-- The messages handed to `handle`, in order. -/
def handledOn (conn : Conn) (w : Trace (Handling M St)) : List M :=
  w.filterMap fun e => match e with
    | ⟨.handle c _ m, _⟩ => if c = conn then some m else none
    | ⟨.own _, _⟩ => none

variable {w w' : Trace (Handling M St)}

theorem own_of_realizes {f : St → M → Except AtvError (Option M) × St}
    {t : Trace (System (MessageWire M))}
    (h : Realizes (calling f) w t) : own w = t := by
  induction h with
  | nil => rfl
  | @cons o x w u v hrun _ ih =>
      cases o with
      | own o =>
          obtain ⟨y, _, rfl, hrest⟩ := run_call.mp hrun
          obtain ⟨rfl, ⟨⟩⟩ := run_ret.mp hrest
          exact congrArg (_ :: ·) ih
      | handle conn st m =>
          obtain ⟨rfl, _⟩ := run_ret.mp hrun
          exact ih

/-- What is read from a connection is handed to `handle`, message by message. -/
def Handles (w : Trace (Handling M St)) : Prop := ∀ conn, handledOn conn w = receivedOn conn (own w)

theorem handles_nil : Handles ([] : Trace (Handling M St)) := fun _ => rfl

theorem Handles.append (h : Handles w) (h' : Handles w') : Handles (w ++ w') := by
  intro conn
  unfold handledOn own receivedOn
  rw [List.filterMap_append, List.filterMap_append, List.filterMap_append]
  exact congr (congrArg _ (h conn)) (h' conn)

/-- An event that neither brings a message nor handles one. -/
def Other : Event (System (MessageWire M)) → Prop
  | ⟨.wire _ .recv, .ok _⟩ => False
  | _ => True

theorem handles_other {e : Event (System (MessageWire M))} (he : Other e) :
    Handles ([⟨.own e.1, e.2⟩] : Trace (Handling M St)) := by
  intro conn
  obtain ⟨⟨c, _ | m⟩ | o, x⟩ := e
  · cases x with
    | error e => rfl
    | ok m => exact he.elim
  · rfl
  · rfl

theorem handles_round (conn : Conn) (st : St) (m : M) (y : Except AtvError (Option M) × St) :
    Handles ([⟨.own (.wire conn .recv), .ok m⟩, ⟨.handle conn st m, y⟩] : Trace
      (Handling M St)) := by
  intro c
  by_cases hc : conn = c <;> simp [handledOn, own, receivedOn, hc]

abbrev HandlesAll (p : Driver M St α) : Prop := Ensures p fun w _ => Handles w

theorem HandlesAll.bind {p : Driver M St α} {g : α → Driver M St β} (hp : HandlesAll p)
    (hg : ∀ a, HandlesAll (g a)) :
    HandlesAll (p >>= g) :=
  Ensures.bind hp (fun _ a hu => (hg a).mono fun _ _ hv => hu.append hv) fun _ _ hu => hu

theorem shown_handles {p : Command (MessageWire M) α} (hp : Throughout Other p) :
    HandlesAll (shown p : Driver M St α) := by
  induction p with
  | ret a => exact ensures_ret.mpr handles_nil
  | fail e => exact ensures_fail.mpr handles_nil
  | call o k ih =>
      refine ensures_call.mpr fun x => ?_
      obtain ⟨he, hlater⟩ := hp x
      exact (ih x hlater).mono fun w r hw => (handles_other he).append hw

/-- A message that is read is handled next. -/
theorem read_handles {conn : Conn} {g : Except IoError M → Driver M St β} {st : St}
    {k : M → Except AtvError (Option M) × St → Driver M St β}
    (herror : ∀ e, HandlesAll (g (.error e)))
    (hok : ∀ m, g (.ok m) = handle conn st m >>= k m) (hk : ∀ m y, HandlesAll (k m y)) :
    HandlesAll (shown (readMessage conn) >>= g) := by
  refine ensures_call.mpr fun x => ?_
  cases x with
  | error e =>
      exact (herror e).mono fun w r hw =>
        (@handles_other M St ⟨.wire conn .recv, .error e⟩ trivial).append hw
  | ok m =>
      change Ensures (g (.ok m)) _
      rw [hok]
      exact ensures_call.mpr fun y => (hk m y).mono fun w r hw =>
        (handles_round conn st m y).append hw

end AtvRemote.Handlings
