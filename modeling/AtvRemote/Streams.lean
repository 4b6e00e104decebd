import AtvRemote.CommandRules
import AtvRemote.FramingRules
import AtvRemote.Translations

namespace AtvRemote.Streams

open Programs Contracts CommandRules Errors Messages SystemCalls Framing FramingRules Translations

variable {M α : Type} {codec : Codec M} {conn : Conn}

def onWire (conn : Conn) (e : Event ByteWire) : Event (System ByteWire) := ⟨.wire conn e.1, e.2⟩

theorem run_onConn {p : Program ByteWire IoError α} {u : Trace (System ByteWire)}
    {r : Except Stop (Except IoError α)} :
    Run (onConn conn p) u r ↔ ∃ w q, Run p w q ∧ u = w.map (onWire conn) ∧ r = .ok q := by
  induction p generalizing u with
  | ret a =>
      constructor
      · intro h
        obtain ⟨rfl, rfl⟩ := run_ret.mp h
        exact ⟨[], .ok a, .ret a, rfl, rfl⟩
      · rintro ⟨w, q, hw, rfl, rfl⟩
        obtain ⟨rfl, rfl⟩ := run_ret.mp hw
        exact .ret _
  | fail e =>
      constructor
      · intro h
        obtain ⟨rfl, rfl⟩ := run_ret.mp h
        exact ⟨[], .error e, .fail e, rfl, rfl⟩
      · rintro ⟨w, q, hw, rfl, rfl⟩
        obtain ⟨rfl, rfl⟩ := run_fail.mp hw
        exact .ret _
  | call o k ih =>
      constructor
      · intro h
        obtain ⟨x, v, rfl, hv⟩ := run_call.mp h
        obtain ⟨w, q, hw, rfl, rfl⟩ := (ih x).mp hv
        exact ⟨⟨o, x⟩ :: w, q, .call hw, rfl, rfl⟩
      · rintro ⟨w, q, hw, rfl, rfl⟩
        obtain ⟨x, v, rfl, hv⟩ := run_call.mp hw
        exact .call ((ih x).mpr ⟨v, q, hv, rfl, rfl⟩)

theorem overBytes_answers (o : SystemOp (MessageOp M)) (u : Trace (System ByteWire)) (stop : Stop) :
    ¬Run (overBytes codec o) u (.error stop) := by
  intro h
  rcases o with ⟨conn, _ | m⟩ | o
  · obtain ⟨w, q, _, _, ⟨⟩⟩ := run_onConn.mp h
  · obtain ⟨w, q, _, _, ⟨⟩⟩ := run_onConn.mp h
  · obtain ⟨x, v, rfl, hv⟩ := run_call.mp h
    cases (run_ret.mp hv).2

variable {τ : Type} {D : τ → Event ByteWire → τ → Prop}

/-- Every connection has a state of its own, on which its events act. -/
def Each (D : τ → Event ByteWire → τ → Prop) :
    (Conn → τ) → Event (System ByteWire) → (Conn → τ) → Prop
  | s, ⟨.wire conn w, x⟩, s' => D (s conn) ⟨w, x⟩ (s' conn) ∧ ∀ c ≠ conn, s' c = s c
  | s, ⟨.host _, _⟩, s' => s' = s

theorem Each.path {w : Trace ByteWire} {s s' : Conn → τ}
    (h : Path (Each D) s (w.map (onWire conn)) s') :
    Path D (s conn) w (s' conn) ∧ ∀ c ≠ conn, s' c = s c := by
  induction w generalizing s with
  | nil =>
      obtain rfl := path_nil.mp h
      exact ⟨.nil _, fun _ _ => rfl⟩
  | cons e w ih =>
      obtain ⟨mid, ⟨hstep, hothers⟩, hpath⟩ := path_cons.mp h
      obtain ⟨hw, hw'⟩ := ih hpath
      exact ⟨.cons hstep hw, fun c hc => (hw' c hc).trans (hothers c hc)⟩

theorem meets_onConn {p : Program ByteWire IoError α} {Q : Except IoError α → τ → Prop}
    {s : Conn → τ}
    (h : Meets D p (s conn) Q) : Meets (Each D) (onConn conn p) s
      (fun r s' => (∃ q, r = .ok q ∧ Q q (s' conn)) ∧ ∀ c ≠ conn, s' c = s c) := by
  intro u r hrun s' hpath
  obtain ⟨w, q, hw, rfl, rfl⟩ := run_onConn.mp hrun
  obtain ⟨hpath, hothers⟩ := Each.path hpath
  exact ⟨⟨q, rfl, h w q hw _ hpath⟩, hothers⟩

/-- How the streams move with an event on messages: a message that arrives is
the next frame. Where a failed read leaves its stream is not said. -/
def Consumes (codec : Codec M) : (Conn → Bytes) → Event (System (MessageWire M)) →
      (Conn → Bytes) → Prop
  | unread, ⟨.wire conn .recv, .ok m⟩, rest =>
      (∃ f : Framed codec, f.message = m ∧ unread conn = f.bytes ++ rest conn) ∧ ∀ c ≠ conn,
        rest c = unread c
  | unread, ⟨.wire conn .recv, .error _⟩, rest => ∀ c ≠ conn, rest c = unread c
  | unread, _, rest => rest = unread

theorem writeMessage_idle (m : M) (unread : Bytes) :
    Meets Delivers (writeMessage codec m) unread (fun _ rest => rest = unread) := by
  refine meets_call.mpr fun x rest hstep => ?_
  have hrest : rest = unread := hstep
  cases x with
  | ok _ => exact meets_ret.mpr hrest
  | error e => exact meets_fail.mpr hrest

theorem overBytes_consumes (o : SystemOp (MessageOp M)) (unread : Conn → Bytes) :
    Meets (Each Delivers) (overBytes codec o) unread
      (fun r rest => ∀ x, r = .ok x → Consumes codec unread ⟨o, x⟩ rest) := by
  rcases o with ⟨conn, _ | m⟩ | o
  · refine (meets_onConn (readMessage_sound (unread conn))).mono ?_
    rintro _ rest ⟨⟨q, rfl, hq⟩, hothers⟩ _ ⟨rfl⟩
    cases q with
    | error e => exact hothers
    | ok m =>
        obtain ⟨f, hf, hframe⟩ := hq m rfl
        exact ⟨⟨⟨f, m, hframe⟩, rfl, hf⟩, hothers⟩
  · refine (meets_onConn (writeMessage_idle m (unread conn))).mono ?_
    rintro _ rest ⟨⟨q, rfl, hq⟩, hothers⟩ _ ⟨rfl⟩
    apply funext
    intro c
    by_cases hc : c = conn
    · rw [hc]
      exact hq
    · exact hothers c hc
  · refine meets_call.mpr fun x rest hstep => meets_ret.mpr ?_
    rintro _ ⟨rfl⟩
    exact hstep

/-- A command on bytes is the command on messages, and its bytes are the
frames of these messages. -/
theorem translate_consumes {p : Command (MessageWire M) α} {v : Trace (System ByteWire)}
    {r : Except Stop α}
    {unread rest : Conn → Bytes} (h : Run (p.translate (overBytes codec)) v r)
    (hpath : Path (Each Delivers) unread v rest) :
    ∃ t, Run p t r ∧ Realizes (overBytes codec) t v ∧ Path (Consumes codec) unread t rest := by
  obtain ⟨t, ht, hreal⟩ := run_translate overBytes_answers h
  have hstep : ∀ (o : SystemOp (MessageOp M)) u x unread rest unread', unread = unread' →
      Run (overBytes codec o) u (.ok x) → Path (Each Delivers) unread u rest →
        ∃ rest', Consumes codec unread' ⟨o, x⟩ rest' ∧ rest = rest' := by
    rintro o u x unread rest _ rfl hrun hu
    exact ⟨rest, overBytes_consumes o unread u _ hrun rest hu x rfl, rfl⟩
  obtain ⟨_, hconsumes, rfl⟩ := hreal.simulates hstep rfl hpath
  exact ⟨t, ht, hreal, hconsumes⟩

end AtvRemote.Streams
