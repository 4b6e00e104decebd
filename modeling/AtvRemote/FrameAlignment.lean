import AtvRemote.Handlings
import AtvRemote.Streams

namespace AtvRemote.FrameAlignment

open Programs Contracts CommandRules Errors Messages SystemCalls Framing FramingRules
  Translations Streams
  Transcripts Handlings

variable {M St α : Type} {codec : Codec M} {t : Trace (System (MessageWire M))}
  {v : Trace (System ByteWire)}

/-- How the reads went so far: none failed, one failed, or there was another
after one that failed. -/
inductive Reads
  | clean
  | failed
  | again
  deriving DecidableEq, Repr

def observe : Reads → Event (System (MessageWire M)) → Reads
  | .clean, ⟨.wire _ .recv, .error _⟩ => .failed
  | .failed, ⟨.wire _ .recv, _⟩ => .again
  | reads, _ => reads

theorem observe_again (t : Trace (System (MessageWire M))) : t.foldl observe .again = .again := by
  induction t with
  | nil => rfl
  | cons e t ih => exact ih

theorem no_recv_after_failed {t : Trace (System (MessageWire M))}
    (h : t.foldl observe .failed ≠ .again) :
    ∀ e ∈ t, ∀ conn, e.1 ≠ .wire conn .recv := by
  induction t with
  | nil => exact List.forall_mem_nil _
  | cons e t ih =>
      obtain ⟨⟨conn, _ | m⟩ | o, x⟩ := e
      · exact absurd (observe_again t) h
      · exact List.forall_mem_cons.mpr ⟨nofun, ih h⟩
      · exact List.forall_mem_cons.mpr ⟨nofun, ih h⟩

theorem no_recv_after_error {t₁ t₂ : Trace (System (MessageWire M))} {conn : Conn} {e : IoError}
    (h : (t₁ ++ ⟨.wire conn .recv, .error e⟩ :: t₂).foldl observe .clean ≠ .again) :
    ∀ e ∈ t₂, ∀ conn, e.1 ≠ .wire conn .recv := by
  rw [List.foldl_append] at h
  generalize t₁.foldl observe .clean = reads at h
  cases reads with
  | clean => exact no_recv_after_failed h
  | failed => exact absurd (observe_again t₂) h
  | again => exact absurd (observe_again t₂) h

theorem receivedOn_eq_nil {conn : Conn} (h : ∀ e ∈ t, ∀ conn, e.1 ≠ .wire conn .recv) :
    receivedOn conn t = [] := by
  refine List.filterMap_eq_nil_iff.mpr fun e he => ?_
  obtain ⟨⟨c, _ | m⟩ | o, x⟩ := e
  · exact absurd rfl (h _ he c)
  · rfl
  · rfl

theorem frames_received {unread rest : Conn → Bytes} (hpath : Path (Consumes codec) unread t rest)
    (h : t.foldl observe .clean ≠ .again) (conn : Conn) :
    ∃ (frames : List (Framed codec)) (tail : Bytes),
      unread conn = stream frames ++ tail ∧ messages frames = receivedOn conn t := by
  induction t generalizing unread with
  | nil => exact ⟨[], unread conn, rfl, rfl⟩
  | cons e t ih =>
      obtain ⟨mid, hstep, hlater⟩ := path_cons.mp hpath
      obtain ⟨⟨c, _ | m⟩ | o, x⟩ := e
      · cases x with
        | error e => exact ⟨[], unread conn, rfl, (receivedOn_eq_nil (no_recv_after_failed h)).symm⟩
        | ok m =>
            obtain ⟨⟨f, hm, hf⟩, hothers⟩ := hstep
            obtain ⟨frames, tail, hmid, hreceived⟩ := ih hlater h
            rw [receivedOn_recv, ← hreceived]
            by_cases hc : c = conn
            · subst hc
              refine ⟨f :: frames, tail, ?_, ?_⟩
              · rw [hf, hmid, stream_cons, List.append_assoc]
              · rw [if_pos rfl, ← hm]
                rfl
            · refine ⟨frames, tail, ?_, ?_⟩
              · rw [← hothers conn (Ne.symm hc), hmid]
              · rw [if_neg hc]
                rfl
      · obtain rfl : mid = unread := hstep
        exact ih hlater h
      · obtain rfl : mid = unread := hstep
        exact ih hlater h

def NoRead : Event (System ByteWire) → Prop
  | ⟨.wire _ (.read _), _⟩ => False
  | _ => True

theorem overBytes_noRead {o : SystemOp (MessageOp M)} (h : ∀ conn, o ≠ .wire conn .recv) :
    Throughout NoRead (overBytes codec o) := by
  rcases o with ⟨conn, _ | m⟩ | o
  · exact absurd rfl (h conn)
  · intro x
    cases x <;> exact ⟨trivial, trivial⟩
  · exact fun x => ⟨trivial, trivial⟩

/-- The messages that a driver hands to `handle` are the first frames of the
streams, and it makes no read after one that failed. -/
structure Aligned (codec : Codec M) (unread : Conn → Bytes) (w : Trace (Handling M St))
    (v : Trace (System ByteWire)) : Prop where
  frames : ∀ conn, ∃ (frames : List (Framed codec)) (tail : Bytes), unread conn =
    stream frames ++ tail ∧
    handledOn conn w = messages frames ∧
    ∀ frames' tail', unread conn = stream frames' ++ tail' → frames <+: frames' ∨ frames' <+: frames
  halts : ∀ t₁ t₂ conn e, own w = t₁ ++ ⟨.wire conn .recv, .error e⟩ :: t₂ → ∃ v₁ v₂, v = v₁ ++ v₂ ∧
    Realizes (overBytes codec) (t₁ ++ [⟨.wire conn .recv, .error e⟩]) v₁ ∧ ∀ e ∈ v₂, NoRead e

/-- On every way to cut the streams into reads, a command stays aligned. It is
the given driver with the calls of `handle` made by `f`, and these calls can be
told for each run of it on bytes. -/
structure StaysAligned (codec : Codec M) (f : St → M → Except AtvError (Option M) × St)
    (p : Command (MessageWire M) α) (driver : Driver M St α) : Prop where
  same : driver.translate (calling f) = p
  aligned : ∀ (unread rest : Conn → Bytes) (v : Trace (System ByteWire)) (r : Except Stop α),
    Run (p.translate (overBytes codec)) v r → Path (Each Delivers) unread v rest →
      ∃ w, Run driver w r ∧ Realizes (calling f) w (own w) ∧ Realizes (overBytes codec) (own w) v ∧
        Aligned codec unread w v

/-- It is enough that each message is handled once it is read, and that no read
of a message follows one that failed. -/
theorem staysAligned {f : St → M → Except AtvError (Option M) × St} {p : Command (MessageWire M) α}
    {driver : Driver M St α}
    (hsame : driver.translate (calling f) = p) (hhandles : HandlesAll driver)
    (hp : Meets (fun s e s' => s' = observe s e) p .clean fun _ reads => reads ≠ .again) :
    StaysAligned codec f p driver := by
  refine ⟨hsame, ?_⟩
  intro unread rest v r h hpath
  obtain ⟨t, ht, hreal, hconsumes⟩ := translate_consumes h hpath
  have hreads : t.foldl observe .clean ≠ .again := hp t r ht _ (path_fold.mpr rfl)
  rw [← hsame] at ht
  obtain ⟨w, hw, hcalls⟩ := run_translate calling_answers ht
  obtain rfl := own_of_realizes hcalls
  refine ⟨w, hw, hcalls, hreal, ⟨fun conn => ?_, ?_⟩⟩
  · obtain ⟨frames, tail, hunread, hreceived⟩ := frames_received hconsumes hreads conn
    have hhandled : handledOn conn w = messages frames :=
      (hhandles w r hw conn).trans hreceived.symm
    exact ⟨frames, tail, hunread, hhandled, fun frames' tail' h => stream_comparable
      (hunread.symm.trans h)⟩
  · intro t₁ t₂ conn e hown
    rw [hown] at hreal hreads
    have hcut : t₁ ++ ⟨.wire conn .recv, .error e⟩ :: t₂ =
        (t₁ ++ [⟨.wire conn .recv, .error e⟩]) ++ t₂ := by
      rw [List.append_assoc, List.singleton_append]
    rw [hcut] at hreal
    obtain ⟨v₁, v₂, rfl, hv₁, hv₂⟩ := hreal.split
    refine ⟨v₁, v₂, rfl, hv₁, hv₂.all fun e he u hu => ?_⟩
    exact (overBytes_noRead (no_recv_after_error hreads e he)).ensures u _ hu

end AtvRemote.FrameAlignment
