import AtvRemote.Footprints
import AtvRemote.Interruptions
import AtvRemote.Main

namespace AtvRemote.ProcessRuns

open Programs Contracts Scripts Translations Interruptions Errors Messages SystemCalls Session
  Pairing Discovery Wake JsonTexts Output
  PingAnswers Footprints Main
open Serialize

inductive Result
  | pair (out : PairOutput)
  | session (out : SessionOutput)
  | discover (out : DiscoverOutput)
  deriving DecidableEq, Repr

instance serializeResult : Serialize Result where
  serialize
    | .pair out => serialize out
    | .session (.status out) => serialize out
    | .session (.power out) => serialize out
    | .session (.keys out) => serialize out
    | .session (.launch out) => serialize out
    | .discover out => serialize out

/-- What a command does, by the part of the program that does it. -/
inductive Task
  | pair
  | session (command : SessionCommand)
  | discover (timeout : UInt64)

def task : Command → Task
  | .pair _ => .pair
  | .status _ => .session .status
  | .on args => .session (.on args.mac)
  | .off _ => .session .off
  | .key args => .session (.key args.keys)
  | .launch args => .session (.launch args.appLink)
  | .discover args => .discover args.timeout

def unspecified : IpAddr := .v4 (Vector.replicate 4 0)

/-- The address to which a command connects, if it does. -/
def target (command : Command) : SocketAddr :=
  ⟨(command.args.map HostArgs.host).getD unspecified, command.port⟩

variable {lib : Library} {json : SerdeJson} {fuel : Nat} {command : Command}
  {t : Trace Surroundings}

/-- A command up to its result. -/
def work (lib : Library) (fuel : Nat) (command : Command) : Process Result :=
  let addr := target command
  match task command with
  | .pair => do pure (.pair (← (pair lib fuel addr.ip addr.port).translate ofPairing))
  | .session session =>
      do pure (.session (← (session.run fuel addr.ip addr.port).translate ofSession))
  | .discover timeout => do pure (.discover (← (discover fuel timeout).translate ofBrowsing))

theorem bind_bind {α β γ : Type} (p : Process α) (g : α → Process β) (h : β → Process γ) :
    (p >>= g) >>= h = p >>= fun a => g a >>= h := bind_assoc p g h

theorem run_eq : run lib json fuel command = work lib fuel command >>= emit json := by
  cases command with
  | pair args | discover args =>
      simp only [run, work, task, bind_bind]
      rfl
  | status args | on args | off args | key args | launch args =>
      simp only [run, work, task, SessionCommand.run, translate_bind, bind_bind]
      rfl

/-- What the process does with the outcome of its command. -/
inductive Ending (json : SerdeJson) :
    Except Stop Result → Trace Surroundings → Except Stop Nat → Prop
  | printed (out : Result) (written flushed : Except IoError Unit) :
      Ending json (.ok out) [⟨.writeln (json.toString (serialize out)), written⟩, ⟨.flush, flushed⟩]
        (.ok 0)
  | reported (e : AtvError) : Ending json (.error (.error e)) [⟨.eprintln (toJson json e), .ok ()⟩]
      (.ok e.exitCode)
  | unreported (e : AtvError) (closed : IoError) :
      Ending json (.error (.error e)) [⟨.eprintln (toJson json e), .error closed⟩]
        (.error (.panic s!"failed printing to stderr: {closed}"))
  | panicked (text : String) : Ending json (.error (.panic text)) [] (.error (.panic text))
  | unfinished : Ending json (.error .unfinished) [] (.error .unfinished)

theorem run_eprintln {text : String} {r : Except Stop Unit} (h : Run (eprintln text) t r) :
    (t = [⟨.eprintln text, .ok ()⟩] ∧ r = .ok ()) ∨
      ∃ closed, t = [⟨.eprintln text, .error closed⟩] ∧
        r = .error (.panic s!"failed printing to stderr: {closed}") := by
  obtain ⟨x, u, rfl, hu⟩ := run_call.mp h
  cases x with
  | ok _ =>
      obtain ⟨rfl, rfl⟩ := run_ret.mp hu
      exact .inl ⟨rfl, rfl⟩
  | error closed =>
      obtain ⟨rfl, rfl⟩ := run_fail.mp hu
      exact .inr ⟨closed, rfl, rfl⟩

theorem run_main {r : Except Stop Nat} (h : Run (main lib json fuel command) t r) :
    ∃ u v q, t = u ++ v ∧ Run (work lib fuel command) u q ∧ Ending json q v r := by
  rcases run_bind.mp h with ⟨outcome, u, v, rfl, hu, hv⟩ | ⟨stop, hu, _⟩
  · obtain ⟨q, hq, ⟨⟩⟩ := run_attempt.mp hu
    rw [run_eq] at hq
    rcases run_bind.mp hq with ⟨out, u, w, rfl, hwork, hemit⟩ | ⟨stop, hwork, rfl⟩
    · obtain ⟨written, z, rfl, hflush⟩ := run_call.mp hemit
      obtain ⟨flushed, z, rfl, hend⟩ := run_call.mp hflush
      obtain ⟨rfl, rfl⟩ := run_ret.mp hend
      obtain ⟨rfl, rfl⟩ := run_ret.mp hv
      refine ⟨u, _, .ok out, ?_, hwork, .printed out written flushed⟩
      rw [List.append_nil]
    · rcases stop with e | text | _
      · rcases run_bind.mp hv with ⟨_, v, w, rfl, hprint, hw⟩ | ⟨stop, hprint, rfl⟩
        · rcases run_eprintln hprint with ⟨rfl, _⟩ | ⟨closed, _, ⟨⟩⟩
          obtain ⟨rfl, rfl⟩ := run_ret.mp hw
          exact ⟨u, _, _, rfl, hwork, .reported e⟩
        · rcases run_eprintln hprint with ⟨_, ⟨⟩⟩ | ⟨closed, rfl, ⟨⟩⟩
          exact ⟨u, _, _, rfl, hwork, .unreported e closed⟩
      · obtain ⟨rfl, rfl⟩ := run_fail.mp hv
        exact ⟨u, _, _, rfl, hwork, .panicked text⟩
      · obtain ⟨rfl, rfl⟩ := run_fail.mp hv
        exact ⟨u, _, _, rfl, hwork, .unfinished⟩
  · obtain ⟨q, _, ⟨⟩⟩ := run_attempt.mp hu

instance inhabitedIoError : Inhabited IoError := ⟨⟨.other, ""⟩⟩

def embedHost : (o : HostOp) → o.Answer → Event Surroundings
  | .eprintln text, _ => ⟨.eprintln text, .ok ()⟩
  | o, x => ⟨.system (.host o), x⟩

def embedPairing : Event (System PairingWire) → Event Surroundings
  | ⟨.wire conn w, x⟩ => ⟨.system (.wire conn (.pairing w)), x⟩
  | ⟨.host o, x⟩ => embedHost o x

def embedSession : Event (System SessionWire) → Event Surroundings
  | ⟨.wire conn w, x⟩ => ⟨.system (.wire conn (.session w)), x⟩
  | ⟨.host o, x⟩ => embedHost o x

def embedBrowsing : Event Browsing → Event Surroundings
  | ⟨o, x⟩ => ⟨.browsing o, x⟩

theorem run_request {o : ProcessOp} {r : Except Stop o.Answer} (h : Run (request o) t r) :
    ∃ x, t = [⟨o, x⟩] ∧ r = .ok x := by
  obtain ⟨x, u, rfl, hu⟩ := run_call.mp h
  obtain ⟨rfl, rfl⟩ := run_ret.mp hu
  exact ⟨x, rfl, rfl⟩

theorem run_onHost {o : HostOp} {r : Except Stop o.Answer} (h : Run (onHost o) t r) :
    (∃ x, t = [embedHost o x] ∧ r = .ok x) ∨ ∃ text closed, o = .eprintln text ∧
    t = [⟨.eprintln text, .error closed⟩] ∧
      r = .error (.panic s!"failed printing to stderr: {closed}") := by
  cases o with
  | eprintln text =>
      rcases run_eprintln h with ⟨rfl, rfl⟩ | ⟨closed, rfl, rfl⟩
      · exact .inl ⟨(), rfl, rfl⟩
      · exact .inr ⟨text, closed, rfl, rfl, rfl⟩
  | _ => exact .inl (run_request h)

section Embedded

variable {W : Signature} {α : Type} {embed : Event (System W) → Event Surroundings}

/-- An operation of a command is one event of the process, unless it is a
prompt that cannot be shown. -/
def Asked (embed : Event (System W) → Event Surroundings) (o : SystemOp W.Op)
    (t : Trace Surroundings)
    (r : Except Stop (SystemOp.Answer W.Answer o)) : Prop :=
  (∃ x, t = [embed ⟨o, x⟩] ∧ r = .ok x) ∨ ∃ text closed, o = .host (.eprintln text) ∧
    t = [⟨.eprintln text, .error closed⟩] ∧
      r = .error (.panic s!"failed printing to stderr: {closed}")

theorem run_embedded {f : (o : SystemOp W.Op) → Process (SystemOp.Answer W.Answer o)}
    (hne : ∀ w : W.Op, Nonempty (W.Answer w)) (hf : ∀ o t r, Run (f o) t r → Asked embed o t r)
    {p : SystemCalls.Command W α} {r : Except Stop α} (h : Run (p.translate f) t r) :
    (∃ u, Run p u r ∧ t = u.map embed) ∨ ∃ u text v r' closed, Run p
    (u ++ ⟨.host (.eprintln text), ()⟩ :: v) r' ∧
      t = u.map embed ++ [⟨.eprintln text, .error closed⟩] ∧
        r = .error (.panic s!"failed printing to stderr: {closed}") := by
  have hone : ∀ o u x, Run (f o) u (.ok x) → u = [embed ⟨o, x⟩] := by
    intro o u x hu
    rcases hf o u _ hu with ⟨_, rfl, ⟨⟩⟩ | ⟨_, _, _, _, ⟨⟩⟩
    rfl
  cases run_translate_interrupted h with
  | whole hrun hreal => exact .inl ⟨_, hrun, realizes_map hone hreal⟩
  | cut hreach hreal hw =>
      rcases hf _ _ _ hw with ⟨_, _, ⟨⟩⟩ | ⟨text, closed, rfl, rfl, ⟨⟩⟩
      have hanswers : ∀ o : SystemOp W.Op, Nonempty (SystemOp.Answer W.Answer o) := by
        rintro (⟨conn, w⟩ | o)
        · exact hne w
        · cases o <;> exact ⟨default⟩
      obtain ⟨v, r', hrun⟩ := hreach.run hanswers ()
      exact .inr ⟨_, text, v, r', closed, hrun, by rw [realizes_map hone hreal], rfl⟩

end Embedded

theorem messageAnswer_nonempty {M : Type} (w : MessageOp M) : Nonempty w.Answer := by
  cases w with
  | recv => exact ⟨.error default⟩
  | send m => exact ⟨.ok ()⟩

theorem asked_ofPairing {o : SystemOp (MessageOp OuterMessage)}
    {r : Except Stop (SystemOp.Answer MessageOp.Answer o)}
    (h : Run (ofPairing o) t r) : Asked embedPairing o t r := by
  cases o with
  | wire conn w => exact .inl (run_request h)
  | host o =>
      rcases run_onHost h with hdone | ⟨text, closed, rfl, ht, hr⟩
      · exact .inl hdone
      · exact .inr ⟨text, closed, rfl, ht, hr⟩

theorem asked_ofSession {o : SystemOp (MessageOp RemoteMessage)}
    {r : Except Stop (SystemOp.Answer MessageOp.Answer o)}
    (h : Run (ofSession o) t r) : Asked embedSession o t r := by
  cases o with
  | wire conn w => exact .inl (run_request h)
  | host o =>
      rcases run_onHost h with hdone | ⟨text, closed, rfl, ht, hr⟩
      · exact .inl hdone
      · exact .inr ⟨text, closed, rfl, ht, hr⟩

/-- How the process works on a command. -/
inductive Worked (lib : Library) (fuel : Nat) (command : Command) :
    Trace Surroundings → Except Stop Result → Prop
  | pair {u : Trace (System PairingWire)} {q : Except Stop PairOutput}
      (htask : task command = .pair)
      (h : Run (pair lib fuel (target command).ip (target command).port) u q) :
      Worked lib fuel command (u.map embedPairing) (q.map .pair)
  | unprompted {u v : Trace (System PairingWire)} {q : Except Stop PairOutput} {text : String}
      (closed : IoError)
      (htask : task command = .pair)
      (h : Run (pair lib fuel (target command).ip (target command).port)
        (u ++ ⟨.host (.eprintln text), ()⟩ :: v) q) :
      Worked lib fuel command (u.map embedPairing ++ [⟨.eprintln text, .error closed⟩])
        (.error (.panic s!"failed printing to stderr: {closed}"))
  | session {session : SessionCommand} {u : Trace (System SessionWire)}
      {q : Except Stop SessionOutput}
      (htask : task command = .session session)
      (h : Run (session.run fuel (target command).ip (target command).port) u q) :
      Worked lib fuel command (u.map embedSession) (q.map .session)
  | discover {timeout : UInt64} {u : Trace Browsing} {q : Except Stop DiscoverOutput}
      (htask : task command = .discover timeout)
      (h : Run (discover fuel timeout) u q) : Worked lib fuel command (u.map embedBrowsing)
        (q.map .discover)

theorem run_map {α β : Type} {p : Process α} {g : α → β} {r : Except Stop β}
    (h : Run (p >>= fun a => (pure (g a) : Process β)) t r) : ∃ q, Run p t q ∧ r = q.map g := by
  rcases run_bind.mp h with ⟨a, u, v, rfl, hp, hv⟩ | ⟨stop, hp, rfl⟩
  · obtain ⟨rfl, rfl⟩ := run_ret.mp hv
    exact ⟨.ok a, by rwa [List.append_nil], rfl⟩
  · exact ⟨.error stop, hp, rfl⟩

theorem run_work {r : Except Stop Result} (h : Run (work lib fuel command) t r) :
    Worked lib fuel command t r := by
  unfold work at h
  dsimp only at h
  split at h
  next htask =>
    obtain ⟨q, hq, rfl⟩ := run_map h
    rcases @run_embedded _ _ _ embedPairing _ messageAnswer_nonempty
      (fun _ _ _ => asked_ofPairing) _ _ hq with ⟨u, hu, rfl⟩ | ⟨u, text, v, r',
      closed, hu, rfl, rfl⟩
    · exact .pair htask hu
    · exact .unprompted closed htask hu
  next session htask =>
    obtain ⟨q, hq, rfl⟩ := run_map h
    rcases @run_embedded _ _ _ embedSession _ messageAnswer_nonempty
      (fun _ _ _ => asked_ofSession) _ _ hq with ⟨u, hu, rfl⟩ | ⟨u, text, v, r',
      closed, hu, rfl, rfl⟩
    · exact .session htask hu
    · have hwithin := (session_within (target command) session fuel).ensures _ _ hu
      obtain ⟨⟨⟩, _⟩ :=
        hwithin ⟨.host (.eprintln text), ()⟩ (List.mem_append_right _ List.mem_cons_self)
  next timeout htask =>
    obtain ⟨q, hq, rfl⟩ := run_map h
    have hone : ∀ (o : BrowseOp) (v : Trace Surroundings) (r : Except Stop o.Answer),
        Run (ofBrowsing o) v r →
        ∃ x, v = [embedBrowsing ⟨o, x⟩] ∧ r = .ok x := fun o v r hv => run_request hv
    obtain ⟨u, hu, hreal⟩ :=
      run_translate (fun o v e hv => by obtain ⟨_, _, ⟨⟩⟩ := hone o v _ hv) hq
    rw [@realizes_map _ _ _ _ embedBrowsing
      (fun o v x hv => by obtain ⟨_, rfl, ⟨⟩⟩ := hone o v _ hv; rfl) _ _ hreal]
    exact .discover htask hu

/-- A line or a flush. -/
def Printed : Event Surroundings → Prop
  | ⟨.writeln _, _⟩ | ⟨.flush, _⟩ | ⟨.eprintln _, _⟩ => True
  | _ => False

/-- What a process has done at some moment, at which it may be killed. -/
inductive Begun (lib : Library) (fuel : Nat) (command : Command) : Trace Surroundings → Prop
  | pair {u v : Trace (System PairingWire)} {q : Except Stop PairOutput}
      {printed : Trace Surroundings} (htask : task command = .pair)
      (h : Run (pair lib fuel (target command).ip (target command).port) (u ++ v) q)
        (hprinted : ∀ e ∈ printed, Printed e) :
      Begun lib fuel command (u.map embedPairing ++ printed)
  | session {session : SessionCommand} {u v : Trace (System SessionWire)}
      {q : Except Stop SessionOutput}
      {printed : Trace Surroundings} (htask : task command = .session session)
      (h : Run (session.run fuel (target command).ip (target command).port) (u ++ v) q)
        (hprinted : ∀ e ∈ printed, Printed e) :
      Begun lib fuel command (u.map embedSession ++ printed)
  | discover {timeout : UInt64} {u v : Trace Browsing} {q : Except Stop DiscoverOutput}
      {printed : Trace Surroundings}
      (htask : task command = .discover timeout) (h : Run (discover fuel timeout) (u ++ v) q)
      (hprinted : ∀ e ∈ printed, Printed e) :
        Begun lib fuel command (u.map embedBrowsing ++ printed)

theorem prefix_of_map {W : Signature} {embed : Event W → Event Surroundings} {u : Trace W}
    {v cut : Trace Surroundings}
    (h : t ++ cut = u.map embed ++ v) (hv : ∀ e ∈ v, Printed e) :
    ∃ u₁ u₂ printed, u = u₁ ++ u₂ ∧ t = u₁.map embed ++ printed ∧ ∀ e ∈ printed, Printed e := by
  rcases List.append_eq_append_iff.mp h with ⟨rest, hu, _⟩ | ⟨printed, rfl, rfl⟩
  · obtain ⟨u₁, u₂, rfl, rfl, _⟩ := List.map_eq_append_iff.mp hu
    exact ⟨u₁, u₂, [], rfl, (List.append_nil _).symm, List.forall_mem_nil _⟩
  · exact ⟨u, [], printed, (List.append_nil u).symm, rfl, fun e he => hv e
      (List.mem_append_left _ he)⟩

theorem printed_of_ending {q : Except Stop Result} {v : Trace Surroundings} {r : Except Stop Nat}
    (h : Ending json q v r) :
    ∀ e ∈ v, Printed e := by
  cases h with
  | printed out written flushed =>
      exact List.forall_mem_cons.mpr ⟨trivial, List.forall_mem_singleton.mpr trivial⟩
  | reported e | unreported e closed => exact List.forall_mem_singleton.mpr trivial
  | panicked text | unfinished => exact List.forall_mem_nil _

theorem run_begun {cut : Trace Surroundings} {r : Except Stop Nat}
    (h : Run (main lib json fuel command) (t ++ cut) r) :
    Begun lib fuel command t := by
  obtain ⟨u, v, q, heq, hu, hending⟩ := run_main h
  have hv := printed_of_ending hending
  cases run_work hu with
  | pair htask hrun =>
      obtain ⟨u₁, u₂, printed, rfl, rfl, hprinted⟩ := prefix_of_map heq hv
      exact .pair htask hrun hprinted
  | unprompted closed htask hrun =>
      rw [List.append_assoc] at heq
      obtain ⟨u₁, u₂, printed, rfl, rfl, hprinted⟩ :=
        prefix_of_map heq (List.forall_mem_cons.mpr ⟨trivial, hv⟩)
      rw [List.append_assoc] at hrun
      exact .pair htask hrun hprinted
  | session htask hrun =>
      obtain ⟨u₁, u₂, printed, rfl, rfl, hprinted⟩ := prefix_of_map heq hv
      exact .session htask hrun hprinted
  | discover htask hrun =>
      obtain ⟨u₁, u₂, printed, rfl, rfl, hprinted⟩ := prefix_of_map heq hv
      exact .discover htask hrun hprinted

/-- A process against a script. No television announces itself, and every line
that is printed gets through. -/
def scripted : (o : ProcessOp) → Script RemoteMessage → o.Answer × Script RemoteMessage
  | .system (.wire conn (.session w)), s => Script.answer (.wire conn w) s
  | .system (.wire _ (.pairing .recv)), s => (.error endOfStream, s)
  | .system (.wire _ (.pairing (.send _))), s => (.ok (), s)
  | .system (.host o), s => s.hostAnswer o
  | .browsing .serviceDaemon, s | .browsing (.browse _), s => (.ok (), s)
  | .browsing .now, s => (default, s)
  | .browsing (.recvTimeout _), s => (.error .timeout, s)
  | .browsing .shutdown, s => ((), s)
  | .browsing .timestamp, s => ("", s)
  | .writeln _, s | .flush, s | .eprintln _, s => (.ok (), s)

abbrev boot {α : Type} (s : Script RemoteMessage) (p : Process α) :
    Trace Surroundings × Except Stop α × Script RemoteMessage :=
  p.exec (S := Surroundings) scripted s

theorem run_boot {α : Type} (s : Script RemoteMessage) (p : Process α) :
    Run p (boot s p).1 (boot s p).2.1 := run_exec _ p s

end AtvRemote.ProcessRuns
