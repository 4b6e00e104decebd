import AtvRemote.Blame
import AtvRemote.DiscoveryRules
import AtvRemote.ProcessRuns

namespace AtvRemote.ExitCodes

open Programs Contracts Scripts Errors Messages SystemCalls Session Pairing PairingSecrets Discovery
  DiscoveryRules JsonTexts Output
  PingAnswers Footprints Blame Main ProcessRuns
open Serialize

/-- The lines handed to standard output, whether their write succeeds or not. -/
def offered (t : Trace Surroundings) : List String :=
  t.filterMap fun e => match e with
    | ⟨.writeln text, _⟩ => some text
    | _ => none

def stdout (t : Trace Surroundings) : List String :=
  t.filterMap fun e => match e with
    | ⟨.writeln text, .ok _⟩ => some text
    | _ => none

def stderr (t : Trace Surroundings) : List String :=
  t.filterMap fun e => match e with
    | ⟨.eprintln text, .ok _⟩ => some text
    | _ => none

/-- Standard output has taken every line that it was handed. -/
def Written (t : Trace Surroundings) : Prop := stdout t = offered t

/-- The line is all that standard output was handed, and it is there unless its
write has failed. -/
def Emitted (t : Trace Surroundings) (line : String) : Prop :=
  offered t = [line] ∧ (stdout t = [line] ∨ ∃ e, ⟨.writeln line, .error e⟩ ∈ t)

def prompt : String := "Enter the 6-digit code shown on the TV:"

def errorKinds (command : Command) : List ErrorKind :=
  match task command with
  | .pair => pairKinds
  | .session _ => sessionKinds
  | .discover _ => [.protocolError]

/-- The deadline of a browse cannot be told. -/
def Overflows (command : Command) (t : Trace Surroundings) : Prop :=
  ∃ timeout start, task command = .discover timeout ∧ ⟨.browsing .now, start⟩ ∈ t ∧
    Clocks.Instant.checkedAdd start (.fromSecs timeout) = none

variable {lib : Library} {json : SerdeJson} {fuel : Nat} {command : Command}
  {t u : Trace Surroundings}

theorem offered_append : offered (t ++ u) = offered t ++ offered u := List.filterMap_append

theorem stdout_append : stdout (t ++ u) = stdout t ++ stdout u := List.filterMap_append

theorem stderr_append : stderr (t ++ u) = stderr t ++ stderr u := List.filterMap_append

theorem stdout_of_offered (h : offered t = []) : stdout t = [] := by
  refine List.filterMap_eq_nil_iff.mpr fun e he => ?_
  have hnone := List.filterMap_eq_nil_iff.mp h e he
  obtain ⟨o, x⟩ := e
  cases o with
  | writeln text => cases hnone
  | _ => rfl

theorem offered_embedHost (o : HostOp) (x : o.Answer) : offered [embedHost o x] = [] := by
  cases o <;> rfl

theorem offered_map {W : Signature} {embed : Event W → Event Surroundings}
    (h : ∀ e, offered [embed e] = []) (v : Trace W) :
    offered (v.map embed) = [] := by
  induction v with
  | nil => rfl
  | cons e v ih =>
      rw [List.map_cons, ← List.singleton_append, offered_append, h, ih, List.append_nil]

theorem stderr_map {W : Signature} {embed : Event W → Event Surroundings} {A : Event W → Prop}
    {P : String → Prop} {v : Trace W}
    (h : ∀ e, A e → ∀ text ∈ stderr [embed e], P text) (hv : ∀ e ∈ v, A e) :
    ∀ text ∈ stderr (v.map embed), P text := by
  induction v with
  | nil => exact List.forall_mem_nil _
  | cons e v ih =>
      obtain ⟨he, hv⟩ := List.forall_mem_cons.mp hv
      rw [List.map_cons, ← List.singleton_append, stderr_append]
      exact List.forall_mem_append.mpr ⟨h e he, ih hv⟩

theorem offered_embedPairing (e : Event (System PairingWire)) : offered [embedPairing e] = [] := by
  obtain ⟨conn | o, x⟩ := e
  · rfl
  · exact offered_embedHost o x

theorem offered_embedSession (e : Event (System SessionWire)) : offered [embedSession e] = [] := by
  obtain ⟨conn | o, x⟩ := e
  · rfl
  · exact offered_embedHost o x

theorem stderr_embedHost {M : Type} {fp : Footprint M} {o : HostOp} {x : o.Answer}
    (h : Within fp ⟨.host o, x⟩) :
    ∀ text ∈ stderr [embedHost o x], fp.pairs = true ∧ text = prompt := by
  cases o with
  | eprintln text =>
      intro text' hmem
      obtain rfl : text' = text := List.mem_singleton.mp hmem
      exact h
  | _ => exact fun _ hmem => absurd hmem List.not_mem_nil

theorem stderr_embedPairing {fp : Footprint OuterMessage} {e : Event (System PairingWire)}
    (h : Within fp e) :
    ∀ text ∈ stderr [embedPairing e], fp.pairs = true ∧ text = prompt := by
  obtain ⟨conn | o, x⟩ := e
  · exact List.forall_mem_nil _
  · exact stderr_embedHost h

theorem stderr_embedSession {fp : Footprint RemoteMessage} {e : Event (System SessionWire)}
    (h : Within fp e) :
    ∀ text ∈ stderr [embedSession e], fp.pairs = true ∧ text = prompt := by
  obtain ⟨conn | o, x⟩ := e
  · exact List.forall_mem_nil _
  · exact stderr_embedHost h

/-- What a command has said on the streams before it ends: nothing, but for
the prompts of `pair`. -/
structure Quiet (command : Command) (t : Trace Surroundings) : Prop where
  offered : offered t = []
  stderr : ∀ text ∈ stderr t, task command = .pair ∧ text = prompt

theorem quiet_pairing {v : Trace (System PairingWire)} (htask : task command = .pair)
    (hv : ∀ e ∈ v, Within (pairFootprint (target command)) e) :
    Quiet command (v.map embedPairing) where
  offered := offered_map offered_embedPairing v
  stderr := stderr_map (fun _ he text htext => ⟨htask, (stderr_embedPairing he text htext).2⟩) hv

theorem quiet_of_worked {r : Except Stop Result} (h : Worked lib fuel command t r) :
    Quiet command t := by
  cases h with
  | pair htask hrun =>
      exact quiet_pairing htask ((pair_within (target command) fuel).ensures _ _ hrun)
  | unprompted closed htask hrun =>
      have hwithin := (pair_within (target command) fuel).ensures _ _ hrun
      have hquiet := quiet_pairing htask (fun e he => hwithin e (List.mem_append_left _ he))
      refine ⟨?_, ?_⟩
      · rw [offered_append, hquiet.offered]
        rfl
      · rw [stderr_append]
        exact List.forall_mem_append.mpr ⟨hquiet.stderr, List.forall_mem_nil _⟩
  | @session session v q htask hrun =>
      have hwithin := (session_within (target command) session fuel).ensures _ _ hrun
      refine ⟨offered_map offered_embedSession v, stderr_map (fun e he text htext => ?_) hwithin⟩
      obtain ⟨⟨⟩, _⟩ := stderr_embedSession he text htext
  | @discover timeout v q htask hrun =>
      exact ⟨offered_map (fun _ => rfl) v, stderr_map (A := fun _ => True)
        (fun _ _ => List.forall_mem_nil _) fun _ _ => trivial⟩

theorem discover_kind {secs : UInt64} {v : Trace Browsing} {e : AtvError}
    (h : Run (discover fuel secs) v (.error (.error e))) :
    e.kind = .protocolError := by
  rw [discover, run_ask_bind] at h
  obtain ⟨daemon, v, rfl, h⟩ := h
  cases daemon with
  | error text =>
      cases (run_fail.mp h).2
      rfl
  | ok =>
      dsimp only at h
      rw [run_ask_bind] at h
      obtain ⟨browse, v, rfl, h⟩ := h
      cases browse with
      | error text =>
          cases (run_fail.mp h).2
          rfl
      | ok =>
          dsimp only at h
          rw [run_ask_bind] at h
          obtain ⟨start, v, rfl, h⟩ := h
          cases hdeadline : start.checkedAdd (.fromSecs secs) with
          | none =>
              rw [hdeadline] at h
              cases (run_fail.mp h).2
          | some deadline =>
              rw [hdeadline] at h
              rcases run_bind.mp h with ⟨devices, v, w, rfl, _, hend⟩ | ⟨stop, hloop, ⟨⟩⟩
              · rw [run_ask_bind] at hend
                obtain ⟨_, _, rfl, hend⟩ := hend
                rw [run_ask_bind] at hend
                obtain ⟨_, _, rfl, hend⟩ := hend
                cases (run_pure.mp hend).2
              · cases browseLoop_unfinished hloop

theorem discover_panics {timeout : UInt64} {v : Trace Browsing} {text : String}
    (htask : task command = .discover timeout)
    (h : Run (discover fuel timeout) v (.error (.panic text))) :
    Overflows command (v.map embedBrowsing) := by
  generalize hr : (.error (.panic text) : Except Stop DiscoverOutput) = r at h
  cases discover_discovers h with
  | failed => cases hr
  | @overflowed start _ hoverflow =>
      refine ⟨timeout, start, htask, ?_, hoverflow⟩
      exact List.mem_map.mpr ⟨⟨.now, start⟩, List.mem_of_getElem? (i := 2) rfl, rfl⟩
  | finished => cases hr
  | stopped _ hloop =>
      cases hr
      cases browseLoop_unfinished hloop

/-- How a command stops: with an error of one of its kinds, or by a panic
because a prompt could not be shown or the deadline cannot be told. -/
def Stops (command : Command) (t : Trace Surroundings) : Stop → Prop
  | .error e => e.kind ∈ errorKinds command
  | .panic _ => (∃ text closed, ⟨.eprintln text, .error closed⟩ ∈ t) ∨ Overflows command t
  | .unfinished => True

theorem stops_of_worked {stop : Stop} (h : Worked lib fuel command t (.error stop)) :
    Stops command t stop := by
  generalize hr : (.error stop : Except Stop Result) = r at h
  cases h with
  | @pair v q htask hrun =>
      cases q with
      | ok out => cases hr
      | error stop' =>
          cases hr
          have hblamed := (pair_answers fuel).fails v _ hrun
          cases stop with
          | error e =>
              rw [Stops, errorKinds, htask]
              exact hblamed
          | panic text => exact hblamed.elim
          | unfinished => trivial
  | unprompted closed htask hrun =>
      cases hr
      exact .inl ⟨_, closed, List.mem_append_right _ List.mem_cons_self⟩
  | @session session v q htask hrun =>
      cases q with
      | ok out => cases hr
      | error stop' =>
          cases hr
          have hblamed := (session_answers session fuel).fails v _ hrun
          cases stop with
          | error e =>
              rw [Stops, errorKinds, htask]
              exact hblamed
          | panic text => exact hblamed.elim
          | unfinished => trivial
  | @discover timeout v q htask hrun =>
      cases q with
      | ok out => cases hr
      | error stop' =>
          cases hr
          cases stop with
          | error e =>
              rw [Stops, errorKinds, htask]
              exact List.mem_singleton.mpr (discover_kind hrun)
          | panic text => exact .inr (discover_panics htask hrun)
          | unfinished => trivial

/-- What the exit code and the streams say together. A success hands one line to
standard output, a failure is told by the last line on standard error, and a
panic has one of two causes. -/
structure Contract (json : SerdeJson) (command : Command) (t : Trace Surroundings)
    (r : Except Stop Nat) : Prop where
  success : r = .ok 0 → (∃ out : Result, Emitted t (json.toString (serialize out))) ∧
    ∀ text ∈ stderr t, task command = .pair ∧ text = prompt
  failure : ∀ code, r = .ok code → code ≠ 0 → offered t = [] ∧ ∃ asked e, stderr t =
    asked ++ [toJson json e] ∧
    (∀ text ∈ asked, task command = .pair ∧ text = prompt) ∧ e.exitCode = code ∧
      code ∈ [1, 3, 4, 5] ∧ e.kind ∈ errorKinds command
  panics : ∀ text, r = .error (.panic text) → offered t = [] ∧
    ((∃ line closed, ⟨.eprintln line, .error closed⟩ ∈ t) ∨ Overflows command t)
  caught : ∀ e, r ≠ .error (.error e)

theorem exitCode_mem (e : AtvError) : e.exitCode ∈ [1, 3, 4, 5] := by
  unfold AtvError.exitCode
  cases e.kind <;> decide

theorem exitCode_ne_zero (e : AtvError) : e.exitCode ≠ 0 := by
  intro hzero
  have hmem := exitCode_mem e
  simp [hzero] at hmem

theorem offered_quiet (h : Quiet command t) : offered (t ++ u) = offered u := by
  rw [offered_append, h.offered, List.nil_append]

theorem stdout_quiet (h : Quiet command t) : stdout (t ++ u) = stdout u := by
  rw [stdout_append, stdout_of_offered h.offered, List.nil_append]

theorem emitted_quiet (h : Quiet command t) (line : String)
    (written flushed : Except IoError Unit) :
    Emitted (t ++ [⟨.writeln line, written⟩, ⟨.flush, flushed⟩]) line := by
  refine ⟨offered_quiet h, ?_⟩
  cases written with
  | ok => exact .inl (stdout_quiet h)
  | error e => exact .inr ⟨e, List.mem_append_right _ List.mem_cons_self⟩

theorem exit_contract {r : Except Stop Nat} (h : Run (main lib json fuel command) t r) :
    Contract json command t r := by
  obtain ⟨u, v, q, rfl, hu, hending⟩ := run_main h
  have hworked := run_work hu
  have hquiet := quiet_of_worked hworked
  cases hending with
  | printed out written flushed =>
      constructor
      case success =>
        intro _
        refine ⟨⟨out, emitted_quiet hquiet _ written flushed⟩, ?_⟩
        rw [stderr_append]
        exact List.forall_mem_append.mpr ⟨hquiet.stderr, List.forall_mem_nil _⟩
      case failure =>
        intro code hcode hne
        exact absurd (Except.ok.inj hcode).symm hne
      all_goals intro _ hr; cases hr
  | reported e =>
      constructor
      case success =>
        intro hcode
        exact absurd (Except.ok.inj hcode) (exitCode_ne_zero e)
      case failure =>
        intro code hcode _
        cases hcode
        refine ⟨offered_quiet hquiet, stderr u, e, stderr_append, hquiet.stderr, rfl,
          exitCode_mem e, ?_⟩
        exact stops_of_worked hworked
      all_goals intro _ hr; cases hr
  | unreported e closed =>
      constructor
      case panics =>
        intro text _
        exact ⟨offered_quiet hquiet, .inl ⟨_, closed, List.mem_append_right _ List.mem_cons_self⟩⟩
      case success => intro hr; cases hr
      all_goals intro _ hr; cases hr
  | panicked text =>
      constructor
      case panics =>
        intro text' hr
        cases hr
        rw [List.append_nil]
        exact ⟨hquiet.offered, stops_of_worked hworked⟩
      case success => intro hr; cases hr
      all_goals intro _ hr; cases hr
  | unfinished =>
      constructor
      case success => intro hr; cases hr
      all_goals intro _ hr; cases hr

/-- The television is on already, so that nothing needs to be pressed. -/
theorem exit_contract_on :
    let played := boot { connects := [.ok 4], inbox := [started true] }
      (main paddedKeys compact 5 (.on ⟨⟨livingRoom, none⟩, none⟩))
    played.2.1 = .ok 0 ∧ Contract compact (.on ⟨⟨livingRoom, none⟩, none⟩) played.1 played.2.1 :=
  ⟨rfl, exit_contract (run_boot _ _)⟩

end AtvRemote.ExitCodes
