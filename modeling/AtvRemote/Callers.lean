import AtvRemote.ExitCodes

namespace AtvRemote.Callers

open Programs Contracts Scripts Errors Messages SystemCalls Session Pairing PairingSecrets Discovery
  JsonTexts Output PingAnswers
  Footprints Blame Main ProcessRuns ExitCodes
open Serialize Deserialize

/-- What the texts make of a stream, each followed by a newline. -/
def typed (texts : List String) : List Char := texts.flatMap fun text => text.toList ++ ['\n']

/-- The lines of a stream that ends with a newline. -/
def lines (stream : List Char) : List String := (stream.splitOn '\n').dropLast.map String.ofList

/-- The object of a command is read as the output of that command. -/
def readResult (command : Command) (j : Json) : Option Result :=
  match task command with
  | .pair => (deserialize j).map .pair
  | .session .status => (deserialize j).map fun out => .session (.status out)
  | .session (.on _) | .session .off => (deserialize j).map fun out => .session (.power out)
  | .session (.key _) => (deserialize j).map fun out => .session (.keys out)
  | .session (.launch _) => (deserialize j).map fun out => .session (.launch out)
  | .discover _ => (deserialize j).map .discover

/-- What a caller makes of the exit code and the two streams. -/
def hear (json : SerdeJson) (command : Command) (code : Nat) (out err : List Char) :
    Option (Except AtvError Result) :=
  if code = 0 then
    match lines out with
    | [line] => ((json.fromStr line).bind (readResult command)).map .ok
    | _ => none
  else
    match (lines err).getLast? with
    | some line =>
        ((json.fromStr line).bind deserialize).map fun envelope => .error
          (ErrorEnvelope.error envelope)
    | none => none

theorem splitOn_typed {texts : List String} (h : ∀ text ∈ texts, '\n' ∉ text.toList) :
    (typed texts).splitOn '\n' = texts.map String.toList ++ [[]] := by
  induction texts with
  | nil => rfl
  | cons text texts ih =>
      obtain ⟨htext, htexts⟩ := List.forall_mem_cons.mp h
      have htyped : typed (text :: texts) = text.toList ++ '\n' :: typed texts := by simp [typed]
      rw [htyped, List.splitOn_append_cons_self_of_not_mem htext, ih htexts]
      rfl

theorem lines_typed {texts : List String} (h : ∀ text ∈ texts, '\n' ∉ text.toList) :
    lines (typed texts) = texts := by
  rw [lines, splitOn_typed h, List.dropLast_concat, List.map_map]
  have hid : String.ofList ∘ String.toList = id := funext fun text => String.ofList_toList
  rw [hid, List.map_id]

variable {lib : Library} {json : SerdeJson} {fuel : Nat} {command : Command}
  {t : Trace Surroundings}

theorem ok_of_map {ε α β : Type} {q : Except ε α} {f : α → β} {b : β} (h : .ok b = q.map f) :
    ∃ a, q = .ok a ∧ b = f a := by
  cases q with
  | ok a => exact ⟨a, rfl, Except.ok.inj h⟩
  | error e => cases h

theorem run_made {W : Signature} {α β : Type} {p : SystemCalls.Command W α} {f : α → β}
    {u : Trace (System W)} {b : β}
    (h : Run (p >>= fun a => (pure (f a) : SystemCalls.Command W β)) u (.ok b)) : ∃ a, b = f a := by
  rcases run_bind.mp h with ⟨a, v, w, rfl, _, hw⟩ | ⟨e, _, ⟨⟩⟩
  exact ⟨a, Except.ok.inj (run_pure.mp hw).2⟩

/-- Each command returns an output of its own form, from which its object is
made. -/
theorem readResult_serialize {out : Result} (h : Worked lib fuel command t (.ok out)) :
    readResult command (serialize out) = some out := by
  generalize hr : (.ok out : Except Stop Result) = r at h
  cases h with
  | pair htask hrun =>
      obtain ⟨a, rfl, rfl⟩ := ok_of_map hr
      rw [readResult, htask]
      exact congrArg (Option.map Result.pair) (deserialize_serialize a)
  | unprompted => cases hr
  | @session session _ _ htask hrun =>
      obtain ⟨a, rfl, rfl⟩ := ok_of_map hr
      rw [readResult, htask]
      cases session with
      | status =>
          obtain ⟨out, rfl⟩ := run_made hrun
          exact congrArg (Option.map _) (deserialize_serialize out)
      | on mac | off =>
          obtain ⟨out, rfl⟩ := run_made hrun
          exact congrArg (Option.map _) (deserialize_serialize out)
      | key keys =>
          obtain ⟨out, rfl⟩ := run_made hrun
          exact congrArg (Option.map _) (deserialize_serialize out)
      | launch appLink =>
          obtain ⟨out, rfl⟩ := run_made hrun
          exact congrArg (Option.map _) (deserialize_serialize out)
  | discover htask hrun =>
      obtain ⟨a, rfl, rfl⟩ := ok_of_map hr
      rw [readResult, htask]
      exact congrArg (Option.map Result.discover) (deserialize_serialize a)

theorem hear_printed {out : Result} {err : List Char}
    (h : readResult command (serialize out) = some out) :
    hear json command 0 (typed [json.toString (serialize out)]) err = some (.ok out) := by
  have hlines : lines (typed [json.toString (serialize out)]) = [json.toString (serialize out)] :=
    lines_typed (List.forall_mem_singleton.mpr (json.unbroken _))
  simp [hear, hlines, json.fromStr_toString, h]

theorem hear_zero {out err : List Char} {q : Except AtvError Result}
    (h : hear json command 0 out err = some q) :
    ∃ result, q = .ok result := by
  rw [hear, if_pos rfl] at h
  split at h
  · obtain ⟨result, _, rfl⟩ := Option.map_eq_some_iff.mp h
    exact ⟨result, rfl⟩
  · cases h

theorem hear_reported {e : AtvError} {asked : List String} {out : List Char}
    (hasked : ∀ text ∈ asked, text = prompt) :
    hear json command e.exitCode out (typed (asked ++ [toJson json e])) = some (.error e) := by
  have hunbroken : ∀ text ∈ asked ++ [toJson json e], '\n' ∉ text.toList := by
    refine List.forall_mem_append.mpr ⟨?_, List.forall_mem_singleton.mpr (json.unbroken _)⟩
    intro text htext
    rw [hasked text htext]
    decide
  have hread : json.fromStr (toJson json e) = some (serialize (ErrorEnvelope.mk e)) :=
    json.fromStr_toString _
  have henvelope : deserialize (serialize (ErrorEnvelope.mk e)) = some (ErrorEnvelope.mk e) :=
    deserialize_serialize _
  simp [hear, exitCode_ne_zero e, lines_typed hunbroken, hread, henvelope]

theorem stdout_written (h : Quiet command t) {line : String} {written flushed : Except IoError Unit}
    (hwritten : Written (t ++ [⟨.writeln line, written⟩, ⟨.flush, flushed⟩])) :
    stdout (t ++ [⟨.writeln line, written⟩, ⟨.flush, flushed⟩]) = [line] :=
  hwritten.trans (offered_quiet h)

/-- From the exit code and the two streams, a caller gets back the outcome of
the command, whole and without loss, if standard output took its line. -/
theorem hear_outcome {code : Nat} (h : Run (main lib json fuel command) t (.ok code))
    (hwritten : Written t) :
    ∃ u q, u <+: t ∧ Run (work lib fuel command) u (q.mapError Stop.error) ∧
      hear json command code (typed (stdout t)) (typed (stderr t)) = some q := by
  obtain ⟨u, v, q, rfl, hu, hending⟩ := run_main h
  have hworked := run_work hu
  have hquiet := quiet_of_worked hworked
  cases hending with
  | printed out written flushed =>
      refine ⟨u, .ok out, List.prefix_append _ _, hu, ?_⟩
      rw [stdout_written hquiet hwritten]
      exact hear_printed (readResult_serialize hworked)
  | reported e =>
      refine ⟨u, .error e, List.prefix_append _ _, hu, ?_⟩
      rw [stderr_append]
      exact hear_reported fun text htext => (hquiet.stderr text htext).2

theorem hear_outcome_status :
    let played :=
      boot { connects := [.ok 4], inbox := [started true] }
        (main paddedKeys compact 5 (.status ⟨livingRoom, none⟩))
    played.2.1 = .ok 0 ∧ ∃ u q, u <+: played.1 ∧
      Run (work paddedKeys 5 (.status ⟨livingRoom, none⟩)) u (q.mapError Stop.error) ∧
      hear compact (.status ⟨livingRoom, none⟩) 0 (typed (stdout played.1))
        (typed (stderr played.1)) = some q :=
  ⟨rfl, hear_outcome (run_boot _ _) rfl⟩

/-- No message has left on a connection. -/
def Unsent : Event Surroundings → Prop
  | ⟨.system (.wire _ (.pairing (.send _))), _⟩ | ⟨.system (.wire _ (.session (.send _))), _⟩ =>
      False
  | _ => True

theorem unsent_embedHost (o : HostOp) (x : o.Answer) : Unsent (embedHost o x) := by
  cases o <;> trivial

theorem unsent_embedPairing {e : Event (System PairingWire)} (h : Silent e) :
    Unsent (embedPairing e) := by
  obtain ⟨⟨conn, _ | m⟩ | o, x⟩ := e
  · trivial
  · exact h.elim
  · exact unsent_embedHost o x

theorem unsent_embedSession {e : Event (System SessionWire)} (h : Silent e) :
    Unsent (embedSession e) := by
  obtain ⟨⟨conn, _ | m⟩ | o, x⟩ := e
  · trivial
  · exact h.elim
  · exact unsent_embedHost o x

theorem unsent_of_worked {e : AtvError} (h : Worked lib fuel command t (.error (.error e)))
    (hkind : e.kind ∉ loud) :
    ∀ event ∈ t, Unsent event := by
  generalize hr : (.error (.error e) : Except Stop Result) = r at h
  cases h with
  | @pair _ q htask hrun =>
      cases q with
      | ok out => cases hr
      | error stop =>
          cases hr
          obtain ⟨_, hloud | hsilent⟩ := pair_answers fuel _ _ hrun _ rfl
          · exact absurd hloud hkind
          · exact List.forall_mem_map.mpr fun event hmem => unsent_embedPairing (hsilent event hmem)
  | unprompted => cases hr
  | @session _ _ q htask hrun =>
      cases q with
      | ok out => cases hr
      | error stop =>
          cases hr
          obtain ⟨_, hloud | hsilent⟩ := session_answers _ fuel _ _ hrun _ rfl
          · exact absurd hloud hkind
          · exact List.forall_mem_map.mpr fun event hmem => unsent_embedSession (hsilent event hmem)
  | discover htask hrun => exact List.forall_mem_map.mpr fun _ _ => trivial

theorem not_loud_of_exitCode {e : AtvError} (h : e.exitCode = 3 ∨ e.exitCode = 4) :
    e.kind ∉ loud := by
  unfold AtvError.exitCode at h
  cases hkind : e.kind with
  | protocolError | pairingFailed => simp [hkind] at h
  | _ => decide

/-- A caller that hears one of the codes 3 and 4, or of a fault of the client's
own files, knows that the television has been sent nothing. -/
theorem retry_safe {code : Nat} (h : Run (main lib json fuel command) t (.ok code))
    (hheard : code = 3 ∨ code = 4 ∨
      ∃ detail, hear json command code (typed (stdout t)) (typed (stderr t)) = some
        (.error ⟨.configIo, detail⟩)) :
    ∀ event ∈ t, Unsent event := by
  obtain ⟨u, v, q, rfl, hu, hending⟩ := run_main h
  have hworked := run_work hu
  have hquiet := quiet_of_worked hworked
  cases hending with
  | printed out written flushed =>
      rcases hheard with hcode | hcode | ⟨detail, hheard⟩
      · cases hcode
      · cases hcode
      · obtain ⟨_, ⟨⟩⟩ := hear_zero hheard
  | reported e =>
      have hkind : e.kind ∉ loud := by
        rcases hheard with hcode | hcode | ⟨detail, hheard⟩
        · exact not_loud_of_exitCode (.inl hcode)
        · exact not_loud_of_exitCode (.inr hcode)
        · rw [stderr_append] at hheard
          cases (hear_reported fun text htext => (hquiet.stderr text htext).2).symm.trans hheard
          change ErrorKind.configIo ∉ loud
          decide
      refine List.forall_mem_append.mpr ⟨unsent_of_worked hworked hkind, ?_⟩
      exact List.forall_mem_singleton.mpr trivial

/-- Nothing listens at the address. -/
theorem retry_safe_status :
    let played := boot {} (main paddedKeys compact 5 (.status ⟨livingRoom, none⟩))
    played.2.1 = .ok 3 ∧ ∀ event ∈ played.1, Unsent event :=
  ⟨rfl, retry_safe (run_boot {} (main paddedKeys compact 5 (.status ⟨livingRoom, none⟩)))
    (.inl rfl)⟩

end AtvRemote.Callers
