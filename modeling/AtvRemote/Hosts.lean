import AtvRemote.AddressParsing
import AtvRemote.Callers
import AtvRemote.Confinement
import AtvRemote.DiscoveredDevices

namespace AtvRemote.Hosts

open Programs Contracts CommandRules Scripts Blame Errors Messages SystemCalls Handshake Session
  Pairing PairingSecrets Discovery DiscoveredDevices Wake
  JsonTexts Output PingAnswers AddressParsing Main ProcessRuns ExitCodes Callers Confinement
open Serialize

section Outputs

variable {S : Signature} {ε α β : Type}

/-- Whatever the program returns is of this kind. -/
abbrev Returns (p : Program S ε α) (A : α → Prop) : Prop := Yields p A fun _ => True

theorem returns_bind {p : Program S ε α} {f : α → Program S ε β} {B : β → Prop}
    (hf : ∀ a, Returns (f a) B) : Returns (p >>= f) B := by
  have hp : Returns p fun _ => True := fun t r _ => by cases r <;> trivial
  exact hp.bind fun a _ => hf a

theorem Returns.run {p : Program S ε α} {A : α → Prop} (h : Returns p A) {t : Trace S} {a : α}
    (hrun : Run p t (.ok a)) : A a :=
  h t (.ok a) hrun

end Outputs

section Commands

variable {host : IpAddr} {port : UInt16} {fuel : Nat}

theorem status_host : Returns (status fuel host port) fun out => out.host = host.text :=
  returns_bind fun _ => returns_bind fun _ => yields_pure.mpr rfl

theorem sendKeys_host (keys : List Int32) :
    Returns (sendKeys fuel host port keys) fun out => out.host = host.text :=
  returns_bind fun _ => returns_bind fun _ => returns_bind fun _ => returns_bind fun _ =>
    returns_bind fun _ => yields_pure.mpr rfl

theorem sendAppLink_host (appLink : String) :
    Returns (sendAppLink fuel host port appLink) fun out => out.host = host.text :=
  returns_bind fun _ => returns_bind fun _ => returns_bind fun _ => returns_bind fun _ =>
    returns_bind fun _ => returns_bind fun _ => yields_pure.mpr rfl

theorem setPower_host (wantOn : Bool) :
    Returns (setPower fuel host port wantOn) fun out => out.host = host.text :=
  returns_bind fun _ => returns_bind fun _ => returns_bind fun _ => yields_pure.mpr rfl

theorem setPowerWithWake_host (wantOn : Bool) (mac : Option Mac) :
    Returns (setPowerWithWake fuel host port wantOn mac) fun out => out.host = host.text := by
  have hfirst : Returns (resultOf (setPower fuel host port wantOn)) fun first => ∀ out, first =
      .ok out → out.host = host.text := by
    intro t r hrun
    cases r with
    | error stop => trivial
    | ok first =>
        rintro out rfl
        obtain ⟨q, hq, hcaught⟩ := run_resultOf.mp hrun
        rcases q with (e | text | _) | out'
        · cases hcaught
        · cases hcaught
        · cases hcaught
        · cases hcaught
          exact (setPower_host wantOn).run hq
  refine hfirst.bind ?_
  intro first hhost
  have hrest : Returns (propagate first : SystemCalls.Command SessionWire PowerOutput) fun out =>
      out.host = host.text := by
    cases first with
    | ok out => exact yields_pure.mpr (hhost out rfl)
    | error e => exact yields_fail.mpr trivial
  split
  next mac e =>
    split
    · apply returns_bind
      intro _
      apply returns_bind
      intro _
      exact (setPower_host wantOn).bind fun out hout => yields_pure.mpr hout
    · exact hrest
  next => exact hrest

theorem sendSecret_host {conn : Conn} {flow : PairingFlow} {secret : Bytes} :
    Returns (sendSecret host conn flow secret) fun out => out.host = host.text :=
  returns_bind fun _ => returns_bind fun _ => returns_bind fun _ => returns_bind fun _ =>
    returns_bind fun _ => returns_bind fun _ => yields_pure.mpr rfl

theorem pair_host {lib : Library} :
    Returns (pair lib fuel host port) fun out => out.host = host.text :=
  returns_bind fun _ => returns_bind fun _ => returns_bind fun _ => returns_bind fun _ =>
    returns_bind fun _ => sendSecret_host

def sessionHost : SessionOutput → String
  | .status out => out.host
  | .power out => out.host
  | .keys out => out.host
  | .launch out => out.host

theorem session_host (command : SessionCommand) :
    Returns (command.run fuel host port) fun out => sessionHost out = host.text := by
  cases command with
  | status => exact status_host.bind fun out hout => yields_pure.mpr hout
  | on mac => exact (setPowerWithWake_host true mac).bind fun out hout => yields_pure.mpr hout
  | off => exact (setPower_host false).bind fun out hout => yields_pure.mpr hout
  | key keys => exact (sendKeys_host keys).bind fun out hout => yields_pure.mpr hout
  | launch appLink => exact (sendAppLink_host appLink).bind fun out hout => yields_pure.mpr hout

end Commands

/-- The hosts in an output, with the ports beside them. -/
def entries : Result → List (String × Option UInt16)
  | .pair out => [(out.host, none)]
  | .session out => [(sessionHost out, none)]
  | .discover out => out.devices.map fun d => (d.host, some d.port)

def announcedOf : Event Surroundings → Option ServiceInfo
  | ⟨.browsing o, x⟩ => resolvedOf ⟨o, x⟩
  | _ => none

/-- The services that a process has been told of. -/
def announced (t : Trace Surroundings) : List ServiceInfo := t.filterMap announcedOf

/-- What an entry in the output of a command stands for: the address that the
command was given, or an endpoint that a service announced. -/
def Denotes (command : Command) (t : Trace Surroundings) (addr : IpAddr) : Option UInt16 → Prop
  | none => ∃ args, command.args = some args ∧ args.host = addr
  | some port => ∃ info ∈ announced t, Selects info addr port

variable {lib : Library} {json : SerdeJson} {fuel : Nat} {command : Command}
  {t : Trace Surroundings}

theorem target_text (htask : ∀ timeout, task command ≠ .discover timeout) {host : String}
    (hhost : host = (target command).ip.text) :
    ∃ addr, fromStr host = some addr ∧ Denotes command t addr none := by
  obtain ⟨args, hargs, htarget⟩ := target_eq htask
  rw [hhost, htarget]
  exact ⟨args.host, fromStr_text args.host, args, hargs, rfl⟩

theorem entries_denote {out : Result} (h : Worked lib fuel command t (.ok out)) :
    ∀ entry ∈ entries out, ∃ addr, fromStr entry.1 = some addr ∧
      Denotes command t addr entry.2 := by
  generalize hr : (.ok out : Except Stop Result) = r at h
  cases h with
  | pair htask hrun =>
      obtain ⟨out, rfl, rfl⟩ := ok_of_map hr
      exact List.forall_mem_singleton.mpr (target_text (by simp [htask]) (pair_host.run hrun))
  | unprompted => cases hr
  | session htask hrun =>
      obtain ⟨out, rfl, rfl⟩ := ok_of_map hr
      exact List.forall_mem_singleton.mpr
        (target_text (by simp [htask]) ((session_host _).run hrun))
  | @discover _ u _ htask hrun =>
      obtain ⟨out, rfl, rfl⟩ := ok_of_map hr
      refine List.forall_mem_map.mpr fun d hd => ?_
      obtain ⟨addr, info, hselects, hhost, _⟩ := (mem_devices hrun).mp hd
      obtain ⟨hinfo, hselects⟩ := hselects.mem
      have hannounced : announced (u.map embedBrowsing) = resolved u := by
        rw [announced, List.filterMap_map, resolved]
        rfl
      refine ⟨addr, ?_, info, ?_, hselects⟩
      · dsimp only
        rw [hhost]
        exact fromStr_text addr
      · rw [hannounced]
        exact hinfo

theorem Denotes.mono {u v : Trace Surroundings} {addr : IpAddr} {port : Option UInt16}
    (h : Denotes command u addr port) :
    Denotes command (u ++ v) addr port := by
  cases port with
  | none => exact h
  | some port =>
      obtain ⟨info, hinfo, hselects⟩ := h
      refine ⟨info, ?_, hselects⟩
      rw [announced, List.filterMap_append]
      exact List.mem_append_left _ hinfo

/-- The caller hears an output of the command, and its hosts. -/
theorem heard_entries (h : Run (main lib json fuel command) t (.ok 0)) (hwritten : Written t) :
    ∃ out,
    hear json command 0 (typed (stdout t)) (typed (stderr t)) = some (.ok out) ∧
      (∀ entry ∈ entries out, ∃ addr, fromStr entry.1 = some addr ∧
        Denotes command t addr entry.2) ∧
      (∀ timeout, task command = .discover timeout → ∃ found, out = .discover found) := by
  obtain ⟨u, v, q, rfl, hu, hending⟩ := run_main h
  have hworked := run_work hu
  generalize hr : (.ok 0 : Except Stop Nat) = r at hending
  cases hending with
  | printed out written flushed =>
      refine ⟨out, ?_, ?_, ?_⟩
      · rw [stdout_written (quiet_of_worked hworked) hwritten]
        exact hear_printed (readResult_serialize hworked)
      · intro entry hentry
        obtain ⟨addr, haddr, hdenotes⟩ := entries_denote hworked entry hentry
        exact ⟨addr, haddr, hdenotes.mono⟩
      · intro timeout htask
        have hread := readResult_serialize hworked
        rw [readResult, htask] at hread
        obtain ⟨found, _, hfound⟩ := Option.map_eq_some_iff.mp hread
        exact ⟨found, hfound.symm⟩
  | reported e => exact absurd (Except.ok.inj hr).symm (exitCode_ne_zero e)
  | _ => cases hr

/-- Each host that a command prints can be given to a command again, and means
the address that the first one was given or was told of. -/
theorem hosts_reread (h : Run (main lib json fuel command) t (.ok 0)) (hwritten : Written t) :
    ∃ out,
    hear json command 0 (typed (stdout t)) (typed (stderr t)) = some (.ok out) ∧
      ∀ entry ∈ entries out, ∃ addr, fromStr entry.1 = some addr ∧
        Denotes command t addr entry.2 := by
  obtain ⟨out, hheard, hentries, _⟩ := heard_entries h hwritten
  exact ⟨out, hheard, hentries⟩

theorem hosts_reread_status :
    let played :=
      boot { connects := [.ok 4], inbox := [started true] }
        (main paddedKeys compact 5 (.status ⟨livingRoom, none⟩))
    played.2.1 = .ok 0 ∧ ∃ out,
      hear compact (.status ⟨livingRoom, none⟩) 0 (typed (stdout played.1))
        (typed (stderr played.1)) = some (.ok out) ∧
        ∀ entry ∈ entries out, ∃ addr, fromStr entry.1 = some addr ∧
          Denotes (.status ⟨livingRoom, none⟩) played.1 addr entry.2 :=
  ⟨rfl, hosts_reread (run_boot _ _) rfl⟩

theorem connects_target {r : Except Stop Nat} {a : SocketAddr} {timeout : Duration}
    {x : Except IoError TcpStream}
    (h : Run (main lib json fuel command) t r)
    (hmem : ⟨.system (.host (.connectTimeout a timeout)), x⟩ ∈ t) :
    ∃ args, command.args = some args ∧ a = ⟨args.host, command.port⟩ := by
  obtain ⟨u, v, q, rfl, hu, hending⟩ := run_main h
  rcases List.mem_append.mp hmem with hmem | hmem
  · exact @permitted_of_worked _ json _ _ _ _ (run_work hu) _ hmem
  · exact (printed_of_ending hending _ hmem).elim

/-- A listed device can be handed to the next command, which then contacts
nothing but an endpoint that was announced. -/
theorem listed_contacted {args : DiscoverArgs}
    (h : Run (main lib json fuel (.discover args)) t (.ok 0))
    (hwritten : Written t) : ∃ found,
    hear json (.discover args) 0 (typed (stdout t)) (typed (stderr t)) = some
      (.ok (.discover found)) ∧
      ∀ d ∈ found.devices, ∃ addr, fromStr d.host = some addr ∧
        ∀ (lib' : Library) (json' : SerdeJson) (fuel' : Nat) (command : Command)
          (t' : Trace Surroundings) (r : Except Stop Nat),
          command.args = some ⟨addr, some d.port⟩ → Run (main lib' json' fuel' command) t' r →
            ∀ a timeout x, ⟨.system (.host (.connectTimeout a timeout)), x⟩ ∈ t' →
              ∃ info ∈ announced t, Selects info a.ip a.port := by
  obtain ⟨out, hheard, hentries, hfound⟩ := heard_entries h hwritten
  obtain ⟨found, rfl⟩ := hfound args.timeout rfl
  refine ⟨found, hheard, fun d hd => ?_⟩
  obtain ⟨addr, haddr, hdenotes⟩ := hentries (d.host, some d.port) (List.mem_map_of_mem hd)
  refine ⟨addr, haddr, ?_⟩
  intro lib' json' fuel' command t' r hargs hrun a timeout x hmem
  obtain ⟨args', hargs', rfl⟩ := connects_target hrun hmem
  obtain rfl := Option.some.inj (hargs.symm.trans hargs')
  have hport : command.port = d.port := by simp [Command.port, hargs]
  rw [hport]
  exact hdenotes

/-- A process that browses, while these services announce themselves. -/
def amid : (o : ProcessOp) → List ServiceEvent → o.Answer × List ServiceEvent
  | .browsing o, events => DiscoveredDevices.scripted o events
  | o, events => ((ProcessRuns.scripted o {}).1, events)

theorem listed_contacted_growing :
    let played := (main paddedKeys compact 5 (.discover ⟨3⟩)).exec (S := Surroundings) amid growing
    played.2.1 = .ok 0 ∧ ∃ found,
      hear compact (.discover ⟨3⟩) 0 (typed (stdout played.1)) (typed (stderr played.1)) = some
        (.ok (.discover found)) ∧
        ∀ d ∈ found.devices, ∃ addr, fromStr d.host = some addr ∧
          ∀ (lib' : Library) (json' : SerdeJson) (fuel' : Nat) (command : Command)
            (t' : Trace Surroundings) (r : Except Stop Nat),
            command.args = some ⟨addr, some d.port⟩ → Run (main lib' json' fuel' command) t' r →
              ∀ a timeout x, ⟨.system (.host (.connectTimeout a timeout)), x⟩ ∈ t' →
                ∃ info ∈ announced played.1, Selects info a.ip a.port := by
  intro played
  have hrun : Run (main paddedKeys compact 5 (.discover ⟨3⟩)) played.1 played.2.1 := run_exec _ _ _
  have hcode : played.2.1 = .ok 0 := by rfl
  exact ⟨hcode, listed_contacted (hcode ▸ hrun) rfl⟩

end AtvRemote.Hosts
